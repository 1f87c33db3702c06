/-
Windows of lists, and streams of chunks.

`window lo hi` is the part of a list with the positions `lo`, .., `hi - 1`; the bounds
are integers and may lie outside the list on either side. A window of a concatenation
is the concatenation of the windows (`window_append`), which is what a reader needs who
goes through blocks one by one.

A stream is its list of items, chunks or errors. `collect` is what comes out for one
who reads it to the end.
-/
import Mathlib.Data.List.Basic
import Mathlib.Tactic.Common

set_option autoImplicit false

namespace Tg2s3.Slices

variable {α ε : Type*}

/-! ## Windows -/

def window (lo hi : Int) (l : List α) : List α := (l.take hi.toNat).drop lo.toNat

theorem length_window (lo hi : Int) (l : List α) :
    (window lo hi l).length = min hi.toNat l.length - lo.toNat := by
  rw [window, List.length_drop, List.length_take]

@[simp] theorem window_nil (lo hi : Int) : window lo hi ([] : List α) = [] := by
  simp [window]

/-- The window ends before the list begins. -/
theorem window_of_nonpos {lo hi : Int} (h : hi ≤ 0) (l : List α) : window lo hi l = [] := by
  rw [window, Int.toNat_of_nonpos h, List.take_zero, List.drop_nil]

/-- The window begins after the list ends. -/
theorem window_of_length_le {lo hi : Int} {l : List α} (h : (l.length : Int) ≤ lo) :
    window lo hi l = [] := by
  refine List.drop_eq_nil_of_le ?_
  rw [List.length_take]
  omega

/-- The bounds can be moved to the ends of the list. -/
theorem window_clip (lo hi : Int) (l : List α) :
    window (max lo 0) (min hi l.length) l = window lo hi l := by
  have hlo : (max lo 0).toNat = lo.toNat := by omega
  unfold window
  rw [hlo]
  by_cases h : hi ≤ l.length
  · rw [show min hi l.length = hi by omega]
  · rw [show min hi l.length = (l.length : Int) by omega, Int.toNat_natCast, List.take_length,
      List.take_of_length_le (by omega)]

theorem window_append (lo hi : Int) (xs ys : List α) :
    window lo hi (xs ++ ys) = window lo hi xs ++ window (lo - xs.length) (hi - xs.length) ys := by
  unfold window
  rw [List.take_append, List.drop_append, List.length_take]
  have hhi : hi.toNat - xs.length = (hi - xs.length).toNat := by omega
  rw [hhi]
  by_cases h : hi.toNat ≤ xs.length
  · have hempty : (hi - xs.length).toNat = 0 := by omega
    rw [hempty, List.take_zero, List.drop_nil, List.drop_nil]
  · have hlo : lo.toNat - min hi.toNat xs.length = (lo - xs.length).toNat := by omega
    rw [hlo]

theorem window_all (l : List α) : window 0 l.length l = l := by
  rw [window, Int.toNat_natCast, List.take_length, Int.toNat_zero, List.drop_zero]

/-! ## Streams -/

/-- What a reader gets from a stream: all its chunks, or the first error. -/
def collect : List (Except ε (List α)) → Except ε (List α)
  | [] => .ok []
  | .ok chunk :: items => (collect items).map (chunk ++ ·)
  | .error e :: _ => .error e

@[simp] theorem collect_nil : collect ([] : List (Except ε (List α))) = .ok [] := rfl

@[simp] theorem collect_cons_ok (chunk : List α) (items : List (Except ε (List α))) :
    collect (.ok chunk :: items) = (collect items).map (chunk ++ ·) := rfl

theorem collect_cons_eq_ok {item : Except ε (List α)} {items : List (Except ε (List α))}
    {l : List α} (h : collect (item :: items) = .ok l) :
    ∃ chunk rest, item = .ok chunk ∧ collect items = .ok rest ∧ l = chunk ++ rest := by
  cases item with
  | error e => cases h
  | ok chunk =>
      rw [collect_cons_ok] at h
      cases hrest : collect items with
      | error e => rw [hrest] at h; cases h
      | ok rest =>
          rw [hrest] at h
          exact ⟨chunk, rest, rfl, rfl, (Except.ok.inj h).symm⟩

/-- What comes in before the stream ends or fails. -/
def arrived : List (Except ε (List α)) → List α
  | [] => []
  | .ok chunk :: items => chunk ++ arrived items
  | .error _ :: _ => []

/-- The first error. -/
def failure : List (Except ε (List α)) → Option ε
  | [] => none
  | .ok _ :: items => failure items
  | .error e :: _ => some e

@[simp] theorem arrived_nil : arrived ([] : List (Except ε (List α))) = [] := rfl

@[simp] theorem arrived_cons_ok (chunk : List α) (items : List (Except ε (List α))) :
    arrived (.ok chunk :: items) = chunk ++ arrived items := rfl

@[simp] theorem arrived_cons_error (e : ε) (items : List (Except ε (List α))) :
    arrived (.error e :: items) = [] := rfl

/-- A reader who gets all chunks gets all that comes in. -/
theorem arrived_of_collect {items : List (Except ε (List α))} {l : List α}
    (h : collect items = .ok l) : arrived items = l := by
  induction items generalizing l with
  | nil => exact Except.ok.inj h
  | cons item items ih =>
      obtain ⟨chunk, rest, rfl, hrest, rfl⟩ := collect_cons_eq_ok h
      rw [arrived_cons_ok, ih hrest]

theorem collect_map_ok (chunks : List (List α)) :
    collect (chunks.map (Except.ok (ε := ε))) = .ok chunks.flatten := by
  induction chunks with
  | nil => rfl
  | cons chunk chunks ih =>
      rw [List.map_cons, collect_cons_ok, ih]
      rfl

end Tg2s3.Slices
