/-
Intervals that cover a stretch without a gap.

An interval is an offset and a size. `Tiles start l stop` says that the intervals of `l`
follow each other from `start` to `stop` and that none is empty. The offsets add nothing to
the sizes: `place` computes them, and a list tiles if and only if it is what `place` makes of
its sizes (`tiles_iff`). So a list of sizes can be laid out anew from any start.
-/
import Mathlib.Algebra.BigOperators.Group.List.Basic
import Mathlib.Algebra.Order.Group.Int
import Mathlib.Algebra.Order.Ring.Int
import Mathlib.Tactic.Common

set_option autoImplicit false

namespace Tiling

def Tiles : Int → List (Int × Int) → Int → Prop
  | start, [], stop => start = stop
  | start, (offset, size) :: rest, stop => offset = start ∧ 0 < size ∧ Tiles (start + size) rest stop

/-- These sizes one after the other. -/
def place : Int → List Int → List (Int × Int)
  | _, [] => []
  | start, size :: sizes => (start, size) :: place (start + size) sizes

@[simp] theorem map_snd_place (start : Int) (sizes : List Int) :
    (place start sizes).map (·.2) = sizes := by
  induction sizes generalizing start with
  | nil => rfl
  | cons size sizes ih => rw [place, List.map_cons, ih]

theorem tiles_place {start : Int} {sizes : List Int} (h : ∀ size ∈ sizes, 0 < size) :
    Tiles start (place start sizes) (start + sizes.sum) := by
  induction sizes generalizing start with
  | nil => exact (Int.add_zero start).symm
  | cons size sizes ih =>
      refine ⟨rfl, h size List.mem_cons_self, ?_⟩
      rw [List.sum_cons, ← Int.add_assoc]
      exact ih (fun size hsize => h size (List.mem_cons_of_mem _ hsize))

/-- The offsets of a tiling are determined by its sizes. -/
theorem tiles_iff {start stop : Int} {l : List (Int × Int)} :
    Tiles start l stop
      ↔ l = place start (l.map (·.2)) ∧ (∀ size ∈ l.map (·.2), 0 < size)
        ∧ stop = start + (l.map (·.2)).sum := by
  constructor
  · intro h
    induction l generalizing start with
    | nil => exact ⟨rfl, by simp, by rw [List.map_nil, List.sum_nil, Int.add_zero]; exact h.symm⟩
    | cons interval rest ih =>
        obtain ⟨hoffset, hpos, hrest⟩ := h
        obtain ⟨hplace, hsizes, hstop⟩ := ih hrest
        refine ⟨?_, ?_, ?_⟩
        · rw [List.map_cons, place, ← hplace, ← hoffset]
        · rw [List.map_cons, List.forall_mem_cons]
          exact ⟨hpos, hsizes⟩
        · rw [List.map_cons, List.sum_cons, hstop, Int.add_assoc]
  · rintro ⟨hplace, hsizes, rfl⟩
    rw [hplace, map_snd_place]
    exact tiles_place hsizes

theorem Tiles.le {start stop : Int} {l : List (Int × Int)} (h : Tiles start l stop) :
    start ≤ stop := by
  induction l generalizing start with
  | nil => exact le_of_eq h
  | cons interval rest ih =>
      have hnext := ih h.2.2
      have hpos := h.2.1
      omega

end Tiling
