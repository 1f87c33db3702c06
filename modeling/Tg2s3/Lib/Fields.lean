/-
Texts made of fields.

Whoever signs or hashes a record writes its fields one after the other with separators in
between, and relies on it that no two records give the same text. That holds as long as
each separator can be found again: a field that does not have it ends at the first one
(`append_cons_inj`), a last field that does not have it begins after the last one
(`append_cons_inj_right`), a list of fields can be split at it (`intercalate_inj`), and a
list of lines ends at the first line that is empty (`block_inj`). The fields themselves may
be encoded, by a code whose words can be told apart from the left (`flatMap_inj`).
-/
import Mathlib.Data.List.Basic
import Mathlib.Tactic.Common

set_option autoImplicit false

namespace Fields

variable {α β : Type*}

/-! ## Two fields -/

/-- The field in front does not have the separator. -/
theorem append_cons_inj {c : α} {a a' b b' : List α} (ha : c ∉ a) (ha' : c ∉ a')
    (h : a ++ c :: b = a' ++ c :: b') : a = a' ∧ b = b' := by
  induction a generalizing a' with
  | nil =>
      cases a' with
      | nil => exact ⟨rfl, (List.cons.inj h).2⟩
      | cons x a' =>
          refine absurd ?_ ha'
          rw [(List.cons.inj h).1]
          exact List.mem_cons_self
  | cons x a ih =>
      cases a' with
      | nil =>
          refine absurd ?_ ha
          rw [← (List.cons.inj h).1]
          exact List.mem_cons_self
      | cons y a' =>
          obtain ⟨rfl, hrest⟩ := List.cons.inj h
          obtain ⟨rfl, hb⟩ := ih (fun hmem => ha (List.mem_cons_of_mem _ hmem))
            (fun hmem => ha' (List.mem_cons_of_mem _ hmem)) hrest
          exact ⟨rfl, hb⟩

/-- The field behind does not have the separator. -/
theorem append_cons_inj_right {c : α} {a a' b b' : List α} (hb : c ∉ b) (hb' : c ∉ b')
    (h : a ++ c :: b = a' ++ c :: b') : a = a' ∧ b = b' := by
  have hreverse : b.reverse ++ c :: a.reverse = b'.reverse ++ c :: a'.reverse := by
    have h := congrArg List.reverse h
    rw [List.reverse_append, List.reverse_append, List.reverse_cons, List.reverse_cons,
      List.append_assoc, List.append_assoc] at h
    exact h
  obtain ⟨hb, ha⟩ := append_cons_inj (fun hmem => hb (List.mem_reverse.mp hmem))
    (fun hmem => hb' (List.mem_reverse.mp hmem)) hreverse
  exact ⟨List.reverse_inj.mp ha, List.reverse_inj.mp hb⟩

/-! ## Many fields -/

/-- Fields with something in them and without the separator. -/
def Separable (c : α) (fields : List (List α)) : Prop := ∀ field ∈ fields, field ≠ [] ∧ c ∉ field

theorem Separable.tail {c : α} {field : List α} {fields : List (List α)}
    (h : Separable c (field :: fields)) : Separable c fields :=
  fun f hf => h f (List.mem_cons_of_mem _ hf)

/-- What stands before the first separator is the first field. -/
theorem intercalate_cons_append (c : α) (field : List α) (fields : List (List α)) (s : List α) :
    [c].intercalate (field :: fields) ++ c :: s
      = field ++ c :: (if fields.isEmpty then s else [c].intercalate fields ++ c :: s) := by
  cases fields with
  | nil => simp
  | cons next fields => simp

/-- A list of fields does not begin with a separator. -/
theorem intercalate_append_ne {c : α} {field : List α} {fields : List (List α)}
    (h : Separable c (field :: fields)) (s t : List α) :
    [c].intercalate (field :: fields) ++ s ≠ c :: t := by
  obtain ⟨hne, hno⟩ := h field List.mem_cons_self
  obtain ⟨x, field, rfl⟩ := List.exists_cons_of_ne_nil hne
  rw [List.intercalate_cons_cons_left, List.cons_append]
  intro heq
  refine hno ?_
  rw [(List.cons.inj heq).1]
  exact List.mem_cons_self

/-- **Lines end at the first one that is empty**, whatever follows. -/
theorem block_inj {c : α} {xs ys : List (List α)} {s t : List α} (hx : Separable c xs)
    (hy : Separable c ys)
    (h : [c].intercalate xs ++ c :: c :: s = [c].intercalate ys ++ c :: c :: t) :
    xs = ys ∧ s = t := by
  induction xs generalizing ys with
  | nil =>
      cases ys with
      | nil => exact ⟨rfl, (List.cons.inj (List.cons.inj h).2).2⟩
      | cons y ys => exact absurd h.symm (intercalate_append_ne hy _ _)
  | cons x xs ih =>
      cases ys with
      | nil => exact absurd h (intercalate_append_ne hx _ _)
      | cons y ys =>
          rw [intercalate_cons_append, intercalate_cons_append] at h
          obtain ⟨rfl, hrest⟩ := append_cons_inj (hx x List.mem_cons_self).2
            (hy y List.mem_cons_self).2 h
          -- the last line of one side is the last of the other
          cases xs with
          | nil =>
              cases ys with
              | nil => exact ⟨rfl, (List.cons.inj hrest).2⟩
              | cons y' ys => exact absurd hrest.symm (intercalate_append_ne hy.tail _ _)
          | cons x' xs =>
              cases ys with
              | nil => exact absurd hrest (intercalate_append_ne hx.tail _ _)
              | cons y' ys =>
                  obtain ⟨hfields, hs⟩ := ih hx.tail hy.tail hrest
                  exact ⟨congrArg _ hfields, hs⟩

/-- Fields that have been joined can be split again. -/
theorem intercalate_inj {c : α} {xs ys : List (List α)} (hx : Separable c xs)
    (hy : Separable c ys) (h : [c].intercalate xs = [c].intercalate ys) : xs = ys :=
  (block_inj hx hy (congrArg (· ++ [c, c]) h)).1

theorem mem_intercalate {sep : List α} {fields : List (List α)} {x : α}
    (h : x ∈ sep.intercalate fields) : x ∈ sep ∨ ∃ field ∈ fields, x ∈ field := by
  induction fields with
  | nil => cases h
  | cons field fields ih =>
      cases fields with
      | nil =>
          rw [List.intercalate_singleton] at h
          exact Or.inr ⟨field, List.mem_cons_self, h⟩
      | cons next fields =>
          rw [List.intercalate_cons_cons, List.append_assoc] at h
          rcases List.mem_append.mp h with h | h
          · exact Or.inr ⟨field, List.mem_cons_self, h⟩
          rcases List.mem_append.mp h with h | h
          · exact Or.inl h
          rcases ih h with h | ⟨f, hf, h⟩
          · exact Or.inl h
          · exact Or.inr ⟨f, List.mem_cons_of_mem _ hf, h⟩

theorem mem_of_mem_splitOnP {p : α → Bool} {text word : List α} {x : α}
    (hword : word ∈ text.splitOnP p) (h : x ∈ word) : x ∈ text := by
  induction text generalizing word with
  | nil =>
      rw [List.mem_singleton.mp hword] at h
      cases h
  | cons y text ih =>
      rw [List.splitOnP_cons_eq_if_modifyHead] at hword
      split at hword
      · rcases List.mem_cons.mp hword with rfl | hword
        · cases h
        · exact List.mem_cons_of_mem _ (ih hword h)
      · obtain ⟨first, words, hsplit⟩ := List.exists_cons_of_ne_nil (List.splitOnP_ne_nil p text)
        rw [hsplit] at hword ih
        rcases List.mem_cons.mp hword with rfl | hword
        · rcases List.mem_cons.mp h with rfl | h
          · exact List.mem_cons_self
          · exact List.mem_cons_of_mem _ (ih List.mem_cons_self h)
        · exact List.mem_cons_of_mem _ (ih (List.mem_cons_of_mem _ hword) h)

/-- Names with their values: the first separator ends the name. -/
theorem map_pair_inj {c : α} {ps qs : List (List α × List α)} (hp : ∀ p ∈ ps, c ∉ p.1)
    (hq : ∀ q ∈ qs, c ∉ q.1)
    (h : (ps.map fun p => p.1 ++ c :: p.2) = qs.map fun q => q.1 ++ c :: q.2) : ps = qs := by
  induction ps generalizing qs with
  | nil => exact (List.map_eq_nil_iff.mp h.symm).symm
  | cons p ps ih =>
      cases qs with
      | nil => cases h
      | cons q qs =>
          obtain ⟨hfirst, hrest⟩ := List.cons.inj h
          obtain ⟨hname, hvalue⟩ := append_cons_inj (hp p List.mem_cons_self)
            (hq q List.mem_cons_self) hfirst
          rw [Prod.ext hname hvalue, ih (fun p h => hp p (List.mem_cons_of_mem _ h))
            (fun q h => hq q (List.mem_cons_of_mem _ h)) hrest]

/-! ## Codes -/

/-- A code whose words are not empty and can be told apart from the left. -/
theorem flatMap_inj {f : α → List β} (hne : ∀ a, f a ≠ [])
    (hcode : ∀ a b s t, f a ++ s = f b ++ t → a = b ∧ s = t) {xs ys : List α}
    (h : xs.flatMap f = ys.flatMap f) : xs = ys := by
  induction xs generalizing ys with
  | nil =>
      cases ys with
      | nil => rfl
      | cons y ys => exact absurd (List.append_eq_nil_iff.mp h.symm).1 (hne y)
  | cons x xs ih =>
      cases ys with
      | nil => exact absurd (List.append_eq_nil_iff.mp h).1 (hne x)
      | cons y ys =>
          rw [List.flatMap_cons, List.flatMap_cons] at h
          obtain ⟨rfl, hrest⟩ := hcode x y _ _ h
          rw [ih hrest]

end Fields
