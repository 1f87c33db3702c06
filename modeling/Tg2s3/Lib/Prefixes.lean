/-
Lists that start alike, in the lexicographic order.

The lists with a given start form an interval: they lie at or above it, and below
its *upper bound*, which increments the last element that can be incremented and
drops what follows (there is none if no element can). So a search in sorted data
can pass a whole group of lists with one comparison.

The first occurrence of a pattern is here too: what ends with it is such a start.
-/
import Mathlib.Data.List.Lex
import Mathlib.Order.Lattice
import Mathlib.Data.List.Induction
import Mathlib.Data.List.Infix

set_option autoImplicit false

namespace Tg2s3.Prefixes

/-! ## The upper bound of a start -/

section Upper

variable {α : Type*} {next : α → Option α}

/-- The loop, on the reversed list: take off elements until one has a successor. -/
def increment (next : α → Option α) : List α → Option (List α)
  | [] => none
  | last :: rest =>
      match next last with
      | some a => some (a :: rest)
      | none => increment next rest

def upper (next : α → Option α) (p : List α) : Option (List α) :=
  (increment next p.reverse).map List.reverse

@[simp] theorem upper_nil : upper next [] = none := rfl

theorem upper_concat_of_some {p : List α} {a b : α} (h : next a = some b) :
    upper next (p ++ [a]) = some (p ++ [b]) := by
  simp [upper, increment, h]

theorem upper_concat_of_none {p : List α} {a : α} (h : next a = none) :
    upper next (p ++ [a]) = upper next p := by
  simp [upper, increment, h]

variable [LinearOrder α]

/-- `next` gives the element right above, where there is one. -/
structure Successor (next : α → Option α) : Prop where
  above {a b : α} : next a = some b → ∀ x, a < x ↔ b ≤ x
  greatest {a : α} : next a = none → ∀ x, x ≤ a

theorem append_lt_append_iff {p s t : List α} : p ++ s < p ++ t ↔ s < t := by
  induction p with
  | nil => rfl
  | cons a p ih => simp [ih]

theorem append_le_append_iff {p s t : List α} : p ++ s ≤ p ++ t ↔ s ≤ t := by
  rw [← not_lt, append_lt_append_iff, not_lt]

theorem le_of_isPrefix {p s : List α} (h : p <+: s) : p ≤ s := not_lt.mp h.le

/-- A list at or above `[a]` starts with an element at or above `a`. -/
theorem exists_cons_of_singleton_le {a : α} {s : List α} (h : [a] ≤ s) :
    ∃ x t, s = x :: t ∧ a ≤ x := by
  cases s with
  | nil => exact absurd (List.nil_lt_cons a []) (not_lt_of_ge h)
  | cons x t =>
      refine ⟨x, t, rfl, not_lt.mp fun hlt => ?_⟩
      exact absurd (List.cons_lt_cons_iff.mpr (Or.inl hlt)) (not_lt_of_ge h)

/-- **The lists with a given start are an interval.** The induction takes the start
off from its end, as the loop does. -/
theorem isPrefix_iff (hnext : Successor next) (p s : List α) :
    p <+: s ↔ p ≤ s ∧ ∀ u, upper next p = some u → s < u := by
  induction p using List.reverseRecOn generalizing s with
  | nil => exact ⟨fun h => ⟨le_of_isPrefix h, by simp⟩, fun _ => List.nil_prefix⟩
  | append_singleton p a ih =>
      have hfront : p ≤ p ++ [a] := le_of_isPrefix (List.prefix_append p [a])
      cases hsucc : next a with
      | none =>
          rw [upper_concat_of_none hsucc]
          constructor
          · intro h
            exact ⟨le_of_isPrefix h, ((ih s).mp ((List.prefix_append p [a]).trans h)).2⟩
          · rintro ⟨hle, hlt⟩
            obtain ⟨t, rfl⟩ := (ih s).mpr ⟨hfront.trans hle, hlt⟩
            obtain ⟨x, t, rfl, hax⟩ := exists_cons_of_singleton_le (append_le_append_iff.mp hle)
            obtain rfl := le_antisymm hax (hnext.greatest hsucc x)
            exact ⟨t, by simp⟩
      | some b =>
          rw [upper_concat_of_some hsucc]
          have hab : a < b := (hnext.above hsucc b).mpr le_rfl
          constructor
          · rintro ⟨t, rfl⟩
            refine ⟨le_of_isPrefix (List.prefix_append _ t), fun u hu => ?_⟩
            obtain rfl := Option.some.inj hu
            rw [List.append_assoc, append_lt_append_iff]
            exact List.cons_lt_cons_iff.mpr (Or.inl hab)
          · rintro ⟨hle, hlt⟩
            have hlt := hlt _ rfl
            have hbelow : ∀ u, upper next p = some u → s < u := fun u hu =>
              hlt.trans (((ih (p ++ [b])).mp (List.prefix_append p [b])).2 u hu)
            obtain ⟨t, rfl⟩ := (ih s).mpr ⟨hfront.trans hle, hbelow⟩
            obtain ⟨x, t, rfl, hax⟩ := exists_cons_of_singleton_le (append_le_append_iff.mp hle)
            have hxb : x < b := by
              rcases List.cons_lt_cons_iff.mp (append_lt_append_iff.mp hlt) with h | ⟨-, h⟩
              · exact h
              · exact absurd h (List.not_lt_nil t)
            have hxa : ¬ a < x := fun h => absurd ((hnext.above hsucc x).mp h) (not_le_of_gt hxb)
            obtain rfl := le_antisymm hax (not_lt.mp hxa)
            exact ⟨t, by simp⟩

end Upper

/-! ## The first occurrence -/

section Find

variable {α : Type*} [DecidableEq α] {pattern : List α}

/-- Where the pattern occurs first. -/
def find (pattern : List α) : List α → Option ℕ
  | [] => if pattern = [] then some 0 else none
  | a :: s => if pattern <+: a :: s then some 0 else (find pattern s).map (· + 1)

theorem find_eq_some_iff {s : List α} {i : ℕ} :
    find pattern s = some i
      ↔ (∃ x y, s = x ++ pattern ++ y ∧ x.length = i)
        ∧ ∀ x y, s = x ++ pattern ++ y → i ≤ x.length := by
  induction s generalizing i with
  | nil =>
      unfold find
      by_cases hp : pattern = []
      · simp [hp, eq_comm]
      · rw [if_neg hp]
        refine iff_of_false (by simp) ?_
        rintro ⟨⟨x, y, h, -⟩, -⟩
        simp [hp] at h
  | cons a s ih =>
      unfold find
      by_cases hp : pattern <+: a :: s
      · obtain ⟨t, ht⟩ := hp
        rw [if_pos ⟨t, ht⟩]
        constructor
        · intro h
          obtain rfl := Option.some.inj h
          exact ⟨⟨[], t, by simp [ht], rfl⟩, fun _ _ _ => Nat.zero_le _⟩
        · rintro ⟨-, hmin⟩
          have := hmin [] t (by simp [ht])
          rw [Nat.le_zero.mp this]
      · rw [if_neg hp, Option.map_eq_some_iff]
        -- an occurrence in `a :: s` is not at its start
        have hshift : ∀ x y, a :: s = x ++ pattern ++ y →
            ∃ x', x = a :: x' ∧ s = x' ++ pattern ++ y := by
          intro x y h
          cases x with
          | nil => exact absurd ⟨y, by simpa using h.symm⟩ hp
          | cons b x' =>
              simp only [List.cons_append, List.cons.injEq] at h
              obtain ⟨rfl, h⟩ := h
              exact ⟨x', rfl, h⟩
        constructor
        · rintro ⟨j, hj, rfl⟩
          obtain ⟨⟨x, y, hs, hx⟩, hmin⟩ := ih.mp hj
          refine ⟨⟨a :: x, y, by rw [hs]; rfl, by rw [List.length_cons, hx]⟩, fun x' y' h => ?_⟩
          obtain ⟨x'', rfl, h'⟩ := hshift x' y' h
          exact Nat.succ_le_succ (hmin x'' y' h')
        · rintro ⟨⟨x, y, hs, hx⟩, hmin⟩
          obtain ⟨x', rfl, hs'⟩ := hshift x y hs
          refine ⟨x'.length, ih.mpr ⟨⟨x', y, hs', rfl⟩, fun z w h => ?_⟩, hx⟩
          have := hmin (a :: z) w (by rw [h]; rfl)
          rw [← hx] at this
          exact Nat.le_of_succ_le_succ this

theorem find_eq_none_iff {s : List α} : find pattern s = none ↔ ¬ pattern <:+: s := by
  induction s with
  | nil =>
      unfold find
      by_cases hp : pattern = [] <;> simp [hp]
  | cons a s ih =>
      unfold find
      rw [List.infix_cons_iff]
      by_cases hp : pattern <+: a :: s
      · simp [hp]
      · simp [hp, ih]

end Find

end Tg2s3.Prefixes
