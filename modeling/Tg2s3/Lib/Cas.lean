/-
Compare-and-swap registers, and transactions on a snapshot.

A register holds a value. An operation that took effect on it is an `Effect`: the
guard it was called with, the value it found, the value it left. A list of effects
is a `Chain` from `s` to `t` if each one found what the one before it left, and its
guard held there. That is all a history of a register has to say: which value an
effect found is the value some earlier effect left (`Chain.found`), so two effects
whose guards force the same value have one between them -- or the first itself --
that put the value there (`Chain.restored`), and two that force a value the first
does not leave have a third one between them (`Chain.restored_between`).

A transaction that reads first and writes later works on a snapshot. The store
counts its commits, the snapshot keeps the count, and the first write is refused if
the count has moved on. `Snapshot.Consistent` is what makes this sound: a snapshot
with the current count has the current value.
-/
import Mathlib.Data.List.Basic
import Mathlib.Tactic.Common

set_option autoImplicit false

namespace Cas

/-! ## Chains of effects -/

section Chain

variable {σ : Type*}

structure Effect (σ : Type*) where
  allows : σ → Bool
  before : σ
  after : σ

/-- Each effect found what the one before it left, and its guard held there. -/
def Chain : σ → List (Effect σ) → σ → Prop
  | s, [], t => s = t
  | s, e :: es, t => e.before = s ∧ e.allows s = true ∧ Chain e.after es t

theorem chain_append {s t : σ} {es fs : List (Effect σ)} :
    Chain s (es ++ fs) t ↔ ∃ m, Chain s es m ∧ Chain m fs t := by
  induction es generalizing s with
  | nil => simp [Chain]
  | cons e es ih =>
      simp only [List.cons_append, Chain, ih]
      constructor
      · rintro ⟨hbefore, hallows, m, hes, hfs⟩
        exact ⟨m, ⟨hbefore, hallows, hes⟩, hfs⟩
      · rintro ⟨m, ⟨hbefore, hallows, hes⟩, hfs⟩
        exact ⟨hbefore, hallows, m, hes, hfs⟩

/-- One more effect at the end. -/
theorem Chain.snoc {s t : σ} {es : List (Effect σ)} (h : Chain s es t) {e : Effect σ}
    (hbefore : e.before = t) (hallows : e.allows t = true) : Chain s (es ++ [e]) e.after :=
  chain_append.mpr ⟨t, h, hbefore, hallows, rfl⟩

/-- Every guard held on the value its effect found. -/
theorem Chain.allowed {s t : σ} {es : List (Effect σ)} (h : Chain s es t) :
    ∀ e ∈ es, e.allows e.before = true := by
  induction es generalizing s with
  | nil => simp
  | cons e es ih =>
      obtain ⟨hbefore, hallows, hrest⟩ := h
      intro e' he'
      rcases List.mem_cons.mp he' with rfl | he'
      · exact hbefore ▸ hallows
      · exact ih hrest e' he'

/-- What the chain ends in is where it started, or what one of its effects left. -/
theorem Chain.left {s t : σ} {es : List (Effect σ)} (h : Chain s es t) :
    (es = [] ∧ t = s) ∨ ∃ e ∈ es, e.after = t := by
  induction es generalizing s with
  | nil => exact Or.inl ⟨rfl, h.symm⟩
  | cons e es ih =>
      right
      rcases ih h.2.2 with ⟨-, rfl⟩ | ⟨e', he', hafter⟩
      · exact ⟨e, List.mem_cons_self, rfl⟩
      · exact ⟨e', List.mem_cons_of_mem _ he', hafter⟩

/-- What an effect found is what an earlier one left. -/
theorem Chain.found {s t : σ} {l₁ l₂ l₃ : List (Effect σ)} {a b : Effect σ}
    (h : Chain s (l₁ ++ a :: l₂ ++ b :: l₃) t) : ∃ c ∈ a :: l₂, c.after = b.before := by
  obtain ⟨m, hl, hb, -⟩ := chain_append.mp h
  obtain ⟨m', -, ha⟩ := chain_append.mp hl
  rcases ha.left with ⟨hnil, -⟩ | ⟨c, hc, hafter⟩
  · cases hnil
  · exact ⟨c, hc, hafter.trans hb.symm⟩

/-- A guard that only one value passes. -/
def Forces (allows : σ → Bool) (v : σ) : Prop := ∀ s, allows s = true → s = v

/-- **A value two effects both require was put back**: by the first one itself, or
by one between them. -/
theorem Chain.restored {s t v : σ} {l₁ l₂ l₃ : List (Effect σ)} {a b : Effect σ}
    (h : Chain s (l₁ ++ a :: l₂ ++ b :: l₃) t) (hb : Forces b.allows v) :
    ∃ c ∈ a :: l₂, c.after = v := by
  obtain ⟨c, hc, hafter⟩ := h.found
  exact ⟨c, hc, hafter.trans (hb _ (h.allowed b (by simp)))⟩

/-- Where the first one leaves another value, it was one between them. -/
theorem Chain.restored_between {s t v : σ} {l₁ l₂ l₃ : List (Effect σ)} {a b : Effect σ}
    (h : Chain s (l₁ ++ a :: l₂ ++ b :: l₃) t) (hb : Forces b.allows v) (ha : a.after ≠ v) :
    ∃ c ∈ l₂, c.after = v := by
  obtain ⟨c, hc, hafter⟩ := h.restored hb
  rcases List.mem_cons.mp hc with rfl | hc
  · exact absurd hafter ha
  · exact ⟨c, hc, hafter⟩

end Chain

/-! ## Snapshots of a store that counts its commits -/

section Snapshots

variable {σ : Type*} [DecidableEq σ]

/-- A value and the number of commits that changed it. -/
structure Versioned (σ : Type*) where
  value : σ
  commits : ℕ
  deriving DecidableEq

/-- A commit; one that changes nothing is not counted. -/
def Versioned.commit (v : Versioned σ) (s : σ) : Versioned σ :=
  if s = v.value then v else ⟨s, v.commits + 1⟩

@[simp] theorem Versioned.value_commit (v : Versioned σ) (s : σ) : (v.commit s).value = s := by
  unfold Versioned.commit
  split_ifs with h
  · exact h.symm
  · rfl

/-- A snapshot is a versioned value that was current once. -/
def Consistent (snapshot v : Versioned σ) : Prop :=
  snapshot.commits ≤ v.commits ∧ (snapshot.commits = v.commits → snapshot.value = v.value)

omit [DecidableEq σ] in
theorem consistent_refl (v : Versioned σ) : Consistent v v := ⟨Nat.le_refl _, fun _ => rfl⟩

/-- A snapshot stays consistent over the commits of others. -/
theorem Consistent.commit {snapshot v : Versioned σ} (h : Consistent snapshot v) (s : σ) :
    Consistent snapshot (v.commit s) := by
  obtain ⟨hle, hcurrent⟩ := h
  unfold Versioned.commit
  split_ifs with hs
  · exact ⟨hle, hcurrent⟩
  · refine ⟨Nat.le_succ_of_le hle, fun heq => ?_⟩
    have : snapshot.commits = v.commits + 1 := heq
    omega

end Snapshots

end Cas
