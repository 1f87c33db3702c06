/-
Counted references with a garbage queue, one account at a time.

An `Account` is what a reference-counting store keeps about one item: the count,
whether the item is still `staged` (stored, but not yet taken up by anybody), and
whether it is queued for deletion. The number of references themselves is not
part of the account; it is the truth the account is compared with, and
`Balanced refs a` is that comparison:

- a referenced item has exactly that count and is not queued;
- an unreferenced item is staged with the one count its creator holds, or its
  count is zero and it is queued.

Each operation changes the references and the account together. The lemmas say
from which balance to which balance it leads, with the number of references that
come or go as a number: a transaction that drops `k` references and adds `j` is
then a chain of these lemmas, and no proof looks at a table.
-/
import Mathlib.Tactic.Common
import Mathlib.Tactic.SplitIfs

set_option autoImplicit false

namespace RefCount

structure Account where
  count : ℕ
  staged : Bool
  queued : Bool
  deriving DecidableEq, Repr

/-- The account agrees with the references there are. -/
structure Balanced (refs : ℕ) (a : Account) : Prop where
  held : 0 < refs → a.count = refs ∧ a.queued = false
  free : refs = 0 → (a.staged = true ∧ a.count = 1 ∧ a.queued = false)
    ∨ (a.count = 0 ∧ a.queued = true)

namespace Account

/-! ## Operations -/

/-- A new item: its creator holds the one count. -/
def opened : Account := { count := 1, staged := true, queued := false }

/-- `k` references go, each taking one off the count; an item whose count
reaches zero that way is queued. -/
def release (k : ℕ) (a : Account) : Account :=
  { a with count := a.count - k, queued := a.queued || decide (0 < k ∧ a.count - k = 0) }

/-- `k` references come, each adding one to the count. -/
def retain (k : ℕ) (a : Account) : Account :=
  if 0 < k then { count := a.count + k, staged := false, queued := false } else a

/-- References move from one holder to another, at least one of them to this
holder if `k` is positive; the count is only made sure of. -/
def settle (k : ℕ) (a : Account) : Account :=
  if 0 < k then { count := max a.count 1, staged := false, queued := false } else a

/-- The item is taken for deletion. -/
def claim (a : Account) : Account := { a with count := 0, queued := true }

/-! ## Composition -/

/-- To release nothing does nothing. -/
@[simp] theorem release_zero (a : Account) : release 0 a = a := by
  simp [release]

/-- To retain nothing does nothing. -/
@[simp] theorem retain_zero (a : Account) : retain 0 a = a := rfl

/-- To settle nothing does nothing. -/
@[simp] theorem settle_zero (a : Account) : settle 0 a = a := rfl

/-- Releasing one by one is releasing at once. -/
theorem release_release (j k : ℕ) (a : Account) :
    release j (release k a) = release (k + j) a := by
  unfold release
  simp only [Account.mk.injEq, true_and]
  refine ⟨by omega, ?_⟩
  rw [Bool.or_assoc, ← Bool.decide_or]
  congr 1
  rw [decide_eq_decide]
  omega

/-- References that are taken twice add up. -/
theorem retain_retain (j k : ℕ) (a : Account) : retain j (retain k a) = retain (k + j) a := by
  unfold retain
  rcases Nat.eq_zero_or_pos j with rfl | hj
  · simp
  · rcases Nat.eq_zero_or_pos k with rfl | hk
    · simp
    · have hkj : 0 < k + j := by omega
      simp only [hj, hk, hkj, if_true, Account.mk.injEq, and_true]
      omega

/-- And so do those that are settled. -/
theorem settle_settle (j k : ℕ) (a : Account) : settle j (settle k a) = settle (k + j) a := by
  unfold settle
  rcases Nat.eq_zero_or_pos j with rfl | hj
  · simp
  · rcases Nat.eq_zero_or_pos k with rfl | hk
    · simp
    · have hkj : 0 < k + j := by omega
      simp only [hj, hk, hkj, if_true, Account.mk.injEq, and_true]
      omega

end Account

/-! ## What each operation does to the balance -/

open Account

/-- An item that was just opened has its creator's count, and no reference. -/
theorem balanced_opened : Balanced 0 opened where
  held := by simp
  free := by simp [opened]

/-- Giving references back keeps the books, also down to none. -/
theorem Balanced.release {r k : ℕ} {a : Account} (h : Balanced (r + k) a) :
    Balanced r (release k a) := by
  rcases Nat.eq_zero_or_pos k with rfl | hk
  · simpa using h
  · obtain ⟨hc, hq⟩ := h.held (by omega)
    constructor
    · intro hr
      refine ⟨by simp only [Account.release]; omega, ?_⟩
      simp only [Account.release, hq, Bool.false_or, decide_eq_false_iff_not]
      omega
    · intro hr
      refine Or.inr ⟨by simp only [Account.release]; omega, ?_⟩
      simp only [Account.release, hq, Bool.false_or, decide_eq_true_eq]
      omega

/-- Taking references on an item that is referenced, or that was just released
to nothing, keeps the books. -/
theorem Balanced.retain {r k : ℕ} {a : Account} (h : Balanced r a)
    (hlive : 0 < r ∨ a.count = 0) : Balanced (r + k) (retain k a) := by
  rcases Nat.eq_zero_or_pos k with rfl | hk
  · simpa using h
  · have hc : a.count = r := by
      rcases Nat.eq_zero_or_pos r with rfl | hr
      · rcases hlive with hlt | hz
        · omega
        · exact hz
      · exact (h.held hr).1
    constructor
    · intro _
      simp [Account.retain, hk, hc]
    · omega

/-- A staged item gets its first reference; the creator's count becomes the
reference's. -/
theorem Balanced.adopt {a : Account} (h : Balanced 0 a) (hq : a.queued = false) :
    Balanced 1 a := by
  obtain ⟨-, hc, -⟩ | ⟨-, hq'⟩ := h.free rfl
  · exact ⟨fun _ => ⟨hc, hq⟩, by simp⟩
  · rw [hq'] at hq
    cases hq

/-- A reference that moves leaves the count where it is. -/
theorem Balanced.settle {r k : ℕ} {a : Account} (h : Balanced r a) (hk : k ≤ r) :
    Balanced r (settle k a) := by
  rcases Nat.eq_zero_or_pos k with rfl | hpos
  · simpa using h
  · obtain ⟨hc, -⟩ := h.held (by omega)
    constructor
    · intro _
      refine ⟨?_, by simp [Account.settle, hpos]⟩
      simp only [Account.settle, hpos, if_true, hc]
      omega
    · omega

/-- A claimed item has no count, and waits to be removed. -/
theorem balanced_claim (a : Account) : Balanced 0 (claim a) where
  held := by simp
  free := fun _ => Or.inr ⟨rfl, rfl⟩

/-! ## The weaker comparison

An account backs `n` claims if its count covers them; it may count more. A queued
item backs none. This is what survives an operation that counts too much, and it
is enough to know that an item somebody has a claim on is not queued. -/

structure Backed (n : ℕ) (a : Account) : Prop where
  covered : n ≤ a.count
  queued : a.queued = true → a.count = 0

/-- An item somebody has a claim on is not queued. -/
theorem Backed.unqueued {n : ℕ} {a : Account} (h : Backed n a) (hn : 0 < n) :
    a.queued = false := by
  rw [Bool.eq_false_iff]
  intro hq
  have := h.covered
  rw [h.queued hq] at this
  omega

/-- Fewer claims are backed as well. -/
theorem Backed.mono {m n : ℕ} {a : Account} (h : Backed n a) (hm : m ≤ n) : Backed m a :=
  ⟨Nat.le_trans hm h.covered, h.queued⟩

/-- Claims that are given up take their counts along. -/
theorem Backed.release {n k : ℕ} {a : Account} (h : Backed (n + k) a) : Backed n (release k a) where
  covered := by
    have := h.covered
    simp only [Account.release]
    omega
  queued := by
    simp only [Account.release, Bool.or_eq_true, decide_eq_true_eq]
    rintro (hq | ⟨-, hz⟩)
    · have := h.queued hq
      omega
    · exact hz

/-- A reference that is taken brings its count. -/
theorem Backed.retain {n k : ℕ} {a : Account} (h : Backed n a) : Backed (n + k) (retain k a) := by
  rcases Nat.eq_zero_or_pos k with rfl | hk
  · exact h
  · have := h.covered
    unfold Account.retain
    rw [if_pos hk]
    exact ⟨by dsimp only; omega, fun hq => by cases hq⟩

/-- To settle keeps the count. -/
theorem Backed.settle {n k : ℕ} {a : Account} (h : Backed n a) : Backed n (settle k a) := by
  rcases Nat.eq_zero_or_pos k with rfl | hk
  · exact h
  · have := h.covered
    unfold Account.settle
    rw [if_pos hk]
    exact ⟨by dsimp only; omega, fun hq => by cases hq⟩

/-- A claimed item backs no claim. -/
theorem backed_claim (a : Account) : Backed 0 (claim a) where
  covered := Nat.zero_le _
  queued := fun _ => rfl

/-! ## The stronger comparison

An item is tended if nobody but its holders keeps it: without a reference it is queued. A
staged item that its creator still holds is balanced, but not tended. -/

/-- Without a reference it is queued. -/
def Tended (refs : ℕ) (a : Account) : Prop := refs = 0 → a.queued = true

/-- **A release tends to what it leaves**: at zero the item is queued. That it reaches zero with
the last reference is what the balance is for. -/
theorem Tended.release {r k : ℕ} {a : Account} (hb : Balanced (r + k) a) (h : Tended (r + k) a) :
    Tended r (release k a) := by
  intro hr
  unfold Account.release
  rcases Nat.eq_zero_or_pos k with rfl | hk
  · rw [h hr]
    rfl
  · -- the last reference goes, and it was the whole count
    obtain ⟨hc, -⟩ := hb.held (by omega)
    simp only [Bool.or_eq_true, decide_eq_true_eq]
    exact Or.inr ⟨hk, by omega⟩

/-- References that are taken leave an item tended. -/
theorem Tended.retain {r k : ℕ} {a : Account} (h : Tended r a) : Tended (r + k) (retain k a) := by
  intro hr
  obtain ⟨rfl, rfl⟩ : r = 0 ∧ k = 0 := by omega
  exact h rfl

/-- And so do references that are settled. -/
theorem Tended.settle {r k : ℕ} {a : Account} (h : Tended r a) (hk : k ≤ r) :
    Tended r (settle k a) := by
  rintro rfl
  obtain rfl : k = 0 := by omega
  exact h rfl

/-- With a reference there is nothing to tend to. -/
theorem tended_of_pos {r : ℕ} (a : Account) (hr : 0 < r) : Tended r a :=
  fun hzero => by omega

end RefCount
