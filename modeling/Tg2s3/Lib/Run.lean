/-
Runs of a machine with explicit actions.

A machine is a step function `step : σ → α → Option σ`: `none` says that the
action is not enabled in the state. All the nondeterminism of the system (which
task moves, what the network answers, what the clock shows) is in the action, so
a run is a list of actions and a statement about every interleaving is a
statement about every list.

Two things are packaged once. An invariant that a step keeps holds after every
run (`run_inv`), also when the step keeps it only under a condition `C` on the
state before the step and the action: then it holds after every run whose steps
all meet `C` (`Meets`). And runs compose (`run_append`), which is how a
statement about "the state in the middle of a run" is said.

`exec` is the same for a machine whose actions are always enabled. For it there
is also a rule of descent (`hits_le`): a measure bounds how often something that
lowers it can happen.
-/
import Mathlib.Data.List.Basic
import Mathlib.Tactic.Common

set_option autoImplicit false

namespace Machine

variable {σ α : Type*}

/-! ## Partial machines -/

section Partial

variable (step : σ → α → Option σ)

/-- The state after a list of actions, when every one of them was enabled. -/
def run : σ → List α → Option σ
  | s, [] => some s
  | s, a :: as => (step s a).bind (fun s' => run s' as)

/-- Every step of the run meets `C` in the state before it. -/
def Meets (C : σ → α → Prop) : σ → List α → Prop
  | _, [] => True
  | s, a :: as => C s a ∧ ∀ s', step s a = some s' → Meets C s' as

variable {step}

/-- A run of no action stays where it is. -/
@[simp] theorem run_nil (s : σ) : run step s [] = some s := rfl

/-- A run goes one step, and on from there. -/
theorem run_cons {s t : σ} {a : α} {as : List α} :
    run step s (a :: as) = some t ↔ ∃ s', step s a = some s' ∧ run step s' as = some t := by
  simp [run, Option.bind_eq_some_iff]

/-- Two runs one after the other are one, through a state in the middle. -/
theorem run_append {s t : σ} {as bs : List α} :
    run step s (as ++ bs) = some t ↔ ∃ s', run step s as = some s' ∧ run step s' bs = some t := by
  induction as generalizing s with
  | nil => simp
  | cons a as ih =>
      rw [List.cons_append, run_cons]
      constructor
      · rintro ⟨s₁, h₁, h₂⟩
        obtain ⟨s₂, h₃, h₄⟩ := ih.mp h₂
        exact ⟨s₂, run_cons.mpr ⟨s₁, h₁, h₃⟩, h₄⟩
      · rintro ⟨s₂, h₃, h₄⟩
        obtain ⟨s₁, h₁, h₂⟩ := run_cons.mp h₃
        exact ⟨s₁, h₁, ih.mpr ⟨s₂, h₂, h₄⟩⟩

/-- Two conditions that are met along a run are met together. -/
theorem Meets.and {C D : σ → α → Prop} {s : σ} {as : List α} (hC : Meets step C s as)
    (hD : Meets step D s as) : Meets step (fun s a => C s a ∧ D s a) s as := by
  induction as generalizing s with
  | nil => trivial
  | cons a as ih => exact ⟨⟨hC.1, hD.1⟩, fun s' hs' => ih (hC.2 s' hs') (hD.2 s' hs')⟩

/-- A condition that always holds is met along any run. -/
theorem Meets.of_forall {C : σ → α → Prop} (hC : ∀ s a, C s a) (s : σ) (as : List α) :
    Meets step C s as := by
  induction as generalizing s with
  | nil => trivial
  | cons a as ih => exact ⟨hC s a, fun s' _ => ih s'⟩

instance {C : σ → α → Prop} [∀ s a, Decidable (C s a)] :
    ∀ (s : σ) (as : List α), Decidable (Meets step C s as)
  | _, [] => inferInstanceAs (Decidable True)
  | s, a :: as =>
      match h : step s a with
      | none => decidable_of_iff (C s a) (by simp [Meets, h])
      | some s' =>
          have : Decidable (Meets step C s' as) := instDecidableMeets s' as
          decidable_of_iff (C s a ∧ Meets step C s' as) (by simp [Meets, h])

/-- **The run rule.** What every step that meets `C` keeps, every run whose
steps all meet `C` keeps. -/
theorem run_inv {C : σ → α → Prop} {I : σ → Prop}
    (hstep : ∀ s a s', I s → C s a → step s a = some s' → I s')
    {s t : σ} {as : List α} (hI : I s) (hC : Meets step C s as) (hrun : run step s as = some t) :
    I t := by
  induction as generalizing s with
  | nil =>
      obtain rfl : s = t := by simpa using hrun
      exact hI
  | cons a as ih =>
      obtain ⟨s', hs', ht⟩ := run_cons.mp hrun
      exact ih (hstep s a s' hI hC.1 hs') (hC.2 s' hs') ht

/-- What follows from the invariant before every step holds of every step of the run. -/
theorem Meets.of_inv {C D : σ → α → Prop} {I : σ → Prop}
    (hstep : ∀ s a s', I s → C s a → step s a = some s' → I s')
    (hD : ∀ s a, I s → C s a → D s a) {s : σ} {as : List α} (hI : I s)
    (hC : Meets step C s as) : Meets step D s as := by
  induction as generalizing s with
  | nil => trivial
  | cons a as ih =>
      exact ⟨hD s a hI hC.1, fun s' hs' => ih (hstep s a s' hI hC.1 hs') (hC.2 s' hs')⟩

end Partial

/-! ## Total machines -/

section Total

variable (f : σ → α → σ)

/-- The state after a list of actions that are always enabled. -/
def exec (s : σ) (as : List α) : σ := as.foldl f s

/-- Every action of the list meets `C` in the state before it. -/
def ExecMeets (C : σ → α → Prop) : σ → List α → Prop
  | _, [] => True
  | s, a :: as => C s a ∧ ExecMeets C (f s a) as

variable {f}

/-- No action leaves the state. -/
@[simp] theorem exec_nil (s : σ) : exec f s [] = s := rfl

/-- The first action comes first. -/
@[simp] theorem exec_cons (s : σ) (a : α) (as : List α) :
    exec f s (a :: as) = exec f (f s a) as := rfl

/-- Two lists of actions are done one after the other. -/
theorem exec_append (s : σ) (as bs : List α) :
    exec f s (as ++ bs) = exec f (exec f s as) bs := List.foldl_append

/-- A condition along both lists is one along the first, and along the second from where that
ends. -/
theorem execMeets_append {C : σ → α → Prop} {s : σ} {as bs : List α} :
    ExecMeets f C s (as ++ bs) ↔ ExecMeets f C s as ∧ ExecMeets f C (exec f s as) bs := by
  induction as generalizing s with
  | nil => simp [ExecMeets]
  | cons a as ih => simp only [List.cons_append, ExecMeets, exec_cons, ih, and_assoc]

instance {C : σ → α → Prop} [∀ s a, Decidable (C s a)] :
    ∀ (s : σ) (as : List α), Decidable (ExecMeets f C s as)
  | _, [] => inferInstanceAs (Decidable True)
  | s, a :: as =>
      have : Decidable (ExecMeets f C (f s a) as) := instDecidableExecMeets (f s a) as
      inferInstanceAs (Decidable (C s a ∧ ExecMeets f C (f s a) as))

/-- A condition that every action of the list meets in every state is met along the run. -/
theorem ExecMeets.of_mem {C : σ → α → Prop} {as : List α} (hC : ∀ s, ∀ a ∈ as, C s a) (s : σ) :
    ExecMeets f C s as := by
  induction as generalizing s with
  | nil => trivial
  | cons a as ih =>
      exact ⟨hC s a List.mem_cons_self,
        ih (fun s b hb => hC s b (List.mem_cons_of_mem a hb)) (f s a)⟩

/-- A condition that always holds is met. -/
theorem ExecMeets.of_forall {C : σ → α → Prop} (hC : ∀ s a, C s a) (s : σ) (as : List α) :
    ExecMeets f C s as := ExecMeets.of_mem (fun s a _ => hC s a) s

/-- A weaker condition is met where a stronger one is. -/
theorem ExecMeets.mono {C D : σ → α → Prop} (hCD : ∀ s a, C s a → D s a) {s : σ} {as : List α}
    (h : ExecMeets f C s as) : ExecMeets f D s as := by
  induction as generalizing s with
  | nil => trivial
  | cons a as ih => exact ⟨hCD s a h.1, ih h.2⟩

/-- The run rule for a total machine. -/
theorem exec_inv {C : σ → α → Prop} {I : σ → Prop} (hstep : ∀ s a, I s → C s a → I (f s a))
    {s : σ} {as : List α} (hI : I s) (hC : ExecMeets f C s as) : I (exec f s as) := by
  induction as generalizing s with
  | nil => exact hI
  | cons a as ih => exact ih (hstep s a hI hC.1) hC.2

/-- What one action of the list brings about from any state in `I`, and every
action keeps, holds at the end. -/
theorem exec_reaches {I Q : σ → Prop} {as : List α} {a : α} (ha : a ∈ as)
    (hI : ∀ s b, I s → I (f s b)) (hQ : ∀ s b, Q s → Q (f s b)) (hreach : ∀ s, I s → Q (f s a))
    {s : σ} (hs : I s) : Q (exec f s as) := by
  have hkeep : ∀ (s : σ) (bs : List α), Q s → Q (exec f s bs) := fun s bs h =>
    exec_inv (fun s b h _ => hQ s b h) h
      (ExecMeets.of_forall (C := fun _ _ => True) (fun _ _ => trivial) s bs)
  induction as generalizing s with
  | nil => cases ha
  | cons b as ih =>
      rcases List.mem_cons.mp ha with rfl | hin
      · exact hkeep _ as (hreach s hs)
      · exact ih hin (hI s b hs)

/-- Two conditions that agree where the invariant holds are met by the same lists. The invariant
has to be kept by the actions of the list only. -/
theorem execMeets_congr {C D : σ → α → Prop} {I : σ → Prop} {as : List α}
    (hI : ∀ s, ∀ a ∈ as, I s → I (f s a)) (hCD : ∀ s, ∀ a ∈ as, I s → (C s a ↔ D s a))
    {s : σ} (hs : I s) : ExecMeets f C s as ↔ ExecMeets f D s as := by
  induction as generalizing s with
  | nil => exact Iff.rfl
  | cons a as ih =>
      have hrest := ih (fun s b hb => hI s b (List.mem_cons_of_mem a hb))
        (fun s b hb => hCD s b (List.mem_cons_of_mem a hb)) (hI s a List.mem_cons_self hs)
      exact and_congr (hCD s a List.mem_cons_self hs) hrest

/-! ## Descent -/

/-- How many actions of the list meet `C` in the state before them. -/
def hits (f : σ → α → σ) (C : σ → α → Prop) [∀ s a, Decidable (C s a)] : σ → List α → ℕ
  | _, [] => 0
  | s, a :: as => (if C s a then 1 else 0) + hits f C (f s a) as

/-- **The descent rule.** A measure no action raises, and every action that meets
`C` lowers, bounds how many of them meet `C`. -/
theorem hits_le {C : σ → α → Prop} [∀ s a, Decidable (C s a)] {I : σ → Prop} {μ : σ → ℕ}
    {as : List α} (hI : ∀ s, ∀ a ∈ as, I s → I (f s a))
    (hle : ∀ s, ∀ a ∈ as, I s → μ (f s a) ≤ μ s) {s : σ} (hs : I s)
    (hlt : ExecMeets f (fun s a => C s a → μ (f s a) < μ s) s as) : hits f C s as ≤ μ s := by
  induction as generalizing s with
  | nil => exact Nat.zero_le _
  | cons a as ih =>
      have hrest := ih (fun s b hb => hI s b (List.mem_cons_of_mem a hb))
        (fun s b hb => hle s b (List.mem_cons_of_mem a hb)) (hI s a List.mem_cons_self hs) hlt.2
      have hstep := hle s a List.mem_cons_self hs
      unfold hits
      by_cases hC : C s a
      · have hdrop := hlt.1 hC
        rw [if_pos hC]
        omega
      · rw [if_neg hC]
        omega

end Total

end Machine
