/-
From where to where a list of actions leads.

A function that calls a machine several times leaves behind a list of its actions, each of
which was called under some condition `C` on the state it found. `Leads f C s t` says that
there is such a list from `s` to `t`, and forgets the list: it composes (`Leads.trans`), and
what every action under `C` keeps, holds in the end (`Leads.inv`). A function is read once, as
a trace, and every invariant of the machine is then one of the function too.
-/
import Tg2s3.Lib.Run

set_option autoImplicit false

namespace Machine

variable {σ α : Type*} {f : σ → α → σ} {C D : σ → α → Prop} {s t u : σ}

/-- Actions that all meet `C` lead from `s` to `t`. -/
def Leads (f : σ → α → σ) (C : σ → α → Prop) (s t : σ) : Prop :=
  ∃ as, ExecMeets f C s as ∧ exec f s as = t

namespace Leads

theorem refl (s : σ) : Leads f C s s := ⟨[], trivial, rfl⟩

/-- One action leads to where it ends. -/
theorem single {a : α} (h : C s a) : Leads f C s (f s a) := ⟨[a], ⟨h, trivial⟩, rfl⟩

/-- Two ways one after the other are a way. -/
theorem trans (h : Leads f C s t) (h' : Leads f C t u) : Leads f C s u := by
  obtain ⟨as, has, rfl⟩ := h
  obtain ⟨bs, hbs, rfl⟩ := h'
  exact ⟨as ++ bs, execMeets_append.mpr ⟨has, hbs⟩, exec_append s as bs⟩

/-- A weaker condition allows the same way. -/
theorem mono (hCD : ∀ s a, C s a → D s a) (h : Leads f C s t) : Leads f D s t := by
  obtain ⟨as, has, rfl⟩ := h
  exact ⟨as, has.mono hCD, rfl⟩

/-- **The trace rule.** What the actions under `C` keep, holds where they lead. -/
theorem inv {I : σ → Prop} (hstep : ∀ s a, I s → C s a → I (f s a)) (hI : I s)
    (h : Leads f C s t) : I t := by
  obtain ⟨as, has, rfl⟩ := h
  exact exec_inv hstep hI has

end Leads

end Machine
