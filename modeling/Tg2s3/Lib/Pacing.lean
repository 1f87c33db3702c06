/-
Intervals one after the other on a time line.

A grant starts at some instant and takes the line for a span. Grants that come one after
the other never overlap: each starts when the one before it is over, or later. So what
starts within an interval fills it once at most, but for the last one, which may stick out
(`sum_span_le`). The time line is any ordered field.
-/
import Mathlib.Algebra.Order.Field.Basic
import Mathlib.Algebra.BigOperators.Group.List.Basic
import Mathlib.Tactic.Linarith

set_option autoImplicit false

namespace Pacing

structure Grant (K : Type*) where
  start : K
  span : K
  deriving DecidableEq

section Spaced

variable {K : Type*} [Add K] [LE K]

/-- Each grant starts after those before it are over. -/
def Spaced (grants : List (Grant K)) : Prop :=
  grants.Pairwise fun g g' => g.start + g.span ≤ g'.start

end Spaced

variable {K : Type*} [Field K] [LinearOrder K] [IsStrictOrderedRing K]

/-- **The interval is filled once**, up to the last grant: by induction on the grants, the
interval being what is left after the first one. -/
theorem sum_span_le {grants : List (Grant K)} {a b m : K} (hspaced : Spaced grants)
    (hle : a ≤ b) (hm : 0 ≤ m) (hstart : ∀ g ∈ grants, a ≤ g.start ∧ g.start ≤ b)
    (hspan : ∀ g ∈ grants, g.span ≤ m) : (grants.map (·.span)).sum ≤ (b - a) + m := by
  induction grants generalizing a with
  | nil =>
      rw [List.map_nil, List.sum_nil]
      linarith
  | cons g rest ih =>
      obtain ⟨hfirst, hrest⟩ := List.pairwise_cons.mp hspaced
      obtain ⟨ha, hb⟩ := hstart g List.mem_cons_self
      rw [List.map_cons, List.sum_cons]
      cases rest with
      | nil =>
          have := hspan g List.mem_cons_self
          rw [List.map_nil, List.sum_nil]
          linarith
      | cons g' rest =>
          -- the rest starts after `g` is over, within the interval
          have hnext := hfirst g' List.mem_cons_self
          have hnext' := (hstart g' (List.mem_cons_of_mem _ List.mem_cons_self)).2
          have hsum := ih hrest (a := g.start + g.span) (by linarith)
            (fun x hx => ⟨hfirst x hx, (hstart x (List.mem_cons_of_mem _ hx)).2⟩)
            (fun x hx => hspan x (List.mem_cons_of_mem _ hx))
          linarith

end Pacing
