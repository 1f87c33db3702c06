/-
Pieces of work that are done in any order.

Somebody hands out pieces one after the other; each is running until its result comes
back, and the results come in any order. `Returned` keeps the account: what was handed
out is what has a result and what is still running. When nothing runs any more, sorting
the results by a key that follows the order of the pieces puts them against the pieces
one by one (`Returned.sorted`). That is all that a caller needs who wants the outcome to
be independent of the order.
-/
import Mathlib.Data.List.Basic
import Mathlib.Data.List.Sort
import Mathlib.Data.List.Perm.Basic
import Mathlib.Tactic.Common

set_option autoImplicit false

namespace Assembly

variable {π β : Type*} {R : π → β → Prop}

/-- What was sent has a result of its own or is still running. -/
def Returned (R : π → β → Prop) (sent running : List π) (results : List β) : Prop :=
  ∃ done : List π, (done ++ running).Perm sent ∧ List.Forall₂ R done results

theorem returned_nil : Returned R [] [] [] := ⟨[], .refl _, .nil⟩

namespace Returned

variable {sent running : List π} {results : List β}

theorem send (h : Returned R sent running results) (piece : π) :
    Returned R (sent ++ [piece]) (running ++ [piece]) results := by
  obtain ⟨done, hperm, hresults⟩ := h
  refine ⟨done, ?_, hresults⟩
  rw [← List.append_assoc]
  exact hperm.append_right [piece]

/-- One of the running pieces comes back. -/
theorem finish (h : Returned R sent running results) {piece : π} {rest : List π} {result : β}
    (hrunning : running.Perm (piece :: rest)) (hresult : R piece result) :
    Returned R sent rest (results ++ [result]) := by
  obtain ⟨done, hperm, hresults⟩ := h
  refine ⟨done ++ [piece], ?_, List.rel_append hresults (.cons hresult .nil)⟩
  rw [List.append_assoc]
  exact (List.Perm.append_left done hrunning.symm).trans hperm

/-- The order of the results does not matter. -/
theorem perm (h : Returned R sent running results) {results' : List β}
    (hresults' : results.Perm results') : Returned R sent running results' := by
  obtain ⟨done, hperm, hresults⟩ := h
  have hcomp : Relation.Comp List.Perm (List.Forall₂ R) done results' := by
    rw [← List.forall₂_comp_perm_eq_perm_comp_forall₂]
    exact ⟨results, hresults, hresults'⟩
  obtain ⟨done', hdone, hback⟩ := hcomp
  exact ⟨done', (hdone.symm.append_right running).trans hperm, hback⟩

/-- When nothing runs, every piece has its result. -/
theorem complete (h : Returned R sent [] results) :
    ∃ ordered, ordered.Perm results ∧ List.Forall₂ R sent ordered := by
  obtain ⟨done, hperm, hresults⟩ := h
  rw [List.append_nil] at hperm
  obtain ⟨ordered, hordered, hback⟩ := List.perm_comp_forall₂ hperm.symm hresults
  exact ⟨ordered, hback, hordered⟩

end Returned

/-! ## Putting the results in order -/

section Order

variable {rank : π → Int} {key : β → Int}

theorem pairwise_key {sent : List π} {ordered : List β} (h : List.Forall₂ R sent ordered)
    (hkey : ∀ piece result, R piece result → key result = rank piece)
    (hrank : sent.Pairwise (rank · < rank ·)) : ordered.Pairwise (key · < key ·) := by
  have hmap : ordered.map key = sent.map rank := by
    induction h with
    | nil => rfl
    | cons hresult _ ih =>
        rw [List.map_cons, List.map_cons, hkey _ _ hresult, ih (List.pairwise_cons.mp hrank).2]
  have hkeys : (ordered.map key).Pairwise (· < ·) := by
    rw [hmap, List.pairwise_map]
    exact hrank
  exact List.pairwise_map.mp hkeys

/-- Sorting a list whose keys are distinct gives the one list that is in order. -/
theorem insertionSort_eq_of_perm {ordered results : List β} (hperm : ordered.Perm results)
    (hordered : ordered.Pairwise (key · < key ·)) :
    results.insertionSort (key · ≤ key ·) = ordered := by
  have : IsTrans β (key · ≤ key ·) := ⟨fun _ _ _ h₁ h₂ => le_trans h₁ h₂⟩
  have : Std.Total (fun a b : β => key a ≤ key b) := ⟨fun a b => le_total (key a) (key b)⟩
  have hsort : (results.insertionSort (key · ≤ key ·)).Perm ordered :=
    (List.perm_insertionSort _ results).trans hperm.symm
  have hkeys : (ordered.map key).Nodup :=
    (List.pairwise_map.mpr hordered).imp (fun h => ne_of_lt h)
  refine List.Perm.eq_of_pairwise (fun a b ha hb hab hba => ?_)
    (List.pairwise_insertionSort _ results) (hordered.imp (fun h => le_of_lt h)) hsort
  exact List.inj_on_of_nodup_map hkeys (hsort.mem_iff.mp ha) hb (le_antisymm hab hba)

/-- **Results in order**: whatever order they came in, the sorted results stand against
the pieces as they were sent. -/
theorem Returned.sorted {sent : List π} {results : List β} (h : Returned R sent [] results)
    (hkey : ∀ piece result, R piece result → key result = rank piece)
    (hrank : sent.Pairwise (rank · < rank ·)) :
    List.Forall₂ R sent (results.insertionSort (key · ≤ key ·)) := by
  obtain ⟨ordered, hperm, hordered⟩ := h.complete
  rw [insertionSort_eq_of_perm hperm (pairwise_key hordered hkey hrank)]
  exact hordered

end Order

end Assembly
