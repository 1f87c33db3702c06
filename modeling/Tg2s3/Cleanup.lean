/-
`src/transfer/cleanup.rs`: does the registry of an upload lose a block?

The tasks of an upload register the blocks they have staged; the guard of the upload cleans
them up when it fails, drops them into a cleanup of their own when it is cancelled, and
forgets them when it succeeds. All of them run side by side, and only what happens under the
mutex is one step. So every action here is one lock section, one spawn, or the start of one
cleanup, and a run is any list of them: tasks register before, between and after the steps of
the owner, and the owner may be cancelled at its await and start again.

`Accounted` says where a registered reference is: with the registry, with a guard that has
taken it and is about to spawn its cleanup, with a spawned cleanup, or where it ends. A
reference ends in a cleanup or in a disarm, with one exception: `spawn_cleanup` needs a
running Tokio runtime, and without one it writes an error and lets the references go.

A reference that comes to a closed guard is the registering task's own business, before and
after a disarm. That makes no difference to `upload`, which disarms only a guard that has
never been closed.
-/
import Tg2s3.Lib.Run
import Tg2s3.Transfer

set_option autoImplicit false

namespace Tg2s3.Cleanup

open Machine

/-! ## The registry -/

/-- One call of `register`. The registry holds references; the number of the call tells two
equal ones apart. -/
structure Registration where
  number : ℕ
  reference : BlockRef
  deriving DecidableEq, Repr

/-- What the mutex protects. -/
structure CleanupState where
  closed : Bool := false
  references : List Registration := []
  deriving DecidableEq, Repr

namespace CleanupState

variable (state : CleanupState)

/-- The lock section of `register`, and whether the caller has to clean up itself. -/
def register (registration : Registration) : CleanupState × Bool :=
  if state.closed then (state, true)
  else ({ state with references := state.references ++ [registration] }, false)

def close_and_take : CleanupState × List Registration :=
  ({ closed := true, references := [] }, state.references)

def close : CleanupState := { state with closed := true }

def snapshot : List Registration := state.references

def clear : CleanupState := { state with references := [] }

end CleanupState

/-! ## The owner, the tasks and the runtime -/

/-- Where the owner of the guard is. -/
inductive Position
  | idle
  /-- in `cleanup`, after `close` -/
  | closed
  /-- in `cleanup`, after `snapshot` -/
  | snapshotted (references : List Registration)
  /-- in `cleanup`, at its await -/
  | cleaning (references : List Registration)
  /-- in `cleanup`, after `clear` -/
  | cleared
  /-- in `drop`, before `spawn_cleanup` -/
  | dropping (references : List Registration)
  | gone
  deriving DecidableEq, Repr

/-- Who spawns a cleanup. -/
inductive Cleaner
  | task
  | guard
  deriving DecidableEq, Repr

abbrev Job := Cleaner × List Registration

structure World where
  state : CleanupState := {}
  armed : Bool := true
  position : Position := .idle
  /-- the tasks that found the guard closed and have yet to call `spawn_cleanup` -/
  spawning : List Registration := []
  /-- the cleanups that are spawned and have not begun -/
  spawned : List Job := []
  /-- all calls of `register` so far -/
  registered : List Registration := []
  /-- those of them that found the guard closed -/
  late : List Registration := []
  /-- what was passed to `cleanup_block_refs`, and on whose behalf -/
  passed : List (Cleaner × Registration) := []
  /-- what the registry held when it was disarmed -/
  discarded : List Registration := []
  /-- what `spawn_cleanup` let go without a runtime -/
  unscheduled : List Registration := []
  deriving DecidableEq, Repr

/-- Whether there is a runtime is an answer of `Handle::try_current`. -/
def spawn_cleanup (w : World) (job : Job) (runtime : Bool) : World :=
  if job.2 = [] then w
  else if runtime then { w with spawned := w.spawned ++ [job] }
  else { w with unscheduled := w.unscheduled ++ job.2 }

/-- `cleanup_block_refs` is called. -/
def pass (w : World) (job : Job) : World :=
  { w with passed := w.passed ++ job.2.map fun registration => (job.1, registration) }

inductive Action
  | register (reference : BlockRef)
  /-- the task that registered this goes on -/
  | spawn (registration : Registration) (runtime : Bool)
  /-- a spawned cleanup begins -/
  | start (job : Job)
  | close
  | snapshot
  | clean
  | clear
  | finish
  /-- the owner is cancelled at its await -/
  | cancel
  | disarm
  | drop
  | spawn_taken (runtime : Bool)
  deriving DecidableEq, Repr

def step (w : World) : Action → Option World
  | .register reference =>
      let registration : Registration := { number := w.registered.length, reference := reference }
      let (state, cleanup_now) := w.state.register registration
      some { w with
        state := state
        spawning := if cleanup_now then w.spawning ++ [registration] else w.spawning
        registered := w.registered ++ [registration]
        late := if cleanup_now then w.late ++ [registration] else w.late }
  | .spawn registration runtime =>
      if registration ∈ w.spawning then
        some (spawn_cleanup { w with spawning := w.spawning.erase registration }
          (.task, [registration]) runtime)
      else none
  | .start job =>
      if job ∈ w.spawned then some (pass { w with spawned := w.spawned.erase job } job) else none
  | .close =>
      match w.position with
      | .idle => some { w with state := w.state.close, position := .closed }
      | _ => none
  | .snapshot =>
      match w.position with
      | .closed => some { w with position := .snapshotted w.state.snapshot }
      | _ => none
  | .clean =>
      match w.position with
      | .snapshotted references =>
          some (pass { w with position := .cleaning references } (.guard, references))
      | _ => none
  | .clear =>
      match w.position with
      | .cleaning _ => some { w with state := w.state.clear, position := .cleared }
      | _ => none
  | .finish =>
      match w.position with
      | .cleared => some { w with armed := false, position := .idle }
      | _ => none
  | .cancel =>
      match w.position with
      | .cleaning _ => some { w with position := .idle }
      | _ => none
  | .disarm =>
      -- the drop that follows finds the guard unarmed
      match w.position with
      | .idle =>
          let (state, references) := w.state.close_and_take
          some { w with
            armed := false
            state := state
            position := .gone
            discarded := w.discarded ++ references }
      | _ => none
  | .drop =>
      match w.position with
      | .idle =>
          if w.armed then
            let (state, references) := w.state.close_and_take
            some { w with armed := false, state := state, position := .dropping references }
          else some { w with position := .gone }
      | _ => none
  | .spawn_taken runtime =>
      match w.position with
      | .dropping references =>
          some (spawn_cleanup { w with position := .gone } (.guard, references) runtime)
      | _ => none

/-- Nothing is under way any more: the guard is gone, no task is about to spawn, and no spawned
cleanup waits for its start. -/
def Settled (w : World) : Prop := w.position = .gone ∧ w.spawning = [] ∧ w.spawned = []

instance (w : World) : Decidable (Settled w) := inferInstanceAs (Decidable (_ ∧ _))

/-- A disarm came after the registration. -/
def Disarmed (actions : List Action) (registration : Registration) : Prop :=
  ∃ before after w, actions = before ++ .disarm :: after
    ∧ run step {} before = some w ∧ registration ∈ w.registered

/-- `Handle::try_current` finds a runtime. -/
def HasRuntime : Action → Prop
  | .spawn _ runtime => runtime = true
  | .spawn_taken runtime => runtime = true
  | _ => True

instance (a : Action) : Decidable (HasRuntime a) := by
  unfold HasRuntime
  split <;> infer_instance

/-! ## What a step does -/

section Spawning

variable (w : World) (job : Job) (runtime : Bool)

@[simp] theorem state_spawn_cleanup : (spawn_cleanup w job runtime).state = w.state := by
  unfold spawn_cleanup
  split_ifs <;> rfl

@[simp] theorem armed_spawn_cleanup : (spawn_cleanup w job runtime).armed = w.armed := by
  unfold spawn_cleanup
  split_ifs <;> rfl

@[simp] theorem position_spawn_cleanup : (spawn_cleanup w job runtime).position = w.position := by
  unfold spawn_cleanup
  split_ifs <;> rfl

@[simp] theorem spawning_spawn_cleanup : (spawn_cleanup w job runtime).spawning = w.spawning := by
  unfold spawn_cleanup
  split_ifs <;> rfl

@[simp] theorem registered_spawn_cleanup :
    (spawn_cleanup w job runtime).registered = w.registered := by
  unfold spawn_cleanup
  split_ifs <;> rfl

@[simp] theorem late_spawn_cleanup : (spawn_cleanup w job runtime).late = w.late := by
  unfold spawn_cleanup
  split_ifs <;> rfl

@[simp] theorem passed_spawn_cleanup : (spawn_cleanup w job runtime).passed = w.passed := by
  unfold spawn_cleanup
  split_ifs <;> rfl

@[simp] theorem discarded_spawn_cleanup :
    (spawn_cleanup w job runtime).discarded = w.discarded := by
  unfold spawn_cleanup
  split_ifs <;> rfl

/-- Nothing is let go where there is a runtime. -/
theorem unscheduled_spawn_cleanup : (spawn_cleanup w job true).unscheduled = w.unscheduled := by
  unfold spawn_cleanup
  rw [if_pos rfl]
  split_ifs <;> rfl

variable {w job runtime}

/-- What was spawned or let go stays so. -/
theorem subset_spawned {l : List Job} (h : l ⊆ w.spawned) :
    l ⊆ (spawn_cleanup w job runtime).spawned := by
  unfold spawn_cleanup
  split_ifs
  · exact h
  · exact List.subset_append_of_subset_left _ h
  · exact h

theorem subset_unscheduled {l : List Registration} (h : l ⊆ w.unscheduled) :
    l ⊆ (spawn_cleanup w job runtime).unscheduled := by
  unfold spawn_cleanup
  split_ifs
  · exact h
  · exact h
  · exact List.subset_append_of_subset_left _ h

theorem mem_spawned {j : Job} (h : j ∈ (spawn_cleanup w job runtime).spawned) :
    j ∈ w.spawned ∨ j = job := by
  unfold spawn_cleanup at h
  split_ifs at h
  · exact Or.inl h
  · exact (List.mem_append.mp h).imp_right List.mem_singleton.mp
  · exact Or.inl h

/-- A reference of the job is spawned with it or let go. -/
theorem spawned_or_unscheduled (w : World) {job : Job} (runtime : Bool) {r : Registration}
    (h : r ∈ job.2) :
    job ∈ (spawn_cleanup w job runtime).spawned
      ∨ r ∈ (spawn_cleanup w job runtime).unscheduled := by
  unfold spawn_cleanup
  rw [if_neg (List.ne_nil_of_mem h)]
  split_ifs
  · exact Or.inl (List.mem_append_right _ (List.mem_singleton.mpr rfl))
  · exact Or.inr (List.mem_append_right _ h)

end Spawning

/-- The steps, one by one, with what they ask of the state. -/
inductive Effect (w : World) : Action → World → Prop
  | hold {reference : BlockRef} (hopen : w.state.closed = false) :
      Effect w (.register reference) { w with
        state := { w.state with references := w.state.references ++ [⟨w.registered.length, reference⟩] }
        registered := w.registered ++ [⟨w.registered.length, reference⟩] }
  | refuse {reference : BlockRef} (hclosed : w.state.closed = true) :
      Effect w (.register reference) { w with
        spawning := w.spawning ++ [⟨w.registered.length, reference⟩]
        registered := w.registered ++ [⟨w.registered.length, reference⟩]
        late := w.late ++ [⟨w.registered.length, reference⟩] }
  | spawn {r : Registration} {runtime : Bool} (hspawning : r ∈ w.spawning) :
      Effect w (.spawn r runtime)
        (spawn_cleanup { w with spawning := w.spawning.erase r } (.task, [r]) runtime)
  | start {job : Job} (hspawned : job ∈ w.spawned) :
      Effect w (.start job) (pass { w with spawned := w.spawned.erase job } job)
  | close (hposition : w.position = .idle) :
      Effect w .close { w with state := w.state.close, position := .closed }
  | snapshot (hposition : w.position = .closed) :
      Effect w .snapshot { w with position := .snapshotted w.state.references }
  | clean {references : List Registration} (hposition : w.position = .snapshotted references) :
      Effect w .clean (pass { w with position := .cleaning references } (.guard, references))
  | clear {references : List Registration} (hposition : w.position = .cleaning references) :
      Effect w .clear { w with state := w.state.clear, position := .cleared }
  | finish (hposition : w.position = .cleared) :
      Effect w .finish { w with armed := false, position := .idle }
  | cancel {references : List Registration} (hposition : w.position = .cleaning references) :
      Effect w .cancel { w with position := .idle }
  | disarm (hposition : w.position = .idle) :
      Effect w .disarm { w with
        armed := false
        state := { closed := true, references := [] }
        position := .gone
        discarded := w.discarded ++ w.state.references }
  | drop (hposition : w.position = .idle) (harmed : w.armed = true) :
      Effect w .drop { w with
        armed := false
        state := { closed := true, references := [] }
        position := .dropping w.state.references }
  | drop_unarmed (hposition : w.position = .idle) (harmed : w.armed = false) :
      Effect w .drop { w with position := .gone }
  | spawn_taken {references : List Registration} {runtime : Bool}
      (hposition : w.position = .dropping references) :
      Effect w (.spawn_taken runtime)
        (spawn_cleanup { w with position := .gone } (.guard, references) runtime)

/-- **What a step can do** to the registry, the guard and the jobs. Every invariant below is
derived from these cases, without opening the step function again. -/
theorem effect_of_step {w w' : World} {a : Action} (h : step w a = some w') : Effect w a w' := by
  cases a with
  | register reference =>
      simp only [step] at h
      by_cases hclosed : w.state.closed = true
      · have hregister : ∀ r, w.state.register r = (w.state, true) := fun _ => if_pos hclosed
        rw [hregister] at h
        obtain rfl := Option.some.inj h
        exact .refuse hclosed
      · have hregister : ∀ r, w.state.register r
            = ({ w.state with references := w.state.references ++ [r] }, false) :=
          fun _ => if_neg hclosed
        rw [hregister] at h
        obtain rfl := Option.some.inj h
        exact .hold (Bool.eq_false_iff.mpr hclosed)
  | spawn r runtime =>
      simp only [step] at h
      split_ifs at h with hspawning
      obtain rfl := Option.some.inj h
      exact .spawn hspawning
  | start job =>
      simp only [step] at h
      split_ifs at h with hspawned
      obtain rfl := Option.some.inj h
      exact .start hspawned
  | drop =>
      simp only [step] at h
      split at h
      · rename_i hposition
        split_ifs at h with harmed
        · obtain rfl := Option.some.inj h
          exact .drop hposition harmed
        · obtain rfl := Option.some.inj h
          exact .drop_unarmed hposition (Bool.eq_false_iff.mpr harmed)
      · cases h
  | close | snapshot | clean | clear | finish | cancel | disarm | spawn_taken runtime =>
      simp only [step] at h
      split at h
      · rename_i hposition
        obtain rfl := Option.some.inj h
        constructor
        exact hposition
      · cases h

/-! ## The guard -/

/-- The flags of the guard, and what its owner has in hand. -/
structure Guard (w : World) : Prop where
  closed : w.position ≠ .idle ∨ w.armed = false → w.state.closed = true
  empty : w.armed = false → w.state.references = []
  ended : w.position = .gone ∨ (∃ references, w.position = .dropping references) → w.armed = false
  cleared : w.position = .cleared → w.state.references = []
  snapshotted : ∀ references, w.position = .snapshotted references →
    w.state.references = references
  cleaning : ∀ references, w.position = .cleaning references →
    ∀ r ∈ w.state.references, (Cleaner.guard, r) ∈ w.passed

/-- Nothing has been registered, and the guard is armed. -/
theorem guard_init : Guard {} where
  closed := by simp
  empty := by simp
  ended := by simp
  cleared := by simp
  snapshotted := by simp
  cleaning := by simp

/-- What the tasks and the runtime do leaves the guard alone. -/
theorem Guard.same {w w' : World} (h : Guard w) (hstate : w'.state = w.state)
    (harmed : w'.armed = w.armed) (hposition : w'.position = w.position)
    (hpassed : w.passed ⊆ w'.passed) : Guard w' where
  closed := by rw [hstate, harmed, hposition]; exact h.closed
  empty := by rw [hstate, harmed]; exact h.empty
  ended := by rw [harmed, hposition]; exact h.ended
  cleared := by rw [hstate, hposition]; exact h.cleared
  snapshotted := by rw [hstate, hposition]; exact h.snapshotted
  cleaning := by
    rw [hstate, hposition]
    exact fun references heq r hr => hpassed (h.cleaning references heq r hr)

/-- One step of any party, in any interleaving of their lock sections. -/
theorem guard_step {w w' : World} {a : Action} (h : Guard w) (hstep : step w a = some w') :
    Guard w' := by
  cases effect_of_step hstep with
  | hold hopen =>
      -- an open guard is armed and its owner is idle
      have hidle : w.position = .idle := by
        by_contra hne
        rw [h.closed (Or.inl hne)] at hopen
        cases hopen
      have harmed : w.armed = true := by
        by_contra hne
        rw [h.closed (Or.inr (Bool.eq_false_iff.mpr hne))] at hopen
        cases hopen
      constructor <;> simp [hidle, harmed]
  | refuse hclosed => exact h.same rfl rfl rfl (List.Subset.refl _)
  | spawn hspawning => exact h.same (by simp) (by simp) (by simp) (by simp)
  | start hspawned => exact h.same rfl rfl rfl (List.subset_append_left _ _)
  | close hposition =>
      constructor <;> simp [CleanupState.close]
      exact h.empty
  | snapshot hposition =>
      have hclosed := h.closed (Or.inl (by simp [hposition]))
      constructor <;> simp [hclosed]
      exact h.empty
  | clean hposition =>
      have hclosed := h.closed (Or.inl (by simp [hposition]))
      have hheld := h.snapshotted _ hposition
      constructor <;> simp [pass, hclosed, hheld]
      · exact fun harmed => hheld ▸ h.empty harmed
      · exact fun r hr => Or.inr hr
  | clear hposition =>
      have hclosed := h.closed (Or.inl (by simp [hposition]))
      constructor <;> simp [CleanupState.clear, hclosed]
  | finish hposition =>
      have hclosed := h.closed (Or.inl (by simp [hposition]))
      constructor <;> simp [hclosed, h.cleared hposition]
  | cancel hposition =>
      have hclosed := h.closed (Or.inl (by simp [hposition]))
      constructor <;> simp [hclosed]
      exact h.empty
  | disarm hposition => constructor <;> simp
  | drop hposition harmed => constructor <;> simp
  | drop_unarmed hposition harmed =>
      constructor <;> simp [harmed, h.closed (Or.inr harmed), h.empty harmed]
  | spawn_taken hposition =>
      have harmed := h.ended (Or.inr ⟨_, hposition⟩)
      constructor <;> simp [harmed, h.closed (Or.inr harmed), h.empty harmed]

/-! ## Where a reference is -/

/-- One that found the guard closed is with its task, with the cleanup of that task, or where
the task has brought it. -/
def WithTask (w : World) (r : Registration) : Prop :=
  r ∈ w.spawning ∨ (Cleaner.task, [r]) ∈ w.spawned ∨ (Cleaner.task, r) ∈ w.passed
    ∨ r ∈ w.unscheduled

/-- One that found it open is with the registry, with the guard that was dropped, with its
cleanup, or where the guard has brought it. -/
def WithGuard (w : World) (r : Registration) : Prop :=
  r ∈ w.state.references
    ∨ (∃ references, w.position = .dropping references ∧ r ∈ references)
    ∨ (∃ references, (Cleaner.guard, references) ∈ w.spawned ∧ r ∈ references)
    ∨ (Cleaner.guard, r) ∈ w.passed ∨ r ∈ w.discarded ∨ r ∈ w.unscheduled

section Places

variable {w w' : World} {a : Action} {r : Registration}

/-- A reference that a task has in its hands stays there while the lists of jobs grow. -/
theorem WithTask.mono (h : WithTask w r) (hspawning : w.spawning ⊆ w'.spawning)
    (hspawned : w.spawned ⊆ w'.spawned) (hpassed : w.passed ⊆ w'.passed)
    (hunscheduled : w.unscheduled ⊆ w'.unscheduled) : WithTask w' r := by
  rcases h with h | h | h | h
  · exact Or.inl (hspawning h)
  · exact Or.inr (Or.inl (hspawned h))
  · exact Or.inr (Or.inr (Or.inl (hpassed h)))
  · exact Or.inr (Or.inr (Or.inr (hunscheduled h)))

/-- And so does one that the guard will see. -/
theorem WithGuard.mono (h : WithGuard w r)
    (hreferences : w.state.references ⊆ w'.state.references)
    (hposition : ∀ references, w.position = .dropping references →
      w'.position = .dropping references)
    (hspawned : w.spawned ⊆ w'.spawned) (hpassed : w.passed ⊆ w'.passed)
    (hdiscarded : w.discarded ⊆ w'.discarded)
    (hunscheduled : w.unscheduled ⊆ w'.unscheduled) : WithGuard w' r := by
  rcases h with h | ⟨references, h, hr⟩ | ⟨references, h, hr⟩ | h | h | h
  · exact Or.inl (hreferences h)
  · exact Or.inr (Or.inl ⟨references, hposition references h, hr⟩)
  · exact Or.inr (Or.inr (Or.inl ⟨references, hspawned h, hr⟩))
  · exact Or.inr (Or.inr (Or.inr (Or.inl (hpassed h))))
  · exact Or.inr (Or.inr (Or.inr (Or.inr (Or.inl (hdiscarded h)))))
  · exact Or.inr (Or.inr (Or.inr (Or.inr (Or.inr (hunscheduled h)))))

/-- A reference moves from the task to its cleanup and on, and is never let out of sight. -/
theorem withTask_step (hstep : step w a = some w') (h : WithTask w r) : WithTask w' r := by
  cases effect_of_step hstep with
  | refuse hclosed => exact h.mono (List.subset_append_left _ _) (by simp) (by simp) (by simp)
  | @spawn r₀ runtime hspawning =>
      rcases h with hr | hr
      · by_cases heq : r = r₀
        · subst heq
          have hself : r ∈ (Cleaner.task, [r]).2 := List.mem_singleton.mpr rfl
          rcases spawned_or_unscheduled { w with spawning := w.spawning.erase r } runtime hself
            with h | h
          · exact Or.inr (Or.inl h)
          · exact Or.inr (Or.inr (Or.inr h))
        · refine Or.inl ?_
          rw [spawning_spawn_cleanup]
          exact (List.mem_erase_of_ne heq).mpr hr
      · rcases hr with hr | hr | hr
        · exact Or.inr (Or.inl (subset_spawned (List.Subset.refl _) hr))
        · exact Or.inr (Or.inr (Or.inl (by rw [passed_spawn_cleanup]; exact hr)))
        · exact Or.inr (Or.inr (Or.inr (subset_unscheduled (List.Subset.refl _) hr)))
  | @start job hspawned =>
      rcases h with hr | hr | hr | hr
      · exact Or.inl hr
      · by_cases heq : (Cleaner.task, [r]) = job
        · subst heq
          exact Or.inr (Or.inr (Or.inl (List.mem_append_right _ (by simp))))
        · exact Or.inr (Or.inl ((List.mem_erase_of_ne heq).mpr hr))
      · exact Or.inr (Or.inr (Or.inl (List.mem_append_left _ hr)))
      · exact Or.inr (Or.inr (Or.inr hr))
  | clean hposition => exact h.mono (by simp [pass]) (by simp [pass]) (by simp [pass]) (by simp [pass])
  | spawn_taken hposition =>
      exact h.mono (by simp) (subset_spawned (List.Subset.refl _)) (by simp)
        (subset_unscheduled (List.Subset.refl _))
  | _ => exact h

/-- A reference moves from the registry to the guard, to its cleanup and on. -/
theorem withGuard_step (hguard : Guard w) (hstep : step w a = some w') (h : WithGuard w r) :
    WithGuard w' r := by
  cases effect_of_step hstep with
  | hold hopen =>
      exact h.mono (List.subset_append_left _ _) (by simp) (by simp) (by simp) (by simp) (by simp)
  | refuse hclosed => exact h
  | spawn hspawning =>
      exact h.mono (by simp) (by simp) (subset_spawned (List.Subset.refl _)) (by simp) (by simp)
        (subset_unscheduled (List.Subset.refl _))
  | @start job hspawned =>
      rcases h with hr | hr | ⟨references, hjob, hr⟩ | hr | hr
      · exact Or.inl hr
      · exact Or.inr (Or.inl hr)
      · -- the job that starts passes its references on; the others wait
        by_cases heq : (Cleaner.guard, references) = job
        · subst heq
          refine Or.inr (Or.inr (Or.inr (Or.inl (List.mem_append_right _ ?_))))
          exact List.mem_map.mpr ⟨r, hr, rfl⟩
        · exact Or.inr (Or.inr (Or.inl ⟨references, (List.mem_erase_of_ne heq).mpr hjob, hr⟩))
      · exact Or.inr (Or.inr (Or.inr (Or.inl (List.mem_append_left _ hr))))
      · exact Or.inr (Or.inr (Or.inr (Or.inr hr)))
  | clean hposition =>
      exact h.mono (by simp [pass]) (by simp [hposition]) (by simp [pass]) (by simp [pass])
        (by simp [pass]) (by simp [pass])
  | clear hposition =>
      rcases h with hr | hr
      · -- what is cleared has been passed on
        exact Or.inr (Or.inr (Or.inr (Or.inl (hguard.cleaning _ hposition r hr))))
      · refine Or.inr ?_
        rcases hr with ⟨references, heq, -⟩ | hr
        · rw [hposition] at heq
          cases heq
        · exact Or.inr hr
  | disarm hposition =>
      rcases h with hr | hr
      · -- a success disarms the guard: what is registered is kept on purpose
        exact Or.inr (Or.inr (Or.inr (Or.inr (Or.inl (List.mem_append_right _ hr)))))
      · refine WithGuard.mono (w := { w with state := { closed := true, references := [] } })
          (Or.inr hr) (by simp) (by simp [hposition]) (by simp) (by simp) (by simp) (by simp)
  | drop hposition harmed =>
      rcases h with hr | hr
      · -- a drop takes the whole registry with it
        exact Or.inr (Or.inl ⟨_, rfl, hr⟩)
      · refine WithGuard.mono (w := { w with state := { closed := true, references := [] } })
          (Or.inr hr) (by simp) (by simp [hposition]) (by simp) (by simp) (by simp) (by simp)
  | @spawn_taken references runtime hposition =>
      rcases h with hr | ⟨references', heq, hr⟩ | ⟨references', hjob, hr⟩ | hr | hr | hr
      · exact Or.inl (by rw [state_spawn_cleanup]; exact hr)
      · obtain rfl : references' = references := by
          rw [hposition] at heq
          exact (Position.dropping.inj heq).symm
        have htaken : r ∈ (Cleaner.guard, references').2 := hr
        -- with a runtime the job is spawned, without one it is reported
        rcases spawned_or_unscheduled { w with position := .gone } runtime htaken with h | h
        · exact Or.inr (Or.inr (Or.inl ⟨references', h, hr⟩))
        · exact Or.inr (Or.inr (Or.inr (Or.inr (Or.inr h))))
      · exact Or.inr (Or.inr (Or.inl ⟨references', subset_spawned (List.Subset.refl _) hjob, hr⟩))
      · exact Or.inr (Or.inr (Or.inr (Or.inl (by rw [passed_spawn_cleanup]; exact hr))))
      · exact Or.inr (Or.inr (Or.inr (Or.inr (Or.inl (by rw [discarded_spawn_cleanup]; exact hr)))))
      · exact Or.inr (Or.inr (Or.inr (Or.inr (Or.inr (subset_unscheduled (List.Subset.refl _) hr)))))
  | close hposition | snapshot hposition | finish hposition | cancel hposition
  | drop_unarmed hposition harmed =>
      exact h.mono (by simp [CleanupState.close]) (by simp [hposition]) (by simp) (by simp)
        (by simp) (by simp)

end Places

structure Accounted (w : World) : Prop where
  guard : Guard w
  numbered : ∀ r ∈ w.registered, r.number < w.registered.length
  held : w.state.references ⊆ w.registered
  late_registered : w.late ⊆ w.registered
  late_closed : w.state.closed = false → w.late = []
  spawning_late : w.spawning ⊆ w.late
  task_jobs : ∀ references, (Cleaner.task, references) ∈ w.spawned → references ⊆ w.late
  guard_jobs : ∀ references, (Cleaner.guard, references) ∈ w.spawned → w.position = .gone
  with_task : ∀ r ∈ w.late, WithTask w r
  with_guard : ∀ r ∈ w.registered, r ∉ w.late → WithGuard w r

/-- The next call gets the next number. -/
theorem numbered_append {l : List Registration} (h : ∀ r ∈ l, r.number < l.length)
    {reference : BlockRef} : ∀ r ∈ l ++ [⟨l.length, reference⟩],
      r.number < (l ++ [(⟨l.length, reference⟩ : Registration)]).length := by
  intro r hr
  rw [List.length_append, List.length_singleton]
  rcases List.mem_append.mp hr with hr | hr
  · have := h r hr
    omega
  · rw [List.mem_singleton.mp hr]
    exact Nat.lt_succ_self _

/-- There is nothing yet to account for. -/
theorem accounted_init : Accounted {} where
  guard := guard_init
  numbered := by simp
  held := by simp
  late_registered := by simp
  late_closed := by simp
  spawning_late := by simp
  task_jobs := by simp
  guard_jobs := by simp
  with_task := by simp
  with_guard := by simp

section Steps

variable {w w' : World} {a : Action} {r : Registration}

/-- A call of `register` is never forgotten, and neither is how it found the guard. -/
theorem registered_step (hstep : step w a = some w') :
    w.registered ⊆ w'.registered ∧ w.late ⊆ w'.late
      ∧ (∀ r ∈ w'.registered, r ∈ w.registered ∨ r.number = w.registered.length) := by
  cases effect_of_step hstep with
  | hold hopen =>
      refine ⟨List.subset_append_left _ _, List.Subset.refl _, fun r hr => ?_⟩
      refine (List.mem_append.mp hr).imp_right fun h => ?_
      rw [List.mem_singleton.mp h]
  | refuse hclosed =>
      refine ⟨List.subset_append_left _ _, List.subset_append_left _ _, fun r hr => ?_⟩
      refine (List.mem_append.mp hr).imp_right fun h => ?_
      rw [List.mem_singleton.mp h]
  | spawn hspawning =>
      rw [registered_spawn_cleanup, late_spawn_cleanup]
      exact ⟨List.Subset.refl _, List.Subset.refl _, fun r hr => Or.inl hr⟩
  | spawn_taken hposition =>
      rw [registered_spawn_cleanup, late_spawn_cleanup]
      exact ⟨List.Subset.refl _, List.Subset.refl _, fun r hr => Or.inl hr⟩
  | _ => exact ⟨List.Subset.refl _, List.Subset.refl _, fun r hr => Or.inl hr⟩

/-- A step that registers nothing and takes nothing away keeps the accounts. -/
theorem Accounted.same (h : Accounted w) (hstep : step w a = some w')
    (hstate : w'.state = w.state ∨ w'.state.closed = true ∧ w'.state.references ⊆ w.state.references)
    (hregistered : w'.registered = w.registered) (hlate : w'.late = w.late)
    (hspawning : w'.spawning ⊆ w.spawning)
    (htask : ∀ references, (Cleaner.task, references) ∈ w'.spawned → references ⊆ w.late)
    (hguard : ∀ references, (Cleaner.guard, references) ∈ w'.spawned → w'.position = .gone) :
    Accounted w' where
  guard := guard_step h.guard hstep
  numbered := by rw [hregistered]; exact h.numbered
  held := by
    rw [hregistered]
    rcases hstate with hstate | ⟨-, hsubset⟩
    · rw [hstate]
      exact h.held
    · exact List.Subset.trans hsubset h.held
  late_registered := by rw [hregistered, hlate]; exact h.late_registered
  late_closed := by
    rw [hlate]
    rcases hstate with hstate | ⟨hclosed, -⟩
    · rw [hstate]
      exact h.late_closed
    · rw [hclosed]
      exact fun hopen => (by cases hopen)
  spawning_late := by rw [hlate]; exact List.Subset.trans hspawning h.spawning_late
  task_jobs := by rw [hlate]; exact htask
  guard_jobs := hguard
  with_task := by rw [hlate]; exact fun r hr => withTask_step hstep (h.with_task r hr)
  with_guard := by
    rw [hregistered, hlate]
    exact fun r hr hprompt => withGuard_step h.guard hstep (h.with_guard r hr hprompt)

/-- **No step loses a reference.** -/
theorem accounted_step (h : Accounted w) (hstep : step w a = some w') : Accounted w' := by
  have hidle : w.position = .idle → ∀ references, (Cleaner.guard, references) ∉ w.spawned := by
    intro hposition references hjob
    rw [h.guard_jobs references hjob] at hposition
    cases hposition
  have htask := fun r hr => withTask_step (r := r) hstep (h.with_task r hr)
  have hprompt := fun r hr hlate =>
    withGuard_step (r := r) h.guard hstep (h.with_guard r hr hlate)
  have hguard := guard_step h.guard hstep
  cases effect_of_step hstep with
  -- a reference that is registered in time is held by the registry and by its task
  | hold hopen =>
      exact {
        guard := hguard
        numbered := numbered_append h.numbered
        held := List.append_subset.mpr ⟨List.subset_append_of_subset_left _ h.held,
          List.subset_append_right _ _⟩
        late_registered := List.subset_append_of_subset_left _ h.late_registered
        late_closed := h.late_closed
        spawning_late := h.spawning_late
        task_jobs := h.task_jobs
        guard_jobs := h.guard_jobs
        with_task := htask
        with_guard := by
          intro r hr hlate
          rcases List.mem_append.mp hr with hr | hr
          · exact hprompt r hr hlate
          · exact Or.inl (List.mem_append_right _ hr) }
  -- after the close it is the task's alone: late, and never the guard's
  | refuse hclosed =>
      exact {
        guard := hguard
        numbered := numbered_append h.numbered
        held := List.subset_append_of_subset_left _ h.held
        late_registered := List.append_subset.mpr
          ⟨List.subset_append_of_subset_left _ h.late_registered, List.subset_append_right _ _⟩
        late_closed := fun hopen => absurd hopen (by simp [hclosed])
        spawning_late := List.append_subset.mpr
          ⟨List.subset_append_of_subset_left _ h.spawning_late, List.subset_append_right _ _⟩
        task_jobs := fun references hjob =>
          List.subset_append_of_subset_left _ (h.task_jobs references hjob)
        guard_jobs := h.guard_jobs
        with_task := by
          intro r hr
          rcases List.mem_append.mp hr with hr | hr
          · exact htask r hr
          · exact Or.inl (List.mem_append_right _ hr)
        with_guard := by
          intro r hr hlate
          rw [List.mem_append, not_or] at hlate
          rcases List.mem_append.mp hr with hr | hr
          · exact hprompt r hr hlate.1
          · exact absurd hr hlate.2 }
  | @spawn r₀ runtime hspawning =>
      -- a task spawns the cleanup of its own late reference
      refine h.same hstep (Or.inl (by simp)) (by simp) (by simp) ?_ ?_ ?_
      · rw [spawning_spawn_cleanup]
        exact List.erase_subset
      · intro references hjob
        rcases mem_spawned hjob with hjob | heq
        · exact h.task_jobs references hjob
        · obtain rfl := (Prod.mk.inj heq).2
          intro r hr
          rw [List.mem_singleton.mp hr]
          exact h.spawning_late hspawning
      · intro references hjob
        rw [position_spawn_cleanup]
        rcases mem_spawned hjob with hjob | heq
        · exact h.guard_jobs references hjob
        · cases heq
  | start hspawned =>
      exact h.same hstep (Or.inl rfl) rfl rfl (List.Subset.refl _)
        (fun references hjob => h.task_jobs references (List.mem_of_mem_erase hjob))
        (fun references hjob => h.guard_jobs references (List.mem_of_mem_erase hjob))
  | @spawn_taken references runtime hposition =>
      -- the guard spawns what it has taken from the registry
      refine h.same hstep (Or.inl (by simp)) (by simp) (by simp) (by simp) ?_
        (fun _ _ => by rw [position_spawn_cleanup])
      intro references' hjob
      rcases mem_spawned hjob with hjob | heq
      · exact h.task_jobs references' hjob
      · cases heq
  | close hposition =>
      -- from here on the guard is not idle, and only then does it have jobs
      exact h.same hstep (Or.inr ⟨rfl, List.Subset.refl _⟩) rfl rfl (List.Subset.refl _) h.task_jobs
        (fun references hjob => absurd hjob (hidle hposition references))
  | snapshot hposition | finish hposition | cancel hposition =>
      refine h.same hstep (Or.inl rfl) rfl rfl (List.Subset.refl _) h.task_jobs
        (fun references hjob => ?_)
      rw [h.guard_jobs references hjob] at hposition
      cases hposition
  | clean hposition =>
      refine h.same hstep (Or.inl rfl) rfl rfl (List.Subset.refl _) h.task_jobs
        (fun references hjob => ?_)
      rw [h.guard_jobs references hjob] at hposition
      cases hposition
  | clear hposition =>
      refine h.same hstep (Or.inr ⟨?_, List.nil_subset _⟩) rfl rfl (List.Subset.refl _) h.task_jobs
        (fun references hjob => ?_)
      · exact h.guard.closed (Or.inl (by simp [hposition]))
      · rw [h.guard_jobs references hjob] at hposition
        cases hposition
  | disarm hposition =>
      exact h.same hstep (Or.inr ⟨rfl, List.nil_subset _⟩) rfl rfl (List.Subset.refl _) h.task_jobs
        (fun _ _ => rfl)
  | drop hposition harmed =>
      exact h.same hstep (Or.inr ⟨rfl, List.nil_subset _⟩) rfl rfl (List.Subset.refl _) h.task_jobs
        (fun references hjob => absurd hjob (hidle hposition references))
  | drop_unarmed hposition harmed =>
      exact h.same hstep (Or.inl rfl) rfl rfl (List.Subset.refl _) h.task_jobs (fun _ _ => rfl)

end Steps

/-- Every reference is accounted for after every run. -/
theorem accounted_run {actions : List Action} {w : World} (hrun : run step {} actions = some w) :
    Accounted w :=
  run_inv (C := fun _ _ => True) (fun _ _ _ h _ hstep => accounted_step h hstep) accounted_init
    (Meets.of_forall (fun _ _ => trivial) _ _) hrun

/-! ## After a disarm -/

/-- Nobody has this reference any more, and nobody will. -/
structure LetGo (w : World) (r : Registration) : Prop where
  position : w.position = .gone
  number : r.number < w.registered.length
  references : r ∉ w.state.references
  spawning : r ∉ w.spawning
  jobs : ∀ job ∈ w.spawned, r ∉ job.2

/-- What is let go stays so, and no cleanup gets it. -/
theorem letGo_step {w w' : World} {a : Action} {r : Registration} (h : LetGo w r)
    (hstep : step w a = some w') :
    LetGo w' r ∧ ∃ more, w'.passed = w.passed ++ more ∧ ∀ e ∈ more, e.2 ≠ r := by
  have hgone := h.position
  -- a reference that is registered now has another number
  have hnew : ∀ reference, r ≠ ⟨w.registered.length, reference⟩ := by
    rintro reference rfl
    exact absurd h.number (Nat.lt_irrefl _)
  have hnone : ∃ more, w.passed = w.passed ++ more ∧ ∀ e ∈ more, e.2 ≠ r :=
    ⟨[], by simp, by simp⟩
  have hnext : ∀ reference : BlockRef,
      r.number < (w.registered ++ [(⟨w.registered.length, reference⟩ : Registration)]).length := by
    intro reference
    rw [List.length_append]
    exact Nat.lt_add_right _ h.number
  cases effect_of_step hstep with
  | hold hopen =>
      refine ⟨⟨hgone, hnext _, ?_, h.spawning, h.jobs⟩, hnone⟩
      rw [List.mem_append, List.mem_singleton, not_or]
      exact ⟨h.references, hnew _⟩
  | refuse hclosed =>
      refine ⟨⟨hgone, hnext _, h.references, ?_, h.jobs⟩, hnone⟩
      rw [List.mem_append, List.mem_singleton, not_or]
      exact ⟨h.spawning, hnew _⟩
  | @spawn r₀ runtime hspawning =>
      refine ⟨⟨by simp [hgone], by simp [h.number], by simp [h.references], ?_, ?_⟩, ?_⟩
      · rw [spawning_spawn_cleanup]
        exact fun hr => h.spawning (List.mem_of_mem_erase hr)
      · intro job hjob hr
        rcases mem_spawned hjob with hjob | rfl
        · exact h.jobs job hjob hr
        · rw [List.mem_singleton.mp hr] at h
          exact h.spawning hspawning
      · rw [passed_spawn_cleanup]
        exact hnone
  | @start job hspawned =>
      refine ⟨⟨hgone, h.number, h.references, h.spawning,
        fun j hj => h.jobs j (List.mem_of_mem_erase hj)⟩, _, rfl, ?_⟩
      rintro e he rfl
      obtain ⟨r', hr', rfl⟩ := List.mem_map.mp he
      exact h.jobs job hspawned hr'
  -- the guard is gone: it takes no step any more
  | close hposition | snapshot hposition | clean hposition | clear hposition | finish hposition
  | cancel hposition | disarm hposition | drop hposition harmed | drop_unarmed hposition harmed
  | spawn_taken hposition =>
      rw [hgone] at hposition
      cases hposition

/-- A disarm lets go of every reference that found the guard open. -/
theorem letGo_disarm {w w' : World} {r : Registration} (h : Accounted w)
    (hstep : step w .disarm = some w') (hr : r ∈ w.registered) (hprompt : r ∉ w.late) :
    LetGo w' r ∧ w'.passed = w.passed := by
  cases effect_of_step hstep with
  | disarm hposition =>
      refine ⟨⟨rfl, h.numbered r hr, by simp, fun hin => hprompt (h.spawning_late hin), ?_⟩, rfl⟩
      rintro ⟨cleaner, references⟩ hjob hin
      cases cleaner with
      | task => exact hprompt (h.task_jobs references hjob hin)
      | guard =>
          rw [h.guard_jobs references hjob] at hposition
          cases hposition

/-- What the registry held when it was disarmed had been registered. -/
theorem disarmed_of_discarded {actions : List Action} {w : World}
    (hrun : run step {} actions = some w) {r : Registration} (hr : r ∈ w.discarded) :
    Disarmed actions r := by
  induction actions using List.reverseRecOn generalizing w with
  | nil =>
      obtain rfl := Option.some.inj hrun
      cases hr
  | append_singleton before a ih =>
      obtain ⟨s, hbefore, hlast⟩ := run_append.mp hrun
      obtain ⟨_, hstep, hend⟩ := run_cons.mp hlast
      obtain rfl := Option.some.inj hend
      have hearlier : r ∈ s.discarded → Disarmed (before ++ [a]) r := by
        intro hr
        obtain ⟨before', after, s', rfl, hrun', hin⟩ := ih hbefore hr
        exact ⟨before', after ++ [a], s', by simp, hrun', hin⟩
      cases effect_of_step hstep with
      | disarm hposition =>
          rcases List.mem_append.mp hr with hr | hr
          · exact hearlier hr
          · exact ⟨before, [], s, rfl, hbefore, (accounted_run hbefore).held hr⟩
      | spawn hspawning =>
          rw [discarded_spawn_cleanup] at hr
          exact hearlier hr
      | spawn_taken hposition =>
          rw [discarded_spawn_cleanup] at hr
          exact hearlier hr
      | _ => exact hearlier hr

/-- Only a spawn without a runtime lets references go. -/
theorem unscheduled_run {actions : List Action} {w : World} (hrun : run step {} actions = some w)
    (hruntime : ∀ a ∈ actions, HasRuntime a) : w.unscheduled = [] := by
  induction actions using List.reverseRecOn generalizing w with
  | nil =>
      obtain rfl := Option.some.inj hrun
      rfl
  | append_singleton before a ih =>
      obtain ⟨s, hbefore, hlast⟩ := run_append.mp hrun
      obtain ⟨_, hstep, hend⟩ := run_cons.mp hlast
      obtain rfl := Option.some.inj hend
      have hnone := ih hbefore fun a ha => hruntime a (List.mem_append_left _ ha)
      have ha := hruntime a (List.mem_append_right _ (List.mem_singleton.mpr rfl))
      cases effect_of_step hstep with
      | @spawn r runtime hspawning =>
          obtain rfl : runtime = true := ha
          rw [unscheduled_spawn_cleanup]
          exact hnone
      | @spawn_taken references runtime hposition =>
          obtain rfl : runtime = true := ha
          rw [unscheduled_spawn_cleanup]
          exact hnone
      | _ => exact hnone

/-! ## No reference is lost -/

/-- **The registry loses no block.** Once nothing is under way, every reference that was ever
registered has been passed to a cleanup, or a disarm came after it, or there was no runtime to
spawn its cleanup on. One that found the guard closed has been cleaned up by its own task. And
after a disarm no cleanup gets a reference that was registered before it -- on the guard while
it was open, if it had been closed. -/
theorem registry_loses_no_block {actions : List Action} {w : World}
    (hrun : run step {} actions = some w) :
    (Settled w → ∀ r ∈ w.registered,
      (∃ cleaner, (cleaner, r) ∈ w.passed) ∨ Disarmed actions r ∨ r ∈ w.unscheduled)
    ∧ (Settled w → ∀ before reference after s, actions = before ++ .register reference :: after →
        run step {} before = some s → s.state.closed = true →
        (Cleaner.task, ⟨s.registered.length, reference⟩) ∈ w.passed
          ∨ ⟨s.registered.length, reference⟩ ∈ w.unscheduled)
    ∧ (∀ before after s, actions = before ++ .disarm :: after → run step {} before = some s →
        ∀ r ∈ s.registered, (s.state.closed = true → r ∉ s.late) →
          ∃ later, w.passed = s.passed ++ later ∧ ∀ e ∈ later, e.2 ≠ r)
    ∧ ((∀ a ∈ actions, HasRuntime a) → w.unscheduled = []) := by
  have haccounted := accounted_run hrun
  -- where the tasks and their cleanups are done, only the two ends are left
  have hlate : Settled w → ∀ r ∈ w.late, (Cleaner.task, r) ∈ w.passed ∨ r ∈ w.unscheduled := by
    rintro ⟨-, hspawning, hspawned⟩ r hr
    rcases haccounted.with_task r hr with h | h | h | h
    · rw [hspawning] at h
      cases h
    · rw [hspawned] at h
      cases h
    · exact Or.inl h
    · exact Or.inr h
  refine ⟨fun hsettled r hr => ?_, ?_, ?_, unscheduled_run hrun⟩
  · by_cases hprompt : r ∈ w.late
    · exact (hlate hsettled r hprompt).imp (fun h => ⟨_, h⟩) Or.inr
    · obtain ⟨hgone, hspawning, hspawned⟩ := hsettled
      have hempty := haccounted.guard.empty (haccounted.guard.ended (Or.inl hgone))
      rcases haccounted.with_guard r hr hprompt with h | ⟨_, h, -⟩ | ⟨_, h, -⟩ | h | h | h
      · rw [hempty] at h
        cases h
      · rw [hgone] at h
        cases h
      · rw [hspawned] at h
        cases h
      · exact Or.inl ⟨_, h⟩
      · exact Or.inr (Or.inl (disarmed_of_discarded hrun h))
      · exact Or.inr (Or.inr h)
  · rintro hsettled before reference after s rfl hbefore hclosed
    refine hlate hsettled _ ?_
    obtain ⟨s', hs', hafter⟩ := run_append.mp hrun
    obtain rfl := Option.some.inj (hbefore.symm.trans hs')
    obtain ⟨t, hstep, hrest⟩ := run_cons.mp hafter
    have hregistered : ⟨s.registered.length, reference⟩ ∈ t.late := by
      cases effect_of_step hstep with
      | hold hopen =>
          rw [hclosed] at hopen
          cases hopen
      | refuse _ => exact List.mem_append_right _ (List.mem_singleton.mpr rfl)
    exact run_inv (C := fun _ _ => True)
      (fun _ _ _ h _ hstep => (registered_step hstep).2.1 h) hregistered
      (Meets.of_forall (fun _ _ => trivial) _ _) hrest
  · rintro before after s rfl hbefore r hr hprompt
    obtain ⟨s', hs', hafter⟩ := run_append.mp hrun
    obtain rfl := Option.some.inj (hbefore.symm.trans hs')
    obtain ⟨t, hstep, hrest⟩ := run_cons.mp hafter
    have hbefore := accounted_run hbefore
    have hnot_late : r ∉ s.late := by
      cases hclosed : s.state.closed with
      | true => exact hprompt hclosed
      | false =>
          rw [hbefore.late_closed hclosed]
          exact List.not_mem_nil
    obtain ⟨hletgo, hpassed⟩ := letGo_disarm hbefore hstep hr hnot_late
    refine (run_inv (C := fun _ _ => True)
      (I := fun x => LetGo x r ∧ ∃ later, x.passed = s.passed ++ later ∧ ∀ e ∈ later, e.2 ≠ r)
      ?_ ⟨hletgo, [], by rw [hpassed, List.append_nil], by simp⟩
      (Meets.of_forall (fun _ _ => trivial) _ _) hrest).2
    rintro x a x' ⟨hx, later, hlater, hno⟩ - hstep'
    obtain ⟨hx', more, hmore, hno'⟩ := letGo_step hx hstep'
    refine ⟨hx', later ++ more, by rw [hmore, hlater, List.append_assoc], ?_⟩
    intro e he
    rcases List.mem_append.mp he with he | he
    · exact hno e he
    · exact hno' e he

/-- A block of a small upload. -/
def staged (id : Int) : BlockRef where
  id := id
  ordinal := id
  offset := 0
  size := 1
  chat_id := 7
  message_id := id
  backend := .bot_api
  document_id := none
  file_id := "f"
  file_unique_id := "u"
  message_date := 0

/-- The owner is dropped while a second task is about to register. -/
theorem registry_loses_no_block_dropped :
    ∃ w, run step {} [.register (staged 1), .drop, .register (staged 2), .spawn_taken true,
        .spawn ⟨1, staged 2⟩ true, .start (.task, [⟨1, staged 2⟩]), .start (.guard, [⟨0, staged 1⟩])]
          = some w
      ∧ Settled w
      ∧ ∀ r ∈ w.registered, (∃ cleaner, (cleaner, r) ∈ w.passed)
        ∨ Disarmed [.register (staged 1), .drop, .register (staged 2), .spawn_taken true,
            .spawn ⟨1, staged 2⟩ true, .start (.task, [⟨1, staged 2⟩]),
            .start (.guard, [⟨0, staged 1⟩])] r
        ∨ r ∈ w.unscheduled :=
  ⟨_, rfl, by decide, (registry_loses_no_block rfl).1 (by decide)⟩

/-- Two references that the registry lets out of hand: one of a guard that is dropped where
there is no runtime, and one whose task cleans it up after a disarm, on a guard that a
cancelled cleanup had closed. -/
theorem registry_lets_go :
    (¬ ∀ actions w, run step {} actions = some w → Settled w → ∀ r ∈ w.registered,
        (∃ cleaner, (cleaner, r) ∈ w.passed) ∨ Disarmed actions r)
    ∧ ¬ ∀ before after s w, run step {} before = some s →
        run step {} (before ++ .disarm :: after) = some w → ∀ r ∈ s.registered,
          ∃ later, w.passed = s.passed ++ later ∧ ∀ e ∈ later, e.2 ≠ r := by
  constructor
  · intro h
    rcases h [.register (staged 1), .drop, .spawn_taken false] _ rfl (by decide) ⟨0, staged 1⟩
      (by decide) with ⟨cleaner, hpassed⟩ | ⟨before, after, w, heq, -⟩
    · cases hpassed
    · have hdisarm : Action.disarm ∈ [.register (staged 1), .drop, .spawn_taken false] :=
        heq ▸ List.mem_append_right _ List.mem_cons_self
      exact absurd hdisarm (by decide)
  · intro h
    obtain ⟨later, hlater, hno⟩ := h [.close, .snapshot, .clean, .cancel, .register (staged 1)]
      [.spawn ⟨0, staged 1⟩ true, .start (.task, [⟨0, staged 1⟩])] _ _ rfl rfl ⟨0, staged 1⟩
      (by decide)
    have hpassed : (Cleaner.task, ⟨0, staged 1⟩) ∈ later := by
      have heq : _ = later := hlater
      rw [← heq]
      exact List.mem_singleton.mpr rfl
    exact hno _ hpassed rfl

/-! ## The registry of `upload` -/

/-- While the guard is open, calls of `register` only fill the registry. -/
theorem run_registers (references : List BlockRef) :
    ∃ held : List Registration, held.map (·.reference) = references
      ∧ run step {} (references.map .register)
        = some { state := { references := held }, registered := held } := by
  induction references using List.reverseRecOn with
  | nil => exact ⟨[], rfl, rfl⟩
  | append_singleton references reference ih =>
      obtain ⟨held, hheld, hrun⟩ := ih
      refine ⟨held ++ [⟨held.length, reference⟩], by simp [hheld], ?_⟩
      rw [List.map_append, List.map_singleton, run_append]
      exact ⟨_, hrun, rfl⟩

/-- **A failed upload cleans up what its tasks have registered.** The list `upload` hands to
`cleanup_block_refs` is the one that the registry passes on, when its tasks have come to an end
before the guard is closed. -/
theorem upload_failed {env : Transfer.Env} {db : Database} {upload_id : String}
    {part_number : Int} {body : Transfer.Body} {expected_length : Option Int}
    {tasks : Transfer.Tasks} {e : Transfer.UploadError}
    (h : Transfer.upload_body env db body expected_length = (tasks, .error e)) :
    ∃ w, run step {} (tasks.registered.map .register
        ++ [.close, .snapshot, .clean, .clear, .finish, .drop]) = some w
      ∧ Settled w
      ∧ Transfer.upload env db upload_id part_number body expected_length
        = (Transfer.cleanup_block_refs env tasks.db (w.passed.map (·.2.reference)), .error e) := by
  obtain ⟨held, hheld, hrun⟩ := run_registers tasks.registered
  refine ⟨_, run_append.mpr ⟨_, hrun, rfl⟩, ⟨rfl, rfl, rfl⟩, ?_⟩
  unfold Transfer.upload
  rw [h]
  dsimp only
  have hpassed : (held.map fun r => (Cleaner.guard, r)).map (·.2.reference) = tasks.registered := by
    rw [List.map_map]
    exact hheld
  rw [← hpassed]
  rfl

/-- An upload that succeeds leaves nothing for a cleanup. -/
theorem upload_succeeded (references : List BlockRef) :
    ∃ w, run step {} (references.map .register ++ [.disarm]) = some w ∧ Settled w
      ∧ w.passed = [] := by
  obtain ⟨held, -, hrun⟩ := run_registers references
  exact ⟨_, run_append.mpr ⟨_, hrun, rfl⟩, ⟨rfl, rfl, rfl⟩, rfl⟩

end Tg2s3.Cleanup
