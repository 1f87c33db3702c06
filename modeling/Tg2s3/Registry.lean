/-
What the cleanup guard knows of an upload, whether it succeeds or not.

The loops touch their tasks in three ways: a block is handed to a task, a result is awaited,
and at an error the tasks are dropped. What these three keep, the whole upload keeps
(`Kept.upload_body`). In particular the rows that an upload has added to the table of blocks
are those of the blocks that the guard has, and no others (`Booked`).
-/
import Tg2s3.Sending

set_option autoImplicit false

namespace Tg2s3.Transfer

open Download (Bytes)
open Relational

/-! ## What the loops keep -/

/-- What the loops do with their tasks keeps this. -/
structure Kept (env : Env) (P : Tasks → Prop) : Prop where
  push (tasks : Tasks) (piece : Piece) : P tasks → P (tasks.push piece)
  next (tasks : Tasks) : P tasks → P (tasks.next env).1
  aborted (tasks : Tasks) : P tasks → P tasks.aborted

namespace Kept

variable {env : Env} {P : Tasks → Prop}

/-- Taking the next result does nothing with the tasks but wait for one; a result that is an
error stops the others, which the rule covers as well. -/
theorem reap_one (hP : Kept env P) {p : Progress} (h : P p.tasks) : P (p.reap_one env).tasks := by
  have hnext := hP.next p.tasks h
  unfold Progress.reap_one
  split
  all_goals
    rename_i hresult
    rw [hresult] at hnext
    exact hnext

/-- The loop makes room before it goes on, when as many tasks are running as may. -/
theorem reap_if_full (hP : Kept env P) {p : Progress} (h : P p.tasks) :
    P (p.reap_if_full env).tasks := by
  unfold Progress.reap_if_full
  split_ifs
  · exact hP.reap_one h
  · exact h

/-- At the end the loop waits until no task is left. The recursion is on how many there are. -/
theorem drain_tasks (hP : Kept env P) {p : Progress} (h : P p.tasks) :
    P (p.drain_tasks env).tasks := by
  have hnext := hP.next p.tasks h
  fun_induction Progress.drain_tasks env p with
  | case1 p tasks hresult =>
      rw [hresult] at hnext
      exact hnext
  | case2 p tasks block hresult ih =>
      rw [hresult] at hnext
      exact ih hnext (hP.next _ hnext)
  | case3 p tasks e hresult ih =>
      rw [hresult] at hnext
      exact ih hnext (hP.next _ hnext)

/-- A block that is full becomes a task, after the loop has made room for it. -/
theorem finish_block (hP : Kept env P) {k : Known} (h : P k.tasks) (spec : BlockSpec)
    (written : Bytes) : P (k.finish_block env spec written).tasks := by
  unfold Known.finish_block
  split_ifs with hshutdown
  · exact h
  · have hreaped : P ((k.toProgress.push (spec, written)).reap_if_full env).tasks :=
      hP.reap_if_full (hP.push _ _ h)
    dsimp only
    split_ifs
    · exact hreaped
    · split <;> exact hreaped

/-- A frame is cut into the blocks that it fills. What it leaves in the pipe is not seen by the
tasks. -/
theorem write_frame (hP : Kept env P) {k : Known} (h : P k.tasks) (expected_length : Int)
    (data : Bytes) : P (k.write_frame env expected_length data).tasks := by
  fun_induction Known.write_frame env expected_length k data with
  | case1 k => exact h
  | case2 k data hdata e hblock => exact h
  | case3 k data hdata pipe ordinal hblock amount => exact h
  | case4 k data hdata pipe ordinal hblock amount k' hwrite written =>
      rename_i ih
      exact ih h
  | case5 k data hdata pipe ordinal hblock amount k' hwrite written hroom k'' =>
      rename_i ih
      exact ih (hP.finish_block (k := { k' with current := none }) h _ _)
  | case6 k data hdata pipe ordinal hblock amount k' hwrite written hroom =>
      exact hP.finish_block (k := { k' with current := none }) h _ _

/-- Frame by frame; an error of the body ends the loop with the tasks as they are. -/
theorem read_frames (hP : Kept env P) {k : Known} (h : P k.tasks) (expected_length : Int)
    (body : Body) : P (k.read_frames env expected_length body).tasks := by
  induction body generalizing k with
  | nil => exact h
  | cons frame source ih =>
      cases frame with
      | error e => exact h
      | ok data =>
          unfold Known.read_frames
          split
          · exact h
          · rename_i next_total _
            have hwritten := hP.write_frame
              (k := { k with digest := k.digest ++ data, total := next_total }) h expected_length data
            dsimp only
            split_ifs
            · exact h
            · exact h
            · exact h
            · exact ih hwritten
            · exact hwritten

/-- After the last frame the block that is open is finished, unless something has failed. -/
theorem close (hP : Kept env P) {k : Known} (h : P k.tasks) : P (k.close env).tasks := by
  unfold Known.close
  split
  · exact h
  · split_ifs
    · exact h
    · exact hP.push _ _ h

/-- The blocks of a spool file are sent one after the other, as long as the file has any. -/
theorem send_blocks (hP : Kept env P) {s : Spooled} (h : P s.tasks) (spool : Spool) :
    P (send_blocks env spool s).tasks := by
  fun_induction Transfer.send_blocks env spool s with
  | case1 s hoffset e hblock => exact hP.aborted _ h
  | case2 s hoffset size hblock => exact hP.push _ _ h
  | case3 s hoffset size hblock =>
      rename_i ih
      exact ih (hP.reap_if_full (hP.push _ _ h))
  | case4 s hoffset size hblock => exact hP.reap_if_full (hP.push _ _ h)
  | case5 s hoffset => exact h

/-- **What the tasks keep, the upload keeps**, also where it fails. -/
theorem upload_body (hP : Kept env P) {db : Database} (h : P { db := db }) (body : Body)
    (expected_length : Option Int) : P (upload_body env db body expected_length).1 := by
  cases expected_length with
  | some expected_length =>
      unfold Transfer.upload_body upload_known_length
      dsimp only
      by_cases hnegative : expected_length < 0
      · rw [if_pos hnegative]
        exact h
      · rw [if_neg hnegative]
        have hsent := hP.drain_tasks (hP.close (hP.read_frames
          (k := { tasks := { db := db } }) h expected_length body))
        split
        · exact hsent
        · split <;> exact hsent
  | none =>
      unfold Transfer.upload_body upload_unknown_length
      dsimp only
      split_ifs with hcreate
      · exact h
      · split
        · exact h
        · rename_i spool _
          have hsent := hP.drain_tasks (hP.send_blocks (s := { tasks := { db := db } }) h spool)
          split <;> exact hsent

end Kept

/-! ## The rows of an upload -/

/-- The database is the one before, and the rows of the blocks that the guard has. -/
structure Booked (env : Env) (db₀ : Database) (tasks : Tasks) : Prop where
  rows : tasks.db = { db₀ with telegram_blocks :=
    db₀.telegram_blocks ++ tasks.registered.map fun block => staged_row env.now block block.id }
  wellFormed : WellFormed tasks.db

section Booked

variable {env : Env} {db₀ : Database} {tasks : Tasks}

/-- Nothing is running, and the guard knows of nothing. -/
theorem booked_start {db : Database} (hwf : WellFormed db) : Booked env db { db := db } :=
  ⟨by rw [List.map_nil, List.append_nil], hwf⟩

/-- **A task that ends is booked**: its row stands after those before it, and the guard has been
given its reference. A task that fails has staged nothing. -/
theorem Booked.finish_one (h : Booked env db₀ tasks) (position : ℕ) :
    Booked env db₀ (tasks.finish_one env position) := by
  unfold Tasks.finish_one
  cases tasks.running[position]? with
  | none => exact h
  | some piece =>
      obtain ⟨db', result, hone⟩ : ∃ db' result, upload_one env tasks.db piece = (db', result) :=
        ⟨_, _, rfl⟩
      have hwf := (upload_one_ok hone h.wellFormed).2.1
      dsimp only
      rw [hone]
      refine ⟨?_, hwf⟩
      rcases upload_one_cases hone with ⟨rfl, e, rfl⟩ | ⟨document, -, -, rfl, rfl⟩
      · exact h.rows
      · dsimp only
        rw [h.rows, List.map_append, List.append_assoc]
        rfl

/-- So the tasks that end while the loop waits are booked, whichever they are. -/
theorem Booked.settle (h : Booked env db₀ tasks) : Booked env db₀ (tasks.settle env) :=
  tasks.settle_keeps env (fun _ position ht => ht.finish_one position) h

/-- The books are kept by all that the loops do: only a task that ends touches the tables, and an
abort forgets tasks that have not. -/
theorem kept_booked : Kept env (Booked env db₀) where
  push := fun _ _ h => ⟨h.rows, h.wellFormed⟩
  next := fun _ h => ⟨h.settle.rows, h.settle.wellFormed⟩
  aborted := fun _ h => ⟨h.rows, h.wellFormed⟩

/-- The blocks of the guard have ids of their own, which no row had before. -/
theorem Booked.ids (h : Booked env db₀ tasks) :
    (db₀.telegram_blocks.map (·.id) ++ tasks.registered.map (·.id)).Nodup := by
  have hids := h.wellFormed.block_ids
  rw [h.rows, List.map_append, List.map_map] at hids
  exact hids

/-- Whatever has become of the upload, its rows are those that the guard knows. -/
theorem upload_body_booked {db : Database} (hwf : WellFormed db) (body : Body)
    (expected_length : Option Int) :
    Booked env db (upload_body env db body expected_length).1 :=
  kept_booked.upload_body (booked_start hwf) body expected_length

end Booked

end Tg2s3.Transfer
