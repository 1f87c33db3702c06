/-
What one step of the machine can do, said once.

`Action.op` is the database operation of a step, if it has one; `records` singles
out the three steps that make up a block row. Every other step leaves the
database alone or applies its operation to it (`step_db`). Of what the tasks
remember, a step that records nothing adds candidates that `gc_candidates` has
just found, and nothing else that could name a block to the collector.

The theorems about runs that follow need no more of the machine than this.
-/
import Tg2s3.Staging

set_option autoImplicit false

namespace Tg2s3

open Relational Machine
open Tg2s3.GcSafety (record_ok)
open Tg2s3.Staging (records)

/-! ## The database -/

/-- The operation on the database that a step is. -/
def Action.op (w : World) : Action → Option Op
  | .request op => some op
  | .create_multipart upload => some (.create_upload upload)
  | .put_object upload => some (.create_upload upload)
  | .replace_part call =>
      some (.replace_part w.now call.upload_id call.part_number call.next_offset call.etag call.blocks)
  | .commit_upload call condition =>
      some (.commit_upload w.now call.upload_id call.next_offset call.etag [call.part] condition)
  | .claim reference => some (.queue_stale_block w.now reference.id)
  | .cleanup_success reference => some (.gc_success reference.id)
  | .queue_stale record => some (.queue_stale_block w.now record.block_id)
  | .gc_success record => some (.gc_success record.block_id)
  | .gc_failure record error => some (.gc_failure record.block_id error (w.now + 300))
  | .gc_orphan record error => some (.gc_orphan record.block_id error)
  | .copy_object source bucket key metadata condition =>
      some (.copy_object w.now source bucket key metadata condition)
  | _ => none

/-- The database after an optional operation. -/
def applied (db : Database) : Option Op → Database
  | none => db
  | some op => op.apply db

/-- **The database of a step.** A step that records no document applies its
operation, or leaves the database as it is. -/
theorem step_db {w w' : World} {a : Action} (hstep : step w a = some w')
    (hrecords : records a = false) : w'.db = applied w.db (a.op w) := by
  cases a with
  | stage call spec document => cases hrecords
  | stage_late spec document => cases hrecords
  | lose spec document => cases hrecords
  | put_object upload =>
      simp only [step] at hstep
      split_ifs at hstep
      split at hstep
      · rename_i db' hcreate
        obtain rfl := Option.some.inj hstep
        -- the step keeps the database that create_upload returned
        exact (congrArg Prod.fst hcreate).symm
      · cases hstep
  | upload_part upload_id part_number =>
      simp only [step] at hstep
      split at hstep
      · cases hstep
      · split_ifs at hstep
        obtain rfl := Option.some.inj hstep
        rfl
  | replace_part call =>
      simp only [step] at hstep
      split_ifs at hstep
      split at hstep
      · rename_i db' released hreplace
        obtain rfl := Option.some.inj hstep
        exact (congrArg Prod.fst hreplace).symm
      · -- an error of the transaction has rolled it back
        rename_i db' e hreplace
        obtain rfl := Option.some.inj hstep
        have hrolled : (replace_part w.db w.now call.upload_id call.part_number call.next_offset
            call.etag call.blocks).1 = w.db := by
          unfold replace_part at hreplace ⊢
          cases hbody : replace_part_tx w.db w.now call.upload_id call.part_number
              call.next_offset call.etag call.blocks with
          | error e => rfl
          | ok r =>
              rw [hbody] at hreplace
              cases hreplace
        exact hrolled.symm
  | claim reference =>
      simp only [step] at hstep
      split_ifs at hstep
      split at hstep <;>
      · rename_i db' hclaim
        obtain rfl := Option.some.inj hstep
        -- granted or not, the database is the one the claim returned
        exact (congrArg Prod.fst hclaim).symm
  | copy_row bucket key =>
      simp only [step] at hstep
      split at hstep
      · obtain rfl := Option.some.inj hstep
        rfl
      · cases hstep
  | crash =>
      obtain rfl := Option.some.inj hstep
      rfl
  | stale_blocks limit =>
      obtain rfl := Option.some.inj hstep
      rfl
  | gc_candidates limit =>
      obtain rfl := Option.some.inj hstep
      rfl
  | gc_candidate block_id =>
      obtain rfl := Option.some.inj hstep
      rfl
  | _ =>
      simp only [step] at hstep
      split_ifs at hstep
      obtain rfl := Option.some.inj hstep
      rfl

/-- **Upload ids are drawn once.** A step that creates an upload draws a new id;
no other step touches the ids that were drawn. -/
theorem upload_ids_step {w w' : World} {a : Action} (hstep : step w a = some w') :
    (∃ upload, upload.upload_id ∉ w.upload_ids ∧ a.op w = some (.create_upload upload)
        ∧ w'.upload_ids = upload.upload_id :: w.upload_ids)
      ∨ (w'.upload_ids = w.upload_ids ∧ ∀ upload, a.op w ≠ some (.create_upload upload)) := by
  cases a with
  | request op =>
      simp only [step] at hstep
      split_ifs at hstep with hplain
      obtain rfl := Option.some.inj hstep
      refine Or.inr ⟨rfl, ?_⟩
      rintro upload heq
      obtain rfl := Option.some.inj heq
      -- a request of its own never creates an upload
      cases hplain
  | create_multipart upload =>
      simp only [step] at hstep
      split_ifs at hstep with hcond
      obtain rfl := Option.some.inj hstep
      -- the guard of the step: the id was not drawn before
      exact Or.inl ⟨upload, fun hin => hcond (Or.inl hin), rfl, rfl⟩
  | put_object upload =>
      simp only [step] at hstep
      split_ifs at hstep with hcond
      split at hstep
      · obtain rfl := Option.some.inj hstep
        exact Or.inl ⟨upload, fun hin => hcond (Or.inl hin), rfl, rfl⟩
      · cases hstep
  | upload_part upload_id part_number =>
      simp only [step] at hstep
      split at hstep
      · cases hstep
      · split_ifs at hstep
        obtain rfl := Option.some.inj hstep
        exact Or.inr ⟨rfl, by simp [Action.op]⟩
  | stage call spec document =>
      simp only [step] at hstep
      split_ifs at hstep
      split at hstep
      · rename_i w₁ block hrecord
        obtain ⟨-, -, rfl, -⟩ := record_ok hrecord
        obtain rfl := Option.some.inj hstep
        exact Or.inr ⟨rfl, by simp [Action.op]⟩
      · cases hstep
  | stage_late spec document =>
      simp only [step] at hstep
      split at hstep
      · rename_i w₁ block hrecord
        obtain ⟨-, -, rfl, -⟩ := record_ok hrecord
        obtain rfl := Option.some.inj hstep
        exact Or.inr ⟨rfl, by simp [Action.op]⟩
      · cases hstep
  | lose spec document =>
      simp only [step] at hstep
      split at hstep
      · rename_i w₁ block hrecord
        obtain ⟨-, -, rfl, -⟩ := record_ok hrecord
        obtain rfl := Option.some.inj hstep
        exact Or.inr ⟨rfl, by simp [Action.op]⟩
      · cases hstep
  | replace_part call =>
      simp only [step] at hstep
      split_ifs at hstep
      split at hstep <;>
      · obtain rfl := Option.some.inj hstep
        exact Or.inr ⟨rfl, by simp [Action.op]⟩
  | claim reference =>
      simp only [step] at hstep
      split_ifs at hstep
      split at hstep <;>
      · obtain rfl := Option.some.inj hstep
        exact Or.inr ⟨rfl, by simp [Action.op]⟩
  | copy_row bucket key =>
      simp only [step] at hstep
      split at hstep
      · obtain rfl := Option.some.inj hstep
        exact Or.inr ⟨rfl, by simp [Action.op]⟩
      · cases hstep
  | stale_blocks limit =>
      obtain rfl := Option.some.inj hstep
      exact Or.inr ⟨rfl, by simp [Action.op]⟩
  | gc_candidates limit =>
      obtain rfl := Option.some.inj hstep
      exact Or.inr ⟨rfl, by simp [Action.op]⟩
  | gc_candidate block_id =>
      obtain rfl := Option.some.inj hstep
      exact Or.inr ⟨rfl, by simp [Action.op]⟩
  | crash =>
      obtain rfl := Option.some.inj hstep
      exact Or.inr ⟨rfl, by simp [Action.op]⟩
  | _ =>
      simp only [step] at hstep
      split_ifs at hstep
      obtain rfl := Option.some.inj hstep
      exact Or.inr ⟨rfl, by simp [Action.op]⟩

/-! ## References

A task that holds one of these may end up removing the row under its id. An
unclaimed reference is left out: it leads to a deletion on Telegram only. -/

def World.tracked (w : World) : List BlockRef :=
  w.uploads.flatMap (·.blocks) ++ w.cleanups ++ w.claimed

theorem mem_tracked {w : World} {r : BlockRef} :
    r ∈ w.tracked ↔ (∃ call ∈ w.uploads, r ∈ call.blocks) ∨ r ∈ w.cleanups ∨ r ∈ w.claimed := by
  simp [World.tracked]

section Memory

variable {w : World} {call call' : UploadCall}

theorem tracked_advance (hcall : call ∈ w.uploads) (hblocks : call'.blocks ⊆ call.blocks) :
    (w.advance call call').tracked ⊆ w.tracked := by
  intro r hr
  rw [mem_tracked] at hr ⊢
  rcases hr with ⟨c, hc, hr⟩ | hr
  · rcases List.mem_cons.mp hc with rfl | hc
    · exact Or.inl ⟨call, hcall, hblocks hr⟩
    · exact Or.inl ⟨c, List.mem_of_mem_erase hc, hr⟩
  · exact Or.inr hr

theorem tracked_finished : (w.finished call).tracked ⊆ w.tracked := by
  intro r hr
  rw [mem_tracked] at hr ⊢
  exact hr.imp_left (fun ⟨c, hc, hr⟩ => ⟨c, List.mem_of_mem_erase hc, hr⟩)

theorem tracked_failed (hcall : call ∈ w.uploads) : (w.failed call).tracked ⊆ w.tracked := by
  intro r hr
  rw [mem_tracked] at hr ⊢
  rcases hr with ⟨c, hc, hr⟩ | hr | hr
  · exact Or.inl ⟨c, List.mem_of_mem_erase hc, hr⟩
  · rcases List.mem_append.mp hr with hr | hr
    · exact Or.inr (Or.inl hr)
    · exact Or.inl ⟨call, hcall, hr⟩
  · exact Or.inr (Or.inr hr)

end Memory

/-- **A step that records a document.** Its row is new in every respect, and only
the reference to it is learnt. -/
theorem step_record {w w' : World} {a : Action} (hstep : step w a = some w')
    (hrecords : records a = true) :
    ∃ spec document w₁ block, w.record spec document = some (w₁, block) ∧ w'.db = w₁.db
      ∧ (∀ r ∈ w'.tracked, r ∈ w.tracked ∨ r = block) ∧ w'.candidates = w.candidates := by
  cases a with
  | stage call spec document =>
      simp only [step] at hstep
      split_ifs at hstep with hcond
      split at hstep
      · rename_i w₁ block hrecord
        obtain rfl := Option.some.inj hstep
        refine ⟨spec, document, w₁, block, hrecord, rfl, ?_, ?_⟩
        · obtain ⟨-, -, rfl, -⟩ := record_ok hrecord
          intro r hr
          rw [mem_tracked] at hr ⊢
          rcases hr with ⟨c, hc, hr⟩ | hr
          · rcases List.mem_cons.mp hc with rfl | hc
            · rcases List.mem_append.mp hr with hr | hr
              · exact Or.inl (Or.inl ⟨call, hcond.1, hr⟩)
              · exact Or.inr (List.mem_singleton.mp hr)
            · exact Or.inl (Or.inl ⟨c, List.mem_of_mem_erase hc, hr⟩)
          · exact Or.inl (Or.inr hr)
        · obtain ⟨-, -, rfl, -⟩ := record_ok hrecord
          rfl
      · cases hstep
  | stage_late spec document =>
      simp only [step] at hstep
      split at hstep
      · rename_i w₁ block hrecord
        obtain rfl := Option.some.inj hstep
        refine ⟨spec, document, w₁, block, hrecord, rfl, ?_, ?_⟩
        · obtain ⟨-, -, rfl, -⟩ := record_ok hrecord
          intro r hr
          rw [mem_tracked] at hr ⊢
          rcases hr with hr | hr | hr
          · exact Or.inl (Or.inl hr)
          · rcases List.mem_append.mp hr with hr | hr
            · exact Or.inl (Or.inr (Or.inl hr))
            · exact Or.inr (List.mem_singleton.mp hr)
          · exact Or.inl (Or.inr (Or.inr hr))
        · obtain ⟨-, -, rfl, -⟩ := record_ok hrecord
          rfl
      · cases hstep
  | lose spec document =>
      simp only [step] at hstep
      split at hstep
      · rename_i w₁ block hrecord
        obtain rfl := Option.some.inj hstep
        obtain ⟨-, -, hw₁, -⟩ := record_ok hrecord
        refine ⟨spec, document, w₁, block, hrecord, rfl, ?_, ?_⟩
        · rw [hw₁]
          exact fun r hr => Or.inl hr
        · rw [hw₁]
          rfl
      · cases hstep
  | _ => cases hrecords

/-! ## Rows stay -/

theorem frozen_abort_upload (db : Database) (now : Int) (upload_id : String) :
    (abort_upload_with_blocks db now upload_id).1.telegram_blocks.map (·.frozen)
      = db.telegram_blocks.map (·.frozen) := by
  rcases abort_upload_with_blocks_eq db now upload_id with heq | heq
  · rw [heq]
  · rw [heq, (books_decrement_blocks _ now _).frozen]
    rfl

/-- **Only `gc_success` removes a block row**, and only `add_staged_block` makes
one up. -/
theorem frozen_apply (db : Database) (op : Op) (hrecord : ∀ now block, op ≠ .add_staged_block now block)
    (hremove : ∀ block_id, op ≠ .gc_success block_id) :
    (op.apply db).telegram_blocks.map (·.frozen) = db.telegram_blocks.map (·.frozen) := by
  cases op with
  | create_bucket now name => rfl
  | delete_bucket name =>
      change (delete_bucket db name).1.telegram_blocks.map (·.frozen) = _
      unfold delete_bucket
      split_ifs <;> rfl
  | set_bucket_cors now bucket configuration =>
      change (set_bucket_cors db now bucket configuration).telegram_blocks.map (·.frozen) = _
      unfold set_bucket_cors
      split_ifs <;> rfl
  | delete_bucket_cors bucket => rfl
  | create_upload upload =>
      refine transaction_cases (P := fun d => d.telegram_blocks.map (·.frozen) = _) rfl ?_
      intro db' u hok
      obtain ⟨_, -, hok⟩ := bind_ok.mp hok
      obtain ⟨db₁, hins, hok⟩ := bind_ok.mp hok
      obtain ⟨rfl, -⟩ := Prod.mk.inj (Except.ok.inj hok)
      obtain ⟨rfl, -⟩ := insert_upload_ok hins
      rfl
  | add_staged_block now block => exact absurd rfl (hrecord now block)
  | replace_part now upload_id part_number size etag block_ids =>
      refine transaction_cases (P := fun d => d.telegram_blocks.map (·.frozen) = _) rfl ?_
      intro db' released hok
      rw [(replace_part_tx_ok hok).books.frozen]
      rfl
  | commit_upload now upload_id size etag parts condition =>
      refine transaction_cases (P := fun d => d.telegram_blocks.map (·.frozen) = _) rfl ?_
      intro db' result hok
      cases result with
      | none => rw [commit_upload_tx_none hok]
      | some r =>
          rw [(commit_upload_tx_ok hok).books.frozen]
          exact congrArg _ (telegram_blocks_without_object db _ _)
  | abort_upload_with_blocks now upload_id => exact frozen_abort_upload db now upload_id
  | expire_uploads now before =>
      refine expire_uploads_induction (P := fun d => d.telegram_blocks.map (·.frozen) = _) now
        before rfl (fun d upload_id hd => ?_)
      rw [frozen_abort_upload, hd]
  | delete_object now bucket key condition =>
      refine transaction_cases (P := fun d => d.telegram_blocks.map (·.frozen) = _) rfl ?_
      intro db' deleted hok
      obtain ⟨-, rfl, -⟩ := delete_object_tx_ok hok
      rw [(books_decrement_blocks _ now _).frozen, telegram_blocks_without_object]
  | copy_object now source bucket key metadata condition =>
      refine transaction_cases (P := fun d => d.telegram_blocks.map (·.frozen) = _) rfl ?_
      intro db' released hok
      rw [(copy_object_tx_ok hok).books.frozen]
      exact congrArg _ (telegram_blocks_without_object db _ _)
  | queue_stale_block now block_id => exact (books_queue_stale_block db now block_id).frozen
  | gc_success block_id => exact absurd rfl (hremove block_id)
  | gc_failure block_id error next_attempt => rfl
  | gc_orphan block_id error => rfl

/-! ## What is remembered -/

/-- A step that records nothing learns no reference. -/
theorem tracked_step {w w' : World} {a : Action} (hstep : step w a = some w')
    (hrecords : records a = false) : w'.tracked ⊆ w.tracked := by
  cases a with
  | stage call spec document => cases hrecords
  | stage_late spec document => cases hrecords
  | lose spec document => cases hrecords
  | put_object upload =>
      simp only [step] at hstep
      split_ifs at hstep
      split at hstep
      · obtain rfl := Option.some.inj hstep
        intro r hr
        simpa [mem_tracked] using hr
      · cases hstep
  | upload_part upload_id part_number =>
      simp only [step] at hstep
      split at hstep
      · cases hstep
      · split_ifs at hstep
        obtain rfl := Option.some.inj hstep
        intro r hr
        simpa [mem_tracked] using hr
  | start_task call size =>
      simp only [step] at hstep
      split_ifs at hstep with hcond
      obtain rfl := Option.some.inj hstep
      -- a call that goes on knows the blocks it knew
      exact tracked_advance hcond.1 (fun _ h => h)
  | finish call etag =>
      simp only [step] at hstep
      split_ifs at hstep with hcond
      obtain rfl := Option.some.inj hstep
      exact tracked_advance hcond.1 (fun b hb => (List.mem_insertionSort _).mp hb)
  | fail call =>
      simp only [step] at hstep
      split_ifs at hstep with hcond
      obtain rfl := Option.some.inj hstep
      exact tracked_failed hcond.1
  | replace_part call =>
      simp only [step] at hstep
      split_ifs at hstep with hcond
      split at hstep
      · -- attached: the call keeps its blocks until its commit
        rename_i db' released hreplace
        obtain rfl := Option.some.inj hstep
        exact tracked_advance (w := { w with db := db' }) hcond.1 (fun _ h => h)
      · obtain rfl := Option.some.inj hstep
        -- refused: they go to the cleanups
        exact tracked_failed hcond.1
  | commit_upload call condition =>
      simp only [step] at hstep
      split_ifs at hstep
      obtain rfl := Option.some.inj hstep
      exact tracked_finished (w := { w with db := _ })
  | drop call =>
      simp only [step] at hstep
      split_ifs at hstep
      obtain rfl := Option.some.inj hstep
      exact tracked_finished
  | claim reference =>
      simp only [step] at hstep
      split_ifs at hstep with hcond
      split at hstep
      · obtain rfl := Option.some.inj hstep
        intro r hr
        rw [mem_tracked] at hr ⊢
        rcases hr with hr | hr | hr
        · exact Or.inl hr
        · exact Or.inr (Or.inl (List.mem_of_mem_erase hr))
        · -- the reference moves from the cleanups to the claimed ones
          rcases List.mem_cons.mp hr with rfl | hr
          · exact Or.inr (Or.inl hcond)
          · exact Or.inr (Or.inr hr)
      · obtain rfl := Option.some.inj hstep
        intro r hr
        rw [mem_tracked] at hr ⊢
        exact hr.imp_right (Or.imp_left List.mem_of_mem_erase)
  | claim_error reference =>
      simp only [step] at hstep
      split_ifs at hstep with hcond
      obtain rfl := Option.some.inj hstep
      intro r hr
      rw [mem_tracked] at hr ⊢
      exact hr.imp_right (Or.imp_left List.mem_of_mem_erase)
  | cleanup_success reference =>
      simp only [step] at hstep
      split_ifs at hstep
      obtain rfl := Option.some.inj hstep
      intro r hr
      rw [mem_tracked] at hr ⊢
      exact hr.imp_right (Or.imp_right List.mem_of_mem_erase)
  | stale_blocks limit =>
      obtain rfl := Option.some.inj hstep
      exact fun _ h => h
  | gc_candidates limit =>
      obtain rfl := Option.some.inj hstep
      exact fun _ h => h
  | gc_candidate block_id =>
      obtain rfl := Option.some.inj hstep
      exact fun _ h => h
  | copy_row bucket key =>
      simp only [step] at hstep
      split at hstep
      · obtain rfl := Option.some.inj hstep
        exact fun _ h => h
      · cases hstep
  | crash =>
      obtain rfl := Option.some.inj hstep
      intro r hr
      -- a crash forgets everything
      simp [World.tracked] at hr
  | _ =>
      simp only [step] at hstep
      split_ifs at hstep
      obtain rfl := Option.some.inj hstep
      exact fun _ h => h

/-- A candidate was one before, or has just been selected. -/
theorem candidates_step {w w' : World} {a : Action} (hstep : step w a = some w')
    (hrecords : records a = false) :
    ∀ r ∈ w'.candidates, r ∈ w.candidates
      ∨ ∃ q ∈ w.db.gc_queue, gc_select w.db w.now q = some r := by
  cases a with
  | stage call spec document => cases hrecords
  | stage_late spec document => cases hrecords
  | lose spec document => cases hrecords
  | gc_candidates limit =>
      obtain rfl := Option.some.inj hstep
      intro r hr
      rcases List.mem_append.mp hr with hr | hr
      · exact Or.inl hr
      · -- the batch is cut off after the selection
        obtain ⟨q, hq, hselect⟩ := List.mem_filterMap.mp (List.mem_of_mem_take hr)
        exact Or.inr ⟨q, (List.mem_insertionSort _).mp hq, hselect⟩
  | gc_candidate block_id =>
      obtain rfl := Option.some.inj hstep
      intro r hr
      rcases List.mem_append.mp hr with hr | hr
      · exact Or.inl hr
      · rw [Option.mem_toList] at hr
        obtain ⟨q, hq, hselect⟩ := Option.bind_eq_some_iff.mp hr
        exact Or.inr ⟨q, (lookup_mem hq).1, hselect⟩
  | gc_success record =>
      simp only [step] at hstep
      split_ifs at hstep
      obtain rfl := Option.some.inj hstep
      -- what is settled leaves the list
      exact fun r hr => Or.inl (List.mem_of_mem_erase hr)
  | gc_failure record error =>
      simp only [step] at hstep
      split_ifs at hstep
      obtain rfl := Option.some.inj hstep
      exact fun r hr => Or.inl (List.mem_of_mem_erase hr)
  | gc_orphan record error =>
      simp only [step] at hstep
      split_ifs at hstep
      obtain rfl := Option.some.inj hstep
      exact fun r hr => Or.inl (List.mem_of_mem_erase hr)
  | put_object upload =>
      simp only [step] at hstep
      split_ifs at hstep
      split at hstep
      · obtain rfl := Option.some.inj hstep
        exact fun r hr => Or.inl hr
      · cases hstep
  | upload_part upload_id part_number =>
      simp only [step] at hstep
      split at hstep
      · cases hstep
      · split_ifs at hstep
        obtain rfl := Option.some.inj hstep
        exact fun r hr => Or.inl hr
  | replace_part call =>
      simp only [step] at hstep
      split_ifs at hstep
      split at hstep <;>
      · obtain rfl := Option.some.inj hstep
        exact fun r hr => Or.inl hr
  | claim reference =>
      simp only [step] at hstep
      split_ifs at hstep
      split at hstep <;>
      · obtain rfl := Option.some.inj hstep
        exact fun r hr => Or.inl hr
  | stale_blocks limit =>
      obtain rfl := Option.some.inj hstep
      exact fun r hr => Or.inl hr
  | copy_row bucket key =>
      simp only [step] at hstep
      split at hstep
      · obtain rfl := Option.some.inj hstep
        exact fun r hr => Or.inl hr
      · cases hstep
  | crash =>
      obtain rfl := Option.some.inj hstep
      intro r hr
      cases hr
  | _ =>
      simp only [step] at hstep
      split_ifs at hstep
      obtain rfl := Option.some.inj hstep
      exact fun r hr => Or.inl hr

end Tg2s3
