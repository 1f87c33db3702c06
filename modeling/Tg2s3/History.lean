/-
Histories of the database.

`Op` is one call of a method of `Db` that writes, with everything it reads from
outside: its arguments and the time of its call. `Op.apply` is what it leaves
behind, committed or rolled back. A history is a list of operations from the
empty database; SQLite serialises the writers, so every interleaving of requests
is one as far as the tables are concerned.

Where a request does several calls (a commit after a replacement, a pass of the
garbage collector) it is several operations, and anything may come between them.
-/
import Tg2s3.Db.Bucket
import Tg2s3.Lib.Run
import Tg2s3.Writers

set_option autoImplicit false

namespace Tg2s3

open Relational Machine

inductive Op
  | create_bucket (now : Int) (name : String)
  | delete_bucket (name : String)
  | set_bucket_cors (now : Int) (bucket : String) (configuration : CorsConfiguration)
  | delete_bucket_cors (bucket : String)
  | create_upload (upload : UploadRecord)
  | add_staged_block (now : Int) (block : BlockRef)
  | replace_part (now : Int) (upload_id : String) (part_number size : Int) (etag : String)
      (block_ids : List BlockRef)
  | commit_upload (now : Int) (upload_id : String) (size : Int) (etag : String)
      (parts : List PartRecord) (condition : ObjectCondition)
  | abort_upload_with_blocks (now : Int) (upload_id : String)
  | expire_uploads (now before : Int)
  | delete_object (now : Int) (bucket key : String) (condition : ObjectCondition)
  | copy_object (now : Int) (source : ObjectRecord) (bucket key : String)
      (metadata : ObjectMetadata) (condition : ObjectCondition)
  | queue_stale_block (now block_id : Int)
  | gc_success (block_id : Int)
  | gc_failure (block_id : Int) (error : String) (next_attempt : Int)
  | gc_orphan (block_id : Int) (error : String)
  deriving DecidableEq, Repr

def Op.apply (db : Database) : Op → Database
  | .create_bucket now name => (Tg2s3.create_bucket db now name).1
  | .delete_bucket name => (Tg2s3.delete_bucket db name).1
  | .set_bucket_cors now bucket configuration =>
      Tg2s3.set_bucket_cors db now bucket configuration
  | .delete_bucket_cors bucket => Tg2s3.delete_bucket_cors db bucket
  | .create_upload upload => (Tg2s3.create_upload db upload).1
  | .add_staged_block now block => (Tg2s3.add_staged_block db now block).1
  | .replace_part now upload_id part_number size etag block_ids =>
      (Tg2s3.replace_part db now upload_id part_number size etag block_ids).1
  | .commit_upload now upload_id size etag parts condition =>
      (transaction db (commit_upload_tx db now upload_id size etag parts condition)).1
  | .abort_upload_with_blocks now upload_id =>
      (Tg2s3.abort_upload_with_blocks db now upload_id).1
  | .expire_uploads now before => Tg2s3.expire_uploads db now before
  | .delete_object now bucket key condition =>
      (Tg2s3.delete_object db now bucket key condition).1
  | .copy_object now source bucket key metadata condition =>
      (transaction db (copy_object_tx db now source bucket key metadata condition)).1
  | .queue_stale_block now block_id => (Tg2s3.queue_stale_block db now block_id).1
  | .gc_success block_id => Tg2s3.gc_success db block_id
  | .gc_failure block_id error next_attempt => Tg2s3.gc_failure db block_id error next_attempt
  | .gc_orphan block_id error => Tg2s3.gc_orphan db block_id error

/-- The operations a request does that no task of the machine does: everything
but the calls that name a block by its id, and the creation of an upload. -/
def Op.plain : Op → Bool
  | .create_bucket .. | .delete_bucket .. | .set_bucket_cors .. | .delete_bucket_cors ..
  | .commit_upload .. | .abort_upload_with_blocks .. | .expire_uploads ..
  | .delete_object .. => true
  | _ => false

/-- The database after a history. -/
def after (ops : List Op) : Database := exec Op.apply {} ops

/-! ## The constraints hold after every history -/

section Buckets

variable {db : Database}

/-- A bucket is created if its name is free. -/
theorem wellFormed_create_bucket (h : WellFormed db) (now : Int) (name : String) :
    WellFormed (create_bucket db now name).1 :=
  { h with bucket_names := nodup_insertOrIgnore h.bucket_names }

/-- A bucket that goes takes its rules along. -/
theorem wellFormed_delete_bucket (h : WellFormed db) (name : String) :
    WellFormed (delete_bucket db name).1 := by
  unfold delete_bucket
  split
  · exact h
  · split
    · exact h
    · exact { h with
        bucket_names := nodup_deleteWhere h.bucket_names
        cors_buckets := nodup_deleteWhere h.cors_buckets }

/-- A bucket has one row of rules at most. -/
theorem wellFormed_set_bucket_cors (h : WellFormed db) (now : Int) (bucket : String)
    (configuration : CorsConfiguration) :
    WellFormed (set_bucket_cors db now bucket configuration) := by
  unfold set_bucket_cors
  split_ifs with hin
  · refine { h with cors_buckets := ?_ }
    have hnames := map_updateWhere (p := fun r : BucketCorsRow => r.bucket = bucket)
      (f := fun r => { r with configuration := configuration, updated_at := now })
      (g := fun r : BucketCorsRow => r.bucket) (fun _ => rfl) db.bucket_cors
    exact hnames ▸ h.cors_buckets
  · exact { h with cors_buckets := nodup_append_singleton h.cors_buckets hin }

/-- Rules may be taken away at any time. -/
theorem wellFormed_delete_bucket_cors (h : WellFormed db) (bucket : String) :
    WellFormed (delete_bucket_cors db bucket) :=
  { h with cors_buckets := nodup_deleteWhere h.cors_buckets }

end Buckets

/-- `abort_upload_with_blocks` in closed form. -/
theorem abort_upload_with_blocks_eq (db : Database) (now : Int) (upload_id : String) :
    (abort_upload_with_blocks db now upload_id).1 = db
      ∨ (abort_upload_with_blocks db now upload_id).1
          = decrement_blocks (db.delete_upload upload_id) now (held_by_upload db upload_id) := by
  unfold abort_upload_with_blocks
  refine transaction_cases (P := fun d => d = db ∨ d = _) (Or.inl rfl) ?_
  intro db' released h
  rcases abort_upload_with_blocks_tx_ok h with ⟨-, rfl, -⟩ | ⟨rfl, -⟩
  · exact Or.inl rfl
  · exact Or.inr rfl

/-- An abort deletes with a cascade and then moves counts; both keep the keys. -/
theorem wellFormed_abort_upload {db : Database} (h : WellFormed db) (now : Int)
    (upload_id : String) : WellFormed (abort_upload_with_blocks db now upload_id).1 := by
  rcases abort_upload_with_blocks_eq db now upload_id with heq | heq
  · rw [heq]
    exact h
  · rw [heq]
    exact wellFormed_decrement_blocks (h.delete_upload upload_id) now _

/-- Expiry is one abort after the other: what an abort keeps, expiry keeps. -/
theorem expire_uploads_induction {P : Database → Prop} {db : Database} (now before : Int)
    (hdb : P db)
    (habort : ∀ d upload_id, P d → P (abort_upload_with_blocks d now upload_id).1) :
    P (expire_uploads db now before) := by
  unfold expire_uploads
  generalize (db.multipart_uploads.filter _).map _ = ids
  induction ids generalizing db with
  | nil => exact hdb
  | cons upload_id ids ih => exact ih (habort db upload_id hdb)

/-- Every operation keeps the constraints, also one that is rolled back. -/
theorem wellFormed_apply (db : Database) (op : Op) (h : WellFormed db) :
    WellFormed (op.apply db) := by
  cases op with
  | create_bucket now name => exact wellFormed_create_bucket h now name
  | delete_bucket name => exact wellFormed_delete_bucket h name
  | set_bucket_cors now bucket configuration =>
      exact wellFormed_set_bucket_cors h now bucket configuration
  | delete_bucket_cors bucket => exact wellFormed_delete_bucket_cors h bucket
  | create_upload upload =>
      refine transaction_cases h (fun db' u hok => ?_)
      obtain ⟨_, -, hok⟩ := bind_ok.mp hok
      obtain ⟨db₁, hins, hok⟩ := bind_ok.mp hok
      obtain ⟨rfl, -⟩ := Prod.mk.inj (Except.ok.inj hok)
      exact h.insert_upload hins
  | add_staged_block now block =>
      exact transaction_cases h (fun db' id hok => h.insert_block (fun _ => rfl) hok)
  | replace_part now upload_id part_number size etag block_ids =>
      exact transaction_cases h (fun db' released hok => (replace_part_tx_ok hok).wellFormed h)
  | commit_upload now upload_id size etag parts condition =>
      refine transaction_cases h (fun db' result hok => ?_)
      cases result with
      | none => exact commit_upload_tx_none hok ▸ h
      | some r => exact (commit_upload_tx_ok hok).wellFormed h
  | abort_upload_with_blocks now upload_id => exact wellFormed_abort_upload h now upload_id
  | expire_uploads now before =>
      exact expire_uploads_induction now before h
        (fun d upload_id hd => wellFormed_abort_upload hd now upload_id)
  | delete_object now bucket key condition =>
      refine transaction_cases h (fun db' deleted hok => ?_)
      obtain ⟨-, rfl, -⟩ := delete_object_tx_ok hok
      exact wellFormed_decrement_blocks (h.without_object bucket key) now _
  | copy_object now source bucket key metadata condition =>
      exact transaction_cases h (fun db' released hok => (copy_object_tx_ok hok).wellFormed h)
  | queue_stale_block now block_id => exact wellFormed_queue_stale_block h now block_id
  | gc_success block_id => exact wellFormed_gc_success h block_id
  | gc_failure block_id error next_attempt => exact h.update_queue block_id (fun _ => rfl)
  | gc_orphan block_id error => exact h.update_queue block_id (fun _ => rfl)

/-- **Every history keeps the keys.** Each operation does, from any tables that have them. -/
theorem wellFormed_exec {db : Database} (h : WellFormed db) (ops : List Op) :
    WellFormed (exec Op.apply db ops) :=
  exec_inv (fun d op hd _ => wellFormed_apply d op hd) h
    (ExecMeets.of_forall (C := fun _ _ => True) (fun _ _ => trivial) _ ops)

/-- The empty tables have them. -/
theorem wellFormed_after (ops : List Op) : WellFormed (after ops) :=
  wellFormed_exec wellFormed_empty ops

/-! ## Uploads only go -/

/-- An abort begins no upload. -/
theorem uploads_abort (db : Database) (now : Int) (upload_id : String) :
    (abort_upload_with_blocks db now upload_id).1.multipart_uploads ⊆ db.multipart_uploads := by
  rcases abort_upload_with_blocks_eq db now upload_id with heq | heq
  · rw [heq]
    exact fun _ h => h
  · rw [heq, (books_decrement_blocks _ now _).multipart_uploads]
    exact fun u hu => (mem_deleteWhere.mp hu).1

/-- Taking an object away has nothing to do with the uploads. -/
@[simp] theorem multipart_uploads_without_object (db : Database) (bucket key : String) :
    (without_object db bucket key).multipart_uploads = db.multipart_uploads := by
  unfold without_object
  cases db.object? bucket key <;> rfl

/-- The operations that may take an upload away. -/
def Op.ends_uploads : Op → Bool
  | .commit_upload .. | .abort_upload_with_blocks .. | .expire_uploads .. => true
  | _ => false

/-- The uploads are left alone by everything but their creation and their end. -/
theorem multipart_uploads_apply (db : Database) (op : Op) (hop : ∀ upload, op ≠ .create_upload upload)
    (hends : op.ends_uploads = false) : (op.apply db).multipart_uploads = db.multipart_uploads := by
  cases op with
  | create_bucket now name => rfl
  | delete_bucket name =>
      change (delete_bucket db name).1.multipart_uploads = _
      unfold delete_bucket
      split_ifs <;> rfl
  | set_bucket_cors now bucket configuration =>
      change (set_bucket_cors db now bucket configuration).multipart_uploads = _
      unfold set_bucket_cors
      split_ifs <;> rfl
  | delete_bucket_cors bucket => rfl
  | create_upload upload => exact absurd rfl (hop upload)
  | add_staged_block now block =>
      refine transaction_cases (P := fun d => d.multipart_uploads = db.multipart_uploads) rfl ?_
      intro db' id hok
      obtain ⟨hr, -⟩ := insert_block_ok hok
      obtain ⟨rfl, -⟩ := Prod.mk.inj hr
      rfl
  | replace_part now upload_id part_number size etag block_ids =>
      exact transaction_cases (P := fun d => d.multipart_uploads = db.multipart_uploads) rfl
        (fun db' released hok => (replace_part_tx_ok hok).books.multipart_uploads)
  | commit_upload now upload_id size etag parts condition => cases hends
  | abort_upload_with_blocks now upload_id => cases hends
  | expire_uploads now before => cases hends
  | delete_object now bucket key condition =>
      refine transaction_cases (P := fun d => d.multipart_uploads = db.multipart_uploads) rfl ?_
      intro db' deleted hok
      obtain ⟨-, rfl, -⟩ := delete_object_tx_ok hok
      rw [(books_decrement_blocks _ now _).multipart_uploads, multipart_uploads_without_object]
  | copy_object now source bucket key metadata condition =>
      refine transaction_cases (P := fun d => d.multipart_uploads = db.multipart_uploads) rfl ?_
      intro db' released hok
      rw [(copy_object_tx_ok hok).books.multipart_uploads]
      exact multipart_uploads_without_object db bucket key
  | queue_stale_block now block_id => exact (books_queue_stale_block db now block_id).multipart_uploads
  | gc_success block_id =>
      change (gc_success db block_id).multipart_uploads = _
      unfold gc_success
      split
      · split_ifs <;> rfl
      · rfl
  | gc_failure block_id error next_attempt => rfl
  | gc_orphan block_id error => rfl

/-- No operation but `create_upload` makes an upload appear. -/
theorem uploads_apply (db : Database) (op : Op) (hop : ∀ upload, op ≠ .create_upload upload) :
    (op.apply db).multipart_uploads ⊆ db.multipart_uploads := by
  cases op with
  | commit_upload now upload_id size etag parts condition =>
      refine transaction_cases (P := fun d => d.multipart_uploads ⊆ db.multipart_uploads)
        (fun _ h => h) (fun db' result hok => ?_)
      cases result with
      | none =>
          rw [commit_upload_tx_none hok]
          exact fun _ h => h
      | some r =>
          rw [(commit_upload_tx_ok hok).books.multipart_uploads]
          simp only [commit_target, Database.delete_upload, multipart_uploads_without_object]
          exact fun u hu => (mem_deleteWhere.mp hu).1
  | abort_upload_with_blocks now upload_id => exact uploads_abort db now upload_id
  | expire_uploads now before =>
      exact expire_uploads_induction (P := fun d => d.multipart_uploads ⊆ db.multipart_uploads)
        now before (fun _ h => h) (fun d upload_id hd u hu => hd (uploads_abort d now upload_id hu))
  | _ =>
      rw [multipart_uploads_apply db _ hop rfl]
      exact fun _ h => h

end Tg2s3
