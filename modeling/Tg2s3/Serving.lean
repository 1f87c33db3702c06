/-
The server, request after request.

Every handler writes through the operations of `Db`, and looks before it writes: the bucket is
there, the upload is one of this key, the blocks of a part have just been staged, the source
of a copy has been read. Where nothing comes between the look and the write, the write finds
what was seen. So a request is a trace of operations that are called properly
(`Proper`), each within the bucket, the keys and the part that the request names (`Within`), and what
such operations keep, every run of the server keeps.

The requests are served one after the other here. What their interleaving does to the same
invariants is the subject of `Counts`, `Buckets` and `CopySource`.
-/
import Tg2s3.Lib.Traces
import Tg2s3.Failures
import Tg2s3.Collection
import Tg2s3.CopySource
import Tg2s3.S3.Handle

set_option autoImplicit false

namespace Tg2s3.Serving

open Tg2s3 Relational Machine
open Tg2s3.Counts (Provided SourceHeld Replaceable CopyPasses)
open Tg2s3.Buckets (Stands Housed)
open Tg2s3.Transfer (Env Body Tasks Kept Booked upload_body upload_body_booked)
open Tg2s3.S3 (S3Error HeaderMap Method)
open Tg2s3.S3.Dispatch

/-! ## What a request writes -/

/-- The bucket that the operation names without looking it up is there. -/
def Stood (db : Database) : Op → Prop
  | .set_bucket_cors _ bucket _ => Stands db bucket
  | .copy_object _ source bucket key _ condition =>
      CopyPasses db source bucket key condition → Stands db bucket
  | _ => True

/-- A copy is given what the tables hold for its source. -/
def Read (db : Database) : Op → Prop
  | .copy_object _ source _ _ _ _ =>
      get_object db source.bucket source.key = some source ∧ validate_object_layout source = .ok ()
  | _ => True

/-- The operation is called on what its caller has seen. -/
structure Proper (db : Database) (op : Op) : Prop where
  provided : Provided db op
  read : Read db op
  stood : Stood db op

/-- The blocks of an object that is there are referred to. -/
theorem Proper.held {db : Database} {op : Op} (h : Proper db op) (hwf : WellFormed db) :
    SourceHeld db op := by
  cases op with
  | copy_object now source bucket key metadata condition =>
      intro _ block hblock
      obtain ⟨row, -, heq⟩ := Option.map_eq_some_iff.mp h.read.1
      rw [← heq] at hblock
      exact GcSafety.refs_pos_of_loaded hwf (List.mem_map_of_mem hblock)
  | _ => trivial

/-- What a request may write: in its bucket, at its keys, and the parts that it sends. -/
structure Scope where
  bucket : String
  keys : String → Prop
  parts : String → Int → Prop
  /-- the bucket itself may come and go -/
  whole : Prop

/-- The upload, if it is there, is the one of a PUT. -/
def OfPut (upload_id : String) (db : Database) : Prop :=
  ∀ upload, db.upload? upload_id = some upload → upload.kind = .put

/-- The operation writes in this scope only. Part 0 is the one of a PUT; blocks are of no key. -/
def Within (scope : Scope) (db : Database) : Op → Prop
  | .create_bucket _ name | .delete_bucket name => name = scope.bucket ∧ scope.whole
  | .set_bucket_cors _ name _ | .delete_bucket_cors name => name = scope.bucket
  | .create_upload upload => upload.bucket = scope.bucket ∧ scope.keys upload.key
  | .replace_part _ upload_id part_number _ _ _ =>
      part_number = 0 ∧ OfPut upload_id db ∨ 1 ≤ part_number ∧ scope.parts upload_id part_number
  | .commit_upload _ upload_id _ _ _ _ | .abort_upload_with_blocks _ upload_id =>
      ∀ upload, db.upload? upload_id = some upload →
        upload.bucket = scope.bucket ∧ scope.keys upload.key
  | .delete_object _ name key _ | .copy_object _ _ name key _ _ =>
      name = scope.bucket ∧ scope.keys key
  | .add_staged_block .. | .queue_stale_block .. | .gc_success .. => True
  | .expire_uploads .. | .gc_failure .. | .gc_orphan .. => False

/-- Proper operations in this scope lead from one database to the other. -/
abbrev Writes (scope : Scope) : Database → Database → Prop :=
  Leads Op.apply fun db op => Proper db op ∧ Within scope db op

/-- The operation leaves nothing for its caller to finish: it stages no block and begins no
upload. -/
def Whole : Op → Prop
  | .add_staged_block .. | .create_upload .. => False
  | _ => True

/-- Whole operations lead from one database to the other. -/
abbrev Commits (scope : Scope) : Database → Database → Prop :=
  Leads Op.apply fun db op => (Proper db op ∧ Within scope db op) ∧ Whole op

/-- What is left whole is written in particular. -/
theorem Commits.writes {scope : Scope} {db d : Database} (h : Commits scope db d) :
    Writes scope db d := Leads.mono (fun _ _ hop => hop.1) h

section Uploads

variable {scope : Scope} {env : Env} {db d : Database}

/-- Staging is an operation of any scope: a staged block is of no key yet. -/
theorem writes_add_staged_block (now : Int) (block : BlockRef) :
    Writes scope db (add_staged_block db now block).1 :=
  Leads.single (a := Op.add_staged_block now block) ⟨⟨trivial, trivial, trivial⟩, trivial⟩

/-- So is the claim of a staged block for the collector. -/
theorem writes_queue_stale_block (now id : Int) :
    Writes scope db (queue_stale_block db now id).1 :=
  Leads.single (a := Op.queue_stale_block now id) ⟨⟨trivial, trivial, trivial⟩, trivial⟩

/-- And so is the removal of its row, when its message is gone. -/
theorem writes_gc_success (id : Int) : Writes scope db (gc_success db id) :=
  Leads.single (a := Op.gc_success id) ⟨⟨trivial, trivial, trivial⟩, trivial⟩

/-- A task does one operation or none. -/
theorem writes_upload_one (piece : Transfer.Piece) :
    Writes scope db (Transfer.upload_one env db piece).1 := by
  unfold Transfer.upload_one
  split
  · exact .refl db
  · rename_i document _
    split_ifs
    · exact .refl db
    · have hstaged : Writes scope db (add_staged_block db env.now
          (uploaded_block env.config.chat_id 0 piece.1 document)).1 := writes_add_staged_block _ _
      split
      all_goals
        rename_i hresult
        rw [hresult] at hstaged
        exact hstaged

/-- A task that ends has done what `upload_one` does with its piece, unless there is no such
task. -/
theorem writes_finish_one {tasks : Tasks} (h : Writes scope db tasks.db) (position : ℕ) :
    Writes scope db (tasks.finish_one env position).db := by
  unfold Tasks.finish_one
  split
  · exact h
  · rename_i piece _
    exact h.trans (writes_upload_one piece)

/-- What the loops do with their tasks is no more than that. -/
theorem kept_writes : Kept env fun tasks => Writes scope db tasks.db where
  push := fun _ _ h => h
  next := fun tasks h =>
    tasks.settle_keeps env (P := fun tasks => Writes scope db tasks.db)
      (fun _ position ht => writes_finish_one ht position) h
  aborted := fun _ h => h

/-- A body, of known length or not, is a trace of the operations of its tasks. The loops do
nothing with the tables themselves, so the rule of `Kept` is enough. -/
theorem writes_upload_body (body : Body) (expected_length : Option Int) :
    Writes scope db (upload_body env db body expected_length).1.db :=
  kept_writes.upload_body (.refl db) body expected_length

/-- The cleanup of one block is at most a claim and the removal of the row. A block that has no
row yet is staged first, so that the collector can find it. -/
theorem writes_cleanup_untracked_block (reference : BlockRef) :
    Writes scope db (Transfer.cleanup_untracked_block env db reference) := by
  have hqueued : Writes scope db (queue_stale_block db env.now reference.id).1 :=
    writes_queue_stale_block _ _
  by_cases hid : 0 < reference.id
  · exact Transfer.cleanup_untracked_block_cases hid (.refl db) hqueued
      (hqueued.trans (writes_gc_success _))
  have hstaged : Writes scope db (add_staged_block db env.now reference).1 :=
    writes_add_staged_block _ _
  unfold Transfer.cleanup_untracked_block
  rw [if_neg hid]
  split
  · exact .refl db
  all_goals
    by_cases hzero : reference.id = 0
    swap
    · rw [if_neg hzero]
      exact .refl db
    rw [if_pos hzero]
    split
    all_goals
      rename_i hresult
      rw [hresult] at hstaged
    · by_cases hfails : env.claim_fails reference = true
      · rw [if_pos hfails]
        exact hstaged
      · rw [if_neg hfails]
        exact hstaged.trans (writes_queue_stale_block _ _)
    · exact hstaged

/-- The cleanup of a list goes block by block, with no operation in between. -/
theorem writes_cleanup_block_refs (references : List BlockRef) :
    Writes scope db (Transfer.cleanup_block_refs env db references) := by
  unfold Transfer.cleanup_block_refs
  induction references generalizing db with
  | nil => exact .refl db
  | cons reference rest ih => exact (writes_cleanup_untracked_block reference).trans ih

/-- An upload stages blocks, and cleans up after itself where it fails. -/
theorem writes_upload (upload_id : String) (part_number : Int) (body : Body)
    (expected_length : Option Int) :
    Writes scope db (Transfer.upload env db upload_id part_number body expected_length).1 := by
  have hsent : Writes scope db (upload_body env db body expected_length).1.db :=
    writes_upload_body body expected_length
  unfold Transfer.upload
  split
  all_goals
    rename_i hresult
    rw [hresult] at hsent
  · exact hsent.trans (writes_cleanup_block_refs _)
  · exact hsent

end Uploads

/-! ## Uploads of this key -/

section Holds

variable {scope : Scope} {upload_id : String} {db d : Database}

/-- Every operation keeps the tables well formed, of whatever scope it is. -/
theorem Writes.wellFormed (h : Writes scope db d) (hwf : WellFormed db) : WellFormed d :=
  h.inv (fun db op hwf _ => wellFormed_apply db op hwf) hwf

/-- The upload, if it is there, is one of this scope. -/
def Holds (scope : Scope) (upload_id : String) (db : Database) : Prop :=
  ∀ upload, db.upload? upload_id = some upload →
    upload.bucket = scope.bucket ∧ scope.keys upload.key

/-- One operation of this scope: an upload that it creates is of the scope's key, and every other
one was there before, with the same key. -/
theorem holds_apply {op : Op} (hwf : WellFormed db) (h : Holds scope upload_id db)
    (hop : Within scope db op) : Holds scope upload_id (op.apply db) := by
  intro upload hupload
  obtain ⟨hmem, hid⟩ := lookup_mem hupload
  by_cases hcreate : ∃ created, op = .create_upload created
  · obtain ⟨created, rfl⟩ := hcreate
    have hcases : upload ∈ db.multipart_uploads ∨ upload = created := by
      revert hmem
      refine transaction_cases (P := fun d => upload ∈ d.multipart_uploads →
        upload ∈ db.multipart_uploads ∨ upload = created) Or.inl ?_
      intro d u hok hmem
      obtain ⟨_, -, hok⟩ := bind_ok.mp hok
      obtain ⟨d₁, hinsert, hok⟩ := bind_ok.mp hok
      obtain ⟨rfl, -⟩ := Prod.mk.inj (Except.ok.inj hok)
      obtain ⟨rfl, -⟩ := insert_upload_ok hinsert
      rcases List.mem_append.mp hmem with hold | hnew
      · exact Or.inl hold
      · exact Or.inr (List.mem_singleton.mp hnew)
    rcases hcases with hold | rfl
    · exact h upload (lookup_eq_some hwf.upload_ids hold hid)
    · exact hop
  · have hold : upload ∈ db.multipart_uploads :=
      uploads_apply db op (fun created heq => hcreate ⟨created, heq⟩) hmem
    exact h upload (lookup_eq_some hwf.upload_ids hold hid)

/-- So an upload of this key stays one along any trace of the scope. The rows have distinct ids,
which is why well-formedness goes along. -/
theorem Writes.holds (h : Writes scope db d) (hwf : WellFormed db)
    (hholds : Holds scope upload_id db) : Holds scope upload_id d :=
  (h.inv (I := fun d => WellFormed d ∧ Holds scope upload_id d)
    (fun d op hd hop => ⟨wellFormed_apply d op hd.1, holds_apply hd.1 hd.2 hop.2⟩)
    ⟨hwf, hholds⟩).2

end Holds

/-! ## Transfers -/

section Transfers

variable {scope : Scope} {env : Env} {db d : Database}
  {upload_id : String} {part_number : Int} {body : Body} {expected_length : Option Int}

/-- The blocks of an upload that has just ended: they are staged, and nothing refers to them. -/
theorem replaceable_of_upload {part : PartRecord} {total : Int} (hwf : WellFormed db)
    (h : Transfer.upload env db upload_id part_number body expected_length
      = (d, .ok (part, total))) : Replaceable d upload_id part_number part.blocks := by
  have hbooked : Booked env db (upload_body env db body expected_length).1 :=
    upload_body_booked hwf body expected_length
  obtain ⟨tasks, result, hsent⟩ : ∃ tasks result,
      upload_body env db body expected_length = (tasks, result) := ⟨_, _, rfl⟩
  rw [hsent] at hbooked
  unfold Transfer.upload at h
  rw [hsent] at h
  rcases result with e | ⟨uploaded, total', digest⟩
  · cases (Prod.mk.inj h).2
  obtain ⟨_, _, -, -, -, hdelivered⟩ := Transfer.upload_body_ok hsent hwf
  obtain ⟨rfl, hok⟩ := Prod.mk.inj h
  obtain ⟨rfl, -⟩ := Prod.mk.inj (Except.ok.inj hok)
  have hperm := (List.perm_insertionSort (fun a b : BlockRef => a.ordinal ≤ b.ordinal)
    uploaded).trans hdelivered.registered
  refine ⟨(hperm.map _).nodup_iff.mpr (List.nodup_append.mp hbooked.ids).2.1, ?_⟩
  intro block hblock
  have hregistered := hperm.mem_iff.mp hblock
  have hrow : staged_row env.now block block.id ∈ tasks.db.telegram_blocks := by
    rw [hbooked.rows]
    exact List.mem_append_right _ (List.mem_map_of_mem hregistered)
  obtain ⟨hobjects, hparts⟩ := Nat.add_eq_zero_iff.mp (hbooked.refs hwf hregistered)
  refine ⟨⟨_, hrow, rfl, rfl⟩, hobjects, fun r hr hid => ?_⟩
  -- a row of a part would be a reference
  have hpos : 0 < references (·.block_id) block.id tasks.db.multipart_part_blocks :=
    references_pos.mpr ⟨r, hr, hid⟩
  exact absurd hparts hpos.ne'

/-- Attaching what was uploaded, or cleaning it up. -/
theorem writes_replace_part {now size : Int} {etag : String} {blocks : List BlockRef}
    (hreplaceable : Replaceable db upload_id part_number blocks)
    (hpart : part_number = 0 ∧ OfPut upload_id db
      ∨ 1 ≤ part_number ∧ scope.parts upload_id part_number) :
    Writes scope db (replace_part db now upload_id part_number size etag blocks).1 :=
  Leads.single (a := Op.replace_part now upload_id part_number size etag blocks)
    ⟨⟨hreplaceable, trivial, trivial⟩, hpart⟩

/-- The queries that read the object back come after the transaction and write nothing, so
whatever the answer is, the tables are those of the operation. -/
theorem fst_commit_upload (r : Answers.Reread) (now : Int) (upload_id : String) (size : Int)
    (etag : String) (parts : List PartRecord) (condition : ObjectCondition) :
    (Answers.commit_upload db r now upload_id size etag parts condition).1
      = (Op.commit_upload now upload_id size etag parts condition).apply db := by
  unfold Answers.commit_upload
  change _ = (transaction db (commit_upload_tx db now upload_id size etag parts condition)).1
  cases commit_upload_tx db now upload_id size etag parts condition with
  | error e => rfl
  | ok result =>
      obtain ⟨d, released⟩ := result
      cases released <;> rfl

/-- A commit of an upload of this key is a whole operation: the upload ends with it. -/
theorem commits_commit_upload {r : Answers.Reread} {now : Int} {size : Int} {etag : String}
    {parts : List PartRecord} {condition : ObjectCondition}
    (hholds : Holds scope upload_id db) :
    Commits scope db (Answers.commit_upload db r now upload_id size etag parts condition).1 := by
  rw [fst_commit_upload]
  exact Leads.single ⟨⟨⟨trivial, trivial, trivial⟩, hholds⟩, trivial⟩

/-- And so is its abort. -/
theorem commits_abort (now : Int) (hholds : Holds scope upload_id db) :
    Commits scope db (abort_upload_with_blocks db now upload_id).1 :=
  Leads.single (a := Op.abort_upload_with_blocks now upload_id)
    ⟨⟨⟨trivial, trivial, trivial⟩, hholds⟩, trivial⟩

/-- The abort after a failed PUT, which the database may refuse: then the row of the PUT stays,
and the operations on the way are none. -/
theorem writes_abort_put (hholds : Holds scope upload_id db) :
    Writes scope db (Transfer.abort_put env db upload_id) := by
  unfold Transfer.abort_put
  by_cases hfails : env.abort_fails = true
  · rw [if_pos hfails]
    exact .refl db
  · rw [if_neg hfails]
    exact (commits_abort env.now hholds).writes

/-- Between the upload row and the end of a PUT. -/
theorem writes_put_body {condition : ObjectCondition} (hwf : WellFormed db)
    (hholds : Holds scope upload_id db) (hput : OfPut upload_id db) :
    Writes scope db
      (Transfer.put_body env db upload_id body expected_length condition).1 := by
  have hupload : Writes scope db (Transfer.upload env db upload_id 0 body expected_length).1 :=
    writes_upload upload_id 0 body expected_length
  unfold Transfer.put_body
  split
  · rename_i d e hresult
    rw [hresult] at hupload
    exact hupload
  · rename_i d part actual_length hresult
    rw [hresult] at hupload
    -- uploading blocks leaves the row of the upload as it is
    have hput' : OfPut upload_id d := by
      obtain ⟨_, -, -, huploaded⟩ := Transfer.upload_ok hresult hwf
      unfold OfPut
      rw [huploaded.only_blocks]
      exact hput
    -- part 0 of a PUT is no client's part
    have hreplace : Writes scope d
        (replace_part d env.now upload_id 0 actual_length part.etag part.blocks).1 :=
      writes_replace_part (replaceable_of_upload hwf hresult) (Or.inl ⟨rfl, hput'⟩)
    split
    · exact hupload
    · split
      all_goals
        rename_i hreplaced
        rw [hreplaced] at hreplace
      · exact (hupload.trans hreplace).trans (writes_cleanup_block_refs _)
      · rename_i d' released
        have hdone : Writes scope db d' := hupload.trans hreplace
        have hcommit (r : Answers.Reread) (size : Int) (etag : String) (parts : List PartRecord) :
            Writes scope db
              (Answers.commit_upload d' r env.now upload_id size etag parts condition).1 :=
          hdone.trans (commits_commit_upload (hdone.holds hwf hholds)).writes
        split
        all_goals
          rename_i hcommitted
          rw [← congrArg Prod.fst hcommitted]
          exact hcommit _ _ _ _

end Transfers

/-! ## The handlers -/

section Handlers

variable {scope : Scope} {key : String} {s : Server} {db : Database}

/-- An upload for a key of the scope begins. -/
theorem writes_create_upload {upload : UploadRecord}
    (hbucket : upload.bucket = scope.bucket) (hkey : scope.keys upload.key) :
    Writes scope db (create_upload db upload).1 :=
  Leads.single (a := Op.create_upload upload) ⟨⟨trivial, trivial, trivial⟩, hbucket, hkey⟩

/-- The row of the new upload is the one that was inserted. -/
theorem upload?_create_upload {upload : UploadRecord} {d : Database}
    (h : create_upload db upload = (d, .ok ())) : d.upload? upload.upload_id = some upload := by
  unfold create_upload transaction at h
  split at h
  · rename_i htx
    obtain ⟨rfl, -⟩ := Prod.mk.inj h
    obtain ⟨_, -, hrest⟩ := bind_ok.mp htx
    obtain ⟨d₁, hinsert, hrest⟩ := bind_ok.mp hrest
    obtain ⟨rfl, -⟩ := Prod.mk.inj (Except.ok.inj hrest)
    obtain ⟨rfl, hnew⟩ := insert_upload_ok hinsert
    exact (lookup_append_singleton hnew).trans (if_pos rfl)
  · cases (Prod.mk.inj h).2

/-- The upload that was just created is one of the scope, since its row is the one that was
inserted. -/
theorem holds_create_upload {upload : UploadRecord} {d : Database}
    (hbucket : upload.bucket = scope.bucket) (hkey : scope.keys upload.key)
    (h : create_upload db upload = (d, .ok ())) : Holds scope upload.upload_id d := by
  intro found hfound
  obtain rfl := Option.some.inj ((upload?_create_upload h).symm.trans hfound)
  exact ⟨hbucket, hkey⟩

/-- And it is one of a PUT if it was created as such. -/
theorem ofPut_create_upload {upload : UploadRecord} {d : Database} (hkind : upload.kind = .put)
    (h : create_upload db upload = (d, .ok ())) : OfPut upload.upload_id d := by
  intro found hfound
  obtain rfl := Option.some.inj ((upload?_create_upload h).symm.trans hfound)
  exact hkind

/-- **A PUT** is a trace of operations on its own key: its upload begins, its blocks are staged,
its part is attached and committed, or the upload is aborted. The id of the upload names the key
all the way, since no operation of the scope changes it. -/
theorem writes_put_object (env : Env) (upload_id : String) (body : Body)
    (metadata : ObjectMetadata) (expected_length : Option Int) (condition : ObjectCondition)
    (hwf : WellFormed db) (hkey : scope.keys key) :
    Writes scope db (Transfer.put_object env db upload_id scope.bucket key body metadata
      expected_length condition).1 := by
  unfold Transfer.put_object
  split_ifs
  · exact .refl db
  split
  · exact .refl db
  have hcreate : Writes scope db (create_upload db
      { upload_id := upload_id, bucket := scope.bucket, key := key, metadata := metadata, kind := .put
        created_at := env.now }).1 := writes_create_upload rfl hkey
  split
  · rename_i hcreated
    rw [hcreated] at hcreate
    exact hcreate
  rename_i d hcreated
  rw [hcreated] at hcreate
  have hholds : Holds scope upload_id d := holds_create_upload rfl hkey hcreated
  have hwf' : WellFormed d := Writes.wellFormed hcreate hwf
  have hbody : Writes scope d
      (Transfer.put_body env d upload_id body expected_length condition).1 :=
    writes_put_body hwf' hholds (ofPut_create_upload rfl hcreated)
  split
  all_goals
    rename_i hresult
    rw [hresult] at hbody
  · exact (hcreate.trans hbody).trans (writes_abort_put (hbody.holds hwf' hholds))
  · exact hcreate.trans hbody

/-- A part, whatever the key of its upload. -/
theorem writes_engine_upload_part {upload_id : String} {part_number : Int} {body : Body}
    {expected_length : Option Int} (hwf : WellFormed db) (hpart : scope.parts upload_id part_number) :
    Writes scope db
      (engine_upload_part s db upload_id part_number body expected_length).1 := by
  unfold engine_upload_part
  split
  · exact .refl db
  rename_i hrange
  split
  · exact .refl db
  split
  · exact .refl db
  split
  · exact .refl db
  have hupload : Writes scope db
      (Transfer.upload s.env db upload_id part_number body expected_length).1 :=
    writes_upload upload_id part_number body expected_length
  split
  · rename_i hresult
    rw [hresult] at hupload
    exact hupload
  rename_i d part size hresult
  rw [hresult] at hupload
  have hreplace : Writes scope d
      (replace_part d s.env.now upload_id part_number size part.etag part.blocks).1 :=
    writes_replace_part (replaceable_of_upload hwf hresult)
      (Or.inr ⟨(not_not.mp hrange).1, hpart⟩)
  split
  all_goals
    rename_i hreplaced
    rw [hreplaced] at hreplace
  · exact (hupload.trans hreplace).trans (writes_cleanup_block_refs _)
  · exact hupload.trans hreplace

/-- A completion commits or does nothing. The parts are selected from what the tables say and not
written by that. -/
theorem commits_complete_multipart {md5 : List UInt8 → List UInt8} {max_object_size now : Int}
    {r : Answers.Reread} {upload_id : String} {requested : List (Int × String)}
    (hholds : Holds scope upload_id db) :
    Commits scope db (Completion.complete_multipart md5 max_object_size db db db db r now
      upload_id requested).1 := by
  unfold Completion.complete_multipart
  split
  · exact .refl db
  · rename_i ordered total_size etag _
    have hcommit : Commits scope db
        (Answers.commit_upload db r now upload_id total_size etag ordered {}).1 :=
      commits_commit_upload hholds
    split
    all_goals
      rename_i hresult
      rw [hresult] at hcommit
      exact hcommit

/-- As for a commit: the copy has been written before it is read back. -/
theorem fst_copy_object (r : Answers.Reread) (now : Int) (source : ObjectRecord)
    (bucket key : String) (metadata : ObjectMetadata) (condition : ObjectCondition) :
    (Answers.copy_object db r now source bucket key metadata condition).1
      = (Op.copy_object now source bucket key metadata condition).apply db := by
  unfold Answers.copy_object
  change _ = (transaction db (copy_object_tx db now source bucket key metadata condition)).1
  cases copy_object_tx db now source bucket key metadata condition with
  | error e => rfl
  | ok result => rfl

/-- What a load hands out is what is there, and its layout has been checked. -/
theorem loaded {source_bucket source_key : String} {source : ObjectRecord}
    (h : ({} : S3.Load).get_object db source_bucket source_key = .ok source) :
    get_object db source.bucket source.key = some source
      ∧ validate_object_layout source = .ok () := by
  obtain ⟨row, hrow, hsource, -⟩ := S3.Load.get_object_ok h
  have hname : (row.bucket, row.object_key) = (source_bucket, source_key) := (lookup_mem hrow).2
  obtain ⟨hbucket, hkey⟩ := Prod.mk.inj hname
  refine ⟨?_, ?_⟩
  · rw [hsource]
    change get_object db row.bucket row.object_key = _
    rw [hbucket, hkey]
    exact Option.map_eq_some_iff.mpr ⟨row, hrow, rfl⟩
  · unfold S3.Load.get_object Reads.engine_get_object at h
    obtain ⟨_, -, h⟩ := bind_ok.mp h
    split at h
    · cases h
    · obtain ⟨_, hvalid, h⟩ := bind_ok.mp h
      obtain rfl := Except.ok.inj h
      exact hvalid

/-- A copy has just looked its bucket up and read its source. -/
theorem commits_engine_copy_object {now : Int} {source_bucket source_key : String}
    {metadata : ObjectMetadata} {condition : ObjectCondition} (hkey : scope.keys key) :
    Commits scope db (S3.CopyRun.engine_copy_object {} db now source_bucket source_key
      scope.bucket key metadata condition).1 := by
  unfold S3.CopyRun.engine_copy_object
  dsimp only
  split
  · exact .refl db
  · rename_i source hload
    obtain ⟨_, hbucket, hload⟩ := bind_ok.mp hload
    have hcopy : Commits scope db
        (Answers.copy_object db {} now source scope.bucket key metadata condition).1 := by
      rw [fst_copy_object]
      exact Leads.single
        ⟨⟨⟨trivial, loaded hload, fun _ => require_ok.mp hbucket⟩, rfl, hkey⟩, trivial⟩
    split
    all_goals
      rename_i hresult
      rw [← congrArg Prod.fst hresult]
      exact hcopy

/-- A deletion is one whole operation, or none if its condition does not hold. -/
theorem commits_engine_delete_object {condition : ObjectCondition} (hkey : scope.keys key) :
    Commits scope db (engine_delete_object s db scope.bucket key condition).1 := by
  unfold engine_delete_object
  split_ifs
  · exact .refl db
  · have hdelete : Commits scope db
        (Tg2s3.delete_object db s.env.now scope.bucket key condition).1 :=
      Leads.single (a := Op.delete_object s.env.now scope.bucket key condition)
        ⟨⟨⟨trivial, trivial, trivial⟩, rfl, hkey⟩, trivial⟩
    split
    all_goals
      rename_i hresult
      rw [hresult] at hdelete
      exact hdelete

/-- The loop of a bulk delete. -/
theorem commits_delete_each {names : List String} (hkeys : ∀ key ∈ names, scope.keys key) :
    Commits scope db (delete_each s scope.bucket db names).1 := by
  induction names generalizing db with
  | nil => exact .refl db
  | cons name rest ih =>
      have hdelete : Commits scope db (engine_delete_object s db scope.bucket name {}).1 :=
        commits_engine_delete_object (hkeys name List.mem_cons_self)
      unfold delete_each
      split
      all_goals
        rename_i hresult
        rw [hresult] at hdelete
        exact hdelete.trans (ih fun key hkey => hkeys key (List.mem_cons_of_mem _ hkey))

end Handlers

/-! ## The routing -/

/-- What the handlers call in this scope leads to a state of this kind. -/
structure Calls (s : Server) (scope : Scope) (db : Database) (R : Database → Prop) : Prop where
  same : R db
  create_bucket : scope.whole → R (create_bucket db s.env.now scope.bucket).1
  delete_bucket : scope.whole → R (delete_bucket db scope.bucket).1
  set_bucket_cors (configuration : CorsConfiguration) :
    Stands db scope.bucket → R (set_bucket_cors db s.env.now scope.bucket configuration)
  delete_bucket_cors : R (delete_bucket_cors db scope.bucket)
  put_object (key : String) (body : Body) (metadata : ObjectMetadata) (length : Option Int)
      (condition : ObjectCondition) :
    scope.keys key → R (Transfer.put_object s.env db s.new_upload_id scope.bucket key body metadata
      length condition).1
  create_multipart (key : String) (metadata : ObjectMetadata) :
    scope.keys key → R (create_upload db
      { upload_id := s.new_upload_id, bucket := scope.bucket, key := key, metadata := metadata
        kind := .multipart, created_at := s.env.now }).1
  upload_part (upload_id : String) (part_number : Int) (body : Body) (length : Option Int) :
    Holds scope upload_id db → scope.parts upload_id part_number →
      R (engine_upload_part s db upload_id part_number body length).1
  complete_multipart (upload_id : String) (requested : List (Int × String)) :
    Holds scope upload_id db → R (Completion.complete_multipart s.env.md5
      s.env.config.max_object_size db db db db {} s.env.now upload_id requested).1
  abort_multipart (upload_id : String) :
    Holds scope upload_id db → R (abort_upload_with_blocks db s.env.now upload_id).1
  copy_object (source_bucket source_key key : String) (metadata : ObjectMetadata)
      (condition : ObjectCondition) :
    scope.keys key → R (S3.CopyRun.engine_copy_object {} db s.env.now source_bucket source_key
      scope.bucket key metadata condition).1
  delete_object (key : String) (condition : ObjectCondition) :
    scope.keys key → R (engine_delete_object s db scope.bucket key condition).1
  delete_each (names : List String) :
    (∀ key ∈ names, scope.keys key) → R (delete_each s scope.bucket db names).1

/-- The keys in the body of a bulk delete. -/
def Listed (s : Server) (body : Body) (key : String) : Prop :=
  ∃ bytes request, to_bytes (4 * 1024 * 1024) body = .ok bytes
    ∧ s.parse_delete bytes = some request ∧ key ∈ request.objects

/-- The bucket in the name of the request. -/
def target_bucket (s : Server) (r : Request) : Option String :=
  match S3.Target.parse s.percent_decode r.uri r.headers s.public_host with
  | .ok target => target.bucket
  | .error _ => none

/-- The keys that the request names: the key of its target, and those that a bulk delete
lists. -/
def Names (s : Server) (r : Request) (key : String) : Prop :=
  (∃ target, S3.Target.parse s.percent_decode r.uri r.headers s.public_host = .ok target
      ∧ target.key = some key)
    ∨ r.method = .POST ∧ S3.query_has (r.query s) "delete" = true ∧ Listed s r.body key

/-- The upload and the number of a part in a query. -/
def query_part (query : List (String × String)) : Option (String × Int) := do
  let upload_id ← S3.query_value query "uploadId"
  let part_number ← (S3.query_value query "partNumber").bind fun text => S3.parse_i32 text.toList
  pure (upload_id, part_number)

/-- The part that a PUT sends. -/
def NamesPart (s : Server) (r : Request) (upload_id : String) (part_number : Int) : Prop :=
  r.method = .PUT ∧ query_part (r.query s) = some (upload_id, part_number)

/-- What a request for this bucket names. -/
def request_scope (s : Server) (r : Request) (bucket : String) : Scope where
  bucket := bucket
  keys := Names s r
  parts := NamesPart s r
  whole := ∃ target, S3.Target.parse s.percent_decode r.uri r.headers s.public_host = .ok target
    ∧ target.key = none

namespace Calls

variable {scope : Scope} {key : String} {s : Server} {db : Database}
  {R : Database → Prop}

/-- A check that looks changes nothing. -/
theorem after_check (h : Calls s scope db R) {α : Type} {check : Except S3Error α}
    {next : α → Outcome} (hnext : ∀ a, check = .ok a → R (next a).1) :
    R (after_check db check next).1 := by
  unfold S3.Dispatch.after_check
  split
  · exact h.same
  · exact hnext _ rfl

/-- Rules are stored only for a bucket that stands, which the handler has just asked for. -/
theorem put_cors (h : Calls s scope db R) (body : Body) :
    R (put_bucket_cors s db scope.bucket body).1 := by
  refine h.after_check fun _ hbucket => ?_
  have hstands : Stands db scope.bucket := of_decide_eq_true (S3.ensure_ok.mp hbucket)
  split
  · exact h.same
  · rename_i bytes _
    have hput : R (S3.put_bucket_cors db s.env.now scope.bucket
        ((s.parse_cors bytes).elim (.error .malformed_xml) .ok)).1 := by
      unfold S3.put_bucket_cors
      split
      · split
        · exact h.set_bucket_cors _ hstands
        · exact h.same
      · exact h.same
    split
    all_goals
      rename_i hresult
      rw [hresult] at hput
      exact hput

/-- A bulk delete deletes the listed keys one by one, and each of them is a key of the scope. -/
theorem multi_delete (h : Calls s scope db R) {body : Body}
    (hkeys : ∀ key, Listed s body key → scope.keys key) :
    R (multi_delete s db scope.bucket body).1 := by
  refine h.after_check fun _ _ => ?_
  split
  · exact h.same
  · rename_i bytes hbytes
    split
    · exact h.same
    · rename_i request hrequest
      refine h.after_check fun _ _ => ?_
      exact h.delete_each _ fun key hkey => hkeys key ⟨bytes, request, hbytes, hrequest, hkey⟩

/-- **The requests to a bucket.** Only its own handlers and the bulk delete write; the list of
keys is needed for that one alone. -/
theorem dispatch_bucket (h : Calls s scope db R) {method : Method}
    {query : List (String × String)} {body : Body} (hwhole : scope.whole)
    (hkeys : method = .POST → S3.query_has query "delete" = true →
      ∀ key, Listed s body key → scope.keys key) :
    R (dispatch_bucket s db method scope.bucket query body).1 := by
  unfold S3.Dispatch.dispatch_bucket
  split
  · -- the CORS rules
    split
    · exact h.after_check fun _ _ => h.same
    · exact h.put_cors body
    · exact h.after_check fun _ _ => h.delete_bucket_cors
    · exact h.same
  split
  · split
    · exact h.after_check fun _ _ => h.same
    · exact h.same
  split
  · split <;> exact h.same
  split
  · -- the bulk delete, whose keys the body lists
    rename_i hdelete
    split
    · rename_i hpost
      exact h.multi_delete (hkeys hpost hdelete)
    · exact h.same
  split
  · split
    · exact h.after_check fun _ _ => h.same
    · exact h.same
  split
  · exact h.after_check fun _ _ => h.create_bucket hwhole
  · exact h.after_check fun _ _ => h.same
  · -- DELETE without a subresource
    have hdelete := h.delete_bucket hwhole
    unfold S3.Dispatch.delete_bucket
    split
    all_goals
      rename_i hresult
      rw [hresult] at hdelete
      exact hdelete
  · exact h.after_check fun _ _ => h.same
  · exact h.same

/-- **The requests to an upload** of the key. A PUT sends the part that its query names; the
other methods end the upload or list it. -/
theorem dispatch_upload (h : Calls s scope db R) {method : Method} {upload_id : String}
    {query : List (String × String)} {headers : HeaderMap} {body : Body} (hkey : scope.keys key)
    (hparts : method = .PUT → ∀ part_number,
      ((S3.query_value query "partNumber").bind fun text => S3.parse_i32 text.toList)
        = some part_number → scope.parts upload_id part_number) :
    R (dispatch_upload s db method scope.bucket key upload_id query headers body).1 := by
  unfold S3.Dispatch.dispatch_upload
  split
  · exact h.same
  rename_i upload hupload
  split
  · exact h.same
  rename_i hsame
  obtain ⟨hbucket, hname⟩ := not_or.mp hsame
  -- the row that the handler found names the bucket and the key of the path
  have hholds : Holds scope upload_id db := by
    intro found hfound
    obtain rfl := Option.some.inj (hupload.symm.trans hfound)
    exact ⟨not_not.mp hbucket, (not_not.mp hname) ▸ hkey⟩
  split
  · -- the parts
    unfold list_parts
    split
    · exact h.same
    · exact h.after_check fun _ _ => h.same
  · -- PUT: a part
    unfold S3.Dispatch.upload_part
    split
    · exact h.same
    split
    · exact h.same
    rename_i part_number hnumber
    split
    · exact h.same
    rename_i length _
    have hpart := h.upload_part upload_id part_number body length hholds
      (hparts rfl part_number hnumber)
    split
    all_goals
      rename_i hresult
      rw [← congrArg Prod.fst hresult]
      exact hpart
  · -- POST: the completion
    unfold S3.Dispatch.complete_multipart
    split
    · exact h.same
    split
    · exact h.same
    rename_i parts _
    have hcomplete := h.complete_multipart upload_id
      (parts.map fun part => (part.1, normalize_etag part.2)) hholds
    split
    all_goals
      rename_i hresult
      rw [← congrArg Prod.fst hresult]
      exact hcomplete
  · -- DELETE: the abort
    unfold S3.Dispatch.abort_multipart
    have habort := h.abort_multipart upload_id hholds
    split
    all_goals
      rename_i hresult
      rw [hresult] at habort
      exact habort
  · exact h.same

/-- A plain PUT makes one call, after its headers and its size have been checked. -/
theorem put (h : Calls s scope db R) {headers : HeaderMap} {body : Body} (hkey : scope.keys key) :
    R (S3.Dispatch.put_object s db scope.bucket key headers body).1 := by
  refine h.after_check fun _ _ => ?_
  split
  · exact h.same
  · rename_i length _
    have hput := h.put_object key body (S3.metadata_from_headers headers) length
      (S3.object_condition headers) hkey
    split
    all_goals
      rename_i hresult
      rw [← congrArg Prod.fst hresult]
      exact hput

/-- A copy makes one call, when its source and its conditions have been read. -/
theorem copy (h : Calls s scope db R) {source : String} {headers : HeaderMap}
    (hkey : scope.keys key) :
    R (S3.Dispatch.copy_object s db scope.bucket key source headers).1 := by
  refine h.after_check fun _ _ => ?_
  have hcopy : R (S3.copy_object s.percent_decode db {} s.env.now scope.bucket key source headers
      (S3.object_condition headers)).1 := by
    unfold S3.copy_object
    split
    · exact h.same
    · exact h.copy_object _ _ key _ _ hkey
  split
  all_goals
    rename_i hresult
    rw [hresult] at hcopy
    exact hcopy

/-- The initiation of an upload makes one call. -/
theorem initiate (h : Calls s scope db R) {headers : HeaderMap} (hkey : scope.keys key) :
    R (S3.Dispatch.create_multipart s db scope.bucket key headers).1 := by
  refine h.after_check fun _ _ => ?_
  have hcreate := h.create_multipart key (S3.metadata_from_headers headers) hkey
  split
  all_goals
    rename_i hresult
    rw [hresult] at hcreate
    exact hcreate

/-- A GET makes no call that writes. -/
theorem get (h : Calls s scope db R) (headers : HeaderMap) (head_only : Bool) :
    R (S3.Dispatch.get_object s db scope.bucket key headers head_only).1 := by
  refine h.after_check fun _ _ => ?_
  split
  · exact h.same
  split
  · exact h.same
  split <;> exact h.same

/-- A DELETE makes one call, with the conditions of its headers. -/
theorem delete (h : Calls s scope db R) {headers : HeaderMap} (hkey : scope.keys key) :
    R (S3.Dispatch.delete_object s db scope.bucket key headers).1 := by
  refine h.after_check fun _ _ => ?_
  have hdelete := h.delete_object key (S3.object_condition headers) hkey
  split
  all_goals
    rename_i hresult
    rw [hresult] at hdelete
    exact hdelete

/-- **The requests to a key**, branch by branch in the order of the source. A relation that every
call of this server keeps is kept by all of them. -/
theorem dispatch_object (h : Calls s scope db R) {method : Method}
    {query : List (String × String)} {headers : HeaderMap} {body : Body} (hkey : scope.keys key)
    (hkeys : method = .POST → S3.query_has query "delete" = true →
      ∀ key, Listed s body key → scope.keys key)
    (hparts : method = .PUT → ∀ upload_id part_number,
      query_part query = some (upload_id, part_number) → scope.parts upload_id part_number) :
    R (dispatch_object s db method scope.bucket key query headers body).1 := by
  unfold S3.Dispatch.dispatch_object
  split
  · exact h.same
  split
  · rename_i upload_id hupload
    refine h.dispatch_upload hkey fun hput part_number hnumber => hparts hput upload_id part_number ?_
    unfold query_part
    rw [hupload, hnumber]
    rfl
  split
  · split
    · exact h.copy hkey
    · exact h.put hkey
  split
  · exact h.initiate hkey
  split
  · rename_i hdelete
    exact h.multi_delete (hkeys hdelete.1 hdelete.2)
  split
  · exact h.same
  split
  · exact h.get headers _
  split
  · exact h.delete hkey
  · exact h.same

/-- **The routing rule.** What the calls of the handlers lead to, a request leads to, within what
it names. -/
theorem dispatch {r : Request} {bucket : String} (h : Calls s (request_scope s r bucket) db R)
    (hbucket : target_bucket s r = some bucket) : R (dispatch s db r).1 := by
  have hkeys : r.method = .POST → S3.query_has (r.query s) "delete" = true →
      ∀ key, Listed s r.body key → Names s r key :=
    fun hpost hdelete key hlisted => Or.inr ⟨hpost, hdelete, hlisted⟩
  unfold target_bucket at hbucket
  refine h.after_check fun target htarget => ?_
  rw [htarget] at hbucket
  dsimp only at hbucket
  split
  · exact h.same
  split
  · split <;> exact h.same
  · rename_i found hfound
    obtain rfl := Option.some.inj (hfound.symm.trans hbucket)
    split
    · rename_i hkey
      exact h.dispatch_bucket ⟨target, htarget, hkey⟩ hkeys
    · rename_i key hkey
      exact h.dispatch_object (Or.inl ⟨target, htarget, hkey⟩) hkeys
        fun hput upload_id part_number hpart => ⟨hput, hpart⟩

end Calls

/-- A request that names no bucket writes nothing. -/
theorem dispatch_no_bucket {s : Server} {db : Database} {r : Request}
    (h : target_bucket s r = none) : (dispatch s db r).1 = db := by
  unfold target_bucket at h
  unfold dispatch after_check
  cases htarget : S3.Target.parse s.percent_decode r.uri r.headers s.public_host with
  | error e => rfl
  | ok target =>
      rw [htarget] at h
      dsimp only at h ⊢
      rw [h]
      split
      · rfl
      · change (if r.method = .GET then list_buckets s db else refuse db _).1 = db
        split <;> rfl

/-- **Every call is a trace** of proper operations in its scope. -/
theorem calls_writes {s : Server} {scope : Scope} {db : Database}
    (hwf : WellFormed db) : Calls s scope db (Writes scope db) where
  same := .refl db
  create_bucket := fun hwhole => Leads.single (a := Op.create_bucket s.env.now scope.bucket)
    ⟨⟨trivial, trivial, trivial⟩, rfl, hwhole⟩
  delete_bucket := fun hwhole => Leads.single (a := Op.delete_bucket scope.bucket)
    ⟨⟨trivial, trivial, trivial⟩, rfl, hwhole⟩
  set_bucket_cors := fun configuration hstands =>
    Leads.single (a := Op.set_bucket_cors s.env.now scope.bucket configuration)
      ⟨⟨trivial, trivial, hstands⟩, rfl⟩
  delete_bucket_cors := Leads.single (a := Op.delete_bucket_cors scope.bucket)
    ⟨⟨trivial, trivial, trivial⟩, rfl⟩
  put_object := fun _ body metadata length condition hkey =>
    writes_put_object s.env s.new_upload_id body metadata length condition hwf hkey
  create_multipart := fun _ _ hkey => writes_create_upload rfl hkey
  upload_part := fun _ _ _ _ _ hpart => writes_engine_upload_part hwf hpart
  complete_multipart := fun _ _ hholds => (commits_complete_multipart hholds).writes
  abort_multipart := fun _ hholds => (commits_abort s.env.now hholds).writes
  copy_object := fun _ _ _ _ _ hkey => (commits_engine_copy_object hkey).writes
  delete_object := fun _ _ hkey => (commits_engine_delete_object hkey).writes
  delete_each := fun _ hkeys => (commits_delete_each hkeys).writes

end Tg2s3.Serving
