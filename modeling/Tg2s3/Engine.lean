/-
The engine as a machine: requests, cleanups and the garbage collector over one
database and one chat.

A `World` is the database, what Telegram has seen of us (the message ids it gave
out, the messages we asked it to delete), and what the running tasks remember:

- an upload (`put_object` or `upload_part`) remembers the blocks it has staged;
- a failed upload leaves a cleanup for each of them;
- a copy remembers the snapshot of its source;
- a pass of the collector remembers its candidates.

An `Action` is one step of one of them: one transaction, one query, or one call
to Telegram. Which task moves, what Telegram answers, when a task is cancelled
and when the process dies is all in the action, so a list of actions is an
interleaving. The machine lets tasks do what they do in any order and as late as
they like; it does not know `gc_lock`, so it has more runs than the engine has.

Message ids come from Telegram, which never gives one out twice; upload ids are
UUIDs. Both are said by the guards on `sent` and `upload_ids`. The id of a block
row is what SQLite makes it (`Database.next_block_id`).
-/
import Tg2s3.History

set_option autoImplicit false

namespace Tg2s3

open Relational

/-! ## Uploads -/

/-- `StoredDocument` of `src/telegram/mod.rs`: what an upload to Telegram returns. -/
structure StoredDocument where
  backend : TelegramBackend
  message_id : Int
  document_id : Option Int
  file_id : String
  file_unique_id : String
  file_size : Int
  message_date : Int
  deriving DecidableEq, Repr

/-- One block of a body; the upload and part it is for are those of the call. -/
structure BlockSpec where
  ordinal : Int
  offset : Int
  size : Int
  deriving DecidableEq, Repr

/-- `uploaded_block` and `to_block_ref`: the reference of a staged block. -/
def uploaded_block (chat_id id : Int) (spec : BlockSpec) (document : StoredDocument) :
    BlockRef where
  id := id
  ordinal := spec.ordinal
  offset := spec.offset
  size := spec.size
  chat_id := chat_id
  message_id := document.message_id
  backend := document.backend
  document_id := document.document_id
  file_id := document.file_id
  file_unique_id := document.file_unique_id
  message_date := document.message_date

inductive Phase
  /-- blocks are being sent and staged -/
  | streaming
  /-- `upload` has returned; the cleanup guard is disarmed -/
  | uploaded
  /-- `replace_part` has returned `Ok` -/
  | replaced
  deriving DecidableEq, Repr

/-- A running `put_object` or `upload_part`. -/
structure UploadCall where
  upload_id : String
  part_number : Int
  kind : UploadKind
  next_ordinal : Int := 0
  next_offset : Int := 0
  pending : List BlockSpec := []
  blocks : List BlockRef := []
  etag : String := ""
  phase : Phase := .streaming
  deriving DecidableEq, Repr

/-- The part as `upload` returns it. -/
def UploadCall.part (c : UploadCall) : PartRecord where
  upload_id := c.upload_id
  part_number := c.part_number
  size := c.next_offset
  etag := c.etag
  blocks := c.blocks

/-! ## The state -/

structure World where
  chat_id : Int
  db : Database := {}
  now : Int := 0
  sent : List Int := []
  deleted : List Int := []
  upload_ids : List String := []
  uploads : List UploadCall := []
  /-- references of failed uploads that `cleanup_untracked_block` has not reached -/
  cleanups : List BlockRef := []
  /-- those for which `queue_stale_block` answered true -/
  claimed : List BlockRef := []
  /-- those for which `queue_stale_block` returned an error -/
  unclaimed : List BlockRef := []
  stale : List GarbageRecord := []
  candidates : List GarbageRecord := []
  /-- source rows a copy has read -/
  source_rows : List ObjectRow := []
  /-- snapshots a copy has read -/
  sources : List ObjectRecord := []
  deriving DecidableEq, Repr

inductive Action
  | tick (now : Int)
  | request (op : Op)
  | create_multipart (upload : UploadRecord)
  | put_object (upload : UploadRecord)
  | upload_part (upload_id : String) (part_number : Int)
  | start_task (call : UploadCall) (size : Int)
  | stage (call : UploadCall) (spec : BlockSpec) (document : StoredDocument)
  | stage_late (spec : BlockSpec) (document : StoredDocument)
  | discard (document : StoredDocument)
  | lose (spec : BlockSpec) (document : StoredDocument)
  | finish (call : UploadCall) (etag : String)
  | fail (call : UploadCall)
  | replace_part (call : UploadCall)
  | commit_upload (call : UploadCall) (condition : ObjectCondition)
  | drop (call : UploadCall)
  | claim (reference : BlockRef)
  | claim_error (reference : BlockRef)
  | delete_claimed (reference : BlockRef)
  | delete_unclaimed (reference : BlockRef)
  | cleanup_success (reference : BlockRef)
  | stale_blocks (limit : ℕ)
  | queue_stale (record : GarbageRecord)
  | gc_candidates (limit : ℕ)
  | gc_candidate (block_id : Int)
  | gc_delete (record : GarbageRecord)
  | gc_success (record : GarbageRecord)
  | gc_failure (record : GarbageRecord) (error : String)
  | gc_orphan (record : GarbageRecord) (error : String)
  | copy_row (bucket key : String)
  | copy_source (row : ObjectRow)
  | copy_object (source : ObjectRecord) (bucket key : String) (metadata : ObjectMetadata)
      (condition : ObjectCondition)
  | crash
  deriving DecidableEq, Repr

/-! ## The steps -/

namespace World

variable (w : World)

/-- `call` goes on as `call'`. -/
def advance (call call' : UploadCall) : World :=
  { w with uploads := call' :: w.uploads.erase call }

/-- `call` is over. -/
def finished (call : UploadCall) : World := { w with uploads := w.uploads.erase call }

/-- `call` is over and its cleanup guard has taken its references. -/
def failed (call : UploadCall) : World :=
  { w with uploads := w.uploads.erase call, cleanups := w.cleanups ++ call.blocks }

/-- A document has arrived in the chat and is recorded. -/
def record (spec : BlockSpec) (document : StoredDocument) : Option (World × BlockRef) :=
  if document.message_id ∈ w.sent
      ∨ ¬ (document.file_size = 0 ∨ document.file_size = spec.size) then none
  else
    match add_staged_block w.db w.now (uploaded_block w.chat_id 0 spec document) with
    | (db', .ok id) =>
        some ({ w with db := db', sent := document.message_id :: w.sent },
          uploaded_block w.chat_id id spec document)
    | (_, .error _) => none

/-- A deletion is issued. -/
def delete_message (message_id : Int) : World := { w with deleted := message_id :: w.deleted }

end World

def step (w : World) : Action → Option World
  | .tick now => if w.now ≤ now then some { w with now := now } else none
  | .request op => if op.plain then some { w with db := op.apply w.db } else none
  | .create_multipart upload =>
      if upload.upload_id ∈ w.upload_ids ∨ upload.kind = .put then none
      else some { w with
        db := (create_upload w.db upload).1, upload_ids := upload.upload_id :: w.upload_ids }
  | .put_object upload =>
      if upload.upload_id ∈ w.upload_ids ∨ upload.kind = .multipart then none
      else
        match create_upload w.db upload with
        | (db', .ok ()) => some { w with
            db := db', upload_ids := upload.upload_id :: w.upload_ids
            uploads := { upload_id := upload.upload_id, part_number := 0, kind := .put } :: w.uploads }
        | (_, .error _) => none
  | .upload_part upload_id part_number =>
      match get_upload w.db upload_id with
      | none => none
      | some upload =>
          if 1 ≤ part_number ∧ part_number ≤ 10000 ∧ upload.kind = .multipart then
            some { w with uploads :=
              { upload_id := upload_id, part_number := part_number, kind := .multipart }
                :: w.uploads }
          else none
  | .start_task call size =>
      -- `start_pipe_task` and `start_file_task`: ordinals and offsets count up
      if call ∈ w.uploads ∧ call.phase = .streaming ∧ 0 < size then
        some (w.advance call { call with
          next_ordinal := call.next_ordinal + 1, next_offset := call.next_offset + size
          pending := call.pending ++
            [{ ordinal := call.next_ordinal, offset := call.next_offset, size := size }] })
      else none
  | .stage call spec document =>
      if call ∈ w.uploads ∧ call.phase = .streaming ∧ spec ∈ call.pending then
        match w.record spec document with
        | some (w', block) => some (w'.advance call { call with
            pending := call.pending.erase spec, blocks := call.blocks ++ [block] })
        | none => none
      else none
  | .stage_late spec document =>
      -- the call is over: `register` finds the guard closed and cleans up
      match w.record spec document with
      | some (w', block) => some { w' with cleanups := w'.cleanups ++ [block] }
      | none => none
  | .discard document =>
      -- `MessageCleanupGuard`: the document was refused, or not recorded
      if document.message_id ∈ w.sent then none
      else some
        ({ w with sent := document.message_id :: w.sent }.delete_message document.message_id)
  | .lose spec document =>
      -- the task was aborted in `add_staged_block`: the row is there, the guard deletes
      match w.record spec document with
      | some (w', _) => some (w'.delete_message document.message_id)
      | none => none
  | .finish call etag =>
      if call ∈ w.uploads ∧ call.phase = .streaming ∧ call.pending = [] then
        some (w.advance call { call with
          blocks := call.blocks.insertionSort (·.ordinal ≤ ·.ordinal), etag := etag
          phase := .uploaded })
      else none
  | .fail call =>
      if call ∈ w.uploads ∧ call.phase ≠ .replaced then some (w.failed call) else none
  | .replace_part call =>
      if call ∈ w.uploads ∧ call.phase = .uploaded then
        match replace_part w.db w.now call.upload_id call.part_number call.next_offset call.etag
            call.blocks with
        | (db', .ok _) => some ({ w with db := db' }.advance call { call with phase := .replaced })
        | (_, .error _) => some (w.failed call)
      else none
  | .commit_upload call condition =>
      if call ∈ w.uploads ∧ call.phase = .replaced ∧ call.kind = .put then
        some ({ w with
          db := (transaction w.db (commit_upload_tx w.db w.now call.upload_id call.next_offset
            call.etag [call.part] condition)).1 }.finished call)
      else none
  | .drop call => if call ∈ w.uploads then some (w.finished call) else none
  | .claim reference =>
      if reference ∈ w.cleanups then
        match queue_stale_block w.db w.now reference.id with
        | (db', true) => some { w with
            db := db', cleanups := w.cleanups.erase reference, claimed := reference :: w.claimed }
        | (db', false) => some { w with db := db', cleanups := w.cleanups.erase reference }
      else none
  | .claim_error reference =>
      if reference ∈ w.cleanups then
        some { w with
          cleanups := w.cleanups.erase reference, unclaimed := reference :: w.unclaimed }
      else none
  | .delete_claimed reference =>
      if reference ∈ w.claimed then some (w.delete_message reference.message_id) else none
  | .delete_unclaimed reference =>
      if reference ∈ w.unclaimed then
        some ({ w with unclaimed := w.unclaimed.erase reference }.delete_message
          reference.message_id)
      else none
  | .cleanup_success reference =>
      if reference ∈ w.claimed ∧ reference.message_id ∈ w.deleted then
        some { w with
          db := gc_success w.db reference.id, claimed := w.claimed.erase reference }
      else none
  | .stale_blocks limit =>
      some { w with stale := w.stale ++ stale_blocks w.db (w.now - 3600) limit }
  | .queue_stale record =>
      if record ∈ w.stale then
        some { w with
          db := (queue_stale_block w.db w.now record.block_id).1, stale := w.stale.erase record }
      else none
  | .gc_candidates limit =>
      some { w with candidates := w.candidates ++ gc_candidates w.db w.now limit }
  | .gc_candidate block_id =>
      some { w with candidates := w.candidates ++ (gc_candidate w.db block_id w.now).toList }
  | .gc_delete record =>
      if record ∈ w.candidates then some (w.delete_message record.message_id) else none
  | .gc_success record =>
      if record ∈ w.candidates ∧ record.message_id ∈ w.deleted then
        some { w with
          db := gc_success w.db record.block_id, candidates := w.candidates.erase record }
      else none
  | .gc_failure record error =>
      if record ∈ w.candidates ∧ record.message_id ∈ w.deleted then
        some { w with
          db := gc_failure w.db record.block_id error (w.now + 300)
          candidates := w.candidates.erase record }
      else none
  | .gc_orphan record error =>
      if record ∈ w.candidates then
        some { w with
          db := gc_orphan w.db record.block_id error, candidates := w.candidates.erase record }
      else none
  | .copy_row bucket key =>
      match get_object_row w.db bucket key with
      | some row => some { w with source_rows := row :: w.source_rows }
      | none => none
  | .copy_source row =>
      if row ∈ w.source_rows
          ∧ validate_object_layout (object_from_row row (load_object_blocks w.db row.id)) = .ok ()
      then some { w with
        source_rows := w.source_rows.erase row
        sources := object_from_row row (load_object_blocks w.db row.id) :: w.sources }
      else none
  | .copy_object source bucket key metadata condition =>
      if source ∈ w.sources then
        some { w with
          db := (transaction w.db
            (copy_object_tx w.db w.now source bucket key metadata condition)).1
          sources := w.sources.erase source }
      else none
  | .crash =>
      some { w with
        uploads := [], cleanups := [], claimed := [], unclaimed := [], stale := []
        candidates := [], source_rows := [], sources := [] }

/-- The engine after it was started on an empty database. -/
def World.init (chat_id : Int) : World := { chat_id := chat_id }

/-! ## What is remembered -/

/-- The references to staged blocks that an upload or its cleanup holds. -/
def World.references (w : World) : List BlockRef :=
  w.uploads.flatMap (·.blocks) ++ w.cleanups ++ w.claimed ++ w.unclaimed

/-- A running upload or copy may still name this block to the database. -/
def World.remembers (w : World) (b : Int) : Prop :=
  (∃ call ∈ w.uploads, b ∈ call.blocks.map (·.id)) ∨ ∃ source ∈ w.sources, b ∈ source.blocks.map (·.id)

instance (w : World) (b : Int) : Decidable (w.remembers b) :=
  inferInstanceAs (Decidable (_ ∨ _))

end Tg2s3
