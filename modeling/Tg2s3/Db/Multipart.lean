/-
`src/db/multipart.rs`: uploads, their parts, and the transaction that turns an
upload into an object.

Each `*_tx` is the body of one transaction, statement by statement; the function
of the source is that body under `transaction`. The upload row is locked by an
update that changes nothing (`SET created_at = created_at`), so all a body sees
of the lock is whether the row is there.
-/
import Tg2s3.Db.Support

set_option autoImplicit false

namespace Tg2s3

open Relational

def create_upload (db : Database) (upload : UploadRecord) : Database × Except DbError Unit :=
  transaction db do
    require (upload.bucket ∈ db.buckets.map (·.name)) .no_such_bucket
    let db ← db.insert_upload upload
    pure (db, ())

def get_upload (db : Database) (upload_id : String) : Option UploadRecord := db.upload? upload_id

/-- The row of a block that was just sent. -/
def staged_row (now : Int) (block : BlockRef) (id : Int) : TelegramBlockRow where
  id := id
  chat_id := block.chat_id
  message_id := block.message_id
  backend := block.backend
  document_id := block.document_id
  file_id := block.file_id
  file_unique_id := block.file_unique_id
  size := block.size
  message_date := block.message_date
  ref_count := 1
  state := .staged
  created_at := now

def add_staged_block (db : Database) (now : Int) (block : BlockRef) :
    Database × Except DbError Int :=
  transaction db (db.insert_block (staged_row now block))

/-! ## Parts -/

/-- The insert loop of `replace_part`; the ordinal is the position. -/
def insert_part_blocks (upload_id : String) (part_number : Int) :
    Database → Int → List BlockRef → Except DbError Database
  | db, _, [] => .ok db
  | db, ordinal, block :: rest => do
      let db ← db.insert_part_block
        { upload_id := upload_id, part_number := part_number, ordinal := ordinal,
          block_id := block.id, byte_offset := block.offset, size := block.size }
      insert_part_blocks upload_id part_number db (ordinal + 1) rest

def replace_part_tx (db : Database) (now : Int) (upload_id : String) (part_number size : Int)
    (etag : String) (block_ids : List BlockRef) : Except DbError (Database × List BlockRef) := do
  require (db.upload? upload_id ≠ none) .no_such_upload
  let new_block_ids := block_ids.map (·.id)
  ensure_blocks_not_queued db new_block_ids
  require new_block_ids.Nodup .invalid_part
  let old := (db.part_block_rows upload_id part_number).filterMap db.join_part_block
  let released := old.filter (fun block => block.id ∉ new_block_ids)
  let db := db.delete_part upload_id part_number
  let db := decrement_blocks db now released
  let db ← db.insert_part
    { upload_id := upload_id, part_number := part_number, size := size, etag := etag }
  let db ← insert_part_blocks upload_id part_number db 0 block_ids
  pure (db, released)

def replace_part (db : Database) (now : Int) (upload_id : String) (part_number size : Int)
    (etag : String) (block_ids : List BlockRef) : Database × Except DbError (List BlockRef) :=
  transaction db (replace_part_tx db now upload_id part_number size etag block_ids)

/-! ## `get_parts`: two queries, each at its own moment -/

def get_parts_rows (db : Database) (upload_id : String) (include_internal : Bool) : List PartRow :=
  (db.multipart_parts.filter
      (fun r => r.upload_id = upload_id ∧ (include_internal ∨ r.part_number > 0))).insertionSort
    (·.part_number ≤ ·.part_number)

def get_parts_blocks (db : Database) (upload_id : String) (include_internal : Bool) :
    List (Int × BlockRef) :=
  ((db.upload_block_rows upload_id).filter
      (fun r => include_internal ∨ r.part_number > 0)).filterMap
    (fun r => (db.join_part_block r).map (fun b => (r.part_number, b)))

/-- Part rows of the first query, blocks of the second, matched by number. -/
def parts_from_rows (rows : List PartRow) (blocks : List (Int × BlockRef)) : List PartRecord :=
  rows.map fun r =>
    { upload_id := r.upload_id, part_number := r.part_number, size := r.size, etag := r.etag,
      blocks := (blocks.filter (·.1 = r.part_number)).map (·.2) }

/-! ## Committing -/

/-- `ref_count = CASE WHEN ref_count < 1 THEN 1 ELSE ref_count END, state =
'committed'`. -/
def commit_row (b : TelegramBlockRow) : TelegramBlockRow :=
  { b with ref_count := if b.ref_count < 1 then 1 else b.ref_count, state := .committed }

/-- What one block of a committed part becomes: a row of the object, a count of
at least one, and no longer garbage. -/
def commit_block (db : Database) (object_id ordinal offset : Int) (block : BlockRef) :
    Except DbError Database := do
  let db ← db.insert_object_block
    { object_id := object_id, ordinal := ordinal, block_id := block.id, byte_offset := offset,
      size := block.size }
  let db := db.update_block block.id commit_row
  pure (db.dequeue block.id)

/-- `for part in parts { for block in &part.blocks { .. } }`: the two counters run
on over all the parts. -/
def commit_blocks (object_id : Int) :
    Database → Int → Int → List BlockRef → Except DbError Database
  | db, _, _, [] => .ok db
  | db, ordinal, offset, block :: rest => do
      let db ← commit_block db object_id ordinal offset block
      commit_blocks object_id db (ordinal + 1) (offset + block.size) rest

/-- The blocks of the parts the completion did not use. -/
def unused_blocks (db : Database) (upload_id : String) (parts : List PartRecord) :
    List BlockRef :=
  ((db.upload_block_rows upload_id).filter
      (fun r => r.part_number ∉ parts.map (·.part_number))).filterMap db.join_part_block

/-- The transaction of `commit_upload`. `none` is the early return for an upload
that is gone; otherwise the result names the object that was written and the
blocks that were released. -/
def commit_upload_tx (db : Database) (now : Int) (upload_id : String) (size : Int)
    (etag : String) (parts : List PartRecord) (condition : ObjectCondition) :
    Except DbError (Database × Option (UploadRecord × List BlockRef)) := do
  let total ← validate_parts_layout parts
  require (total = size) .invalid_layout
  match db.upload? upload_id with
  | none => pure (db, none)
  | some upload =>
      verify_parts_tx db upload_id parts
      let blocks := parts.flatMap (·.blocks)
      ensure_blocks_not_queued db (blocks.map (·.id))
      let (db, old) ← remove_existing_object db now upload.bucket upload.key condition
      let (db, object_id) ← db.insert_object fun id =>
        { id := id, bucket := upload.bucket, object_key := upload.key, size := size,
          etag := etag, metadata := upload.metadata, created_at := upload.created_at,
          modified_at := now }
      let db ← commit_blocks object_id db 0 0 blocks
      let unused := unused_blocks db upload_id parts
      let db := decrement_blocks db now unused
      let db := db.delete_upload upload_id
      pure (db, some (upload, (old.map (·.2)).getD [] ++ unused))

/-! ## Aborting -/

def abort_upload_with_blocks_tx (db : Database) (now : Int) (upload_id : String) :
    Except DbError (Database × Option (List BlockRef)) :=
  match db.upload? upload_id with
  | none => .ok (db, none)
  | some _ =>
      let blocks := (db.upload_block_rows upload_id).filterMap db.join_part_block
      let db := db.delete_upload upload_id
      .ok (decrement_blocks db now blocks, some blocks)

def abort_upload_with_blocks (db : Database) (now : Int) (upload_id : String) :
    Database × Except DbError (Option (List BlockRef)) :=
  transaction db (abort_upload_with_blocks_tx db now upload_id)

end Tg2s3
