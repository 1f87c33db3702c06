/-
`migrations/`: the tables, their constraints, and the statements the queries of
`src/db/` are made of.

A `Database` is one list of rows per table. `WellFormed` is what SQLite keeps on
every statement with `foreign_keys(true)`: primary and unique keys, and foreign
keys with their `ON DELETE CASCADE`. Each statement below comes with its
constraint check, so a violated constraint is an error of the statement and not
a state.

Row ids are assigned by `Relational.nextRowid`: `objects.id` and
`telegram_blocks.id` are `INTEGER PRIMARY KEY` without `AUTOINCREMENT`, so an id
may come back after its row is gone.
-/
import Mathlib.Data.List.Sort
import Tg2s3.Lib.Table
import Tg2s3.Model

set_option autoImplicit false

namespace Tg2s3

open Relational

/-! ## Rows -/

structure BucketRow where
  name : String
  created_at : Int
  deriving DecidableEq, Repr

structure BucketCorsRow where
  bucket : String
  configuration : CorsConfiguration
  created_at : Int
  updated_at : Int
  deriving DecidableEq, Repr

structure ObjectRow where
  id : Int
  bucket : String
  object_key : String
  size : Int
  etag : String
  metadata : ObjectMetadata
  created_at : Int
  modified_at : Int
  deriving DecidableEq, Repr

/-- `telegram_blocks.state`. -/
inductive BlockState
  | staged
  | committed
  deriving DecidableEq, Repr

structure TelegramBlockRow where
  id : Int
  chat_id : Int
  message_id : Int
  backend : TelegramBackend
  document_id : Option Int
  file_id : String
  file_unique_id : String
  size : Int
  message_date : Int
  ref_count : ℕ
  state : BlockState
  created_at : Int
  deriving DecidableEq, Repr

structure ObjectBlockRow where
  object_id : Int
  ordinal : Int
  block_id : Int
  byte_offset : Int
  size : Int
  deriving DecidableEq, Repr

structure PartRow where
  upload_id : String
  part_number : Int
  size : Int
  etag : String
  deriving DecidableEq, Repr

structure PartBlockRow where
  upload_id : String
  part_number : Int
  ordinal : Int
  block_id : Int
  byte_offset : Int
  size : Int
  deriving DecidableEq, Repr

/-- `gc_queue.state`. -/
inductive GcState
  | pending
  | orphan
  deriving DecidableEq, Repr

structure GcQueueRow where
  block_id : Int
  attempts : Int
  next_attempt : Int
  last_error : Option String
  state : GcState
  deriving DecidableEq, Repr

structure Database where
  buckets : List BucketRow := []
  bucket_cors : List BucketCorsRow := []
  objects : List ObjectRow := []
  telegram_blocks : List TelegramBlockRow := []
  object_blocks : List ObjectBlockRow := []
  multipart_uploads : List UploadRecord := []
  multipart_parts : List PartRow := []
  multipart_part_blocks : List PartBlockRow := []
  gc_queue : List GcQueueRow := []
  deriving DecidableEq, Repr

/-! ## Keys -/

def ObjectRow.name (o : ObjectRow) : String × String := (o.bucket, o.object_key)
def TelegramBlockRow.message (b : TelegramBlockRow) : Int × Int := (b.chat_id, b.message_id)
def ObjectBlockRow.key (r : ObjectBlockRow) : Int × Int := (r.object_id, r.ordinal)
def PartRow.key (r : PartRow) : String × Int := (r.upload_id, r.part_number)
def PartBlockRow.part (r : PartBlockRow) : String × Int := (r.upload_id, r.part_number)
def PartBlockRow.key (r : PartBlockRow) : String × Int × Int :=
  (r.upload_id, r.part_number, r.ordinal)

/-- The declared constraints of the schema. -/
structure WellFormed (db : Database) : Prop where
  bucket_names : (db.buckets.map (·.name)).Nodup
  cors_buckets : (db.bucket_cors.map (·.bucket)).Nodup
  object_ids : (db.objects.map (·.id)).Nodup
  object_names : (db.objects.map (·.name)).Nodup
  block_ids : (db.telegram_blocks.map (·.id)).Nodup
  block_messages : (db.telegram_blocks.map (·.message)).Nodup
  object_block_keys : (db.object_blocks.map (·.key)).Nodup
  object_block_object : ∀ r ∈ db.object_blocks, r.object_id ∈ db.objects.map (·.id)
  object_block_block : ∀ r ∈ db.object_blocks, r.block_id ∈ db.telegram_blocks.map (·.id)
  upload_ids : (db.multipart_uploads.map (·.upload_id)).Nodup
  part_keys : (db.multipart_parts.map (·.key)).Nodup
  part_upload : ∀ r ∈ db.multipart_parts, r.upload_id ∈ db.multipart_uploads.map (·.upload_id)
  part_block_keys : (db.multipart_part_blocks.map (·.key)).Nodup
  part_block_part : ∀ r ∈ db.multipart_part_blocks, r.part ∈ db.multipart_parts.map (·.key)
  part_block_block : ∀ r ∈ db.multipart_part_blocks,
    r.block_id ∈ db.telegram_blocks.map (·.id)
  queue_ids : (db.gc_queue.map (·.block_id)).Nodup
  queue_block : ∀ q ∈ db.gc_queue, q.block_id ∈ db.telegram_blocks.map (·.id)
  block_ids_pos : ∀ b ∈ db.telegram_blocks, 0 < b.id
  object_ids_pos : ∀ o ∈ db.objects, 0 < o.id

theorem wellFormed_empty : WellFormed {} := by
  constructor <;> simp

/-! ## Errors

The texts are the ones the program matches on and sends to the client. A failed
constraint and a failed query are sqlx errors, whose text nothing reads. -/

inductive DbError
  | no_such_bucket
  | no_such_upload
  | no_such_key
  | invalid_part
  | invalid_layout
  | precondition_failed
  | blocks_pending_gc
  | disappeared_after_commit
  | copy_disappeared
  | constraint_failed
  | query_failed
  deriving DecidableEq, Repr

def DbError.message : DbError → String
  | .no_such_bucket => "NoSuchBucket"
  | .no_such_upload => "NoSuchUpload"
  | .no_such_key => "NoSuchKey"
  | .invalid_part => "InvalidPart"
  | .invalid_layout => "object storage layout is invalid"
  | .precondition_failed => "PreconditionFailed"
  | .blocks_pending_gc => "SlowDown: upload block is pending garbage collection"
  | .disappeared_after_commit => "object disappeared after commit"
  | .copy_disappeared => "copy result disappeared"
  | .constraint_failed => "constraint failed"
  | .query_failed => "database query failed"

/-- The outcome of a transaction: the new state, or the old one and the error.
Dropping an sqlx `Transaction` on the error path rolls it back. -/
def transaction {α : Type*} (db : Database) (body : Except DbError (Database × α)) :
    Database × Except DbError α :=
  match body with
  | .ok (db', a) => (db', .ok a)
  | .error e => (db, .error e)

@[simp] theorem transaction_ok {α : Type*} (db db' : Database) (a : α) :
    transaction db (.ok (db', a)) = (db', .ok a) := rfl

@[simp] theorem transaction_error {α : Type*} (db : Database) (e : DbError) :
    transaction (α := α) db (.error e) = (db, .error e) := rfl

/-- What a transaction leaves behind is its new state or the old one. -/
theorem transaction_cases {α : Type*} {db : Database} {body : Except DbError (Database × α)}
    {P : Database → Prop} (hkeep : P db) (hok : ∀ db' a, body = .ok (db', a) → P db') :
    P (transaction db body).1 := by
  cases body with
  | error e => exact hkeep
  | ok r => exact hok r.1 r.2 rfl

theorem bind_ok {ε : Type*} {α β : Type} {x : Except ε α} {f : α → Except ε β} {b : β} :
    (x >>= f) = .ok b ↔ ∃ a, x = .ok a ∧ f a = .ok b := by
  cases x with
  | error e => simp [bind, Except.bind]
  | ok a => simp [bind, Except.bind]

theorem bind_error {ε : Type*} {α β : Type} {x : Except ε α} {f : α → Except ε β} {e : ε} :
    (x >>= f) = .error e ↔ x = .error e ∨ ∃ a, x = .ok a ∧ f a = .error e := by
  cases x with
  | error e' => simp [bind, Except.bind]
  | ok a => simp [bind, Except.bind]

/-! ## Reading -/

namespace Database

variable (db : Database)

def block? (id : Int) : Option TelegramBlockRow := lookup (·.id) id db.telegram_blocks

def object? (bucket key : String) : Option ObjectRow := lookup (·.name) (bucket, key) db.objects

def upload? (upload_id : String) : Option UploadRecord :=
  lookup (·.upload_id) upload_id db.multipart_uploads

def part? (upload_id : String) (part_number : Int) : Option PartRow :=
  lookup (·.key) (upload_id, part_number) db.multipart_parts

/-- `EXISTS(SELECT 1 FROM gc_queue WHERE block_id = id)`. -/
def queued (id : Int) : Prop := id ∈ db.gc_queue.map (·.block_id)

instance (id : Int) : Decidable (db.queued id) := inferInstanceAs (Decidable (_ ∈ _))

/-- The rows that refer to a block: `object_blocks` and `multipart_part_blocks`. -/
def refs (id : Int) : ℕ :=
  references (·.block_id) id db.object_blocks
    + references (·.block_id) id db.multipart_part_blocks

/-- `SELECT ... FROM object_blocks WHERE object_id = id ORDER BY ordinal`. -/
def object_block_rows (object_id : Int) : List ObjectBlockRow :=
  (db.object_blocks.filter (·.object_id = object_id)).insertionSort (·.ordinal ≤ ·.ordinal)

/-- `SELECT ... FROM multipart_part_blocks WHERE upload_id AND part_number ORDER
BY ordinal`. -/
def part_block_rows (upload_id : String) (part_number : Int) : List PartBlockRow :=
  (db.multipart_part_blocks.filter (·.part = (upload_id, part_number))).insertionSort
    (·.ordinal ≤ ·.ordinal)

/-- The rows of a whole upload, `ORDER BY part_number, ordinal`. -/
def upload_block_rows (upload_id : String) : List PartBlockRow :=
  (db.multipart_part_blocks.filter (·.upload_id = upload_id)).insertionSort
    (fun a b => a.part_number < b.part_number
      ∨ (a.part_number = b.part_number ∧ a.ordinal ≤ b.ordinal))

/-- `block_from_row`: the columns of the block and those of the row that refers
to it. -/
def block_from_row (b : TelegramBlockRow) (ordinal byte_offset size : Int) : BlockRef where
  id := b.id
  ordinal := ordinal
  offset := byte_offset
  size := size
  chat_id := b.chat_id
  message_id := b.message_id
  backend := b.backend
  document_id := b.document_id
  file_id := b.file_id
  file_unique_id := b.file_unique_id
  message_date := b.message_date

/-- `... JOIN telegram_blocks b ON b.id = block_id`, one row. -/
def join_block (ordinal block_id byte_offset size : Int) : Option BlockRef :=
  (db.block? block_id).map fun b => block_from_row b ordinal byte_offset size

def join_object_block (r : ObjectBlockRow) : Option BlockRef :=
  db.join_block r.ordinal r.block_id r.byte_offset r.size

def join_part_block (r : PartBlockRow) : Option BlockRef :=
  db.join_block r.ordinal r.block_id r.byte_offset r.size

/-! ## Writing -/

/-- `UPDATE telegram_blocks SET f WHERE id = id`. -/
def update_block (id : Int) (f : TelegramBlockRow → TelegramBlockRow) : Database :=
  { db with telegram_blocks := updateWhere (·.id = id) f db.telegram_blocks }

/-- `INSERT OR IGNORE INTO gc_queue(block_id, next_attempt, state)`. -/
def enqueue (id next_attempt : Int) : Database :=
  { db with
    gc_queue := insertOrIgnore (·.block_id)
      { block_id := id, attempts := 0, next_attempt := next_attempt, last_error := none,
        state := .pending : GcQueueRow } db.gc_queue }

/-- `DELETE FROM gc_queue WHERE block_id = id`. -/
def dequeue (id : Int) : Database :=
  { db with gc_queue := deleteWhere (·.block_id = id) db.gc_queue }

/-- `UPDATE gc_queue SET f WHERE block_id = id`. -/
def update_queue (id : Int) (f : GcQueueRow → GcQueueRow) : Database :=
  { db with gc_queue := updateWhere (·.block_id = id) f db.gc_queue }

/-- `DELETE FROM telegram_blocks WHERE id = id`, with the cascade to `gc_queue`. -/
def delete_block (id : Int) : Database :=
  { db with
    telegram_blocks := deleteWhere (·.id = id) db.telegram_blocks
    gc_queue := deleteWhere (·.block_id = id) db.gc_queue }

/-- `DELETE FROM objects WHERE id = id`, with the cascade to `object_blocks`. -/
def delete_object_row (id : Int) : Database :=
  { db with
    objects := deleteWhere (·.id = id) db.objects
    object_blocks := deleteWhere (·.object_id = id) db.object_blocks }

/-- `DELETE FROM multipart_parts WHERE upload_id AND part_number`, with the
cascade to `multipart_part_blocks`. -/
def delete_part (upload_id : String) (part_number : Int) : Database :=
  { db with
    multipart_parts := deleteWhere (·.key = (upload_id, part_number)) db.multipart_parts
    multipart_part_blocks :=
      deleteWhere (·.part = (upload_id, part_number)) db.multipart_part_blocks }

/-- `DELETE FROM multipart_uploads WHERE upload_id`, with both cascades. -/
def delete_upload (upload_id : String) : Database :=
  { db with
    multipart_uploads := deleteWhere (·.upload_id = upload_id) db.multipart_uploads
    multipart_parts := deleteWhere (·.upload_id = upload_id) db.multipart_parts
    multipart_part_blocks := deleteWhere (·.upload_id = upload_id) db.multipart_part_blocks }

/-- The row ids the next inserts will get. -/
def next_block_id : Int := nextRowid (db.telegram_blocks.map (·.id))

def next_object_id : Int := nextRowid (db.objects.map (·.id))

/-- `INSERT INTO telegram_blocks ... RETURNING id`, unique on the message. -/
def insert_block (row : Int → TelegramBlockRow) : Except DbError (Database × Int) :=
  match insertUnique (·.message) (row db.next_block_id) db.telegram_blocks with
  | none => .error .constraint_failed
  | some rows => .ok ({ db with telegram_blocks := rows }, db.next_block_id)

/-- `INSERT INTO objects ... RETURNING id`, unique on bucket and key. -/
def insert_object (row : Int → ObjectRow) : Except DbError (Database × Int) :=
  match insertUnique (·.name) (row db.next_object_id) db.objects with
  | none => .error .constraint_failed
  | some rows => .ok ({ db with objects := rows }, db.next_object_id)

/-- `INSERT INTO object_blocks`, with its two foreign keys. -/
def insert_object_block (row : ObjectBlockRow) : Except DbError Database :=
  if row.object_id ∈ db.objects.map (·.id) ∧ row.block_id ∈ db.telegram_blocks.map (·.id) then
    match insertUnique (·.key) row db.object_blocks with
    | none => .error .constraint_failed
    | some rows => .ok { db with object_blocks := rows }
  else .error .constraint_failed

/-- `INSERT INTO multipart_parts`, with its foreign key. -/
def insert_part (row : PartRow) : Except DbError Database :=
  if row.upload_id ∈ db.multipart_uploads.map (·.upload_id) then
    match insertUnique (·.key) row db.multipart_parts with
    | none => .error .constraint_failed
    | some rows => .ok { db with multipart_parts := rows }
  else .error .constraint_failed

/-- `INSERT INTO multipart_part_blocks`, with its two foreign keys. -/
def insert_part_block (row : PartBlockRow) : Except DbError Database :=
  if row.part ∈ db.multipart_parts.map (·.key)
      ∧ row.block_id ∈ db.telegram_blocks.map (·.id) then
    match insertUnique (·.key) row db.multipart_part_blocks with
    | none => .error .constraint_failed
    | some rows => .ok { db with multipart_part_blocks := rows }
  else .error .constraint_failed

/-- `INSERT INTO multipart_uploads`. -/
def insert_upload (row : UploadRecord) : Except DbError Database :=
  match insertUnique (·.upload_id) row db.multipart_uploads with
  | none => .error .constraint_failed
  | some rows => .ok { db with multipart_uploads := rows }

end Database

end Tg2s3
