/-
`src/db/object.rs`: reading, deleting and copying objects.
-/
import Tg2s3.Db.Support

set_option autoImplicit false

namespace Tg2s3

open Relational

/-! ## `get_object`: two queries, each at its own moment -/

def get_object_row (db : Database) (bucket key : String) : Option ObjectRow :=
  db.object? bucket key

def object_from_row (row : ObjectRow) (blocks : List BlockRef) : ObjectRecord where
  id := row.id
  bucket := row.bucket
  key := row.object_key
  size := row.size
  etag := row.etag
  metadata := row.metadata
  created_at := row.created_at
  modified_at := row.modified_at
  blocks := blocks

/-- Both queries in one state: the version of the object that is current there. -/
def get_object (db : Database) (bucket key : String) : Option ObjectRecord :=
  (get_object_row db bucket key).map (fun row => object_from_row row (load_object_blocks db row.id))

/-- `validate_object_layout` of the engine: sizes and offsets of the blocks add up
to the size of the object, and no block comes twice. -/
def validate_object_layout (object : ObjectRecord) : Except DbError Unit := do
  require (0 ≤ object.size) .invalid_layout
  let (offset, _) ← validate_blocks object.blocks 0 []
  require (offset = object.size) .invalid_layout

/-! ## Listing -/

def ObjectRow.listing (row : ObjectRow) : ListingRecord where
  key := row.object_key
  size := row.size
  etag := row.etag
  modified_at := row.modified_at

/-- `key >= lower` or `key > lower`. -/
def in_bound (lower : String) (inclusive : Bool) (key : String) : Bool :=
  if inclusive then lower ≤ key else lower < key

/-- The rows of a bucket from a bound on, in the order of their keys. -/
def list_rows (db : Database) (bucket start lower : String) (inclusive : Bool) :
    List ListingRecord :=
  let (lower, inclusive) := if lower < start then (start, true) else (lower, inclusive)
  let upper := if start = "" then none else key_successor start
  ((db.objects.filter fun row => row.bucket = bucket && in_bound lower inclusive row.object_key
      && upper.all (row.object_key < ·)).map (·.listing)).insertionSort (·.key ≤ ·.key)

def list_objects (db : Database) (bucket start lower : String) (inclusive : Bool) (limit : ℕ) :
    List ListingRecord :=
  (list_rows db bucket start lower inclusive).take limit

/-! ## Deleting -/

/-- What `delete_object` returns carries the id, the name and the released
blocks, and defaults in the other fields. -/
def delete_object_tx (db : Database) (now : Int) (bucket key : String)
    (condition : ObjectCondition) : Except DbError (Database × Option ObjectRecord) := do
  let (db', removed) ← remove_existing_object db now bucket key condition
  match removed with
  | none => pure (db, none)
  | some (object_id, old_blocks) =>
      pure (db', some
        { id := object_id, bucket := bucket, key := key, size := 0, etag := "", metadata := {},
          created_at := 0, modified_at := 0, blocks := old_blocks })

def delete_object (db : Database) (now : Int) (bucket key : String)
    (condition : ObjectCondition) : Database × Except DbError (Option ObjectRecord) :=
  transaction db (delete_object_tx db now bucket key condition)

/-! ## Copying -/

/-- `ref_count = ref_count + 1, state = 'committed'`. -/
def retain_row (b : TelegramBlockRow) : TelegramBlockRow :=
  { b with ref_count := b.ref_count + 1, state := .committed }

/-- One block of the copy: one more reference, no longer garbage. -/
def copy_block (db : Database) (object_id : Int) (block : BlockRef) : Except DbError Database :=
  let db := db.update_block block.id retain_row
  (db.dequeue block.id).insert_object_block
    { object_id := object_id, ordinal := block.ordinal, block_id := block.id,
      byte_offset := block.offset, size := block.size }

def copy_blocks (object_id : Int) : Database → List BlockRef → Except DbError Database
  | db, [] => .ok db
  | db, block :: rest => do
      let db ← copy_block db object_id block
      copy_blocks object_id db rest

/-- The transaction of `copy_object`. The lock on the source compares the row id,
the bucket and the key of the snapshot, nothing else of it. -/
def copy_object_tx (db : Database) (now : Int) (source : ObjectRecord) (bucket key : String)
    (metadata : ObjectMetadata) (condition : ObjectCondition) :
    Except DbError (Database × List BlockRef) := do
  require (∃ o ∈ db.objects, o.id = source.id ∧ o.bucket = source.bucket
    ∧ o.object_key = source.key) .no_such_key
  ensure_blocks_not_queued db (source.blocks.map (·.id))
  let (db, old) ← remove_existing_object db now bucket key condition
  let (db, object_id) ← db.insert_object fun id =>
    { id := id, bucket := bucket, object_key := key, size := source.size, etag := source.etag,
      metadata := metadata, created_at := now, modified_at := now }
  let db ← copy_blocks object_id db source.blocks
  pure (db, (old.map (·.2)).getD [])

end Tg2s3
