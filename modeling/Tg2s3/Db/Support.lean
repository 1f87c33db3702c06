/-
`src/db/support.rs`: what the transactions share -- releasing a block, removing
an object under a condition, and the checks a writer makes before it commits.
-/
import Tg2s3.Schema

set_option autoImplicit false

namespace Tg2s3

open Relational

/-- `if !cond { bail!(error) }`. -/
def require (cond : Prop) [Decidable cond] (error : DbError) : Except DbError Unit :=
  if cond then .ok () else .error error

@[simp] theorem require_ok {cond : Prop} [Decidable cond] {error : DbError} {u : Unit} :
    require cond error = .ok u ↔ cond := by
  unfold require
  split_ifs with h <;> simp [h]

/-! ## Machine arithmetic -/

def i64_max : Int := 9223372036854775807
def i64_min : Int := -9223372036854775808

/-- `i64::checked_add`. -/
def checked_add (a b : Int) : Option Int :=
  if i64_min ≤ a + b ∧ a + b ≤ i64_max then some (a + b) else none

/-! ## Layout of blocks -/

/-- The loop that both layout checks run over a list of blocks: positive sizes,
contiguous offsets from `offset`, no block id twice. The result is the offset
past the last block and every id seen. -/
def validate_blocks : List BlockRef → Int → List Int → Except DbError (Int × List Int)
  | [], offset, block_ids => .ok (offset, block_ids)
  | block :: rest, offset, block_ids =>
      if block.size ≤ 0 ∨ block.offset ≠ offset ∨ block.id ∈ block_ids then
        .error .invalid_layout
      else
        match checked_add offset block.size with
        | none => .error .invalid_layout
        | some next => validate_blocks rest next (block.id :: block_ids)

/-- The outer loop of `validate_parts_layout`; block ids are distinct over all
the parts, offsets start again at 0 in each. -/
def validate_parts : List PartRecord → Int → List Int → Except DbError Int
  | [], total, _ => .ok total
  | part :: rest, total, block_ids => do
      let (offset, block_ids) ← validate_blocks part.blocks 0 block_ids
      require (offset = part.size) .invalid_layout
      match checked_add total offset with
      | none => .error .invalid_layout
      | some total => validate_parts rest total block_ids

def validate_parts_layout (parts : List PartRecord) : Except DbError Int :=
  validate_parts parts 0 []

/-! ## Reading the blocks of an object -/

def load_object_blocks (db : Database) (object_id : Int) : List BlockRef :=
  (db.object_block_rows object_id).filterMap db.join_object_block

/-! ## Releasing -/

/-- `ref_count = CASE WHEN ref_count > 0 THEN ref_count - 1 ELSE 0 END`. -/
def decrement (b : TelegramBlockRow) : TelegramBlockRow :=
  { b with ref_count := if b.ref_count > 0 then b.ref_count - 1 else 0 }

def decrement_block (db : Database) (now block_id : Int) : Database :=
  let db := db.update_block block_id decrement
  match db.block? block_id with
  | some b => if b.ref_count = 0 then db.enqueue block_id now else db
  | none => db

/-- `for block in blocks { decrement_block(tx, block.id) }`. -/
def decrement_blocks (db : Database) (now : Int) (blocks : List BlockRef) : Database :=
  blocks.foldl (fun db block => decrement_block db now block.id) db

def remove_existing_object (db : Database) (now : Int) (bucket key : String)
    (condition : ObjectCondition) : Except DbError (Database × Option (Int × List BlockRef)) := do
  let old := db.object? bucket key
  require (condition.allows (old.map (·.etag))) .precondition_failed
  match old with
  | none => pure (db, none)
  | some row =>
      let old_blocks := load_object_blocks db row.id
      let db := db.delete_object_row row.id
      let db := decrement_blocks db now old_blocks
      pure (db, some (row.id, old_blocks))

/-! ## Checks of a writer -/

/-- A writer must not resurrect a block after GC has claimed it. -/
def ensure_blocks_not_queued (db : Database) (block_ids : List Int) : Except DbError Unit :=
  require (∀ id ∈ block_ids, ¬ db.queued id) .blocks_pending_gc

/-- One part against the persisted one: size, ETag, and block by block the id,
the offset and the size. -/
def part_matches (db : Database) (upload_id : String) (part : PartRecord) : Prop :=
  match db.part? upload_id part.part_number with
  | none => False
  | some row =>
      row.size = part.size
      ∧ normalize_etag row.etag = normalize_etag part.etag
      ∧ (db.part_block_rows upload_id part.part_number).map
            (fun r => (r.block_id, r.byte_offset, r.size))
          = part.blocks.map (fun b => (b.id, b.offset, b.size))

instance (db : Database) (upload_id : String) (part : PartRecord) :
    Decidable (part_matches db upload_id part) := by
  unfold part_matches
  cases db.part? upload_id part.part_number with
  | none => exact inferInstanceAs (Decidable False)
  | some row => exact inferInstanceAs (Decidable (_ ∧ _ ∧ _))

/-- The loop over the parts. A part number that came before was also removed
from the two maps in the source; the `seen` check comes first, so looking the
rows up again is the same. -/
def verify_parts_loop (db : Database) (upload_id : String) :
    List PartRecord → List Int → Except DbError Unit
  | [], _ => .ok ()
  | part :: rest, seen => do
      require (part.part_number ∉ seen) .invalid_part
      require (part_matches db upload_id part) .invalid_part
      verify_parts_loop db upload_id rest (part.part_number :: seen)

def verify_parts_tx (db : Database) (upload_id : String) (parts : List PartRecord) :
    Except DbError Unit :=
  verify_parts_loop db upload_id parts []

end Tg2s3
