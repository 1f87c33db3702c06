/-
`src/db/gc.rs`: the statements of the garbage collector.

Where the source leaves an order open (`ORDER BY next_attempt` says nothing about
ties) the list keeps the order of the table.
-/
import Tg2s3.Db.Multipart

set_option autoImplicit false

namespace Tg2s3

open Relational

/-! ## Loading candidates -/

/-- The join of a queue row with its block, as `garbage_from_row` reads it. -/
def garbage_from_row (q : GcQueueRow) (b : TelegramBlockRow) : GarbageRecord where
  block_id := q.block_id
  chat_id := b.chat_id
  message_id := b.message_id
  backend := b.backend
  document_id := b.document_id
  file_id := b.file_id
  file_unique_id := b.file_unique_id
  message_date := b.message_date
  attempts := q.attempts
  next_attempt := q.next_attempt
  last_error := q.last_error

/-- The `WHERE` clause of both candidate queries on one queue row. -/
def gc_select (db : Database) (timestamp : Int) (q : GcQueueRow) : Option GarbageRecord :=
  match db.block? q.block_id with
  | none => none
  | some b =>
      if q.state = .pending ∧ b.ref_count = 0 ∧ q.next_attempt ≤ timestamp ∧ db.refs b.id = 0 then
        some (garbage_from_row q b)
      else none

def gc_candidates (db : Database) (timestamp : Int) (limit : ℕ) : List GarbageRecord :=
  ((db.gc_queue.insertionSort (·.next_attempt ≤ ·.next_attempt)).filterMap
    (gc_select db timestamp)).take limit

def gc_candidate (db : Database) (block_id timestamp : Int) : Option GarbageRecord :=
  (lookup (·.block_id) block_id db.gc_queue).bind (gc_select db timestamp)

/-! ## Outcomes of a deletion -/

def gc_success (db : Database) (block_id : Int) : Database :=
  match db.block? block_id with
  | some b => if b.ref_count = 0 ∧ db.refs block_id = 0 then db.delete_block block_id else db
  | none => db

def gc_failure (db : Database) (block_id : Int) (error : String) (next_attempt : Int) : Database :=
  db.update_queue block_id fun q =>
    { q with attempts := q.attempts + 1, last_error := some error, next_attempt := next_attempt }

def gc_orphan (db : Database) (block_id : Int) (error : String) : Database :=
  db.update_queue block_id fun q => { q with state := .orphan, last_error := some error }

/-! ## Expiry and abandoned blocks -/

/-- `for row in ids { abort_upload(row) }`, one transaction each. -/
def expire_uploads (db : Database) (now before : Int) : Database :=
  ((db.multipart_uploads.filter (·.created_at < before)).map (·.upload_id)).foldl
    (fun db upload_id => (abort_upload_with_blocks db now upload_id).1) db

/-- The `WHERE` clause of `stale_blocks`. -/
def is_stale (db : Database) (before : Int) (b : TelegramBlockRow) : Prop :=
  b.state = .staged ∧ b.created_at < before ∧ db.refs b.id = 0

instance (db : Database) (before : Int) (b : TelegramBlockRow) :
    Decidable (is_stale db before b) := inferInstanceAs (Decidable (_ ∧ _ ∧ _))

def stale_blocks (db : Database) (before : Int) (limit : ℕ) : List GarbageRecord :=
  (((db.telegram_blocks.filter (is_stale db before)).insertionSort
      (fun a b => a.created_at < b.created_at
        ∨ (a.created_at = b.created_at ∧ a.id ≤ b.id))).take limit).map fun b =>
    { block_id := b.id, chat_id := b.chat_id, message_id := b.message_id, backend := b.backend,
      document_id := b.document_id, file_id := b.file_id, file_unique_id := b.file_unique_id,
      message_date := b.message_date, attempts := 0, next_attempt := 0, last_error := none }

/-- Staged and unreferenced: what each statement of `queue_stale_block` asks of
the block. -/
def is_abandoned (db : Database) (b : TelegramBlockRow) : Prop :=
  b.state = .staged ∧ db.refs b.id = 0

instance (db : Database) (b : TelegramBlockRow) : Decidable (is_abandoned db b) :=
  inferInstanceAs (Decidable (_ ∧ _))

def clear_ref_count (b : TelegramBlockRow) : TelegramBlockRow := { b with ref_count := 0 }

/-- The update of the count. -/
def abandon_block (db : Database) (block_id : Int) : Database :=
  { db with
    telegram_blocks :=
      updateWhere (fun b => b.id = block_id ∧ is_abandoned db b ∧ b.ref_count > 0)
        clear_ref_count db.telegram_blocks }

/-- The insert into the queue, from a select on the block. -/
def enqueue_abandoned (db : Database) (now block_id : Int) : Database :=
  match db.block? block_id with
  | some b => if is_abandoned db b ∧ b.ref_count = 0 then db.enqueue block_id now else db
  | none => db

/-- Claims an unreferenced staged block for Telegram message cleanup. The answer
is whether the block is claimed now, by this call or before it. -/
def queue_stale_block (db : Database) (now block_id : Int) : Database × Bool :=
  let db := abandon_block db block_id
  let db := enqueue_abandoned db now block_id
  (db, match db.block? block_id with
    | some b => decide (db.queued block_id ∧ is_abandoned db b ∧ b.ref_count = 0)
    | none => false)

end Tg2s3
