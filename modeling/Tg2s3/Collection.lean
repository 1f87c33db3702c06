/-
`src/engine/gc.rs`: one pass of the garbage collector, and when passes finish
their work.

A pass has one budget for two phases. It aborts the uploads that are older than
a week, puts the abandoned blocks `stale_blocks` finds into the queue, and spends
what is left of the budget on the queue. A block that is in the queue already
is found again by `stale_blocks` and answered `true` again, so it costs budget
on every pass for as long as its row is there.

That is what decides whether a pass gets anywhere: `Room` says that the blocks
found first leave something to do, and a pass that finds garbage makes progress
exactly then. The count of the passes is a descent: every block is on one of
three levels, unclaimed, claimed, or done with, and no pass takes a block up.

The clock is read again by each abort and each claim, so a pass carries those
readings; nothing is assumed about them. What Telegram answers is a parameter of
the pass, and the assumption that deletions succeed is one of its fields.
-/
import Mathlib.Algebra.Order.BigOperators.Group.List
import Mathlib.Algebra.Order.Ring.Nat
import Tg2s3.Counts
import Tg2s3.FreeBlocks

set_option autoImplicit false

namespace Tg2s3.Collection

open Relational RefCount RefCount.Account Machine

/-! ## Telegram -/

/-- The error the Bot API client builds from an HTTP response. -/
structure TelegramFailure where
  status : ℕ
  description : String
  deriving DecidableEq, Repr

/-- An error of either client: its text, and the failure it can be downcast to. -/
structure TelegramError where
  text : String
  failure : Option TelegramFailure := none
  deriving DecidableEq, Repr

/-- `str::contains` after `to_ascii_lowercase`. -/
def mentions (text part : String) : Bool :=
  (text.toList.map Char.toLower).tails.any (part.toList.isPrefixOf ·)

def bot_api_is_missing_message (error : TelegramError) : Bool :=
  match error.failure with
  | none => false
  | some failure =>
      failure.status = 400 && mentions failure.description "message"
        && mentions failure.description "not found"

def is_missing_message (error : TelegramError) : Bool :=
  bot_api_is_missing_message error || mentions error.text "message not found"
    || mentions error.text "message_id_invalid"

structure Telegram where
  delete_message : BlockRef → Except TelegramError Unit
  delete_messages : TelegramBackend → List Int → Except TelegramError Unit

/-- Every message that is asked for by itself is deleted, or was gone before. A
batch may fail. -/
def Telegram.Deletes (telegram : Telegram) : Prop :=
  ∀ block error, telegram.delete_message block = .error error → is_missing_message error = true

/-! ## Processing candidates -/

def bot_api_delete_window_expired (backend : TelegramBackend) (message_date timestamp : Int) :
    Bool :=
  backend = .bot_api && decide (message_date > 0) && decide (message_date < timestamp - 48 * 3600)

def process_gc_candidate (telegram : Telegram) (timestamp : Int) (db : Database)
    (candidate : GarbageRecord) : Database :=
  match telegram.delete_message candidate.as_block_ref with
  | .ok () => gc_success db candidate.block_id
  | .error error =>
      if is_missing_message error then gc_success db candidate.block_id
      else gc_failure db candidate.block_id error.text (timestamp + 300)

/-- One batch, and message by message if that fails. The count is one for each
candidate either way. -/
def delete_candidate_group (telegram : Telegram) (timestamp : Int) (db : Database)
    (backend : TelegramBackend) (group : List GarbageRecord) : Database × ℕ :=
  let one_by_one := group.foldl (process_gc_candidate telegram timestamp) db
  if group.length > 1 then
    match telegram.delete_messages backend (group.map (·.message_id)) with
    | .ok () => (group.foldl (fun db candidate => gc_success db candidate.block_id) db, group.length)
    | .error _ => (one_by_one, group.length)
  else (one_by_one, group.length)

/-- `groups.iter_mut().find(..)`: the group of the backend, or a new one at the end. -/
def push_candidate (candidate : GarbageRecord) :
    List (TelegramBackend × List GarbageRecord) → List (TelegramBackend × List GarbageRecord)
  | [] => [(candidate.backend, [candidate])]
  | (backend, group) :: rest =>
      if backend = candidate.backend then (backend, group ++ [candidate]) :: rest
      else (backend, group) :: push_candidate candidate rest

/-- The loop that marks the expired candidates and groups the others. -/
def group_candidates (timestamp : Int) :
    Database → ℕ → List (TelegramBackend × List GarbageRecord) → List GarbageRecord →
      Database × ℕ × List (TelegramBackend × List GarbageRecord)
  | db, processed, groups, [] => (db, processed, groups)
  | db, processed, groups, candidate :: rest =>
      if bot_api_delete_window_expired candidate.backend candidate.message_date timestamp then
        group_candidates timestamp
          (gc_orphan db candidate.block_id "Telegram deleteMessage 48 hour limit") (processed + 1)
          groups rest
      else group_candidates timestamp db processed (push_candidate candidate groups) rest

/-- The loop over the groups. -/
def delete_groups (telegram : Telegram) (timestamp : Int) :
    Database → ℕ → List (TelegramBackend × List GarbageRecord) → Database × ℕ
  | db, processed, [] => (db, processed)
  | db, processed, (backend, group) :: rest =>
      let (db, deleted) := delete_candidate_group telegram timestamp db backend group
      delete_groups telegram timestamp db (processed + deleted) rest

def process_gc_candidates (telegram : Telegram) (timestamp : Int) (db : Database)
    (candidates : List GarbageRecord) : Database × ℕ :=
  let (db, processed, groups) := group_candidates timestamp db 0 [] candidates
  delete_groups telegram timestamp db processed groups

/-! ## A pass -/

def MAX_GC_LIMIT : ℕ := 100000

/-- What a pass reads from outside. -/
structure Pass where
  limit : ℕ
  telegram : Telegram
  timestamp : Int
  /-- the clock in the aborts of `expire_uploads` -/
  aborted_at : Int
  /-- the clock in `queue_stale_block`, by block -/
  queued_at : Int → Int

/-- The loop over the stale blocks, with the count of those it claims. -/
def queue_stale_blocks (queued_at : Int → Int) :
    Database → ℕ → List GarbageRecord → Database × ℕ
  | db, processed, [] => (db, processed)
  | db, processed, stale :: rest =>
      let (db, queued) := queue_stale_block db (queued_at stale.block_id) stale.block_id
      queue_stale_blocks queued_at db (if queued then processed + 1 else processed) rest

/-- The first statement of a pass. -/
def expire (db : Database) (pass : Pass) : Database :=
  expire_uploads db pass.aborted_at (pass.timestamp - 7 * 24 * 3600)

/-- What the second statement finds in a database. -/
def stale (db : Database) (pass : Pass) : List GarbageRecord :=
  stale_blocks db (pass.timestamp - 3600) pass.limit

def run_gc (db : Database) (pass : Pass) : Database × Except String ℕ :=
  if pass.limit = 0 ∨ pass.limit > MAX_GC_LIMIT then
    (db, .error ("GC limit must be between 1 and " ++ toString MAX_GC_LIMIT))
  else
    let db := expire db pass
    let (db, processed) := queue_stale_blocks pass.queued_at db 0 (stale db pass)
    let remaining := pass.limit - processed
    if remaining = 0 then (db, .ok processed)
    else
      let candidates := gc_candidates db pass.timestamp remaining
      let (db, deleted) := process_gc_candidates pass.telegram pass.timestamp db candidates
      (db, .ok (processed + deleted))

/-! ## Garbage -/

/-- Claimed for deletion: in the queue, with nothing counted on it. -/
def Claimed (db : Database) (b : TelegramBlockRow) : Prop :=
  b.ref_count = 0 ∧ db.queued b.id

instance (db : Database) (b : TelegramBlockRow) : Decidable (Claimed db b) :=
  inferInstanceAs (Decidable (_ ∧ _))

/-- A staged block older than an hour that nothing refers to, not yet claimed. -/
def Unclaimed (db : Database) (timestamp : Int) (b : TelegramBlockRow) : Prop :=
  is_stale db (timestamp - 3600) b ∧ ¬ Claimed db b

instance (db : Database) (timestamp : Int) (b : TelegramBlockRow) :
    Decidable (Unclaimed db timestamp b) := inferInstanceAs (Decidable (_ ∧ _))

/-- An unreferenced block with count 0 whose queue row is pending and due. -/
def Due (db : Database) (timestamp : Int) (b : TelegramBlockRow) : Prop :=
  b.ref_count = 0 ∧ db.refs b.id = 0
    ∧ ∃ q ∈ db.gc_queue, q.block_id = b.id ∧ q.state = .pending ∧ q.next_attempt ≤ timestamp

instance (db : Database) (timestamp : Int) (b : TelegramBlockRow) :
    Decidable (Due db timestamp b) := inferInstanceAs (Decidable (_ ∧ _ ∧ _))

/-- There is work for a pass. -/
def Garbage (db : Database) (pass : Pass) : Prop :=
  ∃ b ∈ db.telegram_blocks, Unclaimed db pass.timestamp b ∨ Due db pass.timestamp b

instance (db : Database) (pass : Pass) : Decidable (Garbage db pass) :=
  inferInstanceAs (Decidable (∃ b ∈ db.telegram_blocks, _))

def Removed (db : Database) (id : Int) : Prop := id ∉ db.telegram_blocks.map (·.id)

def Orphaned (db : Database) (id : Int) : Prop :=
  ∃ q ∈ db.gc_queue, q.block_id = id ∧ q.state = .orphan

/-- A block the pass found unclaimed is claimed now or gone already, or one it
found due is gone or marked orphan. What it finds is what is there after the
expired uploads were aborted. -/
def Progress (db : Database) (pass : Pass) : Prop :=
  ∃ b ∈ (expire db pass).telegram_blocks,
    (Unclaimed (expire db pass) pass.timestamp b
        ∧ ∀ b' ∈ (run_gc db pass).1.telegram_blocks, b'.id = b.id → Claimed (run_gc db pass).1 b')
      ∨ (Due (expire db pass) pass.timestamp b
        ∧ (Removed (run_gc db pass).1 b.id ∨ Orphaned (run_gc db pass).1 b.id))

/-- The blocks a pass finds stale do not use its budget up, or one of them is not
claimed yet. -/
def Room (db : Database) (pass : Pass) : Prop :=
  (stale (expire db pass) pass).length < pass.limit
    ∨ ∃ b ∈ (expire db pass).telegram_blocks, Unclaimed (expire db pass) pass.timestamp b
        ∧ b.id ∈ (stale (expire db pass) pass).map (·.block_id)

instance (db : Database) (pass : Pass) : Decidable (Room db pass) :=
  inferInstanceAs (Decidable (_ ∨ ∃ b ∈ (expire db pass).telegram_blocks, _))

/-- A pass of the collector as the server makes it, and Telegram deletes. -/
structure Pass.Valid (pass : Pass) : Prop where
  limit_pos : 1 ≤ pass.limit
  limit_le : pass.limit ≤ MAX_GC_LIMIT
  deletes : pass.telegram.Deletes

/-! ## Levels

Unclaimed blocks are on level 2, claimed ones on level 1, and a block that is
gone or marked orphan is on level 0. -/

/-- The queue row of the block is pending. -/
def pending (db : Database) (b : Int) : Prop :=
  ∃ q ∈ db.gc_queue, q.block_id = b ∧ q.state = .pending

instance (db : Database) (b : Int) : Decidable (pending db b) :=
  inferInstanceAs (Decidable (∃ q ∈ db.gc_queue, _))

def level (db : Database) (b : Int) : ℕ :=
  match db.account b with
  | none => 0
  | some a => if a.count = 0 ∧ a.queued = true then (if pending db b then 1 else 0) else 2

/-- There are three levels: open, claimed, and done. -/
theorem level_le_two (db : Database) (b : Int) : level db b ≤ 2 := by
  unfold level
  split
  · omega
  · split_ifs <;> omega

/-- What every statement of a pass does to the blocks: it may drop rows and
references, and it never takes a claim back. -/
structure Settles (db db' : Database) : Prop where
  wellFormed : WellFormed db → WellFormed db'
  refs : ∀ b, db.refs b = 0 → db'.refs b = 0
  account : ∀ b a', db'.account b = some a' → ∃ a, db.account b = some a
    ∧ (a.count = 0 → a'.count = 0) ∧ (a.queued = true → a'.queued = true)
  pending : ∀ b, db'.account b ≠ none → db.queued b → pending db' b → pending db b

namespace Settles

variable {db db' db'' : Database}

/-- A step that does nothing raises no level. -/
theorem refl (db : Database) : Settles db db where
  wellFormed := id
  refs := fun _ h => h
  account := fun _ a' h => ⟨a', h, id, id⟩
  pending := fun _ _ _ h => h

/-- What has an account afterwards had one before. -/
theorem there (h : Settles db db') {b : Int} (hb : db'.account b ≠ none) : db.account b ≠ none := by
  obtain ⟨a', ha'⟩ := Option.ne_none_iff_exists'.mp hb
  obtain ⟨a, ha, -⟩ := h.account b a' ha'
  rw [ha]
  exact Option.some_ne_none a

/-- What waits in the queue stays there while its row does. -/
theorem queued (h : Settles db db') {b : Int} (hb : db'.account b ≠ none) (hq : db.queued b) :
    db'.queued b := by
  obtain ⟨a', ha'⟩ := Option.ne_none_iff_exists'.mp hb
  obtain ⟨a, ha, -, hkeep⟩ := h.account b a' ha'
  exact (queued_iff_account ha').mpr (hkeep ((queued_iff_account ha).mp hq))

/-- Levels that do not rise twice do not rise. -/
theorem trans (h₁ : Settles db db') (h₂ : Settles db' db'') : Settles db db'' where
  wellFormed := h₂.wellFormed ∘ h₁.wellFormed
  refs := fun b hb => h₂.refs b (h₁.refs b hb)
  account := by
    intro b a'' ha''
    obtain ⟨a', ha', hcount', hqueued'⟩ := h₂.account b a'' ha''
    obtain ⟨a, ha, hcount, hqueued⟩ := h₁.account b a' ha'
    exact ⟨a, ha, hcount' ∘ hcount, hqueued' ∘ hqueued⟩
  pending := by
    intro b hb hq hp
    have hb' := h₂.there hb
    exact h₁.pending b hb' hq (h₂.pending b hb (h₁.queued hb' hq) hp)

/-- **No statement takes a block up.** -/
theorem level_le (h : Settles db db') (b : Int) : level db' b ≤ level db b := by
  unfold level
  cases ha' : db'.account b with
  | none => exact Nat.zero_le _
  | some a' =>
      obtain ⟨a, ha, hcount, hqueued⟩ := h.account b a' ha'
      have hpending := h.pending b (by rw [ha']; exact Option.some_ne_none a')
      rw [ha]
      simp only
      by_cases hclaimed : a.count = 0 ∧ a.queued = true
      · rw [if_pos ⟨hcount hclaimed.1, hqueued hclaimed.2⟩, if_pos hclaimed]
        have hq : db.queued b := (queued_iff_account ha).mpr hclaimed.2
        by_cases hp : Collection.pending db' b
        · rw [if_pos hp, if_pos (hpending hq hp)]
        · rw [if_neg hp]
          exact Nat.zero_le _
      · rw [if_neg hclaimed]
        split_ifs <;> omega

/-- A loop of such statements is one. -/
theorem foldl {α : Type*} {f : Database → α → Database} (hf : ∀ d x, Settles d (f d x))
    (db : Database) (xs : List α) : Settles db (xs.foldl f db) := by
  induction xs generalizing db with
  | nil => exact refl db
  | cons x xs ih => exact (hf db x).trans (ih (f db x))

end Settles

/-! ### Statement by statement -/

/-- A block that was queued already keeps the time at which it is due. -/
theorem pending_enqueue (db : Database) {id now b : Int} (hq : db.queued b)
    (h : pending (db.enqueue id now) b) : pending db b := by
  obtain ⟨q, hmem, hb, hstate⟩ := h
  rcases mem_insertOrIgnore hmem with hold | rfl
  · exact ⟨q, hold, hb, hstate⟩
  · -- the new row was ignored if the block was queued
    obtain rfl : id = b := hb
    have hsame : (db.enqueue id now).gc_queue = db.gc_queue := if_pos hq
    exact ⟨_, hsame ▸ hmem, rfl, rfl⟩

/-- A release does not raise a level: a count goes down, and at zero the block is queued. -/
theorem settles_decrement_block (db : Database) (now id : Int) :
    Settles db (decrement_block db now id) where
  wellFormed := fun h => wellFormed_decrement_block h now id
  refs := fun b hb => ((books_decrement_block db now id).refs b).trans hb
  account := by
    intro b a' ha'
    rw [account_decrement_block] at ha'
    split_ifs at ha' with hid
    · obtain ⟨a, ha, rfl⟩ := Option.map_eq_some_iff.mp ha'
      refine ⟨a, ha, fun hz => ?_, fun hq => release_queued hq⟩
      simp [release, hz]
    · exact ⟨a', ha', fun h => h, fun h => h⟩
  pending := by
    intro b _ hq hp
    unfold decrement_block at hp
    simp only at hp
    split at hp
    · split_ifs at hp
      · exact pending_enqueue (db.update_block id decrement) hq hp
      · exact hp
    · exact hp

/-- The end of an upload leaves the blocks and the queue. -/
theorem settles_delete_upload {db : Database} (upload_id : String) :
    Settles db (db.delete_upload upload_id) where
  wellFormed := fun h => h.delete_upload upload_id
  refs := by
    intro b hb
    have hsplit := references_deleteWhere (·.block_id) b
      (fun r : PartBlockRow => r.upload_id = upload_id) db.multipart_part_blocks
    unfold Database.refs at hb ⊢
    simp only [Database.delete_upload]
    omega
  account := fun b a' ha' => ⟨a', ha', fun h => h, fun h => h⟩
  pending := fun _ _ _ hp => hp

/-- So an abort does not raise a level: the upload goes and its blocks are released. -/
theorem settles_abort_upload (db : Database) (now : Int) (upload_id : String) :
    Settles db (abort_upload_with_blocks db now upload_id).1 := by
  rcases abort_upload_with_blocks_eq db now upload_id with heq | heq
  · rw [heq]
    exact Settles.refl db
  · rw [heq]
    exact (settles_delete_upload upload_id).trans
      (Settles.foldl (fun d (block : BlockRef) => settles_decrement_block d now block.id) _ _)

/-- Nor does the expiry, abort by abort. -/
theorem settles_expire (db : Database) (pass : Pass) : Settles db (expire db pass) :=
  expire_uploads_induction _ _ (Settles.refl db)
    (fun d upload_id hd => hd.trans (settles_abort_upload d pass.aborted_at upload_id))

/-- A claim lowers the level of its block or leaves it. -/
theorem settles_queue_stale_block (db : Database) (now id : Int) :
    Settles db (queue_stale_block db now id).1 where
  wellFormed := fun h => wellFormed_queue_stale_block h now id
  refs := fun b hb => ((books_queue_stale_block db now id).refs b).trans hb
  account := by
    intro b a' ha'
    rw [account_queue_stale_block] at ha'
    split_ifs at ha'
    · obtain ⟨a, ha, rfl⟩ := Option.map_eq_some_iff.mp ha'
      refine ⟨a, ha, fun hz => ?_, fun hq => ?_⟩ <;> split_ifs <;> first | rfl | assumption
    · exact ⟨a', ha', fun h => h, fun h => h⟩
  pending := by
    intro b _ hq hp
    have hdef : (queue_stale_block db now id).1 = enqueue_abandoned (abandon_block db id) now id :=
      rfl
    rw [hdef] at hp
    unfold enqueue_abandoned at hp
    split at hp
    · split_ifs at hp
      · exact pending_enqueue (abandon_block db id) hq hp
      · exact hp
    · exact hp

/-- A row that goes has no level any more. -/
theorem settles_gc_success (db : Database) (id : Int) : Settles db (gc_success db id) where
  wellFormed := fun h => wellFormed_gc_success h id
  refs := fun b hb => (refs_gc_success db id b).trans hb
  account := by
    intro b a' ha'
    unfold gc_success at ha'
    split at ha'
    · split_ifs at ha'
      · have hblock : (db.delete_block id).block? b = if b = id then none else db.block? b :=
          lookup_delete_key TelegramBlockRow.id b id db.telegram_blocks
        have hqueued : (db.delete_block id).queued b ↔ db.queued b ∧ b ≠ id :=
          queued_dequeue db id b
        obtain ⟨row, hrow, rfl⟩ := (account_eq_some _).mp ha'
        rw [hblock] at hrow
        split_ifs at hrow with hid
        refine ⟨_, (account_eq_some db).mpr ⟨row, hrow, rfl⟩, fun h => h, fun h => ?_⟩
        simpa [hqueued, hid] using h
      · exact ⟨a', ha', fun h => h, fun h => h⟩
    · exact ⟨a', ha', fun h => h, fun h => h⟩
  pending := by
    intro b _ _ hp
    unfold gc_success at hp
    split at hp
    · split_ifs at hp
      · obtain ⟨q, hmem, hq⟩ := hp
        exact ⟨q, (mem_deleteWhere.mp hmem).1, hq⟩
      · exact hp
    · exact hp

/-- An update of a queue row that does not make it pending. -/
theorem settles_update_queue (db : Database) (id : Int) {f : GcQueueRow → GcQueueRow}
    (hid : ∀ q, (f q).block_id = q.block_id)
    (hstate : ∀ q, (f q).state = .pending → q.state = .pending) :
    Settles db (db.update_queue id f) where
  wellFormed := fun h => h.update_queue id hid
  refs := fun _ hb => hb
  account := fun b a' ha' =>
    ⟨a', by rwa [account_update_queue db id b hid] at ha', fun h => h, fun h => h⟩
  pending := by
    rintro b - - ⟨q', hmem, hb, hpending⟩
    obtain ⟨q, hq, rfl⟩ := mem_updateWhere.mp hmem
    split_ifs at hb hpending with hcond
    · exact ⟨q, hq, (hid q).symm.trans hb, hstate q hpending⟩
    · exact ⟨q, hq, hb, hpending⟩

/-! ### The levels, in the words of the tables -/

/-- Up to the claim nothing is left to do for the counts: the block has none, and waits. -/
theorem level_le_one {db : Database} {b : Int} :
    level db b ≤ 1 ↔ ∀ a, db.account b = some a → a.count = 0 ∧ a.queued = true := by
  unfold level
  cases db.account b with
  | none => simp
  | some a =>
      simp only [Option.some.injEq, forall_eq']
      split_ifs with hclaimed
      · simp [hclaimed]
      · simp [hclaimed]
      · simp [hclaimed]

/-- A block is done if its row is gone, or if it was put aside as an orphan and is not tried
again. -/
theorem level_eq_zero {db : Database} {b : Int} :
    level db b = 0 ↔ db.account b = none ∨ (level db b ≤ 1 ∧ db.queued b ∧ ¬ pending db b) := by
  rw [level_le_one]
  unfold level
  cases ha : db.account b with
  | none => simp
  | some a =>
      have hqueued := queued_iff_account ha
      simp only [Option.some.injEq, forall_eq', reduceCtorEq, false_or]
      split_ifs with hclaimed hp
      · simp [hp]
      · simp [hclaimed, hp, hqueued]
      · simp only [hclaimed, false_and]

section Rows

variable {db : Database} {b : TelegramBlockRow}

/-- The account of a row, read off from it. -/
theorem account_row (hwf : WellFormed db) (hb : b ∈ db.telegram_blocks) :
    db.account b.id = some
      { count := b.ref_count, staged := decide (b.state = .staged),
        queued := decide (db.queued b.id) } :=
  (account_eq_some db).mpr ⟨b, lookup_eq_some hwf.block_ids hb rfl, rfl⟩

/-- A row is claimed exactly if its level is at most one. -/
theorem claimed_iff_level (hwf : WellFormed db) (hb : b ∈ db.telegram_blocks) :
    Claimed db b ↔ level db b.id ≤ 1 := by
  rw [level_le_one, account_row hwf hb]
  simp [Claimed]

/-- A candidate is claimed and still pending. -/
theorem level_due {timestamp : Int} (hwf : WellFormed db) (hb : b ∈ db.telegram_blocks)
    (h : Due db timestamp b) : level db b.id = 1 := by
  obtain ⟨hcount, -, q, hq, hid, hstate, -⟩ := h
  have hqueued : db.queued b.id := hid ▸ List.mem_map_of_mem hq
  have hpending : pending db b.id := ⟨q, hq, hid, hstate⟩
  unfold level
  rw [account_row hwf hb]
  simp [hcount, hqueued, hpending]

/-- A block is claimed or gone exactly if it is below level 2. -/
theorem claimed_or_gone_iff (hwf : WellFormed db) (id : Int) :
    (∀ b ∈ db.telegram_blocks, b.id = id → Claimed db b) ↔ level db id ≤ 1 := by
  constructor
  · intro h
    rw [level_le_one]
    intro a ha
    obtain ⟨row, hrow, rfl⟩ := (account_eq_some db).mp ha
    obtain ⟨hmem, rfl⟩ := lookup_mem hrow
    have hclaimed := h row hmem rfl
    exact ⟨hclaimed.1, decide_eq_true hclaimed.2⟩
  · rintro h b hb rfl
    exact (claimed_iff_level hwf hb).mpr h

/-- A claimed block is gone or marked orphan exactly if it is on level 0. -/
theorem removed_or_orphaned_iff (hwf : WellFormed db) {id : Int} (h : level db id ≤ 1) :
    Removed db id ∨ Orphaned db id ↔ level db id = 0 := by
  rw [level_eq_zero, Removed, ← account_ne_none, not_not]
  refine or_congr_right ⟨?_, ?_⟩
  · rintro ⟨q, hq, rfl, hstate⟩
    refine ⟨h, List.mem_map_of_mem hq, ?_⟩
    rintro ⟨q', hq', hid, hstate'⟩
    rw [eq_of_key_eq hwf.queue_ids hq' hq hid, hstate] at hstate'
    cases hstate'
  · rintro ⟨-, hqueued, hpending⟩
    obtain ⟨q, hq, rfl⟩ := List.mem_map.mp hqueued
    refine ⟨q, hq, rfl, ?_⟩
    cases hstate : q.state with
    | orphan => rfl
    | pending => exact absurd ⟨q, hq, rfl, hstate⟩ hpending

end Rows

/-! ## Deleting the candidates -/

/-- A claimed block that nothing refers to, if it is there at all. -/
structure Free (db : Database) (b : Int) : Prop where
  wellFormed : WellFormed db
  refs : db.refs b = 0
  level : level db b ≤ 1

/-- What is free of references stays so, since a pass adds none. -/
theorem Free.settles {db db' : Database} {b : Int} (h : Free db b) (hs : Settles db db') :
    Free db' b :=
  ⟨hs.wellFormed h.wellFormed, hs.refs b h.refs, (hs.level_le b).trans h.level⟩

/-- When its message is deleted, a free block is done: its row goes. -/
theorem level_gc_success {db : Database} {b : Int} (h : Free db b) :
    level (gc_success db b) b = 0 := by
  rw [level_eq_zero, account_gc_success h.wellFormed, if_pos ⟨rfl, h.refs⟩]
  refine Or.inl ?_
  cases ha : db.account b with
  | none => rfl
  | some a => simp [Option.filter_some, (level_le_one.mp h.level a ha).1]

/-- It is done as well when it is put aside, since it will not be tried again. -/
theorem level_gc_orphan {db : Database} {b : Int} (h : Free db b) (error : String) :
    level (gc_orphan db b error) b = 0 := by
  have haccount : (gc_orphan db b error).account b = db.account b :=
    account_update_queue db b b (fun _ => rfl)
  have hpending : ¬ pending (gc_orphan db b error) b := by
    rintro ⟨q', hmem, hid, hstate⟩
    obtain ⟨q, -, rfl⟩ := mem_updateWhere.mp hmem
    split_ifs at hid hstate with hcond
    exact hcond hid
  cases ha : db.account b with
  | none => exact level_eq_zero.mpr (Or.inl (haccount.trans ha))
  | some a =>
      have hclaimed := level_le_one.mp h.level a ha
      unfold level
      rw [haccount, ha]
      simp [hclaimed, hpending]

section Telegram

variable {telegram : Telegram} (hdeletes : telegram.Deletes) (timestamp : Int)
include hdeletes

/-- If Telegram deletes every message, a candidate ends with its row gone. -/
theorem process_gc_candidate_eq (db : Database) (candidate : GarbageRecord) :
    process_gc_candidate telegram timestamp db candidate = gc_success db candidate.block_id := by
  unfold process_gc_candidate
  split
  · rfl
  · rename_i error herror
    rw [if_pos (hdeletes _ error herror)]

/-- Batch or not, the rows of the group are removed one after the other. -/
theorem delete_candidate_group_eq (db : Database) (backend : TelegramBackend)
    (group : List GarbageRecord) :
    (delete_candidate_group telegram timestamp db backend group).1
      = group.foldl (fun db candidate => gc_success db candidate.block_id) db := by
  have hone : process_gc_candidate telegram timestamp
      = fun db candidate => gc_success db candidate.block_id := by
    funext db candidate
    exact process_gc_candidate_eq hdeletes timestamp db candidate
  unfold delete_candidate_group
  simp only [hone]
  split_ifs
  · split <;> rfl
  · rfl

/-- If Telegram deletes every message, the groups come to one removal after the other, in their
order. -/
theorem delete_groups_eq (db : Database) (processed : ℕ)
    (groups : List (TelegramBackend × List GarbageRecord)) :
    (delete_groups telegram timestamp db processed groups).1
      = (groups.flatMap (·.2)).foldl (fun db candidate => gc_success db candidate.block_id) db := by
  induction groups generalizing db processed with
  | nil => rfl
  | cons entry rest ih =>
      obtain ⟨backend, group⟩ := entry
      unfold delete_groups
      rw [ih, List.flatMap_cons, List.foldl_append,
        delete_candidate_group_eq hdeletes timestamp db backend group]

end Telegram

/-- Grouping by backend loses no candidate. -/
theorem mem_push_candidate {c candidate : GarbageRecord}
    {groups : List (TelegramBackend × List GarbageRecord)} :
    c ∈ (push_candidate candidate groups).flatMap (·.2)
      ↔ c = candidate ∨ c ∈ groups.flatMap (·.2) := by
  induction groups with
  | nil => simp [push_candidate]
  | cons entry rest ih =>
      obtain ⟨backend, group⟩ := entry
      unfold push_candidate
      split_ifs
      · simp only [List.flatMap_cons, List.mem_append, List.mem_singleton]
        tauto
      · rw [List.flatMap_cons, List.mem_append, ih, List.flatMap_cons, List.mem_append]
        tauto

/-- The first loop marks the expired candidates one after the other. -/
theorem group_candidates_fst (timestamp : Int) (db : Database) (processed : ℕ)
    (groups : List (TelegramBackend × List GarbageRecord)) (candidates : List GarbageRecord) :
    (group_candidates timestamp db processed groups candidates).1
      = (candidates.filter (fun c =>
          bot_api_delete_window_expired c.backend c.message_date timestamp)).foldl
        (fun db c => gc_orphan db c.block_id "Telegram deleteMessage 48 hour limit") db := by
  induction candidates generalizing db processed groups with
  | nil => rfl
  | cons candidate rest ih =>
      unfold group_candidates
      split_ifs with hexpired
      · rw [ih, List.filter_cons, if_pos hexpired, List.foldl_cons]
      · rw [ih, List.filter_cons, if_neg hexpired]

/-- And it leaves every other candidate in some group. -/
theorem mem_group_candidates {timestamp : Int} {db : Database} {processed : ℕ}
    {groups : List (TelegramBackend × List GarbageRecord)} {candidates : List GarbageRecord}
    {c : GarbageRecord}
    (hc : c ∈ groups.flatMap (·.2) ∨ (c ∈ candidates
      ∧ ¬ bot_api_delete_window_expired c.backend c.message_date timestamp = true)) :
    c ∈ (group_candidates timestamp db processed groups candidates).2.2.flatMap (·.2) := by
  induction candidates generalizing db processed groups with
  | nil => simpa [group_candidates] using hc
  | cons candidate rest ih =>
      unfold group_candidates
      rw [List.mem_cons] at hc
      split_ifs with hexpired
      · refine ih ?_
        rcases hc with hgroup | ⟨rfl | hrest, hc⟩
        · exact Or.inl hgroup
        · exact absurd hexpired hc
        · exact Or.inr ⟨hrest, hc⟩
      · refine ih ?_
        rw [mem_push_candidate]
        rcases hc with hgroup | ⟨rfl | hrest, hc⟩
        · exact Or.inl (Or.inr hgroup)
        · exact Or.inl (Or.inl rfl)
        · exact Or.inr ⟨hrest, hc⟩

/-- To put a block aside does not raise a level. -/
theorem settles_gc_orphan (db : Database) (id : Int) (error : String) :
    Settles db (gc_orphan db id error) :=
  settles_update_queue db id (fun _ => rfl) (fun _ h => by cases h)

section Process

variable {telegram : Telegram} (hdeletes : telegram.Deletes) (timestamp : Int) (db : Database)
  (candidates : List GarbageRecord)
include hdeletes

/-- So the whole work on the candidates raises no level: it is a list of removals and notes in
the queue. -/
theorem settles_process_gc_candidates :
    Settles db (process_gc_candidates telegram timestamp db candidates).1 := by
  unfold process_gc_candidates
  rw [delete_groups_eq hdeletes, group_candidates_fst]
  exact (Settles.foldl (fun d c => settles_gc_orphan d _ _) db _).trans
    (Settles.foldl (fun d c => settles_gc_success d _) _ _)

/-- **Every candidate is dealt with**: it is gone or marked orphan. -/
theorem level_process_gc_candidates {c : GarbageRecord} (hc : c ∈ candidates)
    (hfree : Free db c.block_id) :
    level (process_gc_candidates telegram timestamp db candidates).1 c.block_id = 0 := by
  unfold process_gc_candidates
  rw [delete_groups_eq hdeletes, group_candidates_fst]
  have horphan : ∀ d (x : GarbageRecord), Settles d
      (gc_orphan d x.block_id "Telegram deleteMessage 48 hour limit") :=
    fun d x => settles_gc_orphan d x.block_id _
  have hsuccess : ∀ d (x : GarbageRecord), Settles d (gc_success d x.block_id) :=
    fun d x => settles_gc_success d x.block_id
  by_cases hexpired : bot_api_delete_window_expired c.backend c.message_date timestamp = true
  · -- marked in the first loop, and the second one does not take it up again
    have hmem : c ∈ candidates.filter (fun c =>
        bot_api_delete_window_expired c.backend c.message_date timestamp) :=
      List.mem_filter.mpr ⟨hc, hexpired⟩
    have hzero := exec_reaches (I := fun d => Free d c.block_id)
      (Q := fun d => level d c.block_id = 0) hmem
      (fun d x hd => hd.settles (horphan d x))
      (fun d x hd => Nat.le_zero.mp (hd ▸ (horphan d x).level_le c.block_id))
      (fun d hd => level_gc_orphan hd _) hfree
    exact Nat.le_zero.mp (((Settles.foldl hsuccess _ _).level_le c.block_id).trans hzero.le)
  · exact exec_reaches (I := fun d => Free d c.block_id) (Q := fun d => level d c.block_id = 0)
      (mem_group_candidates (Or.inr ⟨hc, hexpired⟩))
      (fun d x hd => hd.settles (hsuccess d x))
      (fun d x hd => Nat.le_zero.mp (hd ▸ (hsuccess d x).level_le c.block_id))
      (fun d hd => level_gc_success hd) (hfree.settles (Settles.foldl horphan db _))

end Process

/-! ## What the queries find -/

/-- What the query selects is due: claimed, pending, and its time has come. -/
theorem gc_select_due {db : Database} {timestamp : Int} {q : GcQueueRow} {c : GarbageRecord}
    (hq : q ∈ db.gc_queue) (h : gc_select db timestamp q = some c) :
    ∃ b ∈ db.telegram_blocks, b.id = c.block_id ∧ Due db timestamp b := by
  unfold gc_select at h
  split at h
  · cases h
  · rename_i b hb
    obtain ⟨hmem, hid⟩ := lookup_mem hb
    split_ifs at h with hcond
    obtain rfl := Option.some.inj h
    exact ⟨b, hmem, hid, hcond.2.1, hcond.2.2.2, q, hq, hid.symm, hcond.1, hcond.2.2.1⟩

/-- And so is each of the first ones, up to the limit. -/
theorem gc_candidates_due {db : Database} {timestamp : Int} {limit : ℕ} {c : GarbageRecord}
    (h : c ∈ gc_candidates db timestamp limit) :
    ∃ b ∈ db.telegram_blocks, b.id = c.block_id ∧ Due db timestamp b := by
  obtain ⟨q, hq, hselect⟩ := List.mem_filterMap.mp (List.mem_of_mem_take h)
  exact gc_select_due ((List.mem_insertionSort _).mp hq) hselect

/-- A due block is a reason to find a candidate. -/
theorem gc_candidates_ne_nil {db : Database} (hwf : WellFormed db) {timestamp : Int} {limit : ℕ}
    (hlimit : 0 < limit) {b : TelegramBlockRow} (hb : b ∈ db.telegram_blocks)
    (h : Due db timestamp b) : gc_candidates db timestamp limit ≠ [] := by
  obtain ⟨hcount, hrefs, q, hq, hid, hstate, hnext⟩ := h
  have hblock : db.block? q.block_id = some b := lookup_eq_some hwf.block_ids hb hid.symm
  have hselect : gc_select db timestamp q = some (garbage_from_row q b) := by
    simp [gc_select, hblock, hstate, hcount, hnext, hrefs]
  have hin : garbage_from_row q b ∈ (db.gc_queue.insertionSort
      (·.next_attempt ≤ ·.next_attempt)).filterMap (gc_select db timestamp) :=
    List.mem_filterMap.mpr ⟨q, (List.mem_insertionSort _).mpr hq, hselect⟩
  unfold gc_candidates
  rw [ne_eq, List.take_eq_nil_iff]
  rintro (hzero | hnil)
  · omega
  · rw [hnil] at hin
    cases hin

section Stale

variable {db : Database} {pass : Pass}

/-- What the pass lists as stale is stale by the time of the pass. -/
theorem stale_is_stale {r : GarbageRecord} (h : r ∈ stale db pass) :
    ∃ b ∈ db.telegram_blocks, b.id = r.block_id ∧ is_stale db (pass.timestamp - 3600) b := by
  unfold stale stale_blocks at h
  obtain ⟨b, hb, rfl⟩ := List.mem_map.mp h
  have hfilter := (List.mem_insertionSort _).mp (List.mem_of_mem_take hb)
  exact ⟨b, List.mem_of_mem_filter hfilter, rfl, by simpa using List.of_mem_filter hfilter⟩

variable (db pass) in
/-- The list has no more blocks than the pass may process. -/
theorem length_stale_le : (stale db pass).length ≤ pass.limit := by
  unfold stale stale_blocks
  rw [List.length_map]
  exact List.length_take_le _ _

/-- If the limit was not reached, every stale block was found. -/
theorem mem_stale (hlength : (stale db pass).length < pass.limit) {b : TelegramBlockRow}
    (hb : b ∈ db.telegram_blocks) (h : is_stale db (pass.timestamp - 3600) b) :
    b.id ∈ (stale db pass).map (·.block_id) := by
  unfold stale stale_blocks at hlength ⊢
  rw [List.length_map, List.length_take] at hlength
  rw [List.take_of_length_le (by omega), List.map_map]
  refine List.mem_map.mpr ⟨b, (List.mem_insertionSort _).mpr ?_, rfl⟩
  exact List.mem_filter.mpr ⟨hb, decide_eq_true h⟩

end Stale

/-! ## Claiming the stale blocks -/

/-- The claims of a pass are made one after the other; the counter beside them does not matter
for the tables. -/
theorem queue_stale_blocks_fst (queued_at : Int → Int) (db : Database) (processed : ℕ)
    (records : List GarbageRecord) :
    (queue_stale_blocks queued_at db processed records).1
      = records.foldl
          (fun db r => (queue_stale_block db (queued_at r.block_id) r.block_id).1) db := by
  induction records generalizing db processed with
  | nil => rfl
  | cons r rest ih =>
      unfold queue_stale_blocks
      exact ih _ _

/-- And none of them raises a level. -/
theorem settles_queue_stale_blocks (queued_at : Int → Int) (db : Database) (processed : ℕ)
    (records : List GarbageRecord) :
    Settles db (queue_stale_blocks queued_at db processed records).1 := by
  rw [queue_stale_blocks_fst]
  exact Settles.foldl (fun d r => settles_queue_stale_block d _ _) db records

/-- Staged and unreferenced, in the words of the account. -/
def Abandoned (db : Database) (id : Int) : Prop :=
  db.refs id = 0 ∧ ∃ a, db.account id = some a ∧ a.staged = true

/-- An abandoned block is claimed, when it is asked for. -/
theorem queue_stale_block_abandoned {db : Database} {id : Int} (h : Abandoned db id) (now : Int) :
    (queue_stale_block db now id).2 = true := by
  obtain ⟨hrefs, a, ha, hstaged⟩ := h
  obtain ⟨row, hrow, rfl⟩ := (account_eq_some db).mp ha
  rw [queue_stale_block_answer]
  exact ⟨row, hrow, of_decide_eq_true hstaged, (lookup_mem hrow).2.symm ▸ hrefs⟩

/-- Another claim in between does not change that. -/
theorem Abandoned.queue_stale_block {db : Database} {id : Int} (h : Abandoned db id)
    (now other : Int) : Abandoned (Tg2s3.queue_stale_block db now other).1 id := by
  obtain ⟨hrefs, a, ha, hstaged⟩ := h
  refine ⟨((books_queue_stale_block db now other).refs id).trans hrefs, ?_⟩
  rw [account_queue_stale_block, ha]
  split_ifs
  · exact ⟨_, rfl, by simp [hstaged, claim]⟩
  · exact ⟨a, rfl, hstaged⟩

/-- **Every stale block costs budget**, claimed before or not. -/
theorem queue_stale_blocks_snd (queued_at : Int → Int) {db : Database} (processed : ℕ)
    {records : List GarbageRecord} (h : ∀ r ∈ records, Abandoned db r.block_id) :
    (queue_stale_blocks queued_at db processed records).2 = processed + records.length := by
  induction records generalizing db processed with
  | nil => rfl
  | cons r rest ih =>
      have hanswer := queue_stale_block_abandoned (h r List.mem_cons_self) (queued_at r.block_id)
      have hrest : ∀ r' ∈ rest, Abandoned
          (queue_stale_block db (queued_at r.block_id) r.block_id).1 r'.block_id :=
        fun r' hr' => (h r' (List.mem_cons_of_mem r hr')).queue_stale_block _ _
      unfold queue_stale_blocks
      simp only [hanswer, if_true]
      rw [ih _ hrest, List.length_cons]
      omega

/-- After its claim a block has no count and waits. -/
theorem level_queue_stale_block {db : Database} {id : Int} (h : Abandoned db id) (now : Int) :
    level (queue_stale_block db now id).1 id ≤ 1 := by
  obtain ⟨hrefs, a, ha, hstaged⟩ := h
  rw [level_le_one, account_queue_stale_block, if_pos ⟨rfl, hrefs⟩, ha]
  simp [hstaged, claim]

/-- Every block that was found is claimed afterwards. -/
theorem level_queue_stale_blocks (queued_at : Int → Int) {db : Database} (processed : ℕ)
    {records : List GarbageRecord} {r : GarbageRecord} (hr : r ∈ records)
    (h : Abandoned db r.block_id) :
    level (queue_stale_blocks queued_at db processed records).1 r.block_id ≤ 1 := by
  rw [queue_stale_blocks_fst]
  exact exec_reaches (I := fun d => Abandoned d r.block_id) (Q := fun d => level d r.block_id ≤ 1) hr
    (fun d x hd => hd.queue_stale_block _ _)
    (fun d x hd => ((settles_queue_stale_block d _ _).level_le _).trans hd)
    (fun d hd => level_queue_stale_block hd _) h

/-- A block that waits is not queued twice. -/
theorem enqueue_queued {db : Database} {id : Int} (h : db.queued id) (now : Int) :
    db.enqueue id now = db := by
  have hsame : insertOrIgnore (·.block_id)
      { block_id := id, attempts := 0, next_attempt := now, last_error := none,
        state := .pending : GcQueueRow } db.gc_queue = db.gc_queue := if_pos h
  unfold Database.enqueue
  rw [hsame]

/-- Claiming what is claimed does nothing. -/
theorem queue_stale_block_claimed {db : Database} (hwf : WellFormed db) {id : Int}
    (h : level db id ≤ 1) (now : Int) : (queue_stale_block db now id).1 = db := by
  have hclaimed := (claimed_or_gone_iff hwf id).mpr h
  have habandon : abandon_block db id = db := by
    have hsame : updateWhere (fun b => b.id = id ∧ is_abandoned db b ∧ b.ref_count > 0)
        clear_ref_count db.telegram_blocks = db.telegram_blocks := by
      refine updateWhere_eq_self (fun b hb hcond => ?_)
      have hzero := (hclaimed b hb hcond.1).1
      omega
    unfold abandon_block
    rw [hsame]
  have hdef : (queue_stale_block db now id).1 = enqueue_abandoned (abandon_block db id) now id := rfl
  rw [hdef, habandon]
  unfold enqueue_abandoned
  split
  · rename_i b hb
    obtain ⟨hmem, hid⟩ := lookup_mem hb
    split_ifs
    · exact enqueue_queued (hid ▸ (hclaimed b hmem hid).2) now
    · rfl
  · rfl

/-- **Claims of what is claimed do nothing**: this is where the pass stands still if its list has
only such blocks. -/
theorem queue_stale_blocks_claimed (queued_at : Int → Int) {db : Database} (hwf : WellFormed db)
    (processed : ℕ) {records : List GarbageRecord}
    (h : ∀ r ∈ records, level db r.block_id ≤ 1) :
    (queue_stale_blocks queued_at db processed records).1 = db := by
  rw [queue_stale_blocks_fst]
  induction records with
  | nil => rfl
  | cons r rest ih =>
      rw [List.foldl_cons, queue_stale_block_claimed hwf (h r List.mem_cons_self)]
      exact ih (fun r' hr' => h r' (List.mem_cons_of_mem r hr'))

/-! ## One pass -/

/-- A stale block is abandoned: staged, and nothing refers to it. -/
theorem stale_abandoned {db : Database} (hwf : WellFormed db) {pass : Pass} {r : GarbageRecord}
    (h : r ∈ stale db pass) : Abandoned db r.block_id := by
  obtain ⟨b, hb, hid, hstaged, -, hrefs⟩ := stale_is_stale h
  rw [← hid]
  exact ⟨hrefs, _, account_row hwf hb, decide_eq_true hstaged⟩

/-- The database after the stale blocks were claimed. -/
def claimed_stale (db : Database) (pass : Pass) : Database :=
  (queue_stale_blocks pass.queued_at (expire db pass) 0 (stale (expire db pass) pass)).1

/-- A pass: what the stale blocks leave of the budget goes to the queue. -/
theorem run_gc_fst {db : Database} (hwf : WellFormed db) {pass : Pass} (hvalid : pass.Valid) :
    (run_gc db pass).1 =
      if (stale (expire db pass) pass).length = pass.limit then claimed_stale db pass
      else (process_gc_candidates pass.telegram pass.timestamp (claimed_stale db pass)
        (gc_candidates (claimed_stale db pass) pass.timestamp
          (pass.limit - (stale (expire db pass) pass).length))).1 := by
  have hwf₁ := (settles_expire db pass).wellFormed hwf
  have hfound : ∀ r ∈ stale (expire db pass) pass, Abandoned (expire db pass) r.block_id :=
    fun r hr => stale_abandoned hwf₁ hr
  have hprocessed := queue_stale_blocks_snd pass.queued_at 0 hfound
  have hlimit : ¬ (pass.limit = 0 ∨ pass.limit > MAX_GC_LIMIT) := by
    have hpos := hvalid.limit_pos
    have hle := hvalid.limit_le
    omega
  have hlength := length_stale_le (expire db pass) pass
  unfold run_gc
  rw [if_neg hlimit]
  simp only [hprocessed, Nat.zero_add]
  have hiff : pass.limit - (stale (expire db pass) pass).length = 0
      ↔ (stale (expire db pass) pass).length = pass.limit := by omega
  simp only [hiff]
  split_ifs <;> rfl

/-- The claims of a pass come after its expiry, and raise no level. -/
theorem settles_claimed_stale (db : Database) (pass : Pass) :
    Settles (expire db pass) (claimed_stale db pass) :=
  settles_queue_stale_blocks _ _ _ _

/-- What a pass does after the expiry and the claims. -/
theorem settles_after_claims {db : Database} (hwf : WellFormed db) {pass : Pass}
    (hvalid : pass.Valid) : Settles (claimed_stale db pass) (run_gc db pass).1 := by
  rw [run_gc_fst hwf hvalid]
  split_ifs
  · exact Settles.refl _
  · exact settles_process_gc_candidates hvalid.deletes _ _ _

/-- **A pass raises no level**: it expires, claims and removes, and none of it does. -/
theorem settles_run_gc {db : Database} (hwf : WellFormed db) {pass : Pass}
    (hvalid : pass.Valid) : Settles db (run_gc db pass).1 :=
  (settles_expire db pass).trans
    ((settles_claimed_stale db pass).trans (settles_after_claims hwf hvalid))

/-- Progress, by the levels. -/
theorem progress_iff {db : Database} (hwf : WellFormed db) {pass : Pass} (hvalid : pass.Valid) :
    Progress db pass ↔ ∃ b ∈ (expire db pass).telegram_blocks,
      (Unclaimed (expire db pass) pass.timestamp b ∧ level (run_gc db pass).1 b.id ≤ 1)
        ∨ (Due (expire db pass) pass.timestamp b ∧ level (run_gc db pass).1 b.id = 0) := by
  have hwf₁ := (settles_expire db pass).wellFormed hwf
  have hrest := (settles_claimed_stale db pass).trans (settles_after_claims hwf hvalid)
  have hwf₂ := hrest.wellFormed hwf₁
  refine exists_congr (fun b => and_congr_right (fun hb => or_congr ?_ ?_))
  · exact and_congr_right (fun _ => claimed_or_gone_iff hwf₂ b.id)
  · refine and_congr_right (fun hdue => removed_or_orphaned_iff hwf₂ ?_)
    have hone := level_due hwf₁ hb hdue
    exact (hrest.level_le b.id).trans hone.le

/-! ## Garbage survives the expiry -/

/-- A step that leaves the rows of unreferenced blocks and their queue rows as
they are. -/
structure Spares (db db' : Database) : Prop where
  refs : ∀ b, db.refs b = 0 → db'.refs b = 0
  rows : ∀ row ∈ db.telegram_blocks, db.refs row.id = 0 → row ∈ db'.telegram_blocks
  queue : ∀ q, db.refs q.block_id = 0 → (q ∈ db'.gc_queue ↔ q ∈ db.gc_queue)

/-- Nothing has been touched. -/
theorem Spares.refl (db : Database) : Spares db db :=
  ⟨fun _ h => h, fun _ h _ => h, fun _ _ => Iff.rfl⟩

/-- What is spared twice is spared. -/
theorem Spares.trans {db db' db'' : Database} (h₁ : Spares db db') (h₂ : Spares db' db'') :
    Spares db db'' where
  refs := fun b h => h₂.refs b (h₁.refs b h)
  rows := fun row hrow h => h₂.rows row (h₁.rows row hrow h) (h₁.refs row.id h)
  queue := fun q h => (h₂.queue q (h₁.refs q.block_id h)).trans (h₁.queue q h)

/-- Releasing other blocks leaves a block and its queue row alone. -/
theorem decrement_blocks_other (db : Database) (now : Int) {blocks : List BlockRef} {b : Int}
    (hb : times b blocks = 0) :
    (∀ row ∈ db.telegram_blocks, row.id = b →
        row ∈ (decrement_blocks db now blocks).telegram_blocks)
      ∧ ∀ q : GcQueueRow, q.block_id = b →
        (q ∈ (decrement_blocks db now blocks).gc_queue ↔ q ∈ db.gc_queue) := by
  unfold decrement_blocks
  induction blocks generalizing db with
  | nil => exact ⟨fun _ h _ => h, fun _ _ => Iff.rfl⟩
  | cons block rest ih =>
      rw [times_cons] at hb
      have hne : b ≠ block.id := fun h => by simp [h] at hb
      have hrest : times b rest = 0 := by omega
      obtain ⟨hrows, hqueue⟩ := ih (decrement_block db now block.id) hrest
      have hrow : ∀ row ∈ db.telegram_blocks, row.id = b →
          row ∈ (db.update_block block.id decrement).telegram_blocks := by
        rintro row hmem rfl
        exact mem_updateWhere.mpr ⟨row, hmem, if_neg hne⟩
      have hstep : (decrement_block db now block.id).telegram_blocks
          = (db.update_block block.id decrement).telegram_blocks := by
        unfold decrement_block
        simp only
        split
        · split_ifs <;> rfl
        · rfl
      have hq : ∀ q : GcQueueRow, q.block_id = b →
          (q ∈ (decrement_block db now block.id).gc_queue ↔ q ∈ db.gc_queue) := by
        intro q hid
        unfold decrement_block
        simp only
        split
        · split_ifs
          · refine ⟨fun hmem => ?_, subset_insertOrIgnore⟩
            rcases mem_insertOrIgnore hmem with hold | rfl
            · exact hold
            · exact absurd hid.symm hne
          · exact Iff.rfl
        · exact Iff.rfl
      exact ⟨fun row hmem hid => hrows row (hstep ▸ hrow row hmem hid) hid,
        fun q hid => (hqueue q hid).trans (hq q hid)⟩

/-- An abort spares what is garbage: it was not referred to before, so nothing is released of it.
-/
theorem spares_abort_upload {db : Database} (hwf : WellFormed db) (now : Int)
    (upload_id : String) : Spares db (abort_upload_with_blocks db now upload_id).1 := by
  have hsettles := settles_abort_upload db now upload_id
  rcases abort_upload_with_blocks_eq db now upload_id with heq | heq
  · rw [heq]
    exact Spares.refl db
  · rw [heq] at hsettles ⊢
    have hzero : ∀ b, db.refs b = 0 → times b (held_by_upload db upload_id) = 0 := by
      intro b hb
      have := hwf.refs_delete_upload upload_id b
      omega
    exact ⟨hsettles.refs,
      fun row hrow hb => (decrement_blocks_other _ now (hzero row.id hb)).1 row hrow rfl,
      fun q hb => (decrement_blocks_other _ now (hzero q.block_id hb)).2 q rfl⟩

/-- And so does the expiry. -/
theorem spares_expire {db : Database} (hwf : WellFormed db) (pass : Pass) :
    Spares db (expire db pass) := by
  have hboth := expire_uploads_induction (P := fun d => WellFormed d ∧ Spares db d)
    pass.aborted_at (pass.timestamp - 7 * 24 * 3600) ⟨hwf, Spares.refl db⟩
    (fun d upload_id hd => ⟨wellFormed_abort_upload hd.1 _ upload_id,
      hd.2.trans (spares_abort_upload hd.1 _ upload_id)⟩)
  exact hboth.2

/-- What is garbage for a pass still is when the uploads have been expired. -/
theorem garbage_expire {db : Database} (hwf : WellFormed db) {pass : Pass}
    (h : Garbage db pass) : ∃ b ∈ (expire db pass).telegram_blocks,
      Unclaimed (expire db pass) pass.timestamp b ∨ Due (expire db pass) pass.timestamp b := by
  have hspares := spares_expire hwf pass
  obtain ⟨b, hb, ⟨⟨hstate, hage, hrefs⟩, hunclaimed⟩ | ⟨hcount, hrefs, q, hq, hid, hpending⟩⟩ := h
  · refine ⟨b, hspares.rows b hb hrefs, Or.inl ⟨⟨hstate, hage, hspares.refs b.id hrefs⟩, ?_⟩⟩
    rintro ⟨hcount, hqueued⟩
    obtain ⟨q, hq, hid⟩ := List.mem_map.mp hqueued
    have hq' := (hspares.queue q (by rw [hid]; exact hrefs)).mp hq
    exact hunclaimed ⟨hcount, hid ▸ List.mem_map_of_mem hq'⟩
  · exact ⟨b, hspares.rows b hb hrefs, Or.inr ⟨hcount, hspares.refs b.id hrefs, q,
      (hspares.queue q (by rw [hid]; exact hrefs)).mpr hq, hid, hpending⟩⟩

/-! ## Progress and room -/

section Room

variable {db : Database} (hwf : WellFormed db) {pass : Pass} (hvalid : pass.Valid)
include hwf hvalid

/-- A block found unclaimed is claimed by the end of the pass. -/
theorem progress_of_unclaimed {b : TelegramBlockRow} (hb : b ∈ (expire db pass).telegram_blocks)
    (hunclaimed : Unclaimed (expire db pass) pass.timestamp b)
    (hfound : b.id ∈ (stale (expire db pass) pass).map (·.block_id)) : Progress db pass := by
  have hwf₁ := (settles_expire db pass).wellFormed hwf
  obtain ⟨r, hr, hid⟩ := List.mem_map.mp hfound
  have hclaim := level_queue_stale_blocks pass.queued_at 0 hr (stale_abandoned hwf₁ hr)
  have hlevel := ((settles_after_claims hwf hvalid).level_le r.block_id).trans hclaim
  exact (progress_iff hwf hvalid).mpr ⟨b, hb, Or.inl ⟨hunclaimed, hid ▸ hlevel⟩⟩

/-- With budget left and every stale block claimed before, the first candidate of
the queue is dealt with. -/
theorem progress_of_due (hlength : (stale (expire db pass) pass).length < pass.limit)
    (hclaimed : ∀ r ∈ stale (expire db pass) pass, level (expire db pass) r.block_id ≤ 1)
    {b : TelegramBlockRow} (hb : b ∈ (expire db pass).telegram_blocks)
    (hdue : Due (expire db pass) pass.timestamp b) : Progress db pass := by
  have hwf₁ := (settles_expire db pass).wellFormed hwf
  have hsame : claimed_stale db pass = expire db pass :=
    queue_stale_blocks_claimed pass.queued_at hwf₁ 0 hclaimed
  have hrun := run_gc_fst hwf hvalid
  rw [if_neg (by omega), hsame] at hrun
  have hrest : 0 < pass.limit - (stale (expire db pass) pass).length := by omega
  have hne := gc_candidates_ne_nil hwf₁ hrest hb hdue
  obtain ⟨c, hc⟩ := List.exists_mem_of_ne_nil _ hne
  obtain ⟨b', hb', hid, hdue'⟩ := gc_candidates_due hc
  have hfree : Free (expire db pass) c.block_id := by
    rw [← hid]
    exact ⟨hwf₁, hdue'.2.1, (level_due hwf₁ hb' hdue').le⟩
  have hzero := level_process_gc_candidates hvalid.deletes pass.timestamp (expire db pass) _ hc hfree
  rw [← hrun, ← hid] at hzero
  exact (progress_iff hwf hvalid).mpr ⟨b', hb', Or.inr ⟨hdue', hzero⟩⟩

/-- A pass whose budget goes to claimed blocks does nothing after the expiry. -/
theorem run_gc_stuck (h : ¬ Room db pass) : (run_gc db pass).1 = expire db pass := by
  have hwf₁ := (settles_expire db pass).wellFormed hwf
  obtain ⟨hlength, hunclaimed⟩ := not_or.mp h
  have hle := length_stale_le (expire db pass) pass
  have hclaimed : ∀ r ∈ stale (expire db pass) pass, level (expire db pass) r.block_id ≤ 1 := by
    intro r hr
    obtain ⟨b, hb, hid, hstale⟩ := stale_is_stale hr
    rw [← hid, ← claimed_iff_level hwf₁ hb]
    by_contra hno
    exact hunclaimed ⟨b, hb, ⟨hstale, hno⟩, hid ▸ List.mem_map_of_mem hr⟩
  rw [run_gc_fst hwf hvalid, if_pos (by omega)]
  exact queue_stale_blocks_claimed pass.queued_at hwf₁ 0 hclaimed

/-- **Where there is garbage, a pass makes progress exactly if there is room.** -/
theorem progress_iff_room (hgarbage : Garbage db pass) : Progress db pass ↔ Room db pass := by
  have hwf₁ := (settles_expire db pass).wellFormed hwf
  constructor
  · intro hprogress
    by_contra hroom
    have hstuck := run_gc_stuck hwf hvalid hroom
    obtain ⟨b, hb, ⟨hunclaimed, hlevel⟩ | ⟨hdue, hlevel⟩⟩ := (progress_iff hwf hvalid).mp hprogress
    · rw [hstuck] at hlevel
      exact hunclaimed.2 ((claimed_iff_level hwf₁ hb).mpr hlevel)
    · rw [hstuck, level_due hwf₁ hb hdue] at hlevel
      omega
  · intro hroom
    by_cases hfound : ∃ b ∈ (expire db pass).telegram_blocks,
        Unclaimed (expire db pass) pass.timestamp b
          ∧ b.id ∈ (stale (expire db pass) pass).map (·.block_id)
    · obtain ⟨b, hb, hunclaimed, hin⟩ := hfound
      exact progress_of_unclaimed hwf hvalid hb hunclaimed hin
    · -- every stale block found was claimed before, so what is garbage is in the queue
      have hlength := hroom.resolve_right hfound
      obtain ⟨b, hb, hunclaimed | hdue⟩ := garbage_expire hwf hgarbage
      · exact absurd ⟨b, hb, hunclaimed, mem_stale hlength hb hunclaimed.1⟩ hfound
      · refine progress_of_due hwf hvalid hlength (fun r hr => ?_) hb hdue
        obtain ⟨b', hb', hid, hstale⟩ := stale_is_stale hr
        rw [← hid, ← claimed_iff_level hwf₁ hb']
        by_contra hno
        exact hfound ⟨b', hb', ⟨hstale, hno⟩, hid ▸ List.mem_map_of_mem hr⟩

/-- Progress takes some block a level down. -/
theorem level_lt_of_progress (h : Progress db pass) :
    ∃ b ∈ db.telegram_blocks.map (·.id), level (run_gc db pass).1 b < level db b := by
  have hwf₁ := (settles_expire db pass).wellFormed hwf
  obtain ⟨b, hb, hcase⟩ := (progress_iff hwf hvalid).mp h
  have hthere : (expire db pass).account b.id ≠ none := by
    rw [account_row hwf₁ hb]
    exact Option.some_ne_none _
  refine ⟨b.id, (account_ne_none db).mp ((settles_expire db pass).there hthere), ?_⟩
  have hle := (settles_expire db pass).level_le b.id
  rcases hcase with ⟨hunclaimed, hlevel⟩ | ⟨hdue, hlevel⟩
  · have htwo : ¬ level (expire db pass) b.id ≤ 1 :=
      fun hone => hunclaimed.2 ((claimed_iff_level hwf₁ hb).mpr hone)
    omega
  · have hone := level_due hwf₁ hb hdue
    omega

end Room

/-! ## Repeated passes -/

/-- What a pass leaves behind. -/
def collect (db : Database) (pass : Pass) : Database := (run_gc db pass).1

/-- The levels of the blocks, added up. -/
def unfinished (ids : List Int) (db : Database) : ℕ := (ids.map (level db)).sum

/-- There are two steps for each block. -/
theorem unfinished_le (ids : List Int) (db : Database) : unfinished ids db ≤ 2 * ids.length := by
  unfold unfinished
  induction ids with
  | nil => exact Nat.le_refl 0
  | cons b ids ih =>
      have hb := level_le_two db b
      rw [List.map_cons, List.sum_cons, List.length_cons]
      omega

/-- What raises no level leaves no more to be done. -/
theorem unfinished_settles_le {db db' : Database} (h : Settles db db') (ids : List Int) :
    unfinished ids db' ≤ unfinished ids db :=
  List.sum_le_sum (fun b _ => h.level_le b)

/-- A database on the way: its blocks are among the ones of the start. -/
structure Underway (ids : List Int) (db : Database) : Prop where
  wellFormed : WellFormed db
  ids : db.telegram_blocks.map (·.id) ⊆ ids

/-- A pass goes on where the last one stopped: the blocks are still free, and no new one has
come. -/
theorem Underway.collect {ids : List Int} {db : Database} (h : Underway ids db) {pass : Pass}
    (hvalid : pass.Valid) : Underway ids (collect db pass) where
  wellFormed := (settles_run_gc h.wellFormed hvalid).wellFormed h.wellFormed
  ids := by
    intro b hb
    rw [← account_ne_none] at hb
    exact h.ids ((account_ne_none db).mp ((settles_run_gc h.wellFormed hvalid).there hb))

/-- **Repeated collection finishes its work exactly as far as there is room.** In
a sequence of passes from any state a history leads to, every pass that finds
garbage makes progress if and only if every pass that finds garbage has room; and
then at most twice as many passes find garbage as there are blocks. -/
theorem collection_finishes (past : List Op) (passes : List Pass)
    (hvalid : ∀ pass ∈ passes, pass.Valid) :
    (ExecMeets collect (fun db pass => Garbage db pass → Progress db pass) (after past) passes
        ↔ ExecMeets collect (fun db pass => Garbage db pass → Room db pass) (after past) passes)
      ∧ (ExecMeets collect (fun db pass => Garbage db pass → Room db pass) (after past) passes →
        hits collect Garbage (after past) passes ≤ 2 * (after past).telegram_blocks.length) := by
  have hstart : Underway ((after past).telegram_blocks.map (·.id)) (after past) :=
    ⟨wellFormed_after past, fun _ h => h⟩
  generalize hids : (after past).telegram_blocks.map (·.id) = ids at hstart
  have hkeep : ∀ db, ∀ pass ∈ passes, Underway ids db → Underway ids (collect db pass) :=
    fun db pass hp hdb => hdb.collect (hvalid pass hp)
  have hiff := execMeets_congr hkeep
    (fun db pass hp hdb => imp_congr_right (progress_iff_room hdb.wellFormed (hvalid pass hp))) hstart
  refine ⟨hiff, fun hroom => ?_⟩
  have hbound := unfinished_le ids (after past)
  rw [← hids, List.length_map, hids] at hbound
  refine (hits_le hkeep ?_ hstart ?_).trans hbound
  · intro db pass hp hdb
    exact unfinished_settles_le (settles_run_gc hdb.wellFormed (hvalid pass hp)) ids
  · -- a pass with garbage and room makes progress, and progress takes a block down
    have hlower : ∀ db, ∀ pass ∈ passes, Underway ids db →
        ((Garbage db pass → Progress db pass)
          ↔ (Garbage db pass → Progress db pass)
            ∧ (Garbage db pass → unfinished ids (collect db pass) < unfinished ids db)) := by
      intro db pass hp hdb
      refine ⟨fun h => ⟨h, fun hgarbage => ?_⟩, And.left⟩
      obtain ⟨b, hb, hlt⟩ := level_lt_of_progress hdb.wellFormed (hvalid pass hp) (h hgarbage)
      exact List.sum_lt_sum _ _
        (fun b' _ => (settles_run_gc hdb.wellFormed (hvalid pass hp)).level_le b')
        ⟨b, hdb.ids hb, hlt⟩
    exact ((execMeets_congr hkeep hlower hstart).mp (hiff.mpr hroom)).mono (fun _ _ h => h.2)

/-- A pass with a Telegram that deletes what it is told to. -/
def pass_at (limit : ℕ) (timestamp : Int) : Pass :=
  { limit := limit, telegram := ⟨fun _ => .ok (), fun _ _ => .ok ()⟩, timestamp := timestamp,
    aborted_at := timestamp, queued_at := fun _ => timestamp }

/-- A pass with a limit in the range is valid at any time. -/
theorem valid_pass_at {limit : ℕ} (hpos : 1 ≤ limit) (hle : limit ≤ MAX_GC_LIMIT)
    (timestamp : Int) : (pass_at limit timestamp).Valid :=
  ⟨hpos, hle, fun _ _ h => by cases h⟩

/-- Two abandoned blocks, collected by passes with room for a third. -/
theorem collection_finishes_roomy :
    hits collect Garbage
        (after [.add_staged_block 0 (Counts.sent 0 11 5), .add_staged_block 0 (Counts.sent 0 12 5)])
        [pass_at 3 4000, pass_at 3 5000, pass_at 3 6000]
      ≤ 2 * (after [.add_staged_block 0 (Counts.sent 0 11 5),
          .add_staged_block 0 (Counts.sent 0 12 5)]).telegram_blocks.length :=
  (collection_finishes
    [.add_staged_block 0 (Counts.sent 0 11 5), .add_staged_block 0 (Counts.sent 0 12 5)]
    [pass_at 3 4000, pass_at 3 5000, pass_at 3 6000]
    (by
      simp only [List.forall_mem_cons]
      refine ⟨?_, ?_, ?_, by simp⟩ <;> exact valid_pass_at (by decide) (by decide) _)).2 (by decide)

/-- A put staged a block and the process died; a pass claimed the block and had
no budget left. -/
def after_claim : Database :=
  after [.add_staged_block 0 (Counts.sent 0 11 5), .queue_stale_block 4000 1]

/-- **Due garbage at a fixed point.** With limit 1 the claimed block takes the
budget of every pass, and no number of passes removes it. -/
theorem collection_stuck :
    (pass_at 1 5000).Valid ∧ Garbage after_claim (pass_at 1 5000)
      ∧ ¬ Progress after_claim (pass_at 1 5000)
      ∧ ∀ n, exec collect after_claim (List.replicate n (pass_at 1 5000)) = after_claim := by
  have hvalid : (pass_at 1 5000).Valid := valid_pass_at (by decide) (by decide) _
  have hgarbage : Garbage after_claim (pass_at 1 5000) := by decide
  have hfixed : collect after_claim (pass_at 1 5000) = after_claim := by decide
  refine ⟨hvalid, hgarbage, fun hprogress => ?_, fun n => ?_⟩
  · have hroom := (progress_iff_room (wellFormed_after _) hvalid hgarbage).mp hprogress
    exact absurd hroom (by decide)
  · induction n with
    | zero => rfl
    | succ n ih =>
        rw [List.replicate_succ, exec_cons, hfixed]
        exact ih

end Tg2s3.Collection
