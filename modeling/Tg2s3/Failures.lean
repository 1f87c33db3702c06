/-
What a PUT that fails leaves behind.

The blocks that the attempt stages have ids that no row had before. Whoever has to clean up --
the guard of the upload, `put_object` after a refused `replace_part`, or the abort of the
upload row -- touches the rows of these blocks and their places in the queue, and no others.
So the database after the failure is the one before it and what is left of these blocks
(`Apart`), and it remains to follow one block: the guard claims it and then deletes it with
its message, and the abort takes away its only reference (`Disposed`).

One failure comes too late for this: the query that reads the object back when the commit is
done. By then the upload row is gone, the abort finds nothing, and the request answers an
error although the object is replaced.
-/
import Tg2s3.Collection
import Tg2s3.Registry
import Tg2s3.RoundTrip

set_option autoImplicit false

namespace Tg2s3.Transfer

open Relational RefCount RefCount.Account
open Collection (Abandoned queue_stale_block_abandoned)
open Download (Bytes)

/-! ## A database and the blocks of an attempt -/

/-- The second database is the first one, with rows and queue entries of these blocks after
its own. -/
structure Apart (db : Database) (mine : List Int) (d : Database) : Prop where
  tables : d = { db with telegram_blocks := d.telegram_blocks, gc_queue := d.gc_queue }
  blocks : ExtendedBy (·.id) mine db.telegram_blocks d.telegram_blocks
  queue : ExtendedBy (·.block_id) mine db.gc_queue d.gc_queue

/-- These blocks are not in the database. -/
structure Fresh (db : Database) (mine : List Int) : Prop where
  blocks : ∀ b ∈ db.telegram_blocks, b.id ∉ mine
  queue : ∀ q ∈ db.gc_queue, q.block_id ∉ mine

/-- Ids without a row are fresh: what refers to a block, or waits in the queue, has one by its
foreign keys. -/
theorem fresh_of_blocks {db : Database} {mine : List Int} (hwf : WellFormed db)
    (h : ∀ b ∈ db.telegram_blocks, b.id ∉ mine) : Fresh db mine where
  blocks := h
  queue := fun q hq hid => by
    obtain ⟨b, hb, heq⟩ := List.mem_map.mp (hwf.queue_block q hq)
    exact h b hb (heq ▸ hid)

section Apart

variable {db d : Database} {mine : List Int} {id : Int}

/-- The tables of the references are the same. -/
theorem Apart.refs (h : Apart db mine d) (b : Int) : d.refs b = db.refs b := by
  rw [h.tables]
  rfl

/-- Queuing one of the blocks stays with them. -/
theorem Apart.enqueue (h : Apart db mine d) (hid : id ∈ mine) (now : Int) :
    Apart db mine (d.enqueue id now) where
  tables := congrArg (fun t : Database => { t with gc_queue := (d.enqueue id now).gc_queue }) h.tables
  blocks := h.blocks
  queue := h.queue.insertOrIgnore hid

variable (hfresh : Fresh db mine)
include hfresh

/-- So does an update of their rows, if it keeps the ids. -/
theorem Apart.update_blocks (h : Apart db mine d) {p : TelegramBlockRow → Prop} [DecidablePred p]
    {f : TelegramBlockRow → TelegramBlockRow} (hp : ∀ b, p b → b.id ∈ mine)
    (hf : ∀ b, (f b).id = b.id) :
    Apart db mine { d with telegram_blocks := updateWhere p f d.telegram_blocks } where
  tables := congrArg (fun t : Database =>
    { t with telegram_blocks := updateWhere p f d.telegram_blocks }) h.tables
  blocks := h.blocks.updateWhere hfresh.blocks hp hf
  queue := h.queue

/-- And the removal of one, with its place in the queue. -/
theorem Apart.delete_block (h : Apart db mine d) (hid : id ∈ mine) :
    Apart db mine (d.delete_block id) where
  tables := congrArg (fun t : Database =>
    { t with telegram_blocks := (d.delete_block id).telegram_blocks
             gc_queue := (d.delete_block id).gc_queue }) h.tables
  blocks := h.blocks.deleteWhere hfresh.blocks (fun _ hb => hb ▸ hid)
  queue := h.queue.deleteWhere hfresh.queue (fun _ hq => hq ▸ hid)

/-- The claim of one of the blocks is made of these moves. -/
theorem Apart.queue_stale_block (h : Apart db mine d) (hid : id ∈ mine) (now : Int) :
    Apart db mine (queue_stale_block d now id).1 := by
  have habandon : Apart db mine (abandon_block d id) :=
    h.update_blocks hfresh (fun b hb => hb.1 ▸ hid) (fun _ => rfl)
  change Apart db mine (enqueue_abandoned (abandon_block d id) now id)
  unfold enqueue_abandoned
  split
  · split_ifs
    · exact habandon.enqueue hid now
    · exact habandon
  · exact habandon

/-- And so is its removal. -/
theorem Apart.gc_success (h : Apart db mine d) (hid : id ∈ mine) :
    Apart db mine (gc_success d id) := by
  unfold Tg2s3.gc_success
  split
  · split_ifs
    · exact h.delete_block hfresh hid
    · exact h
  · exact h

/-- And the release of a list of them. -/
theorem Apart.decrement_blocks {blocks : List BlockRef} (h : Apart db mine d)
    (hids : ∀ block ∈ blocks, block.id ∈ mine) (now : Int) :
    Apart db mine (decrement_blocks d now blocks) := by
  unfold Tg2s3.decrement_blocks
  induction blocks generalizing d with
  | nil => exact h
  | cons block rest ih =>
      have hid := hids block List.mem_cons_self
      have hupdate : Apart db mine (d.update_block block.id decrement) :=
        h.update_blocks hfresh (fun b hb => hb ▸ hid) (fun _ => rfl)
      rw [List.foldl_cons]
      refine ih ?_ (fun block' hblock' => hids block' (List.mem_cons_of_mem _ hblock'))
      unfold decrement_block
      dsimp only
      split
      · split_ifs
        · exact hupdate.enqueue hid now
        · exact hupdate
      · exact hupdate

end Apart

/-! ## Cleaning up one block, and all of them -/

section Cleanup

variable {env : Env} {db d : Database} {mine : List Int}

/-- The account of a block that was cleaned up: without a claim it is as it was; a claimed block
whose message or row does not go stays claimed. -/
def cleaned (env : Env) (block : BlockRef) (a : Option Account) : Option Account :=
  if env.claim_fails block then a
  else if env.delete_message block = .failed ∨ env.removal_fails block then a.map claim
  else none

/-- Where the claim does not fail, its block is gone afterwards, or claimed. -/
theorem Env.CleansUp.cleaned_eq (hworks : env.CleansUp) (block : BlockRef) (a : Option Account) :
    cleaned env block a
      = if env.delete_message block = .failed ∨ env.removal_fails block then a.map claim else none :=
  if_neg (by rw [hworks.1 block]; exact Bool.false_ne_true)

/-- The block is claimed, and then it goes with its message; where one of them does not go, the
claim stays. Every other account is left alone. -/
theorem account_cleanup_untracked_block {block : BlockRef} (hwf : WellFormed d)
    (hpos : 0 < block.id) (h : Abandoned d block.id) (b : Int) :
    (cleanup_untracked_block env d block).account b
      = if b = block.id then cleaned env block (d.account b) else d.account b := by
  have hanswer := queue_stale_block_abandoned h env.now
  have hclaimed := account_queue_stale_block d env.now block.id b
  have hrefs := (books_queue_stale_block d env.now block.id).refs b
  have hwf' := wellFormed_queue_stale_block hwf env.now block.id
  obtain ⟨d', answer, hqueue⟩ : ∃ d' answer, queue_stale_block d env.now block.id = (d', answer) :=
    ⟨_, _, rfl⟩
  rw [hqueue] at hanswer hclaimed hrefs hwf'
  obtain rfl : answer = true := hanswer
  dsimp only at hclaimed hrefs hwf'
  unfold cleanup_untracked_block
  rw [if_pos hpos, hqueue]
  dsimp only
  unfold cleaned
  by_cases hfails : env.claim_fails block = true
  · rw [if_pos hfails, if_pos hfails, ite_self]
  rw [if_neg hfails, if_neg hfails]
  by_cases hb : b = block.id
  · obtain ⟨hzero, a, ha, hstaged⟩ := h
    rw [← hb] at hzero ha
    rw [if_pos ⟨hb, hzero⟩, ha] at hclaimed
    rw [if_pos hb, ha]
    have hclaim : d'.account b = some (claim a) := by
      rw [hclaimed, Option.map_some, if_pos hstaged]
    -- the claimed block has no count and no reference: `gc_success` takes it
    have hgone : (gc_success d' block.id).account b = none := by
      rw [account_gc_success hwf', if_pos ⟨hb, hrefs.trans hzero⟩, hclaim]
      rfl
    cases hdelete : env.delete_message block with
    | deleted | missing =>
        cases hremoval : env.removal_fails block with
        | true => exact hclaim
        | false => exact hgone
    | failed => exact hclaim
  · rw [if_neg (fun hc => hb hc.1)] at hclaimed
    have hother : (gc_success d' block.id).account b = d'.account b := by
      rw [account_gc_success hwf', if_neg (fun hc => hb hc.1)]
    rw [if_neg hb]
    cases hdelete : env.delete_message block with
    | deleted | missing =>
        cases hremoval : env.removal_fails block with
        | true => exact hclaimed
        | false => exact hother.trans hclaimed
    | failed => exact hclaimed

/-- What the cleanup of a block can come to: nothing, the claim, or the claim and the removal. -/
theorem cleanup_untracked_block_cases {P : Database → Prop} {block : BlockRef} (hpos : 0 < block.id)
    (hsame : P d) (hclaim : P (queue_stale_block d env.now block.id).1)
    (hremoval : P (gc_success (queue_stale_block d env.now block.id).1 block.id)) :
    P (cleanup_untracked_block env d block) := by
  obtain ⟨d', answer, hqueue⟩ : ∃ d' answer, queue_stale_block d env.now block.id = (d', answer) :=
    ⟨_, _, rfl⟩
  rw [hqueue] at hclaim hremoval
  unfold cleanup_untracked_block
  rw [if_pos hpos, hqueue]
  by_cases hfails : env.claim_fails block = true
  · rw [if_pos hfails]
    exact hsame
  · rw [if_neg hfails]
    cases answer with
    | false => exact hclaim
    | true =>
        cases hdelete : env.delete_message block with
        | deleted | missing =>
            cases hkept : env.removal_fails block with
            | true => exact hclaim
            | false => exact hremoval
        | failed => exact hclaim

/-- Whatever the cleanup of a block comes to, the keys stay. -/
theorem wellFormed_cleanup_untracked_block {block : BlockRef} (hwf : WellFormed d)
    (hpos : 0 < block.id) : WellFormed (cleanup_untracked_block env d block) := by
  have hwf' := wellFormed_queue_stale_block hwf env.now block.id
  exact cleanup_untracked_block_cases hpos hwf hwf' (wellFormed_gc_success hwf' _)

/-- And it stays with its own block. -/
theorem Apart.cleanup_untracked_block {block : BlockRef} (hfresh : Fresh db mine)
    (h : Apart db mine d) (hpos : 0 < block.id) (hid : block.id ∈ mine) :
    Apart db mine (cleanup_untracked_block env d block) := by
  have hqueued := h.queue_stale_block hfresh hid env.now
  exact cleanup_untracked_block_cases hpos h hqueued (hqueued.gc_success hfresh hid)

/-- What the guard's loop does: it stays with its own blocks, and cleans up each of them. -/
structure CleanedUp (env : Env) (db : Database) (mine : List Int) (blocks : List BlockRef)
    (d d' : Database) : Prop where
  apart : Apart db mine d'
  wellFormed : WellFormed d'
  cleaned : ∀ block ∈ blocks, d'.account block.id = cleaned env block (d.account block.id)
  others : ∀ id, id ∉ blocks.map (·.id) → d'.account id = d.account id

/-- **The loop of the guard**, by induction on its list. The blocks are distinct, so that the
cleanup of one leaves the accounts of the others as they were, and each of them is still
abandoned when its turn comes. -/
theorem cleanup_block_refs_ok {blocks : List BlockRef} (hfresh : Fresh db mine)
    (h : Apart db mine d) (hwf : WellFormed d) (hnodup : (blocks.map (·.id)).Nodup)
    (hblocks : ∀ block ∈ blocks, 0 < block.id ∧ block.id ∈ mine ∧ Abandoned d block.id) :
    CleanedUp env db mine blocks d (cleanup_block_refs env d blocks) := by
  unfold cleanup_block_refs
  induction blocks generalizing d with
  | nil => exact ⟨h, hwf, fun _ hb => (by cases hb), fun _ _ => rfl⟩
  | cons block rest ih =>
      obtain ⟨hpos, hid, habandoned⟩ := hblocks block List.mem_cons_self
      obtain ⟨hnew, hnodup⟩ := List.nodup_cons.mp hnodup
      have haccount := @account_cleanup_untracked_block env d block hwf hpos habandoned
      have hafter : Apart db mine (cleanup_untracked_block env d block) :=
        h.cleanup_untracked_block hfresh hpos hid
      -- the blocks to come are as they were
      have hrest : ∀ block' ∈ rest, (cleanup_untracked_block env d block).account block'.id
          = d.account block'.id := by
        intro block' hblock'
        rw [haccount, if_neg]
        intro heq
        exact hnew (List.mem_map.mpr ⟨block', hblock', heq⟩)
      have hdone := ih hafter (wellFormed_cleanup_untracked_block hwf hpos) hnodup
        (fun block' hblock' => by
          obtain ⟨hpos', hid', hrefs', ha'⟩ := hblocks block' (List.mem_cons_of_mem _ hblock')
          refine ⟨hpos', hid', ?_, ?_⟩
          · rw [hafter.refs, ← h.refs]
            exact hrefs'
          · rw [hrest block' hblock']
            exact ha')
      rw [List.foldl_cons]
      refine ⟨hdone.apart, hdone.wellFormed, fun block' hblock' => ?_, fun id hother => ?_⟩
      · rcases List.mem_cons.mp hblock' with rfl | hblock'
        · rw [hdone.others _ hnew, haccount, if_pos rfl]
        · rw [hdone.cleaned block' hblock', hrest block' hblock']
      · rw [List.map_cons, List.mem_cons, not_or] at hother
        rw [hdone.others id hother.2, haccount, if_neg hother.1]

end Cleanup

/-! ## The upload row of the attempt -/

/-- The database with the upload, and what is stored of its parts. -/
def attempt (db : Database) (upload : UploadRecord) (parts : List PartRow)
    (rows : List PartBlockRow) : Database :=
  { db with
    multipart_uploads := db.multipart_uploads ++ [upload]
    multipart_parts := db.multipart_parts ++ parts
    multipart_part_blocks := db.multipart_part_blocks ++ rows }

section Attempt

variable {db d : Database} {mine : List Int} {upload : UploadRecord} {parts : List PartRow}
  {rows : List PartBlockRow}

/-- Before anything is sent, the attempt is its row. -/
theorem attempt_nil (db : Database) (upload : UploadRecord) :
    attempt db upload [] [] = { db with multipart_uploads := db.multipart_uploads ++ [upload] } := by
  unfold attempt
  rw [List.append_nil, List.append_nil]

/-- No part of an upload that is not there is stored. -/
theorem no_parts (hwf : WellFormed db) {upload_id : String}
    (hnew : upload_id ∉ db.multipart_uploads.map (·.upload_id)) :
    (∀ r ∈ db.multipart_parts, r.upload_id ≠ upload_id)
      ∧ ∀ r ∈ db.multipart_part_blocks, r.upload_id ≠ upload_id := by
  have hparts : ∀ r ∈ db.multipart_parts, r.upload_id ≠ upload_id :=
    fun r hr heq => hnew (heq ▸ hwf.part_upload r hr)
  refine ⟨hparts, fun r hr heq => ?_⟩
  obtain ⟨part, hpart, hkey⟩ := List.mem_map.mp (hwf.part_block_part r hr)
  exact hparts part hpart ((congrArg Prod.fst hkey).trans heq)

/-- The cascade takes the upload away with all its parts, and nothing else. -/
theorem delete_upload_attempt (hwf : WellFormed db)
    (hnew : upload.upload_id ∉ db.multipart_uploads.map (·.upload_id))
    (hparts : ∀ r ∈ parts, r.upload_id = upload.upload_id)
    (hrows : ∀ r ∈ rows, r.upload_id = upload.upload_id) :
    (attempt db upload parts rows).delete_upload upload.upload_id = db := by
  obtain ⟨hno_parts, hno_rows⟩ := no_parts hwf hnew
  have huploads : ∀ r ∈ db.multipart_uploads, r.upload_id ≠ upload.upload_id :=
    fun r hr heq => hnew (List.mem_map.mpr ⟨r, hr, heq⟩)
  have hsplit : ∀ {α : Type} (p : α → Prop) [DecidablePred p] (old new : List α),
      (∀ r ∈ old, ¬ p r) → (∀ r ∈ new, p r) → deleteWhere p (old ++ new) = old := by
    intro α p _ old new hold hnew
    have happend : deleteWhere p (old ++ new) = deleteWhere p old ++ deleteWhere p new :=
      List.filter_append _ _
    have hnil : deleteWhere p new = [] := by
      refine List.eq_nil_iff_forall_not_mem.mpr (fun r hr => ?_)
      obtain ⟨hmem, hnot⟩ := mem_deleteWhere.mp hr
      exact hnot (hnew r hmem)
    rw [happend, deleteWhere_eq_self hold, hnil, List.append_nil]
  unfold attempt Database.delete_upload
  dsimp only
  rw [hsplit _ _ _ huploads (fun r hr => List.mem_singleton.mp hr ▸ rfl),
    hsplit _ _ _ hno_parts hparts, hsplit _ _ _ hno_rows hrows]

/-- The end of the upload keeps the two tables apart by the same blocks. -/
theorem Apart.delete_upload {base : Database} (h : Apart base mine d) (upload_id : String) :
    Apart (base.delete_upload upload_id) mine (d.delete_upload upload_id) where
  tables := congrArg (Database.delete_upload · upload_id) h.tables
  blocks := h.blocks
  queue := h.queue

/-- **The abort**: the database before the attempt is back, up to what is left of the
attempt's blocks, and each of them has lost the references that the parts held. -/
theorem abort_attempt (hwf : WellFormed db) (hfresh : Fresh db mine)
    (hnew : upload.upload_id ∉ db.multipart_uploads.map (·.upload_id))
    (hparts : ∀ r ∈ parts, r.upload_id = upload.upload_id)
    (hrows : ∀ r ∈ rows, r.upload_id = upload.upload_id ∧ r.block_id ∈ mine)
    (h : Apart (attempt db upload parts rows) mine d) (hd : WellFormed d) (now : Int) :
    Apart db mine (abort_upload_with_blocks d now upload.upload_id).1
      ∧ WellFormed (abort_upload_with_blocks d now upload.upload_id).1
      ∧ ∀ id ∈ mine, (abort_upload_with_blocks d now upload.upload_id).1.account id
          = (d.account id).map (release (d.refs id)) := by
  have hrow : d.upload? upload.upload_id = some upload := by
    rw [h.tables]
    exact (lookup_append_singleton hnew).trans (if_pos rfl)
  have habort : (abort_upload_with_blocks d now upload.upload_id).1
      = decrement_blocks (d.delete_upload upload.upload_id) now
          (held_by_upload d upload.upload_id) := by
    unfold abort_upload_with_blocks abort_upload_with_blocks_tx
    rw [hrow]
    rfl
  have hdeleted : Apart db mine (d.delete_upload upload.upload_id) := by
    have hbase := h.delete_upload upload.upload_id
    rwa [delete_upload_attempt hwf hnew hparts (fun r hr => (hrows r hr).1)] at hbase
  -- the rows of the upload are those of the attempt
  have hheld : ∀ block ∈ held_by_upload d upload.upload_id, block.id ∈ mine := by
    intro block hblock
    have hids := ids_of_rows (hd.held_by_upload upload.upload_id)
    have hmem := List.mem_map_of_mem (f := (·.id)) hblock
    rw [hids] at hmem
    obtain ⟨r, hr, heq⟩ := List.mem_map.mp hmem
    obtain ⟨hr, hid⟩ := List.mem_filter.mp ((List.mem_insertionSort _).mp hr)
    have hid := of_decide_eq_true hid
    rw [h.tables] at hr
    rcases List.mem_append.mp hr with hold | hmine
    · exact absurd hid ((no_parts hwf hnew).2 r hold)
    · exact heq ▸ (hrows r hmine).2
  rw [habort]
  refine ⟨hdeleted.decrement_blocks hfresh hheld now,
    wellFormed_decrement_blocks (hd.delete_upload upload.upload_id) now _, fun id hid => ?_⟩
  have hrefs := hd.refs_delete_upload upload.upload_id id
  have hzero : (d.delete_upload upload.upload_id).refs id = 0 := by
    rw [hdeleted.refs]
    refine hwf.refs_missing (fun hmem => ?_)
    obtain ⟨b, hb, rfl⟩ := List.mem_map.mp hmem
    exact hfresh.blocks b hb hid
  rw [account_decrement_blocks, show times id (held_by_upload d upload.upload_id) = d.refs id
    by omega]
  rfl

end Attempt

/-! ## What is left of an attempt -/

/-- A request to `put_object`; `upload_id` is the fresh UUID. -/
structure Request where
  upload_id : String
  bucket : String
  key : String
  body : Body
  metadata : ObjectMetadata := {}
  expected_length : Option Int
  condition : ObjectCondition := {}

namespace Request

variable (env : Env) (db : Database) (r : Request)

def put : Database × Except UploadError ObjectRecord :=
  put_object env db r.upload_id r.bucket r.key r.body r.metadata r.expected_length r.condition

def upload : UploadRecord where
  upload_id := r.upload_id
  bucket := r.bucket
  key := r.key
  metadata := r.metadata
  kind := .put
  created_at := env.now

/-- `put_object` has come past `create_upload`. -/
def Created : Prop :=
  bucket_exists db r.bucket = true
    ∧ check_size r.expected_length env.config.max_object_size = .ok ()
    ∧ (create_upload db (r.upload env)).2 = .ok ()

/-- The blocks that the tasks of the attempt have staged. -/
def staged : List BlockRef :=
  (upload_body env (create_upload db (r.upload env)).1 r.body r.expected_length).1.registered

end Request

/-- The block is gone, and so is its message. -/
def Deleted (env : Env) (db : Database) (block : BlockRef) : Prop :=
  db.block? block.id = none ∧ env.delete_message block ≠ .failed

/-- The block is there for the collector only. -/
def LeftToGc (db : Database) (block : BlockRef) : Prop :=
  (∃ row, db.block? block.id = some row ∧ row.ref_count = 0)
    ∧ db.refs block.id = 0 ∧ db.queued block.id

/-- `db'` is `db`, up to what is left of the blocks that this request has staged. -/
structure NoTrace (env : Env) (db : Database) (r : Request) (db' : Database) : Prop where
  object : get_object db' r.bucket r.key = get_object db r.bucket r.key
  tables : db' = { db with telegram_blocks := db'.telegram_blocks, gc_queue := db'.gc_queue }
  blocks : db.telegram_blocks <+: db'.telegram_blocks
  queue : db.gc_queue <+: db'.gc_queue
  upload : db'.upload? r.upload_id = none
  parts : ∀ part ∈ db'.multipart_parts, part.upload_id ≠ r.upload_id
  part_blocks : ∀ row ∈ db'.multipart_part_blocks, row.upload_id ≠ r.upload_id
  staged : ∀ block ∈ r.staged env db, Deleted env db' block ∨ LeftToGc db' block
  rest : ∀ row ∈ db'.telegram_blocks,
    row ∈ db.telegram_blocks ∨ row.id ∈ (r.staged env db).map (·.id)

section Object

variable {db d : Database} {mine : List Int}

/-- The objects are read as before: none of them has a block of the attempt. -/
theorem Apart.get_object (h : Apart db mine d) (hwf : WellFormed db) (hfresh : Fresh db mine)
    (bucket key : String) : get_object d bucket key = get_object db bucket key := by
  have hobject : get_object_row d bucket key = get_object_row db bucket key := by
    rw [h.tables]
    rfl
  have hblocks : ∀ object_id, load_object_blocks d object_id = load_object_blocks db object_id := by
    intro object_id
    have hrows : d.object_block_rows object_id = db.object_block_rows object_id := by
      rw [h.tables]
      rfl
    unfold load_object_blocks
    rw [hrows]
    refine List.filterMap_congr (fun r hr => ?_)
    have hmem := (List.mem_filter.mp ((List.mem_insertionSort _).mp hr)).1
    obtain ⟨b, hb, hid⟩ := List.mem_map.mp (hwf.object_block_block r hmem)
    have hblock : d.block? r.block_id = db.block? r.block_id :=
      h.blocks.lookup (fun hmine => hfresh.blocks b hb (hid ▸ hmine))
    unfold Database.join_object_block Database.join_block
    rw [hblock]
  unfold Tg2s3.get_object
  rw [hobject]
  congr 1
  funext row
  rw [hblocks]

end Object

/-! ## The staged blocks -/

/-- A block that was just staged. -/
def staged_account : Account := { count := 1, staged := true, queued := false }

section Staging

variable {env : Env} {db : Database} {tasks : Tasks}

/-- **What an upload does is apart** from the rest: its blocks stand after the old ones, and
nothing else has moved. -/
theorem Booked.apart (h : Booked env db tasks) :
    Apart db (tasks.registered.map (·.id)) tasks.db where
  tables := by rw [h.rows]
  blocks := by
    refine ⟨tasks.registered.map fun block => staged_row env.now block block.id, ?_, ?_⟩
    · rw [h.rows]
    · intro row hrow
      obtain ⟨block, hblock, rfl⟩ := List.mem_map.mp hrow
      exact List.mem_map_of_mem hblock
  queue := by
    rw [h.rows]
    exact .refl _ _ _

/-- Its blocks are fresh, since their ids were given by the table. -/
theorem Booked.fresh (h : Booked env db tasks) (hwf : WellFormed db) :
    Fresh db (tasks.registered.map (·.id)) := by
  refine fresh_of_blocks hwf (fun b hb hmine => ?_)
  exact (List.nodup_append.mp h.ids).2.2 b.id (List.mem_map_of_mem hb) b.id hmine rfl

/-- A block that the guard knows is staged, with the one count of its upload. -/
theorem Booked.account (h : Booked env db tasks) (hwf : WellFormed db) {block : BlockRef}
    (hblock : block ∈ tasks.registered) : tasks.db.account block.id = some staged_account := by
  have hrow : staged_row env.now block block.id ∈ tasks.db.telegram_blocks := by
    rw [h.rows]
    exact List.mem_append_right _ (List.mem_map_of_mem hblock)
  have hlookup : tasks.db.block? block.id = some (staged_row env.now block block.id) :=
    lookup_eq_some h.wellFormed.block_ids hrow rfl
  have hqueued : ¬ tasks.db.queued block.id := by
    intro hq
    obtain ⟨q, hq, hid⟩ := List.mem_map.mp hq
    rw [h.rows] at hq
    exact (h.fresh hwf).queue q hq (hid ▸ List.mem_map_of_mem hblock)
  rw [account_eq_some]
  refine ⟨_, hlookup, ?_⟩
  rw [decide_eq_false hqueued]
  rfl

/-- And nothing refers to it: an object or a part would be older than its row. -/
theorem Booked.refs (h : Booked env db tasks) (hwf : WellFormed db) {block : BlockRef}
    (hblock : block ∈ tasks.registered) : tasks.db.refs block.id = 0 := by
  rw [h.apart.refs]
  refine hwf.refs_missing (fun hmem => ?_)
  obtain ⟨b, hb, hid⟩ := List.mem_map.mp hmem
  exact (h.fresh hwf).blocks b hb (hid ▸ List.mem_map_of_mem hblock)

/-- The guard can clean up what is staged. -/
theorem Booked.abandoned (h : Booked env db tasks) (hwf : WellFormed db) {block : BlockRef}
    (hblock : block ∈ tasks.registered) :
    0 < block.id ∧ block.id ∈ tasks.registered.map (·.id) ∧ Abandoned tasks.db block.id := by
  have hrow : staged_row env.now block block.id ∈ tasks.db.telegram_blocks := by
    rw [h.rows]
    exact List.mem_append_right _ (List.mem_map_of_mem hblock)
  exact ⟨h.wellFormed.block_ids_pos _ hrow, List.mem_map_of_mem hblock, h.refs hwf hblock,
    staged_account, h.account hwf hblock, rfl⟩

end Staging

/-! ## The points of failure -/

/-- What is there when `put_object` comes to the abort: the guard has cleaned up the blocks, or
the upload still holds them. -/
structure Unfinished (env : Env) (db : Database) (upload : UploadRecord) (blocks : List BlockRef)
    (parts : List PartRow) (rows : List PartBlockRow) (d : Database) : Prop where
  apart : Apart (attempt db upload parts rows) (blocks.map (·.id)) d
  wellFormed : WellFormed d
  parts : ∀ r ∈ parts, r.upload_id = upload.upload_id
  rows : ∀ r ∈ rows, r.upload_id = upload.upload_id ∧ r.block_id ∈ blocks.map (·.id)
  blocks : ∀ block ∈ blocks,
    d.refs block.id = 0 ∧ d.account block.id = cleaned env block (some staged_account)
      ∨ 0 < d.refs block.id ∧ d.account block.id = some staged_account

section Unfinished

variable {env : Env} {db d : Database} {upload : UploadRecord} {blocks : List BlockRef}
  {parts : List PartRow} {rows : List PartBlockRow}

/-- After the abort every block is gone with its message, or has no count and is queued. -/
theorem Unfinished.abort (hworks : env.CleansUp)
    (h : Unfinished env db upload blocks parts rows d) (hwf : WellFormed db)
    (hfresh : Fresh db (blocks.map (·.id)))
    (hnew : upload.upload_id ∉ db.multipart_uploads.map (·.upload_id)) (now : Int) :
    Apart db (blocks.map (·.id)) (abort_upload_with_blocks d now upload.upload_id).1
      ∧ ∀ block ∈ blocks,
          Deleted env (abort_upload_with_blocks d now upload.upload_id).1 block
            ∨ LeftToGc (abort_upload_with_blocks d now upload.upload_id).1 block := by
  obtain ⟨hapart, hwf', haccount⟩ :=
    abort_attempt hwf hfresh hnew h.parts h.rows h.apart h.wellFormed now
  generalize (abort_upload_with_blocks d now upload.upload_id).1 = d' at hapart hwf' haccount ⊢
  refine ⟨hapart, fun block hblock => ?_⟩
  have hid := List.mem_map_of_mem (f := (·.id)) hblock
  have hrefs : d'.refs block.id = 0 := by
    rw [hapart.refs]
    refine hwf.refs_missing (fun hmem => ?_)
    obtain ⟨b, hb, heq⟩ := List.mem_map.mp hmem
    exact hfresh.blocks b hb (heq ▸ hid)
  have hleft : ∀ a, d'.account block.id = some a → a.count = 0 → a.queued = true →
      LeftToGc d' block := by
    intro a ha hcount hqueued
    have hq := (queued_iff_account ha).mpr hqueued
    obtain ⟨row, hrow, rfl⟩ := (account_eq_some d').mp ha
    exact ⟨⟨row, hrow, hcount⟩, hrefs, hq⟩
  have hafter := haccount block.id hid
  rcases h.blocks block hblock with ⟨hzero, hcleaned⟩ | ⟨hpos, hstaged⟩
  · rw [hzero, hcleaned] at hafter
    rw [hworks.cleaned_eq] at hafter
    split_ifs at hafter with hfailed
    · exact .inr (hleft _ hafter rfl rfl)
    · refine .inl ⟨?_, fun hno => hfailed (Or.inl hno)⟩
      exact Option.map_eq_none_iff.mp hafter
  · rw [hstaged] at hafter
    refine .inr (hleft _ hafter ?_ ?_)
    · change 1 - d.refs block.id = 0
      omega
    · change (false || decide (0 < d.refs block.id ∧ 1 - d.refs block.id = 0)) = true
      rw [decide_eq_true (by omega), Bool.false_or]

/-- The guard has cleaned up what was staged. -/
theorem unfinished_of_cleanup {tasks : Tasks} {blocks : List BlockRef}
    (hattempt : WellFormed (attempt db upload [] []))
    (hbooked : Booked env (attempt db upload [] []) tasks) (hperm : blocks.Perm tasks.registered) :
    Unfinished env db upload tasks.registered [] [] (cleanup_block_refs env tasks.db blocks) := by
  have hnodup : (blocks.map (·.id)).Nodup :=
    (hperm.map _).nodup_iff.mpr (List.nodup_append.mp hbooked.ids).2.1
  have hdone : CleanedUp env _ _ blocks tasks.db (cleanup_block_refs env tasks.db blocks) :=
    cleanup_block_refs_ok (hbooked.fresh hattempt) hbooked.apart hbooked.wellFormed hnodup
    (fun block hblock => hbooked.abandoned hattempt (hperm.mem_iff.mp hblock))
  refine ⟨hdone.apart, hdone.wellFormed, fun _ h => (by cases h), fun _ h => (by cases h),
    fun block hblock => .inl ⟨?_, ?_⟩⟩
  · rw [hdone.apart.refs, ← hbooked.apart.refs]
    exact hbooked.refs hattempt hblock
  · rw [hdone.cleaned block (hperm.mem_iff.mpr hblock), hbooked.account hattempt hblock]

/-- A part of a new upload is stored, and nothing else happens. -/
theorem replace_part_new {d' : Database} {now : Int} {upload_id : String}
    {part_number size : Int} {etag : String} {blocks released : List BlockRef}
    (h : replace_part_tx d now upload_id part_number size etag blocks = .ok (d', released))
    (hparts : ∀ r ∈ d.multipart_parts, r.upload_id ≠ upload_id)
    (hrows : ∀ r ∈ d.multipart_part_blocks, r.upload_id ≠ upload_id) :
    d' = { d with
      multipart_parts := d.multipart_parts ++
        [{ upload_id := upload_id, part_number := part_number, size := size, etag := etag }]
      multipart_part_blocks :=
        d.multipart_part_blocks ++ part_rows upload_id part_number 0 blocks } := by
  have hno : ∀ r ∈ d.multipart_part_blocks, r.part ≠ (upload_id, part_number) :=
    fun r hr heq => hrows r hr (congrArg Prod.fst heq)
  have hold : d.part_block_rows upload_id part_number = [] := by
    have hfilter : d.multipart_part_blocks.filter (·.part = (upload_id, part_number)) = [] :=
      List.filter_eq_nil_iff.mpr (fun r hr => by simpa using hno r hr)
    unfold Database.part_block_rows
    rw [hfilter]
    rfl
  have hdelete : d.delete_part upload_id part_number = d := by
    unfold Database.delete_part
    rw [deleteWhere_eq_self hno,
      deleteWhere_eq_self (fun r hr heq => hparts r hr (congrArg Prod.fst heq))]
  unfold replace_part_tx at h
  rw [hold, hdelete] at h
  obtain ⟨_, -, h⟩ := bind_ok.mp h
  obtain ⟨_, -, h⟩ := bind_ok.mp h
  obtain ⟨_, -, h⟩ := bind_ok.mp h
  obtain ⟨d₁, hpart, h⟩ := bind_ok.mp h
  obtain ⟨d₂, hblocks, h⟩ := bind_ok.mp h
  obtain ⟨rfl, -⟩ := Prod.mk.inj (Except.ok.inj h)
  obtain ⟨hd₂, -, -⟩ := insert_part_blocks_ok hblocks
  obtain ⟨rfl, -, -⟩ := insert_part_ok hpart
  rw [hd₂]
  rfl

/-- A row of a part names the upload and one of its blocks. -/
theorem part_of_mem_part_rows {upload_id : String} {part_number ordinal : Int}
    {blocks : List BlockRef} {r : PartBlockRow}
    (hr : r ∈ part_rows upload_id part_number ordinal blocks) :
    r.upload_id = upload_id ∧ r.block_id ∈ blocks.map (·.id) := by
  have hmem := List.mem_map_of_mem (f := fun r : PartBlockRow => (r.part, r.block_id)) hr
  rw [map_block_id_part_rows] at hmem
  obtain ⟨block, hblock, heq⟩ := List.mem_map.mp hmem
  obtain ⟨hpart, hid⟩ := Prod.mk.inj heq
  exact ⟨(congrArg Prod.fst hpart).symm, List.mem_map.mpr ⟨block, hblock, hid⟩⟩

/-- The staged blocks are attached to the upload. -/
theorem unfinished_of_replaced {tasks : Tasks} {blocks released : List BlockRef} {now size : Int}
    {etag : String} (hwf : WellFormed db)
    (hnew : upload.upload_id ∉ db.multipart_uploads.map (·.upload_id))
    (hattempt : WellFormed (attempt db upload [] []))
    (hbooked : Booked env (attempt db upload [] []) tasks) (hperm : blocks.Perm tasks.registered)
    (h : replace_part_tx tasks.db now upload.upload_id 0 size etag blocks = .ok (d, released)) :
    ∃ parts rows, Unfinished env db upload tasks.registered parts rows d := by
  obtain ⟨hno_parts, hno_rows⟩ := no_parts hwf hnew
  have hapart := hbooked.apart
  have htables := hapart.tables
  rw [attempt_nil] at htables
  have hparts : ∀ r ∈ tasks.db.multipart_parts, r.upload_id ≠ upload.upload_id := by
    rw [htables]
    exact hno_parts
  have hrows : ∀ r ∈ tasks.db.multipart_part_blocks, r.upload_id ≠ upload.upload_id := by
    rw [htables]
    exact hno_rows
  -- the id is new, so that there was no part to replace
  have hdone := replace_part_tx_ok h
  have hd := replace_part_new h hparts hrows
  refine ⟨[{ upload_id := upload.upload_id, part_number := 0, size := size, etag := etag }],
    part_rows upload.upload_id 0 0 blocks, ⟨?_, ?_, ?_⟩, hdone.wellFormed hbooked.wellFormed,
    fun r hr => List.mem_singleton.mp hr ▸ rfl, fun r hr => ?_, fun block hblock => .inr ⟨?_, ?_⟩⟩
  · rw [hd, htables]
    rfl
  · rw [hd]
    exact hapart.blocks
  · rw [hd]
    exact hapart.queue
  · obtain ⟨hupload, hid⟩ := part_of_mem_part_rows hr
    exact ⟨hupload, (hperm.map _).mem_iff.mp hid⟩
  · -- one of the new rows refers to the block
    have hmem : ((upload.upload_id, (0 : Int)), block.id)
        ∈ (part_rows upload.upload_id 0 0 blocks).map fun r => (r.part, r.block_id) := by
      rw [map_block_id_part_rows]
      exact List.mem_map.mpr ⟨block, hperm.mem_iff.mpr hblock, rfl⟩
    obtain ⟨r, hr, heq⟩ := List.mem_map.mp hmem
    have hpos : 0 < references (·.block_id) block.id (part_rows upload.upload_id 0 0 blocks) :=
      references_pos.mpr ⟨r, hr, congrArg Prod.snd heq⟩
    unfold Database.refs
    rw [hd]
    dsimp only
    rw [references_append]
    omega
  · have haccount := hbooked.account hattempt hblock
    rw [hd]
    exact haccount

end Unfinished

section Put

variable {env : Env} {db d : Database} {upload : UploadRecord} {body : Body}
  {expected_length : Option Int}

/-- An upload whose length was announced has just that length. -/
theorem total_of_upload_body {tasks : Tasks} {uploaded : List BlockRef} {expected total : Int}
    {digest : Bytes}
    (h : upload_body env db body (some expected) = (tasks, .ok (uploaded, total, digest))) :
    total = expected := by
  unfold upload_body upload_known_length at h
  dsimp only at h
  by_cases hnegative : expected < 0
  · rw [if_pos hnegative] at h
    cases h
  · rw [if_neg hnegative] at h
    split at h
    · cases h
    · split_ifs at h with htotal
      · cases h
      · obtain ⟨-, hok⟩ := Prod.mk.inj h
        obtain ⟨-, hok⟩ := Prod.mk.inj (Except.ok.inj hok)
        obtain ⟨rfl, -⟩ := Prod.mk.inj hok
        exact not_not.mp htotal

/-- Where the row is there, reading back fails only if one of the queries does. -/
theorem reread_error {r : Answers.Reread} {bucket key : String} {missing e : DbError}
    {row : ObjectRow} (hrow : get_object_row (r.row_state d) bucket key = some row)
    (h : Answers.reread d r bucket key missing = .error e) :
    e = .query_failed ∧ ¬ (r.row_fails = false ∧ r.blocks_fails = false) := by
  unfold Answers.reread at h
  rw [hrow] at h
  cases hrow_query : r.row_fails with
  | true =>
      rw [hrow_query] at h
      exact ⟨(Except.error.inj h).symm, fun hno => (by cases hno.1)⟩
  | false =>
      cases hblocks_query : r.blocks_fails with
      | true =>
          rw [hrow_query, hblocks_query] at h
          exact ⟨(Except.error.inj h).symm, fun hno => (by cases hno.2)⟩
      | false =>
          rw [hrow_query, hblocks_query] at h
          cases h

/-- A commit that answers an error has changed nothing, unless it could not read back. -/
theorem commit_refused {d' : Database} {upload_id : String} {size : Int} {etag : String}
    {parts : List PartRecord} {condition : ObjectCondition} {e : UploadError} (hwf : WellFormed d)
    (h : (match Answers.commit_upload d
          { row_fails := env.row_query_fails, blocks_fails := env.blocks_query_fails } env.now
          upload_id size etag parts condition with
        | (db, .ok (some (object, _))) => (db, .ok object)
        | (db, .ok none) => (db, .error UploadError.upload_disappeared)
        | (db, .error e) => (db, .error (.db e))) = (d', Except.error (α := ObjectRecord) e))
    (hread : env.row_query_fails = false ∧ env.blocks_query_fails = false
      ∨ e ≠ .db .query_failed) : d' = d := by
  let w := Answers.Write.commit_upload env.now upload_id size etag parts condition
  let r : Answers.Reread :=
    { row_fails := env.row_query_fails, blocks_fails := env.blocks_query_fails }
  have hcall : Answers.commit_upload d r env.now upload_id size etag parts condition
      = w.call d r := rfl
  rw [hcall] at h
  cases hcommitted : w.committed d with
  | none =>
      -- nothing was committed: the tables are as before
      have hsame := (Answers.call_of_not_committed hcommitted r).1
      obtain ⟨d₁, result, hresult⟩ : ∃ d₁ result, w.call d r = (d₁, result) := ⟨_, _, rfl⟩
      rw [hresult] at h hsame
      split at h
      all_goals
        obtain ⟨rfl, rfl⟩ := Prod.mk.inj ‹(d₁, result) = _›
        rw [← (Prod.mk.inj h).1]
        exact hsame
  | some target =>
      obtain ⟨d₁, bucket, key⟩ := target
      obtain ⟨missing, released, hanswer⟩ := Answers.call_of_committed hcommitted r
      -- committed: the row is there, so that only a query that fails makes it an error
      obtain ⟨version, hversion, -⟩ := Answers.version_committed hwf hcommitted
      obtain ⟨row, hrow, -⟩ := Option.map_eq_some_iff.mp hversion
      rw [hanswer] at h
      cases hreread : Answers.reread d₁ r bucket key missing with
      | ok object => rw [hreread] at h; cases (Prod.mk.inj h).2
      | error e' =>
          rw [hreread] at h
          obtain rfl := Except.error.inj (Prod.mk.inj h).2
          obtain ⟨rfl, hfails⟩ := reread_error (r := r) hrow hreread
          exact (hread.elim hfails (fun hne => hne rfl)).elim

/-- **Every point of failure up to the commit**: whoever is responsible for the blocks there
has them, all of them. The read-back after the commit is the one exception. -/
theorem put_body_failed {condition : ObjectCondition} {e : UploadError} (hwf : WellFormed db)
    (hattempt : WellFormed (attempt db upload [] []))
    (hnew : upload.upload_id ∉ db.multipart_uploads.map (·.upload_id))
    (h : put_body env (attempt db upload [] []) upload.upload_id body expected_length condition
      = (d, .error e))
    (hread : env.row_query_fails = false ∧ env.blocks_query_fails = false
      ∨ e ≠ .db .query_failed) :
    ∃ parts rows, Unfinished env db upload
      (upload_body env (attempt db upload [] []) body expected_length).1.registered parts rows d := by
  have hbooked : Booked env (attempt db upload [] [])
      (upload_body env (attempt db upload [] []) body expected_length).1 :=
    upload_body_booked hattempt body expected_length
  obtain ⟨tasks, result, hsent⟩ : ∃ tasks result,
      upload_body env (attempt db upload [] []) body expected_length = (tasks, result) := ⟨_, _, rfl⟩
  rw [hsent] at hbooked ⊢
  unfold put_body Transfer.upload at h
  rw [hsent] at h
  rcases result with e' | ⟨uploaded, total, digest⟩
  · -- the upload itself: the guard has cleaned up
    obtain ⟨rfl, -⟩ := Prod.mk.inj h
    exact ⟨[], [], unfinished_of_cleanup hattempt hbooked (.refl _)⟩
  obtain ⟨_, _, -, -, -, hdelivered⟩ := upload_body_ok hsent hattempt
  have hperm := (List.perm_insertionSort (fun a b : BlockRef => a.ordinal ≤ b.ordinal)
    uploaded).trans hdelivered.registered
  dsimp only at h
  split at h
  · -- another length than announced: the upload has refused that itself
    rename_i expected hfilter
    obtain ⟨hexpected, hne⟩ := Option.filter_eq_some_iff.mp hfilter
    subst hexpected
    exact absurd (total_of_upload_body hsent).symm (of_decide_eq_true hne)
  obtain ⟨d₂, result, hreplace⟩ : ∃ d₂ result, replace_part tasks.db env.now upload.upload_id 0
      total (md5_etag env digest) (uploaded.insertionSort (·.ordinal ≤ ·.ordinal)) = (d₂, result) :=
    ⟨_, _, rfl⟩
  rw [hreplace] at h
  unfold replace_part transaction at hreplace
  rcases result with e' | released
  · -- `replace_part` has refused: the blocks are cleaned up one by one
    obtain ⟨rfl, -⟩ := Prod.mk.inj h
    split at hreplace
    · cases (Prod.mk.inj hreplace).2
    · obtain ⟨rfl, -⟩ := Prod.mk.inj hreplace
      exact ⟨[], [], unfinished_of_cleanup hattempt hbooked hperm⟩
  · -- the commit has refused: the upload holds the blocks
    split at hreplace
    · rename_i htx
      obtain ⟨rfl, -⟩ := Prod.mk.inj hreplace
      have hdone := replace_part_tx_ok htx
      obtain rfl := commit_refused (hdone.wellFormed hbooked.wellFormed) h hread
      exact unfinished_of_replaced hwf hnew hattempt hbooked hperm htx
    · cases (Prod.mk.inj hreplace).2

/-- **No trace**: what is apart, without a row of the upload and with every block deleted or
queued, is what the claim asks for. -/
theorem noTrace_of_apart {r : Request} (hwf : WellFormed db)
    (hfresh : Fresh db ((r.staged env db).map (·.id)))
    (hnew : r.upload_id ∉ db.multipart_uploads.map (·.upload_id))
    (h : Apart db ((r.staged env db).map (·.id)) d)
    (hblocks : ∀ block ∈ r.staged env db, Deleted env d block ∨ LeftToGc d block) :
    NoTrace env db r d := by
  obtain ⟨hparts, hrows⟩ := no_parts hwf hnew
  refine ⟨h.get_object hwf hfresh r.bucket r.key, h.tables, ?_, ?_, ?_, ?_, ?_, hblocks,
    fun row hrow => h.blocks.mem hrow⟩
  · obtain ⟨rows, heq, -⟩ := h.blocks
    exact ⟨rows, heq.symm⟩
  · obtain ⟨rows, heq, -⟩ := h.queue
    exact ⟨rows, heq.symm⟩
  · rw [h.tables]
    exact lookup_eq_none.mpr hnew
  · rw [h.tables]
    exact hparts
  · rw [h.tables]
    exact hrows

/-- `create_upload` makes the row, and nothing else. -/
theorem create_upload_attempt {r : Request} (h : (create_upload db (r.upload env)).2 = .ok ()) :
    (create_upload db (r.upload env)) = (attempt db (r.upload env) [] [], .ok ())
      ∧ r.upload_id ∉ db.multipart_uploads.map (·.upload_id)
      ∧ (WellFormed db → WellFormed (attempt db (r.upload env) [] [])) := by
  unfold create_upload transaction at h ⊢
  split at h
  · rename_i htx
    obtain ⟨_, -, hrest⟩ := bind_ok.mp htx
    obtain ⟨d₁, hinsert, hrest⟩ := bind_ok.mp hrest
    obtain ⟨rfl, -⟩ := Prod.mk.inj (Except.ok.inj hrest)
    have hwf₁ := fun hwf => WellFormed.insert_upload hwf hinsert
    obtain ⟨rfl, hnew⟩ := insert_upload_ok hinsert
    rw [attempt_nil]
    exact ⟨rfl, hnew, hwf₁⟩
  · cases h

/-- **A PUT that fails leaves no trace**, if it fails before its commit or can read back. -/
theorem put_failed {r : Request} {e : UploadError} (hwf : WellFormed db) (hworks : env.CleansUp)
    (hcreated : r.Created env db)
    (h : r.put env db = (d, .error e))
    (hread : env.ReadsBack ∨ e ≠ .db .query_failed) : NoTrace env db r d := by
  obtain ⟨hbucket, hsize, hcreate⟩ := hcreated
  obtain ⟨heq, hnew, hattempt⟩ := create_upload_attempt hcreate
  have hattempt := hattempt hwf
  have hstaged : r.staged env db
      = (upload_body env (attempt db (r.upload env) [] []) r.body r.expected_length).1.registered := by
    unfold Request.staged
    rw [heq]
  have hbooked : Booked env (attempt db (r.upload env) [] [])
      (upload_body env (attempt db (r.upload env) [] []) r.body r.expected_length).1 :=
    upload_body_booked hattempt r.body r.expected_length
  rw [Request.put, put_object, if_neg (by rw [hbucket]; decide), hsize] at h
  dsimp only at h
  have hmade : create_upload db
      { upload_id := r.upload_id, bucket := r.bucket, key := r.key, metadata := r.metadata
        kind := .put, created_at := env.now } = (attempt db (r.upload env) [] [], .ok ()) := heq
  rw [hmade] at h
  dsimp only at h
  split at h
  · rename_i d₁ e' hbody
    obtain ⟨rfl, herror⟩ := Prod.mk.inj h
    obtain rfl := Except.error.inj herror
    obtain ⟨parts, rows, hleft⟩ : ∃ parts rows, Unfinished env db (r.upload env) _ parts rows d₁ :=
      put_body_failed hwf hattempt hnew hbody hread
    have hfresh : Fresh db ((r.staged env db).map (·.id)) := by
      rw [hstaged]
      exact ⟨(hbooked.fresh hattempt).blocks, (hbooked.fresh hattempt).queue⟩
    rw [← hstaged] at hleft
    obtain ⟨hapart, hblocks⟩ := Unfinished.abort hworks hleft hwf hfresh hnew env.now
    rw [hworks.abort_put_eq]
    exact noTrace_of_apart hwf hfresh hnew hapart hblocks
  · cases (Prod.mk.inj h).2

end Put

/-! ## The read-back -/

/-- A wait for nothing changes nothing. -/
theorem next_of_nothing (env : Env) (tasks : Tasks) (hrunning : tasks.running = [])
    (hfinished : tasks.finished = []) :
    tasks.next env = ({ tasks with awaited := tasks.awaited + 1 }, none) := by
  have hone : ∀ position, tasks.finish_one env position = tasks := by
    intro position
    unfold Tasks.finish_one
    rw [hrunning, List.getElem?_nil]
  have hfold : ∀ positions : List ℕ, positions.foldl (Tasks.finish_one env) tasks = tasks := by
    intro positions
    induction positions with
    | nil => rfl
    | cons position positions ih => rw [List.foldl_cons, hone, ih]
  have hsettle : tasks.settle env = tasks := by
    unfold Tasks.settle
    dsimp only
    rw [hfold, hone, ite_self]
  unfold Tasks.next
  dsimp only
  rw [hsettle, hfinished, List.eraseIdx_nil, List.getElem?_nil]

/-- An empty body sends nothing. -/
theorem upload_empty (env : Env) (db : Database) :
    upload_body env db [] (some 0) = ({ db := db, awaited := 1 }, .ok ([], 0, [])) := by
  have hnext := next_of_nothing env { db := db } rfl rfl
  have hdrain : Progress.drain_tasks env { tasks := { db := db } }
      = { tasks := { db := db, awaited := 1 } } := by
    unfold Progress.drain_tasks
    split
    all_goals
      rename_i hresult
      rw [hnext] at hresult
      cases hresult
    rfl
  unfold upload_body upload_known_length
  dsimp only [Known.read_frames, Known.close]
  rw [hdrain]
  rfl

/-- No bytes, under a key that is not there. -/
def empty_put : Request :=
  { upload_id := "u", bucket := "b", key := "k", body := [], expected_length := some 0 }

def one_bucket : Database := after [.create_bucket 0 "b"]

def empty_part (etag : String) : PartRow :=
  { upload_id := "u", part_number := 0, size := 0, etag := etag }

def empty_object (env : Env) (etag : String) : ObjectRow :=
  { id := 1, bucket := "b", object_key := "k", size := 0, etag := etag, metadata := {}
    created_at := env.now, modified_at := env.now }

/-- The commit of an empty object, step by step. -/
theorem commit_empty (env : Env) (etag : String) :
    commit_upload_tx (attempt one_bucket (empty_put.upload env) [empty_part etag] []) env.now "u" 0
        etag [{ upload_id := "u", part_number := 0, size := 0, etag := etag, blocks := [] }] {}
      = .ok ({ one_bucket with objects := [empty_object env etag] },
          some (empty_put.upload env, [])) := by
  refine bind_ok.mpr ⟨0, rfl, bind_ok.mpr ⟨(), rfl, ?_⟩⟩
  refine bind_ok.mpr ⟨(), ?_, rfl⟩
  refine bind_ok.mpr ⟨(), rfl, bind_ok.mpr ⟨(), ?_, rfl⟩⟩
  exact require_ok.mpr ⟨rfl, rfl, rfl⟩

/-- The upload of an empty body ends with a part without blocks. -/
theorem upload_of_empty (env : Env) (db : Database) (upload_id : String) (part_number : Int) :
    upload env db upload_id part_number [] (some 0) = (db, .ok
      ({ upload_id := upload_id, part_number := part_number, size := 0, etag := md5_etag env []
         blocks := [] }, 0)) := by
  unfold upload
  rw [upload_empty]
  rfl

section Lost

variable {env : Env} (h : ¬ (env.row_query_fails = false ∧ env.blocks_query_fails = false))
include h

/-- The object is there, and the answer is lost. -/
theorem reread_lost {etag : String} :
    Answers.reread { one_bucket with objects := [empty_object env etag] }
      { row_fails := env.row_query_fails, blocks_fails := env.blocks_query_fails } "b" "k"
      .disappeared_after_commit = .error .query_failed := by
  unfold Answers.reread
  cases hrow : env.row_query_fails with
  | true => rfl
  | false =>
      cases hblocks : env.blocks_query_fails with
      | true => rfl
      | false => exact absurd ⟨hrow, hblocks⟩ h

/-- So the commit has gone through, and its answer is an error. -/
theorem commit_lost {etag : String} :
    Answers.commit_upload (attempt one_bucket (empty_put.upload env) [empty_part etag] [])
        { row_fails := env.row_query_fails, blocks_fails := env.blocks_query_fails } env.now "u" 0
        etag [{ upload_id := "u", part_number := 0, size := 0, etag := etag, blocks := [] }] {}
      = ({ one_bucket with objects := [empty_object env etag] }, .error .query_failed) := by
  unfold Answers.commit_upload
  rw [commit_empty]
  dsimp only
  change (_, (Answers.reread _ _ "b" "k" _).map _) = _
  rw [reread_lost h]
  rfl

/-- And so is that of the PUT, with the object in place. -/
theorem put_body_lost :
    put_body env (attempt one_bucket (empty_put.upload env) [] []) "u" [] (some 0) {}
      = ({ one_bucket with objects := [empty_object env (md5_etag env [])] },
          .error (.db .query_failed)) := by
  have hlength : (some (0 : Int)).filter (· ≠ 0) = none := rfl
  have hreplace : ∀ etag, replace_part (attempt one_bucket (empty_put.upload env) [] []) env.now "u" 0
      0 etag [] = (attempt one_bucket (empty_put.upload env) [empty_part etag] [], .ok []) :=
    fun _ => rfl
  unfold put_body
  rw [upload_of_empty]
  dsimp only
  rw [hlength, hreplace]
  dsimp only
  rw [commit_lost h]

/-- The commit is done, the answer is an error, and the abort finds no upload. -/
theorem put_lost : empty_put.put env one_bucket
    = ({ one_bucket with objects := [empty_object env (md5_etag env [])] },
        .error (.db .query_failed)) := by
  have hmax := env.config.max_object_size_checked.1
  have hsize : check_size (some 0) env.config.max_object_size = .ok () := by
    unfold check_size
    dsimp only
    rw [if_neg (by omega)]
  have hbucket : ¬ bucket_exists one_bucket "b" = false := by decide
  have hcreate : create_upload one_bucket
      { upload_id := "u", bucket := "b", key := "k", metadata := {}, kind := .put
        created_at := env.now } = (attempt one_bucket (empty_put.upload env) [] [], .ok ()) := rfl
  change put_object env one_bucket "u" "b" "k" [] {} (some 0) {} = _
  unfold put_object
  rw [if_neg hbucket, hsize]
  dsimp only
  rw [hcreate]
  dsimp only
  rw [put_body_lost h]
  refine Prod.ext ?_ rfl
  change abort_put env _ "u" = _
  unfold abort_put
  split_ifs <;> rfl

end Lost

/-- **A PUT that fails alone leaves no trace**, after any history, at whatever point it fails
and however its tasks finish, if the database does not fail in its cleanup: exactly if the
server can read its objects back after the commit. -/
theorem put_alone_leaves_no_trace (env : Env) (hworks : env.CleansUp) :
    (∀ (past : List Op) (r : Request) (db' : Database) (e : UploadError),
        r.Created env (after past) → r.put env (after past) = (db', .error e) →
          NoTrace env (after past) r db')
      ↔ env.ReadsBack := by
  constructor
  · intro h
    by_contra hread
    have hcreated : empty_put.Created env one_bucket := by
      have hmax := env.config.max_object_size_checked.1
      refine ⟨by decide, ?_, rfl⟩
      change check_size (some 0) env.config.max_object_size = .ok ()
      unfold check_size
      dsimp only
      rw [if_neg (by omega)]
    have hobject := (h [.create_bucket 0 "b"] empty_put _ _ hcreated (put_lost hread)).object
    -- there was no such object
    cases hobject
  · intro hread past r db' e hcreated hput
    exact put_failed (wellFormed_after past) hworks hcreated hput (.inl hread)

/-! ## The second of three blocks -/

/-- Telegram refuses the block with the ordinal 1, and does not delete the first message. -/
def refusing_env : Env :=
  { sample_env with
    upload_stream := fun spec bytes =>
      if spec.ordinal = 1 then .error (.telegram "refused") else sample_env.upload_stream spec bytes
    delete_message := fun block => if block.message_id = 1 then .failed else .deleted }

def five_bytes : Request :=
  { upload_id := "put-1", bucket := "b", key := "k", body := [.ok [1], .ok [2, 3, 4, 5]]
    expected_length := some 5 }

-- the first and the last block are staged when the second one fails: the last one goes, and the
-- first one stays in the queue
example : ((five_bytes.put refusing_env one_bucket).1.telegram_blocks.map
    fun b => (b.message_id, b.ref_count)) = [(1, 0)] := by decide +kernel

/-- The query that reads the object back fails. -/
def lost_env : Env := { sample_env with row_query_fails := true }

/-- The PUT answers an error, and its object is there. -/
theorem lost_answer_leaves_trace :
    ¬ ∀ (env : Env) (past : List Op) (r : Request) (db' : Database) (e : UploadError),
        r.Created env (after past) → r.put env (after past) = (db', .error e) →
          NoTrace env (after past) r db' := by
  intro h
  have herror : (five_bytes.put lost_env one_bucket).2 = .error (.db .query_failed) := by
    decide +kernel
  have hobject := (h lost_env [.create_bucket 0 "b"] five_bytes _ _ ⟨by decide, by decide, rfl⟩
    (Prod.ext rfl herror)).object
  have hread : (get_object (five_bytes.put lost_env one_bucket).1 "b" "k").isSome = true := by
    decide +kernel
  rw [show get_object (five_bytes.put lost_env one_bucket).1 "b" "k" = get_object one_bucket "b" "k"
    from hobject] at hread
  cases hread

end Tg2s3.Transfer
