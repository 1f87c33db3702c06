/-
What the writers do to a block that nothing refers to.

The garbage collector works outside any transaction: it decides on a message in
one moment and deletes it in another. What it can rely on in between is said here
once, for every operation of `Db`, by `LeavesFree given db db'`:

- no row is made up, so a document stays under the id it has;
- a queued block that nothing refers to stays queued as long as it is there;
- a block that nothing refers to gets no reference, unless the caller names it
  (`given`) and it is not queued.

The caller's names are the block ids of `replace_part` and of the snapshot of
`copy_object`. Only `add_staged_block` is left out; it makes up a row.
-/
import Tg2s3.History

set_option autoImplicit false

namespace Tg2s3

open Relational RefCount RefCount.Account

/-- The id of a block is one of its frozen columns. -/
theorem TelegramBlockRow.id_of_frozen {r r' : TelegramBlockRow} (h : r.frozen = r'.frozen) :
    r.id = r'.id := by
  have hid : r.frozen.id = r'.frozen.id := by rw [h]
  exact hid

/-- And so is its message. -/
theorem TelegramBlockRow.message_id_of_frozen {r r' : TelegramBlockRow}
    (h : r.frozen = r'.frozen) : r.message_id = r'.message_id := by
  have hmessage : r.frozen.message_id = r'.frozen.message_id := by rw [h]
  exact hmessage

structure LeavesFree (given : List Int) (db db' : Database) : Prop where
  rows : ∀ row' ∈ db'.telegram_blocks, ∃ row ∈ db.telegram_blocks, row.frozen = row'.frozen
  queued : ∀ b ∈ db'.telegram_blocks.map (·.id), db.queued b → db.refs b = 0 → db'.queued b
  refs : ∀ b, db.refs b = 0 → (b ∈ given → db.queued b) → db'.refs b = 0

namespace LeavesFree

variable {db db' db'' : Database} {given : List Int}

/-- A step that does nothing leaves everything to those who have it. -/
theorem refl (db : Database) : LeavesFree given db db where
  rows := fun row h => ⟨row, h, rfl⟩
  queued := fun _ _ h _ => h
  refs := fun _ h _ => h

/-- A step that names nothing, followed by another such step. -/
theorem trans (h₁ : LeavesFree [] db db') (h₂ : LeavesFree [] db' db'') :
    LeavesFree [] db db'' where
  rows := by
    intro row'' hrow''
    obtain ⟨row', hrow', heq'⟩ := h₂.rows row'' hrow''
    obtain ⟨row, hrow, heq⟩ := h₁.rows row' hrow'
    exact ⟨row, hrow, heq.trans heq'⟩
  queued := by
    intro b hb hq hr
    have hb' : b ∈ db'.telegram_blocks.map (·.id) := by
      obtain ⟨row'', hrow'', rfl⟩ := List.mem_map.mp hb
      obtain ⟨row', hrow', heq⟩ := h₂.rows row'' hrow''
      exact List.mem_map.mpr ⟨row', hrow', TelegramBlockRow.id_of_frozen heq⟩
    exact h₂.queued b hb (h₁.queued b hb' hq hr) (h₁.refs b hr (by simp))
  refs := fun b hr _ => h₂.refs b (h₁.refs b hr (by simp)) (by simp)

end LeavesFree

/-! ## From the accounts -/

/-- The rows of the blocks are the same but for their counts, so each of them was there before.
-/
theorem rows_of_books {db target db' : Database} (h : Books target db')
    (htarget : target.telegram_blocks = db.telegram_blocks) :
    ∀ row' ∈ db'.telegram_blocks, ∃ row ∈ db.telegram_blocks, row.frozen = row'.frozen := by
  intro row' hrow'
  have hmem : row'.frozen ∈ db.telegram_blocks.map (·.frozen) := by
    rw [← htarget, ← h.frozen]
    exact List.mem_map_of_mem hrow'
  obtain ⟨row, hrow, heq⟩ := List.mem_map.mp hmem
  exact ⟨row, hrow, heq⟩

/-- An operation on the accounts that keeps what is queued in the queue. -/
theorem queued_of_account {db db' : Database} {b : Int} {f : Account → Account}
    (hb : b ∈ db'.telegram_blocks.map (·.id)) (haccount : db'.account b = (db.account b).map f)
    (hf : ∀ a, a.queued = true → (f a).queued = true) (hq : db.queued b) : db'.queued b := by
  have hsome := (account_ne_none db').mpr hb
  rw [haccount] at hsome
  cases ha : db.account b with
  | none => rw [ha] at hsome; exact absurd rfl hsome
  | some a =>
      rw [ha] at haccount
      exact (queued_iff_account haccount).mpr (hf a ((queued_iff_account ha).mp hq))

/-- What waits in the queue is not taken out of it by a release. -/
theorem release_queued {k : ℕ} {a : Account} (h : a.queued = true) :
    (release k a).queued = true := by
  simp [release, h]

/-! ## Operation by operation -/

/-- A step that only moves the books and takes nothing out of the queue. -/
theorem leavesFree_of_books {db db' : Database} {given : List Int} (h : Books db db')
    (hqueued : ∀ b, db.queued b → db'.queued b) : LeavesFree given db db' where
  rows := rows_of_books h rfl
  queued := fun b _ hq _ => hqueued b hq
  refs := fun b hr _ => (h.refs b).trans hr

/-- Releasing what a holder held. -/
theorem leavesFree_decrement {db target : Database} {now : Int} {blocks : List BlockRef}
    {given : List Int} (hrows : target.telegram_blocks = db.telegram_blocks)
    (haccount : ∀ b, target.account b = db.account b) (hrefs : ∀ b, target.refs b ≤ db.refs b) :
    LeavesFree given db (decrement_blocks target now blocks) where
  rows := rows_of_books (books_decrement_blocks target now blocks) hrows
  queued := by
    intro b hb hq _
    refine queued_of_account hb ?_ (fun a ha => release_queued (k := times b blocks) ha) hq
    rw [account_decrement_blocks, haccount]
  refs := by
    intro b hr _
    have hle := hrefs b
    rw [(books_decrement_blocks target now blocks).refs]
    omega

/-- An abort refers to nothing new. -/
theorem leavesFree_abort_upload {db : Database} (hwf : WellFormed db) (now : Int)
    (upload_id : String) : LeavesFree [] db (abort_upload_with_blocks db now upload_id).1 := by
  rcases abort_upload_with_blocks_eq db now upload_id with heq | heq
  · rw [heq]
    exact LeavesFree.refl db
  · rw [heq]
    refine leavesFree_decrement rfl (fun _ => rfl) (fun b => ?_)
    have := hwf.refs_delete_upload upload_id b
    omega

/-- Nor does a deletion. -/
theorem leavesFree_delete_object {db : Database} (hwf : WellFormed db) (now : Int)
    (bucket key : String) (condition : ObjectCondition) :
    LeavesFree [] db (delete_object db now bucket key condition).1 := by
  refine transaction_cases (LeavesFree.refl db) (fun db' deleted hok => ?_)
  obtain ⟨-, rfl, -⟩ := delete_object_tx_ok hok
  refine leavesFree_decrement (telegram_blocks_without_object db bucket key)
    (fun b => account_without_object db bucket key b) (fun b => ?_)
  have := hwf.refs_without_object bucket key b
  omega

/-- **A part that is replaced** may refer to the blocks that it is given, and to no others. -/
theorem leavesFree_replace_part {db : Database} (hwf : WellFormed db) (now : Int)
    (upload_id : String) (part_number size : Int) (etag : String) (blocks : List BlockRef) :
    LeavesFree (blocks.map (·.id)) db
      (replace_part db now upload_id part_number size etag blocks).1 := by
  refine transaction_cases (LeavesFree.refl db) (fun db' released hok => ?_)
  have hr := replace_part_tx_ok hok
  refine ⟨rows_of_books hr.books rfl, fun b hb hq _ => ?_, fun b hrefs hgiven => ?_⟩
  · exact queued_of_account hb (hr.account b) (fun a ha => release_queued ha) hq
  · have hbefore := hwf.refs_delete_part upload_id part_number b
    have hzero : times b blocks = 0 := by
      by_contra hpos
      have hin := times_pos.mp (Nat.pos_of_ne_zero hpos)
      exact hr.unqueued b hin (hgiven hin)
    rw [hr.books.refs, refs_replace_target, hzero]
    omega

/-- A commit refers only to blocks that the parts of its upload refer to already. So it needs
none to be given. -/
theorem leavesFree_commit_upload {db : Database} (hwf : WellFormed db) (now : Int)
    (upload_id : String) (size : Int) (etag : String) (parts : List PartRecord)
    (condition : ObjectCondition) :
    LeavesFree [] db
      (transaction db (commit_upload_tx db now upload_id size etag parts condition)).1 := by
  refine transaction_cases (LeavesFree.refl db) (fun db' result hok => ?_)
  cases result with
  | none =>
      rw [commit_upload_tx_none hok]
      exact LeavesFree.refl db
  | some r =>
      have hc := commit_upload_tx_ok hok
      -- the committed blocks are blocks of the upload, so they have a reference
      have hused : ∀ b, db.refs b = 0 → times b (parts.flatMap (·.blocks)) = 0 := by
        intro b hr
        have hheld := times_held_by_upload hwf hc.verified b
        have hrefs := hwf.refs_delete_upload upload_id b
        omega
      refine ⟨rows_of_books hc.books (telegram_blocks_without_object _ _ _), fun b hb hq hr => ?_,
        fun b hr _ => ?_⟩
      · refine queued_of_account hb (hc.account b) (fun a ha => ?_) hq
        rw [hused b hr, settle_zero]
        exact release_queued (release_queued ha)
      · have hobject := hwf.refs_without_object r.1.bucket r.1.key b
        have hupload := (hwf.without_object r.1.bucket r.1.key).refs_delete_upload r.1.upload_id b
        rw [hc.books.refs, refs_commit_target, hused b hr]
        omega

/-- **A copy** may refer to the blocks of its source. -/
theorem leavesFree_copy_object {db : Database} (hwf : WellFormed db) (now : Int)
    (source : ObjectRecord) (bucket key : String) (metadata : ObjectMetadata)
    (condition : ObjectCondition) :
    LeavesFree (source.blocks.map (·.id)) db
      (transaction db (copy_object_tx db now source bucket key metadata condition)).1 := by
  refine transaction_cases (LeavesFree.refl db) (fun db' released hok => ?_)
  have hc := copy_object_tx_ok hok
  have hnamed : ∀ b, db.queued b → times b source.blocks = 0 := by
    intro b hq
    by_contra hpos
    exact hc.unqueued b (times_pos.mp (Nat.pos_of_ne_zero hpos)) hq
  refine ⟨rows_of_books hc.books (telegram_blocks_without_object _ _ _), fun b hb hq _ => ?_,
    fun b hr hgiven => ?_⟩
  · refine queued_of_account hb (hc.account b) (fun a ha => ?_) hq
    rw [hnamed b hq, retain_zero]
    exact release_queued ha
  · have hobject := hwf.refs_without_object bucket key b
    have hzero : times b source.blocks = 0 := by
      by_contra hpos
      have hin := times_pos.mp (Nat.pos_of_ne_zero hpos)
      exact hpos (hnamed b (hgiven hin))
    rw [hc.books.refs, refs_copy_target, hzero]
    omega

/-- The claim of a stale block refers to nothing. -/
theorem leavesFree_queue_stale_block (db : Database) (now id : Int) :
    LeavesFree [] db (queue_stale_block db now id).1 := by
  have hbooks := books_queue_stale_block db now id
  refine ⟨rows_of_books hbooks rfl, fun b hb hq _ => ?_, fun b hr _ => (hbooks.refs b).trans hr⟩
  refine queued_of_account
    (f := fun a => if b = id ∧ db.refs b = 0 ∧ a.staged = true then claim a else a)
    hb ?_ (fun a ha => ?_) hq
  · rw [account_queue_stale_block]
    by_cases hcond : b = id ∧ db.refs b = 0
    · obtain ⟨rfl, hzero⟩ := hcond
      simp [hzero]
    · have hne : ∀ a : Account, ¬ (b = id ∧ db.refs b = 0 ∧ a.staged = true) :=
        fun a h => hcond ⟨h.1, h.2.1⟩
      simp only [if_neg hcond, hne, if_false, Option.map_id']
  · split_ifs
    · rfl
    · exact ha

/-- The collector takes a block away that nothing refers to. -/
theorem leavesFree_gc_success (db : Database) (id : Int) :
    LeavesFree [] db (gc_success db id) := by
  unfold gc_success
  split
  · split_ifs
    · refine ⟨fun row' hrow' => ⟨row', (mem_deleteWhere.mp hrow').1, rfl⟩, fun b hb hq _ => ?_,
        fun b hr _ => hr⟩
      obtain ⟨row, hrow, rfl⟩ := List.mem_map.mp hb
      exact (queued_dequeue db id row.id).mpr ⟨hq, (mem_deleteWhere.mp hrow).2⟩
    · exact LeavesFree.refl db
  · exact LeavesFree.refl db

/-- What is noted in the queue refers to nothing new. -/
theorem leavesFree_update_queue (db : Database) (id : Int) {f : GcQueueRow → GcQueueRow}
    (hf : ∀ q, (f q).block_id = q.block_id) : LeavesFree [] db (db.update_queue id f) := by
  refine leavesFree_of_books (books_update_queue db id f) (fun b hq => ?_)
  unfold Database.queued Database.update_queue
  rwa [map_updateWhere hf]

/-- The expiry is a list of aborts. -/
theorem leavesFree_expire_uploads {db : Database} (hwf : WellFormed db) (now before : Int) :
    LeavesFree [] db (expire_uploads db now before) := by
  have hboth := expire_uploads_induction (P := fun d => WellFormed d ∧ LeavesFree [] db d) now before
    ⟨hwf, LeavesFree.refl db⟩ (fun d upload_id hd =>
      ⟨wellFormed_abort_upload hd.1 now upload_id,
        hd.2.trans (leavesFree_abort_upload hd.1 now upload_id)⟩)
  exact hboth.2

/-- A change of the tables that neither blocks, nor their references, nor the
queue depend on. -/
theorem leavesFree_of_same {db db' : Database} (hblocks : db'.telegram_blocks = db.telegram_blocks)
    (hobject : db'.object_blocks = db.object_blocks)
    (hpart : db'.multipart_part_blocks = db.multipart_part_blocks)
    (hqueue : db'.gc_queue = db.gc_queue) : LeavesFree [] db db' where
  rows := fun row hrow => ⟨row, hblocks ▸ hrow, rfl⟩
  queued := fun b _ hq _ => by
    unfold Database.queued
    rwa [hqueue]
  refs := fun b hr _ => by
    unfold Database.refs
    rw [hobject, hpart]
    exact hr

/-- An upload begins without any blocks. -/
theorem leavesFree_create_upload (db : Database) (upload : UploadRecord) :
    LeavesFree [] db (create_upload db upload).1 := by
  refine transaction_cases (LeavesFree.refl db) (fun db' u hok => ?_)
  obtain ⟨_, -, hok⟩ := bind_ok.mp hok
  obtain ⟨db₁, hins, hok⟩ := bind_ok.mp hok
  obtain ⟨rfl, -⟩ := Prod.mk.inj (Except.ok.inj hok)
  obtain ⟨rfl, -⟩ := insert_upload_ok hins
  exact leavesFree_of_same rfl rfl rfl rfl

/-! ## All operations -/

/-- The block ids the caller of an operation names. -/
def Op.given : Op → List Int
  | .replace_part _ _ _ _ _ block_ids => block_ids.map (·.id)
  | .copy_object _ source _ _ _ _ => source.blocks.map (·.id)
  | _ => []

/-- Every operation that does not record a document leaves free blocks alone. -/
theorem leavesFree_apply {db : Database} (hwf : WellFormed db) (op : Op)
    (hop : ∀ now block, op ≠ .add_staged_block now block) :
    LeavesFree op.given db (op.apply db) := by
  cases op with
  | create_bucket now name => exact leavesFree_of_same rfl rfl rfl rfl
  | delete_bucket name =>
      change LeavesFree [] db (delete_bucket db name).1
      unfold delete_bucket
      split_ifs
      · exact LeavesFree.refl db
      · exact leavesFree_of_same rfl rfl rfl rfl
      · exact LeavesFree.refl db
  | set_bucket_cors now bucket configuration =>
      change LeavesFree [] db (set_bucket_cors db now bucket configuration)
      unfold set_bucket_cors
      split_ifs <;> exact leavesFree_of_same rfl rfl rfl rfl
  | delete_bucket_cors bucket => exact leavesFree_of_same rfl rfl rfl rfl
  | create_upload upload => exact leavesFree_create_upload db upload
  | add_staged_block now block => exact absurd rfl (hop now block)
  | replace_part now upload_id part_number size etag block_ids =>
      exact leavesFree_replace_part hwf now upload_id part_number size etag block_ids
  | commit_upload now upload_id size etag parts condition =>
      exact leavesFree_commit_upload hwf now upload_id size etag parts condition
  | abort_upload_with_blocks now upload_id => exact leavesFree_abort_upload hwf now upload_id
  | expire_uploads now before => exact leavesFree_expire_uploads hwf now before
  | delete_object now bucket key condition =>
      exact leavesFree_delete_object hwf now bucket key condition
  | copy_object now source bucket key metadata condition =>
      exact leavesFree_copy_object hwf now source bucket key metadata condition
  | queue_stale_block now block_id => exact leavesFree_queue_stale_block db now block_id
  | gc_success block_id => exact leavesFree_gc_success db block_id
  | gc_failure block_id error next_attempt =>
      exact leavesFree_update_queue db block_id (fun _ => rfl)
  | gc_orphan block_id error => exact leavesFree_update_queue db block_id (fun _ => rfl)

/-- The requests no task of the machine does name nothing. -/
theorem leavesFree_plain {db : Database} (hwf : WellFormed db) {op : Op} (hop : op.plain = true) :
    LeavesFree [] db (op.apply db) := by
  have hgiven : op.given = [] := by
    cases op <;> first | rfl | cases hop
  have hrecords : ∀ now block, op ≠ .add_staged_block now block := by
    rintro now block rfl
    cases hop
  exact hgiven ▸ leavesFree_apply hwf op hrecords

end Tg2s3
