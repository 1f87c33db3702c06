/-
What the counts cover.

The counts of the database are not exact (see `Counts`), but they are never too
low: the count of a block covers the rows that refer to it and, on top of them,
any number `k b` of claims that do not stand in the tables. `BackedBy` says so,
and every operation keeps it for the `k` it is given, except the three that are
about such claims: recording a block adds one, `replace_part` turns those of the
part's blocks into references, and `queue_stale_block` takes a block away that
nothing claims.

A block with a reference or a claim is therefore not queued.
-/
import Mathlib
import Tg2s3.Counts

set_option autoImplicit false

namespace Tg2s3

open Relational RefCount RefCount.Account

/-- Every count covers the references and `k` claims more. -/
def BackedBy (db : Database) (k : Int → ℕ) : Prop :=
  ∀ b a, db.account b = some a → Backed (db.refs b + k b) a

namespace BackedBy

variable {db db' : Database} {k : Int → ℕ}

/-- Fewer claims are backed as well. -/
theorem mono (h : BackedBy db k) {k' : Int → ℕ} (hk : ∀ b, k' b ≤ k b) : BackedBy db k' := by
  intro b a ha
  have := hk b
  exact (h b a ha).mono (by omega)

/-- A block with a reference or a claim is not queued. -/
theorem unqueued (h : BackedBy db k) (hwf : WellFormed db) {b : Int} (hb : 0 < db.refs b + k b) :
    ¬ db.queued b := by
  intro hq
  have hpresent : b ∈ db.telegram_blocks.map (·.id) := by
    obtain ⟨q, hq', rfl⟩ := List.mem_map.mp hq
    exact hwf.queue_block q hq'
  obtain ⟨a, ha⟩ := Option.ne_none_iff_exists'.mp ((account_ne_none db).mpr hpresent)
  have hno := (h b a ha).unqueued hb
  rw [(queued_iff_account ha).mp hq] at hno
  cases hno

/-- Nothing but the rows of other tables has changed. -/
theorem same (h : BackedBy db k) (hrefs : ∀ b, db'.refs b = db.refs b)
    (haccount : ∀ b, db'.account b = db.account b) : BackedBy db' k := by
  intro b a ha
  rw [hrefs]
  exact h b a (haccount b ▸ ha)

/-- What goes from the tables goes from the counts. -/
theorem release (h : BackedBy db k) {t : Int → ℕ} (hrefs : ∀ b, db.refs b = db'.refs b + t b)
    (haccount : ∀ b, db'.account b = (db.account b).map (Account.release (t b))) :
    BackedBy db' k := by
  intro b a' ha'
  rw [haccount, Option.map_eq_some_iff] at ha'
  obtain ⟨a, ha, rfl⟩ := ha'
  refine Backed.release ((h b a ha).mono ?_)
  have := hrefs b
  omega

/-- An abort gives back references of its own upload, and claims are of others. -/
theorem abort (h : BackedBy db k) (hwf : WellFormed db) (now : Int) (upload_id : String) :
    BackedBy (abort_upload_with_blocks db now upload_id).1 k := by
  rcases abort_upload_with_blocks_eq db now upload_id with heq | heq
  · rw [heq]
    exact h
  · rw [heq]
    refine h.release (t := fun b => times b (held_by_upload db upload_id)) (fun b => ?_) (fun b => ?_)
    · rw [(books_decrement_blocks _ now _).refs]
      exact hwf.refs_delete_upload upload_id b
    · exact account_decrement_blocks (db.delete_upload upload_id) now _ b

/-- **A commit** moves the references of the used parts and drops the others. -/
theorem commit (h : BackedBy db k) (hwf : WellFormed db) {now : Int} {upload_id : String}
    {size : Int} {etag : String} {parts : List PartRecord} {condition : ObjectCondition}
    {upload : UploadRecord} {released : List BlockRef}
    (hc : Committed db now upload_id size etag parts condition upload released db') :
    BackedBy db' k := by
  intro b a' ha'
  rw [hc.account, Option.map_eq_some_iff] at ha'
  obtain ⟨a, ha, rfl⟩ := ha'
  have hobject := hwf.refs_without_object upload.bucket upload.key b
  have hupload := (hwf.without_object upload.bucket upload.key).refs_delete_upload upload.upload_id b
  have hid : upload.upload_id = upload_id := (lookup_mem hc.upload_row).2
  have hheld := times_held_by_upload hwf hc.verified b
  have hsame : held_by_upload (without_object db upload.bucket upload.key) upload.upload_id
      = held_by_upload db upload_id := by
    rw [hid]
    exact held_by_upload_without_object db _ _ _
  rw [hsame] at hupload
  rw [hc.books.refs, refs_commit_target]
  have h₁ : Backed ((without_object db upload.bucket upload.key).refs b + k b)
      (Account.release (times b (held_by_object db upload.bucket upload.key)) a) := by
    refine Backed.release ((h b a ha).mono ?_)
    omega
  refine Backed.release (h₁.settle.mono ?_)
  omega

/-- **A copy** drops the references of the old object and adds its own. -/
theorem copy (h : BackedBy db k) (hwf : WellFormed db) {now : Int} {source : ObjectRecord}
    {bucket key : String} {metadata : ObjectMetadata} {condition : ObjectCondition}
    {released : List BlockRef}
    (hc : Copied db now source bucket key metadata condition released db') : BackedBy db' k := by
  intro b a' ha'
  rw [hc.account, Option.map_eq_some_iff] at ha'
  obtain ⟨a, ha, rfl⟩ := ha'
  have hobject := hwf.refs_without_object bucket key b
  rw [hc.books.refs, refs_copy_target]
  have h₁ : Backed ((without_object db bucket key).refs b + k b)
      (Account.release (times b (held_by_object db bucket key)) a) := by
    refine Backed.release ((h b a ha).mono ?_)
    omega
  refine (h₁.retain (k := times b source.blocks)).mono ?_
  omega

/-- **Replacing a part** makes references of the claims on its blocks. -/
theorem replace (hwf : WellFormed db) {upload_id : String} {part_number size : Int} {etag : String}
    {blocks released : List BlockRef} (h : BackedBy db fun b => k b + times b blocks)
    (hr : Replaced db upload_id part_number size etag blocks released db') : BackedBy db' k := by
  intro b a' ha'
  rw [hr.account, Option.map_eq_some_iff] at ha'
  obtain ⟨a, ha, rfl⟩ := ha'
  have hbefore := hwf.refs_delete_part upload_id part_number b
  rw [hr.books.refs, refs_replace_target]
  refine Backed.release ((h b a ha).mono ?_)
  -- what is released was held by the old part
  have hle : times b (released_by_part db upload_id part_number blocks)
      ≤ times b (held_by_part db upload_id part_number) :=
    (List.filter_sublist.map _).count_le b
  dsimp only
  omega

/-- **Claiming** a block nothing refers to, if nobody has a claim on it either. -/
theorem queue_stale (h : BackedBy db k) (now id : Int) (hid : db.refs id = 0 → k id = 0) :
    BackedBy (queue_stale_block db now id).1 k := by
  intro b a' ha'
  rw [(books_queue_stale_block db now id).refs]
  rw [account_queue_stale_block] at ha'
  split_ifs at ha' with hcond
  · obtain ⟨a, ha, rfl⟩ := Option.map_eq_some_iff.mp ha'
    obtain ⟨rfl, hzero⟩ := hcond
    split_ifs
    · rw [hzero, hid hzero]
      exact backed_claim a
    · exact h b a ha
  · exact h b a' ha'

/-- Removing a block takes its account away, and no other. -/
theorem gc_success (h : BackedBy db k) (hwf : WellFormed db) (id : Int) :
    BackedBy (gc_success db id) k := by
  intro b a ha
  rw [refs_gc_success]
  rw [account_gc_success hwf] at ha
  split_ifs at ha
  · exact h b a (Option.filter_eq_some_iff.mp ha).1
  · exact h b a ha

/-- **A recorded block** has one claim on it. -/
theorem insert_block (h : BackedBy db k) (hwf : WellFormed db) {row : TelegramBlockRow}
    (hid : row.id = db.next_block_id) (hcount : row.ref_count = 1)
    (hk : k db.next_block_id = 0) :
    BackedBy { db with telegram_blocks := db.telegram_blocks ++ [row] }
      fun b => k b + if b = db.next_block_id then 1 else 0 := by
  have hnew : db.next_block_id ∉ db.telegram_blocks.map (·.id) := nextRowid_not_mem _
  intro b a ha
  change Backed (db.refs b + (k b + if b = db.next_block_id then 1 else 0)) a
  rw [account_insert_block (hid ▸ hnew)] at ha
  split_ifs at ha with hb
  · obtain rfl := Option.some.inj ha
    rw [hid] at hb
    subst hb
    rw [hwf.refs_missing hnew, hk, if_pos rfl, hcount, hid]
    refine ⟨Nat.le_refl 1, fun hq => ?_⟩
    exact absurd (of_decide_eq_true hq) (hwf.not_queued_missing hnew)
  · rw [hid] at hb
    rw [if_neg hb]
    exact h b a ha

end BackedBy

/-- The operations that are about claims outside the tables. -/
def Op.claims : Op → Bool
  | .add_staged_block .. | .replace_part .. | .queue_stale_block .. => true
  | _ => false

/-- **Every other operation keeps the counts high enough.** -/
theorem backedBy_apply {db : Database} {k : Int → ℕ} (hwf : WellFormed db) (h : BackedBy db k)
    (op : Op) (hop : op.claims = false) : BackedBy (op.apply db) k := by
  cases op with
  | create_bucket now name => exact h.same (fun _ => rfl) (fun _ => rfl)
  | delete_bucket name =>
      change BackedBy (delete_bucket db name).1 k
      unfold delete_bucket
      split
      · exact h
      · split
        · exact h
        · exact h.same (fun _ => rfl) (fun _ => rfl)
  | set_bucket_cors now bucket configuration =>
      change BackedBy (set_bucket_cors db now bucket configuration) k
      unfold set_bucket_cors
      split_ifs <;> exact h.same (fun _ => rfl) (fun _ => rfl)
  | delete_bucket_cors bucket => exact h.same (fun _ => rfl) (fun _ => rfl)
  | create_upload upload =>
      refine transaction_cases (P := fun d => BackedBy d k) h (fun db' u hok => ?_)
      obtain ⟨_, -, hok⟩ := bind_ok.mp hok
      obtain ⟨db₁, hins, hok⟩ := bind_ok.mp hok
      obtain ⟨rfl, -⟩ := Prod.mk.inj (Except.ok.inj hok)
      obtain ⟨rfl, -⟩ := insert_upload_ok hins
      exact h.same (fun _ => rfl) (fun _ => rfl)
  | add_staged_block now block => cases hop
  | replace_part now upload_id part_number size etag block_ids => cases hop
  | commit_upload now upload_id size etag parts condition =>
      refine transaction_cases (P := fun d => BackedBy d k) h (fun db' result hok => ?_)
      cases result with
      | none => exact commit_upload_tx_none hok ▸ h
      | some r => exact h.commit hwf (commit_upload_tx_ok hok)
  | abort_upload_with_blocks now upload_id => exact h.abort hwf now upload_id
  | expire_uploads now before =>
      exact (expire_uploads_induction (P := fun d => WellFormed d ∧ BackedBy d k) now before ⟨hwf, h⟩
        (fun d id hd => ⟨wellFormed_abort_upload hd.1 now id, hd.2.abort hd.1 now id⟩)).2
  | delete_object now bucket key condition =>
      refine transaction_cases (P := fun d => BackedBy d k) h (fun db' deleted hok => ?_)
      obtain ⟨-, rfl, -⟩ := delete_object_tx_ok hok
      refine h.release (t := fun b => times b (held_by_object db bucket key)) (fun b => ?_)
        (fun b => ?_)
      · -- the deleted object releases what it held, and no more
        rw [(books_decrement_blocks _ now _).refs]
        exact hwf.refs_without_object bucket key b
      · rw [account_decrement_blocks, account_without_object]
  | copy_object now source bucket key metadata condition =>
      exact transaction_cases (P := fun d => BackedBy d k) h
        (fun db' released hok => h.copy hwf (copy_object_tx_ok hok))
  | queue_stale_block now block_id => cases hop
  | gc_success block_id => exact h.gc_success hwf block_id
  | gc_failure block_id error next_attempt =>
      exact h.same (fun _ => rfl) (fun b => account_update_queue db block_id b (fun _ => rfl))
  | gc_orphan block_id error =>
      exact h.same (fun _ => rfl) (fun b => account_update_queue db block_id b (fun _ => rfl))

/-! ## What a writer is refused for

With its blocks there and out of the queue, `replace_part` goes through. A commit
looks its parts up first, so its blocks have references by then. -/

/-- A check fails with its error. -/
theorem require_error {cond : Prop} [Decidable cond] {error e : DbError} :
    require cond error = .error e ↔ ¬ cond ∧ e = error := by
  unfold require
  split_ifs with h
  · simp [h]
  · simp [h, eq_comm]

section Inserts

variable (db : Database)

/-- A part can be inserted when its upload is there and its number free. -/
theorem insert_part_eq (row : PartRow)
    (hupload : row.upload_id ∈ db.multipart_uploads.map (·.upload_id))
    (hkey : row.key ∉ db.multipart_parts.map (·.key)) :
    db.insert_part row = .ok { db with multipart_parts := db.multipart_parts ++ [row] } := by
  unfold Database.insert_part
  rw [if_pos hupload, insertUnique_eq_some.mpr ⟨hkey, rfl⟩]

/-- A reference of a part can, when its part and its block are there. -/
theorem insert_part_block_eq (row : PartBlockRow) (hpart : row.part ∈ db.multipart_parts.map (·.key))
    (hblock : row.block_id ∈ db.telegram_blocks.map (·.id))
    (hkey : row.key ∉ db.multipart_part_blocks.map (·.key)) :
    db.insert_part_block row
      = .ok { db with multipart_part_blocks := db.multipart_part_blocks ++ [row] } := by
  unfold Database.insert_part_block
  rw [if_pos ⟨hpart, hblock⟩, insertUnique_eq_some.mpr ⟨hkey, rfl⟩]

/-- An object can, when its key is free. -/
theorem insert_object_eq (row : Int → ObjectRow)
    (hname : (row db.next_object_id).name ∉ db.objects.map (·.name)) :
    db.insert_object row
      = .ok ({ db with objects := db.objects ++ [row db.next_object_id] }, db.next_object_id) := by
  unfold Database.insert_object
  rw [insertUnique_eq_some.mpr ⟨hname, rfl⟩]

/-- A reference of an object can, when its object and its block are there. -/
theorem insert_object_block_eq (row : ObjectBlockRow) (hobject : row.object_id ∈ db.objects.map (·.id))
    (hblock : row.block_id ∈ db.telegram_blocks.map (·.id))
    (hkey : row.key ∉ db.object_blocks.map (·.key)) :
    db.insert_object_block row = .ok { db with object_blocks := db.object_blocks ++ [row] } := by
  unfold Database.insert_object_block
  rw [if_pos ⟨hobject, hblock⟩, insertUnique_eq_some.mpr ⟨hkey, rfl⟩]

end Inserts

/-- The insert loop of `replace_part`, from an ordinal on that the part has not
reached. -/
theorem insert_part_blocks_succeeds (upload_id : String) (part_number : Int) (blocks : List BlockRef)
    (db : Database) (ordinal : Int) (hpart : (upload_id, part_number) ∈ db.multipart_parts.map (·.key))
    (hpresent : ∀ block ∈ blocks, block.id ∈ db.telegram_blocks.map (·.id))
    (hfresh : ∀ r ∈ db.multipart_part_blocks, r.part = (upload_id, part_number) →
      r.ordinal < ordinal) :
    ∃ db', insert_part_blocks upload_id part_number db ordinal blocks = .ok db' := by
  induction blocks generalizing db ordinal with
  | nil => exact ⟨db, rfl⟩
  | cons block blocks ih =>
      have hkey : (upload_id, part_number, ordinal) ∉ db.multipart_part_blocks.map (·.key) := by
        intro hin
        obtain ⟨r, hr, heq⟩ := List.mem_map.mp hin
        obtain ⟨hid, hnumber, hordinal⟩ : r.upload_id = upload_id ∧ r.part_number = part_number
          ∧ r.ordinal = ordinal := by simpa [PartBlockRow.key] using heq
        have := hfresh r hr (by simp [PartBlockRow.part, hid, hnumber])
        omega
      have hins := insert_part_block_eq db
        { upload_id := upload_id, part_number := part_number, ordinal := ordinal
          block_id := block.id, byte_offset := block.offset, size := block.size }
        hpart (hpresent block List.mem_cons_self) hkey
      obtain ⟨db', hrest⟩ := ih ({ db with multipart_part_blocks := db.multipart_part_blocks ++
          [{ upload_id := upload_id, part_number := part_number, ordinal := ordinal,
             block_id := block.id, byte_offset := block.offset, size := block.size }] })
        (ordinal + 1) hpart
        (fun b hb => hpresent b (List.mem_cons_of_mem _ hb)) (by
          intro r hr hr_part
          rcases List.mem_append.mp hr with hr | hr
          · have := hfresh r hr hr_part
            omega
          · rw [List.mem_singleton.mp hr]
            exact Int.lt_succ ordinal)
      exact ⟨db', bind_ok.mpr ⟨_, hins, hrest⟩⟩

/-- **`replace_part` goes through** when the upload and the blocks are there and none
of the blocks is queued. -/
theorem replace_part_succeeds {db : Database} (now : Int) {upload_id : String}
    (part_number size : Int) (etag : String) {blocks : List BlockRef}
    (hupload : db.upload? upload_id ≠ none) (hqueue : ∀ block ∈ blocks, ¬ db.queued block.id)
    (hdistinct : (blocks.map (·.id)).Nodup)
    (hpresent : ∀ block ∈ blocks, block.id ∈ db.telegram_blocks.map (·.id)) :
    ∃ released, (replace_part db now upload_id part_number size etag blocks).2 = .ok released := by
  have hids : ∀ id ∈ blocks.map (·.id), ¬ db.queued id := by
    intro id hid
    obtain ⟨block, hblock, rfl⟩ := List.mem_map.mp hid
    exact hqueue block hblock
  have hbooks := books_decrement_blocks (db.delete_part upload_id part_number) now
    (released_by_part db upload_id part_number blocks)
  have hmem : upload_id ∈ (decrement_blocks (db.delete_part upload_id part_number) now
      (released_by_part db upload_id part_number blocks)).multipart_uploads.map (·.upload_id) := by
    rw [hbooks.multipart_uploads]
    by_contra hno
    exact hupload (lookup_eq_none.mpr hno)
  -- the old part has been deleted, so its key is free, and so are the keys of its blocks
  have hgone : (upload_id, part_number) ∉ (decrement_blocks (db.delete_part upload_id part_number)
      now (released_by_part db upload_id part_number blocks)).multipart_parts.map (·.key) := by
    rw [hbooks.multipart_parts]
    intro hin
    obtain ⟨r, hr, heq⟩ := List.mem_map.mp hin
    exact (mem_deleteWhere.mp hr).2 heq
  have hpart := insert_part_eq _
    { upload_id := upload_id, part_number := part_number, size := size, etag := etag } hmem hgone
  obtain ⟨db', hblocks⟩ := insert_part_blocks_succeeds upload_id part_number blocks
    ({ decrement_blocks (db.delete_part upload_id part_number) now
        (released_by_part db upload_id part_number blocks) with
      multipart_parts := (decrement_blocks (db.delete_part upload_id part_number) now
        (released_by_part db upload_id part_number blocks)).multipart_parts ++
          [{ upload_id := upload_id, part_number := part_number, size := size, etag := etag }] }) 0
    (by simp [PartRow.key])
    (fun block hb => by
      change block.id ∈ (decrement_blocks _ now _).telegram_blocks.map (·.id)
      rw [hbooks.ids]
      exact hpresent block hb)
    (fun r hr hr_part => by
      change r ∈ (decrement_blocks _ now _).multipart_part_blocks at hr
      rw [hbooks.multipart_part_blocks] at hr
      exact absurd hr_part (mem_deleteWhere.mp hr).2)
  have hbody : replace_part_tx db now upload_id part_number size etag blocks
      = .ok (db', released_by_part db upload_id part_number blocks) :=
    bind_ok.mpr ⟨(), require_ok.mpr hupload, bind_ok.mpr ⟨(), require_ok.mpr hids,
      bind_ok.mpr ⟨(), require_ok.mpr hdistinct, bind_ok.mpr ⟨_, hpart,
        bind_ok.mpr ⟨db', hblocks, rfl⟩⟩⟩⟩⟩
  refine ⟨released_by_part db upload_id part_number blocks, ?_⟩
  unfold replace_part
  rw [hbody]
  rfl

/-! ### A commit -/

/-- There is one error for all that may be wrong with a layout. -/
theorem validate_blocks_error {blocks : List BlockRef} {offset : Int} {ids : List Int}
    {e : DbError} (h : validate_blocks blocks offset ids = .error e) : e = .invalid_layout := by
  induction blocks generalizing offset ids with
  | nil => cases h
  | cons block blocks ih =>
      unfold validate_blocks at h
      split_ifs at h
      · exact (Except.error.inj h).symm
      · split at h
        · exact (Except.error.inj h).symm
        · exact ih h

/-- And the same one for the parts. -/
theorem validate_parts_error {parts : List PartRecord} {total : Int} {ids : List Int}
    {e : DbError} (h : validate_parts parts total ids = .error e) : e = .invalid_layout := by
  induction parts generalizing total ids with
  | nil => cases h
  | cons part parts ih =>
      rcases bind_error.mp h with h | ⟨⟨offset, ids'⟩, -, h⟩
      · exact validate_blocks_error h
      · rcases bind_error.mp h with h | ⟨_, -, h⟩
        · exact (require_error.mp h).2
        · split at h
          · exact (Except.error.inj h).symm
          · exact ih h

/-- Whatever the loop refuses is an invalid part. -/
theorem verify_parts_loop_error {db : Database} {upload_id : String} {parts : List PartRecord}
    {seen : List Int} {e : DbError} (h : verify_parts_loop db upload_id parts seen = .error e) :
    e = .invalid_part := by
  induction parts generalizing seen with
  | nil => cases h
  | cons part parts ih =>
      rcases bind_error.mp h with h | ⟨_, -, h⟩
      · exact (require_error.mp h).2
      · rcases bind_error.mp h with h | ⟨_, -, h⟩
        · exact (require_error.mp h).2
        · exact ih h

/-- An object can be removed unless the condition forbids it. -/
theorem remove_existing_object_error {db : Database} {now : Int} {bucket key : String}
    {condition : ObjectCondition} {e : DbError}
    (h : remove_existing_object db now bucket key condition = .error e) :
    e = .precondition_failed := by
  rcases bind_error.mp h with h | ⟨_, -, h⟩
  · exact (require_error.mp h).2
  · split at h <;> cases h

/-- The loop of a commit, from an ordinal on that the object has not reached. -/
theorem commit_blocks_succeeds (object_id : Int) (blocks : List BlockRef) (db : Database)
    (ordinal offset : Int) (hobject : object_id ∈ db.objects.map (·.id))
    (hpresent : ∀ block ∈ blocks, block.id ∈ db.telegram_blocks.map (·.id))
    (hfresh : ∀ r ∈ db.object_blocks, r.object_id = object_id → r.ordinal < ordinal) :
    ∃ db', commit_blocks object_id db ordinal offset blocks = .ok db' := by
  induction blocks generalizing db ordinal offset with
  | nil => exact ⟨db, rfl⟩
  | cons block blocks ih =>
      have hkey : (object_id, ordinal) ∉ db.object_blocks.map (·.key) := by
        intro hin
        obtain ⟨r, hr, heq⟩ := List.mem_map.mp hin
        obtain ⟨hid, hordinal⟩ : r.object_id = object_id ∧ r.ordinal = ordinal := by
          simpa [ObjectBlockRow.key] using heq
        have := hfresh r hr hid
        omega
      have hins := insert_object_block_eq db
        { object_id := object_id, ordinal := ordinal, block_id := block.id, byte_offset := offset,
          size := block.size }
        hobject (hpresent block List.mem_cons_self) hkey
      have hcommit : ∃ db₁, commit_block db object_id ordinal offset block = .ok db₁ :=
        ⟨_, bind_ok.mpr ⟨_, hins, rfl⟩⟩
      obtain ⟨db₁, hcommit⟩ := hcommit
      obtain ⟨hbooks, -, -⟩ := commit_block_ok hcommit
      obtain ⟨db', hrest⟩ := ih db₁ (ordinal + 1) (offset + block.size)
        (by rw [hbooks.objects]; exact hobject)
        (fun b hb => by
          rw [hbooks.ids]
          exact hpresent b (List.mem_cons_of_mem _ hb))
        (fun r hr hr_object => by
          rw [hbooks.object_blocks] at hr
          rcases List.mem_append.mp hr with hr | hr
          · have := hfresh r hr hr_object
            omega
          · rw [List.mem_singleton.mp hr]
            exact Int.lt_succ ordinal)
      exact ⟨db', bind_ok.mpr ⟨db₁, hcommit, hrest⟩⟩

/-- **What a commit is refused for**, when its blocks are there and not queued: its
layout, its parts or its condition. -/
theorem commit_upload_error {db : Database} (hwf : WellFormed db) {now : Int} {upload_id : String}
    {size : Int} {etag : String} {parts : List PartRecord} {condition : ObjectCondition}
    (hqueue : ∀ block ∈ parts.flatMap (·.blocks), ¬ db.queued block.id)
    (hpresent : ∀ block ∈ parts.flatMap (·.blocks), block.id ∈ db.telegram_blocks.map (·.id))
    {e : DbError} (h : commit_upload_tx db now upload_id size etag parts condition = .error e) :
    e = .invalid_layout ∨ e = .invalid_part ∨ e = .precondition_failed := by
  rcases bind_error.mp h with h | ⟨total, -, h⟩
  · exact Or.inl (validate_parts_error h)
  rcases bind_error.mp h with h | ⟨_, -, h⟩
  · exact Or.inl (require_error.mp h).2
  cases hupload : db.upload? upload_id with
  | none =>
      rw [hupload] at h
      cases h
  | some upload =>
      rw [hupload] at h
      rcases bind_error.mp h with h | ⟨_, -, h⟩
      · exact Or.inr (Or.inl (verify_parts_loop_error h))
      rcases bind_error.mp h with h | ⟨_, -, h⟩
      · refine absurd (fun id hid => ?_) (require_error.mp h).1
        obtain ⟨block, hblock, rfl⟩ := List.mem_map.mp hid
        exact hqueue block hblock
      rcases bind_error.mp h with h | ⟨⟨db₁, old⟩, hremove, h⟩
      · exact Or.inr (Or.inr (remove_existing_object_error h))
      -- from here on nothing can fail: the name is free, and so are the keys of the rows
      exfalso
      obtain ⟨-, hdb₁, -, -⟩ := remove_existing_object_ok hremove
      have hbooks : Books (without_object db upload.bucket upload.key) db₁ :=
        hdb₁ ▸ books_decrement_blocks _ now _
      have hname : (upload.bucket, upload.key) ∉ db₁.objects.map (·.name) := by
        rw [hbooks.objects]
        exact lookup_eq_none.mp (hwf.object?_without_object upload.bucket upload.key)
      have hfresh := (hwf.without_object upload.bucket upload.key).object_blocks_fresh
      rw [← hbooks.next_object_id] at hfresh
      rcases bind_error.mp h with h | ⟨⟨db₂, object_id⟩, hinsert, h⟩
      · rw [insert_object_eq _ _ hname] at h
        cases h
      obtain ⟨hr, -⟩ := insert_object_ok hinsert
      obtain ⟨hdb₂, hid⟩ := Prod.mk.inj hr
      have hcommit := commit_blocks_succeeds object_id (parts.flatMap (·.blocks)) db₂ 0 0
        (by rw [hdb₂, hid]; exact List.mem_map.mpr ⟨_, List.mem_append_right _
          (List.mem_singleton_self _), rfl⟩)
        (fun block hb => by
          rw [hdb₂]
          change block.id ∈ db₁.telegram_blocks.map (·.id)
          rw [hbooks.ids, telegram_blocks_without_object]
          exact hpresent block hb)
        (fun r hr hr_object => by
          rw [hdb₂] at hr
          change r ∈ db₁.object_blocks at hr
          rw [hbooks.object_blocks] at hr
          exact absurd (hr_object.trans hid) (hfresh r hr))
      obtain ⟨db', hok⟩ := hcommit
      rcases bind_error.mp h with h | ⟨db₃, -, h⟩
      · rw [hok] at h
        cases h
      · cases h

end Tg2s3
