/-
A PUT that fails while other tasks work on other keys.

`Failures` follows `put_object` alone, step by step, through everything it can meet. Here the
attempt is one task of the engine: between its steps other uploads stage, copy, commit and
delete, the collector makes its passes, and the request is answered with an error at the end.
What is compared is the key of the attempt and the blocks that it has staged (`Watched`).

A staged block is in one of two states. Its row is there, staged and counted once at most, and
no object and no part of another upload lists it (`Held`); or its message was deleted first.
While nothing refers to its row and it is not queued, somebody still knows it who will clean it
up (`Remembered`). A step of another task keeps this as long as it does not take the block up
under an id that it remembers from an earlier block (`Spared`): SQLite hands the id of a removed
row out again, and then a late copy, a late part or a late removal means a row that is gone.
-/
import Tg2s3.Failures
import Tg2s3.Service
import Tg2s3.Uploads

set_option autoImplicit false

namespace Tg2s3.Attempts

open Tg2s3 Relational Machine RefCount RefCount.Account
open Tg2s3.GcSafety (record_ok)
open Tg2s3.Service (Elsewhere)
open Tg2s3.Staging (records rows_record)
open Tg2s3.Transfer (Env NoTrace)

/-! ## A staged block in the tables -/

/-- The operation replaces a part of this upload. -/
def replaces (upload_id : String) : Op → Prop
  | .replace_part _ id _ _ _ _ => id = upload_id
  | _ => False

/-- The operation commits this upload. -/
def commits (upload_id : String) : Op → Prop
  | .commit_upload _ id _ _ _ _ => id = upload_id
  | _ => False

instance (upload_id : String) (op : Op) : Decidable (replaces upload_id op) :=
  decidable_of_iff
    ((match op with
      | .replace_part _ id _ _ _ _ => decide (id = upload_id)
      | _ => false) = true)
    (by cases op <;> simp [replaces])

/-- What an attempt keeps of a staged block: its row, if it is there, is staged and counted at
most once, and only parts of this upload list it. -/
structure Held (upload_id : String) (id : Int) (db : Database) : Prop where
  account : ∀ a, db.account id = some a →
    a.staged = true ∧ a.count ≤ 1 ∧ (a.queued = true → a.count = 0)
  objects : ∀ r ∈ db.object_blocks, r.block_id ≠ id
  parts : ∀ r ∈ db.multipart_part_blocks, r.block_id = id → r.upload_id = upload_id

/-- Nothing refers to the block, and it is not queued: somebody has to clean it up. -/
def Waiting (id : Int) (db : Database) : Prop := db.refs id = 0 ∧ ¬ db.queued id

/-- The operation leaves the block to the attempt: if its caller names the block, it is refused
or it is the attempt's own replacement; and the commit of the attempt is refused. -/
structure Mild (upload_id : String) (id : Int) (db : Database) (op : Op) : Prop where
  stored : ∀ now block, op ≠ .add_staged_block now block
  given : id ∈ op.given → op.apply db = db ∨ replaces upload_id op
  commit : commits upload_id op → op.apply db = db

section Rows

variable {db : Database}

/-- Where the rows that refer to blocks come from: the row was there, or the caller names its
block, or its upload is committed. -/
structure Traced (db : Database) (op : Op) (db' : Database) : Prop where
  objects : ∀ r ∈ db'.object_blocks, r ∈ db.object_blocks ∨ r.block_id ∈ op.given
    ∨ ∃ p ∈ db.multipart_part_blocks, p.block_id = r.block_id ∧ commits p.upload_id op
  parts : ∀ r ∈ db'.multipart_part_blocks, r ∈ db.multipart_part_blocks
    ∨ (replaces r.upload_id op ∧ r.block_id ∈ op.given)

/-- Where no row of an object or a part is added, there is no new reference to trace. -/
theorem traced_of_subset {db' : Database} {op : Op}
    (hobjects : db'.object_blocks ⊆ db.object_blocks)
    (hparts : db'.multipart_part_blocks ⊆ db.multipart_part_blocks) : Traced db op db' :=
  ⟨fun _ hr => Or.inl (hobjects hr), fun _ hr => Or.inl (hparts hr)⟩

/-- Taking an object away only takes references away. -/
theorem object_blocks_without_object (bucket key : String) :
    (without_object db bucket key).object_blocks ⊆ db.object_blocks := by
  unfold without_object
  cases db.object? bucket key with
  | none => exact fun _ hr => hr
  | some row => exact fun r hr => (mem_deleteWhere.mp hr).1

/-- The block of a committed part is a block of a part row of the upload. -/
theorem part_row_of_verified {upload_id : String} {parts : List PartRecord}
    (h : verify_parts_tx db upload_id parts = .ok ()) {b : Int}
    (hb : b ∈ (parts.flatMap (·.blocks)).map (·.id)) :
    ∃ p ∈ db.multipart_part_blocks, p.block_id = b ∧ p.upload_id = upload_id := by
  obtain ⟨hnodup, hmatch⟩ := verify_parts_tx_ok h
  have hpos := times_pos.mpr hb
  rw [times_parts hnodup hmatch] at hpos
  obtain ⟨p, hp, hid⟩ := references_pos.mp hpos
  obtain ⟨hmem, hupload⟩ := List.mem_filter.mp (List.mem_filter.mp hp).1
  exact ⟨p, hmem, hid, of_decide_eq_true hupload⟩

/-- **Every new reference is traced** to a block that the operation was given. For the three
operations that write references it is read off from what they insert; all others only take rows
away. -/
theorem traced_apply (op : Op) : Traced db op (op.apply db) := by
  have hrefl : ∀ op, Traced db op db := fun _ => traced_of_subset (fun _ h => h) (fun _ h => h)
  -- the collector writes its queue and the states of blocks only
  have hbooks : ∀ {op} {d : Database}, Books db d → Traced db op d := fun h =>
    traced_of_subset (h.object_blocks ▸ fun _ h => h) (h.multipart_part_blocks ▸ fun _ h => h)
  have habort : ∀ (d : Database) (now : Int) (id : String),
      (abort_upload_with_blocks d now id).1.object_blocks = d.object_blocks
        ∧ (abort_upload_with_blocks d now id).1.multipart_part_blocks
            ⊆ d.multipart_part_blocks := by
    intro d now id
    rcases abort_upload_with_blocks_eq d now id with heq | heq
    · rw [heq]
      exact ⟨rfl, fun _ h => h⟩
    · rw [heq, (books_decrement_blocks _ now _).object_blocks,
        (books_decrement_blocks _ now _).multipart_part_blocks]
      exact ⟨rfl, fun r hr => (mem_deleteWhere.mp hr).1⟩
  cases op with
  | create_bucket now name => exact traced_of_subset (fun _ h => h) (fun _ h => h)
  | delete_bucket name =>
      change Traced db _ (delete_bucket db name).1
      unfold delete_bucket
      split_ifs <;> exact traced_of_subset (fun _ h => h) (fun _ h => h)
  | set_bucket_cors now bucket configuration =>
      change Traced db _ (set_bucket_cors db now bucket configuration)
      unfold set_bucket_cors
      split_ifs <;> exact traced_of_subset (fun _ h => h) (fun _ h => h)
  | delete_bucket_cors bucket => exact traced_of_subset (fun _ h => h) (fun _ h => h)
  | create_upload upload =>
      refine transaction_cases (hrefl _) (fun db' u hok => ?_)
      obtain ⟨_, -, hok⟩ := bind_ok.mp hok
      obtain ⟨db₁, hinsert, hok⟩ := bind_ok.mp hok
      obtain ⟨rfl, -⟩ := Prod.mk.inj (Except.ok.inj hok)
      obtain ⟨rfl, -⟩ := insert_upload_ok hinsert
      exact traced_of_subset (fun _ h => h) (fun _ h => h)
  | add_staged_block now block =>
      refine transaction_cases (hrefl _) (fun db' id hok => ?_)
      obtain ⟨hinsert, -⟩ := insert_block_ok hok
      obtain ⟨rfl, -⟩ := Prod.mk.inj hinsert
      exact traced_of_subset (fun _ h => h) (fun _ h => h)
  | replace_part now upload_id part_number size etag blocks =>
      refine transaction_cases (hrefl _) (fun db' released hok => ?_)
      have hr := replace_part_tx_ok hok
      refine ⟨fun r hin => Or.inl (hr.books.object_blocks ▸ hin), fun r hin => ?_⟩
      rw [hr.books.multipart_part_blocks] at hin
      rcases List.mem_append.mp hin with hin | hin
      · exact Or.inl (mem_deleteWhere.mp hin).1
      · -- a new row is one of the part, with a block of the call
        have hnew := List.mem_map_of_mem (f := fun r : PartBlockRow => (r.part, r.block_id)) hin
        rw [map_block_id_part_rows] at hnew
        obtain ⟨block, hblock, heq⟩ := List.mem_map.mp hnew
        obtain ⟨hpart, hid⟩ := Prod.mk.inj heq
        exact Or.inr ⟨(Prod.mk.inj hpart).1, hid ▸ List.mem_map_of_mem hblock⟩
  | commit_upload now upload_id size etag parts condition =>
      refine transaction_cases (hrefl _) (fun db' result hok => ?_)
      cases result with
      | none => exact commit_upload_tx_none hok ▸ hrefl _
      | some r =>
          have hc := commit_upload_tx_ok hok
          refine ⟨fun row hin => ?_, fun row hin => Or.inl ?_⟩
          · rw [hc.books.object_blocks] at hin
            rcases List.mem_append.mp hin with hin | hin
            · exact Or.inl (object_blocks_without_object _ _ hin)
            · -- a committed block comes from a part, which verify_parts has compared
              refine Or.inr (Or.inr ?_)
              obtain ⟨i, block, hblock, -, hid⟩ := Staging.mem_committed_rows hin
              have hlisted := List.mem_map_of_mem (f := BlockRef.id) (List.mem_of_getElem? hblock)
              obtain ⟨p, hp, heq, hupload⟩ := part_row_of_verified hc.verified hlisted
              exact ⟨p, hp, heq.trans hid.symm, hupload.symm⟩
          · rw [hc.books.multipart_part_blocks] at hin
            have hin := (mem_deleteWhere.mp hin).1
            rwa [multipart_part_blocks_without_object] at hin
  | abort_upload_with_blocks now upload_id =>
      obtain ⟨hobjects, hparts⟩ := habort db now upload_id
      exact traced_of_subset (fun _ h => hobjects ▸ h) hparts
  | expire_uploads now before =>
      have hall := expire_uploads_induction (P := fun d => d.object_blocks = db.object_blocks
        ∧ d.multipart_part_blocks ⊆ db.multipart_part_blocks) now before ⟨rfl, fun _ h => h⟩
        (fun d id hd => ⟨(habort d now id).1.trans hd.1, fun _ h => hd.2 ((habort d now id).2 h)⟩)
      exact traced_of_subset (fun _ h => hall.1 ▸ h) hall.2
  | delete_object now bucket key condition =>
      refine transaction_cases (hrefl _) (fun db' deleted hok => ?_)
      obtain ⟨-, rfl, -⟩ := delete_object_tx_ok hok
      have hdone := books_decrement_blocks (without_object db bucket key) now
        (held_by_object db bucket key)
      refine traced_of_subset (fun r hr => ?_) (fun r hr => ?_)
      · exact object_blocks_without_object bucket key (hdone.object_blocks ▸ hr)
      · rwa [hdone.multipart_part_blocks, multipart_part_blocks_without_object] at hr
  | copy_object now source bucket key metadata condition =>
      refine transaction_cases (hrefl _) (fun db' released hok => ?_)
      have hc := copy_object_tx_ok hok
      refine ⟨fun r hin => ?_, fun r hin => Or.inl ?_⟩
      · rw [hc.books.object_blocks] at hin
        rcases List.mem_append.mp hin with hin | hin
        · exact Or.inl (object_blocks_without_object _ _ hin)
        · -- the copy trusts its snapshot: its blocks are given, not read
          obtain ⟨block, hblock, rfl⟩ := List.mem_map.mp hin
          exact Or.inr (Or.inl (List.mem_map_of_mem hblock))
      · rw [hc.books.multipart_part_blocks] at hin
        exact multipart_part_blocks_without_object db bucket key ▸ hin
  | queue_stale_block now block_id => exact hbooks (books_queue_stale_block db now block_id)
  | gc_success block_id =>
      change Traced db _ (gc_success db block_id)
      unfold gc_success
      split
      · split_ifs <;> exact traced_of_subset (fun _ h => h) (fun _ h => h)
      · exact hrefl _
  | gc_failure block_id error next_attempt => exact hbooks (books_update_queue db block_id _)
  | gc_orphan block_id error => exact hbooks (books_update_queue db block_id _)

end Rows

/-! ### What an operation does to its account -/

section Effect

variable {db db' : Database} {upload_id : String} {b : Int} {op : Op}

/-- A step that takes counts off the account, as many as references go. -/
def Releases (b : Int) (db db' : Database) : Prop :=
  ∃ k, db'.account b = (db.account b).map (release k) ∧ db.refs b = db'.refs b + k

/-- What becomes of the account of a block that an operation leaves to the attempt: it is
released; or a part lists the block now and the account is as before; or the block is claimed,
or its row removed. -/
inductive Effect (b : Int) (db : Database) (op : Op) : Prop
  | released (h : Releases b db (op.apply db))
  | listed (haccount : (op.apply db).account b = db.account b) (hrefs : 0 < (op.apply db).refs b)
  | claimed (haccount : (op.apply db).account b = (db.account b).map claim)
  | removed (hop : op = .gc_success b) (haccount : (op.apply db).account b = none)

/-- To release nothing is to do nothing. -/
theorem account_release_zero (db : Database) (b : Int) :
    (db.account b).map (release 0) = db.account b := by
  have hid : release 0 = id := funext release_zero
  simp [hid]

/-- A step that leaves the account and the references of a block alone releases it zero times. -/
theorem Releases.same (haccount : db'.account b = db.account b) (hrefs : db'.refs b = db.refs b) :
    Releases b db db' := by
  exact ⟨0, haccount.trans (account_release_zero db b).symm, hrefs.symm⟩

/-- Releases add up, and so do the references that they give back. -/
theorem Releases.trans {db'' : Database} (h : Releases b db db') (h' : Releases b db' db'') :
    Releases b db db'' := by
  obtain ⟨k, haccount, hrefs⟩ := h
  obtain ⟨k', haccount', hrefs'⟩ := h'
  refine ⟨k + k', ?_, by omega⟩
  rw [haccount', haccount, Option.map_map]
  exact congrArg (Option.map · _) (funext (release_release k' k))

/-- The releases that come with rows that go: the books of what is left. -/
theorem releases_decrement {rest : Database} {now : Int} {blocks : List BlockRef}
    (haccount : rest.account b = db.account b) (hrefs : db.refs b = rest.refs b + times b blocks) :
    Releases b db (decrement_blocks rest now blocks) := by
  refine ⟨times b blocks, ?_, ?_⟩
  · rw [account_decrement_blocks, haccount]
  · rw [(books_decrement_blocks rest now blocks).refs, hrefs]

/-- An abort releases each block as often as its upload refers to it. -/
theorem releases_abort (hwf : WellFormed db) (now : Int) (upload_id : String) :
    Releases b db (abort_upload_with_blocks db now upload_id).1 := by
  rcases abort_upload_with_blocks_eq db now upload_id with heq | heq
  · rw [heq]
    exact .same rfl rfl
  · rw [heq]
    exact releases_decrement rfl (hwf.refs_delete_upload upload_id b)

/-- The expiry is one abort after the other. -/
theorem releases_expire (hwf : WellFormed db) (now before : Int) :
    Releases b db (expire_uploads db now before) :=
  (expire_uploads_induction (P := fun d => WellFormed d ∧ Releases b db d) now before
    ⟨hwf, .same rfl rfl⟩ (fun _ id hd => ⟨wellFormed_abort_upload hd.1 now id,
      hd.2.trans (releases_abort hd.1 now id)⟩)).2

/-- A commit of other blocks takes off what the old object held and what it leaves unused. -/
theorem releases_commit (hwf : WellFormed db) {now : Int} {id : String} {size : Int} {etag : String}
    {parts : List PartRecord} {condition : ObjectCondition} {upload : UploadRecord}
    {released : List BlockRef} (hother : times b (parts.flatMap (·.blocks)) = 0)
    (hc : Committed db now id size etag parts condition upload released db') :
    Releases b db db' := by
  have hobject := hwf.refs_without_object upload.bucket upload.key b
  have hupload := (hwf.without_object upload.bucket upload.key).refs_delete_upload upload.upload_id b
  have hid : upload.upload_id = id := (lookup_mem hc.upload_row).2
  have hheld := times_held_by_upload hwf hc.verified b
  rw [hid, held_by_upload_without_object] at hupload
  refine ⟨times b (held_by_object db upload.bucket upload.key)
    + times b (unused_blocks db id parts), ?_, ?_⟩
  · rw [hc.account, hother]
    exact congrArg (Option.map · _) (funext fun a => release_release _ _ a)
  · rw [hc.books.refs, refs_commit_target, hid]
    omega

/-- A copy of other blocks takes off what the old object held. -/
theorem releases_copy (hwf : WellFormed db) {now : Int} {source : ObjectRecord} {bucket key : String}
    {metadata : ObjectMetadata} {condition : ObjectCondition} {released : List BlockRef}
    (hother : b ∉ source.blocks.map (·.id))
    (hc : Copied db now source bucket key metadata condition released db') : Releases b db db' := by
  have hzero : times b source.blocks = 0 := List.count_eq_zero.mpr hother
  refine ⟨times b (held_by_object db bucket key), ?_, ?_⟩
  · rw [hc.account, hzero]
    rfl
  · rw [hc.books.refs, refs_copy_target, hzero]
    exact hwf.refs_without_object bucket key b

/-- A part that lists the block, or one that does not and takes off what the old one held. -/
theorem effect_replace (hwf : WellFormed db) {now : Int} {id : String} {part_number size : Int}
    {etag : String} {blocks released : List BlockRef}
    (happly : (Op.replace_part now id part_number size etag blocks).apply db = db')
    (hr : Replaced db id part_number size etag blocks released db') :
    Effect b db (.replace_part now id part_number size etag blocks) := by
  have hrefs : db'.refs b = (db.delete_part id part_number).refs b + times b blocks := by
    rw [hr.books.refs, refs_replace_target]
  by_cases hnew : b ∈ blocks.map (·.id)
  · -- a block that the new part lists is not released with the old one
    have hk : times b (released_by_part db id part_number blocks) = 0 := by
      refine List.count_eq_zero.mpr fun hin => ?_
      obtain ⟨block, hblock, rfl⟩ := List.mem_map.mp hin
      exact of_decide_eq_true (List.mem_filter.mp hblock).2 hnew
    refine .listed ?_ ?_
    · rw [happly, hr.account, hk]
      exact account_release_zero db b
    · rw [happly, hrefs]
      have := times_pos.mpr hnew
      omega
  · have hzero : times b blocks = 0 := List.count_eq_zero.mpr hnew
    refine .released ⟨times b (held_by_part db id part_number), ?_, ?_⟩
    · rw [happly, hr.account, times_released_by_part hnew]
    · rw [happly, hrefs, hzero]
      exact hwf.refs_delete_part id part_number b

/-- **The effect of an operation** on a block that it leaves to the attempt. -/
theorem effect_apply (hwf : WellFormed db) (h : Held upload_id b db) (hmild : Mild upload_id b db op) :
    Effect b db op := by
  have hsame : op.apply db = db → Effect b db op := fun heq =>
    .released (.same (congrArg (·.account b) heq) (congrArg (·.refs b) heq))
  cases op with
  | create_bucket now name => exact .released (.same rfl rfl)
  | delete_bucket name =>
      refine .released ?_
      change Releases b db (delete_bucket db name).1
      unfold delete_bucket
      split_ifs <;> exact .same rfl rfl
  | set_bucket_cors now bucket configuration =>
      refine .released ?_
      change Releases b db (set_bucket_cors db now bucket configuration)
      unfold set_bucket_cors
      split_ifs <;> exact .same rfl rfl
  | delete_bucket_cors bucket => exact .released (.same rfl rfl)
  | create_upload upload =>
      refine .released (transaction_cases (P := Releases b db) (.same rfl rfl) fun db' u hok => ?_)
      obtain ⟨_, -, hok⟩ := bind_ok.mp hok
      obtain ⟨db₁, hinsert, hok⟩ := bind_ok.mp hok
      obtain ⟨rfl, -⟩ := Prod.mk.inj (Except.ok.inj hok)
      obtain ⟨rfl, -⟩ := insert_upload_ok hinsert
      exact .same rfl rfl
  | add_staged_block now block => exact absurd rfl (hmild.stored now block)
  | replace_part now id part_number size etag blocks =>
      cases hbody : replace_part_tx db now id part_number size etag blocks with
      | error e => exact hsame (congrArg (fun t => (transaction db t).1) hbody)
      | ok r =>
          exact effect_replace hwf (congrArg (fun t => (transaction db t).1) hbody)
            (replace_part_tx_ok hbody)
  | commit_upload now id size etag parts condition =>
      by_cases hown : id = upload_id
      · exact hsame (hmild.commit hown)
      · refine .released (transaction_cases (P := Releases b db) (.same rfl rfl)
          fun db' result hok => ?_)
        cases result with
        | none => exact commit_upload_tx_none hok ▸ .same rfl rfl
        | some r =>
            have hc := commit_upload_tx_ok hok
            refine releases_commit hwf (List.count_eq_zero.mpr fun hlisted => ?_) hc
            -- the part would be a part of the attempt
            obtain ⟨p, hp, hid, hupload⟩ := part_row_of_verified hc.verified hlisted
            exact hown (hupload.symm.trans (h.parts p hp hid))
  | abort_upload_with_blocks now id => exact .released (releases_abort hwf now id)
  | expire_uploads now before => exact .released (releases_expire hwf now before)
  | delete_object now bucket key condition =>
      refine .released (transaction_cases (P := Releases b db) (.same rfl rfl)
        fun db' deleted hok => ?_)
      obtain ⟨-, rfl, -⟩ := delete_object_tx_ok hok
      exact releases_decrement (account_without_object db bucket key b)
        (hwf.refs_without_object bucket key b)
  | copy_object now source bucket key metadata condition =>
      by_cases hnamed : b ∈ source.blocks.map (·.id)
      · exact hsame ((hmild.given hnamed).resolve_right id)
      · exact .released (transaction_cases (P := Releases b db) (.same rfl rfl)
          fun db' released hok => releases_copy hwf hnamed (copy_object_tx_ok hok))
  | queue_stale_block now block_id =>
      have haccount := account_queue_stale_block db now block_id b
      by_cases hclaimed : b = block_id ∧ db.refs b = 0
      · refine .claimed (haccount.trans ?_)
        rw [if_pos hclaimed]
        refine Option.map_congr fun a ha => ?_
        rw [if_pos (h.account a ha).1]
      · -- another block, or one that is referred to, which a claim passes over
        rw [if_neg hclaimed] at haccount
        exact .released (.same haccount ((books_queue_stale_block db now block_id).refs b))
  | gc_success block_id =>
      have haccount := account_gc_success hwf block_id b
      have hrefs := refs_gc_success db block_id b
      by_cases hfree : b = block_id ∧ db.refs b = 0
      · rw [if_pos hfree] at haccount
        cases ha : (db.account b).filter (·.count ≠ 0) with
        | none => exact .removed (hfree.1 ▸ rfl) (haccount.trans ha)
        | some a =>
            -- the row is counted, and the DELETE matches only ref_count = 0
            have hkept := (Option.filter_eq_some_iff.mp ha).1
            exact .released (.same ((haccount.trans ha).trans hkept.symm) hrefs)
      · rw [if_neg hfree] at haccount
        exact .released (.same haccount hrefs)
  | gc_failure block_id error next_attempt =>
      exact .released (.same (account_update_queue db block_id b fun _ => rfl) rfl)
  | gc_orphan block_id error =>
      exact .released (.same (account_update_queue db block_id b fun _ => rfl) rfl)

/-- **The block stays the attempt's.** -/
theorem Held.apply (hwf : WellFormed db) (h : Held upload_id b db)
    (hmild : Mild upload_id b db op) : Held upload_id b (op.apply db) := by
  have htraced : Traced db op (op.apply db) := traced_apply op
  refine ⟨fun a' ha' => ?_, fun r hr heq => ?_, fun r hr heq => ?_⟩
  · cases effect_apply hwf h hmild with
    | released hreleases =>
        obtain ⟨k, haccount, -⟩ := hreleases
        rw [haccount, Option.map_eq_some_iff] at ha'
        obtain ⟨a, ha, rfl⟩ := ha'
        obtain ⟨hstaged, hcount, hqueued⟩ := h.account a ha
        refine ⟨hstaged, Nat.le_trans (Nat.sub_le _ _) hcount, fun hq => ?_⟩
        simp only [release, Bool.or_eq_true, decide_eq_true_eq] at hq ⊢
        -- queued before, or by this release, which takes the last count
        rcases hq with hq | ⟨-, hzero⟩
        · rw [hqueued hq, Nat.zero_sub]
        · exact hzero
    | listed haccount hrefs => exact h.account a' (haccount ▸ ha')
    | claimed haccount =>
        rw [haccount, Option.map_eq_some_iff] at ha'
        obtain ⟨a, ha, rfl⟩ := ha'
        exact ⟨(h.account a ha).1, Nat.zero_le 1, fun _ => rfl⟩
    | removed hop haccount =>
        rw [haccount] at ha'
        cases ha'
  · -- a refused operation adds no row, and the others name no such block
    rcases htraced.objects r hr with hold | hgiven | ⟨p, hp, hid, hcommits⟩
    · exact h.objects r hold heq
    · rcases hmild.given (heq ▸ hgiven) with hsame | hreplaces
      · exact h.objects r (hsame ▸ hr) heq
      · cases op with
        | replace_part now id part_number size etag blocks =>
            have hkept : ((Op.replace_part now id part_number size etag blocks).apply db).object_blocks
                = db.object_blocks :=
              transaction_cases (P := fun d => d.object_blocks = db.object_blocks) rfl
                fun db' released hok => (replace_part_tx_ok hok).books.object_blocks
            exact h.objects r (hkept ▸ hr) heq
        | _ => exact hreplaces
    · have hown := h.parts p hp (hid.trans heq)
      exact h.objects r (hmild.commit (hown ▸ hcommits) ▸ hr) heq
  · rcases htraced.parts r hr with hold | ⟨hreplaces, hgiven⟩
    · exact h.parts r hold heq
    · rcases hmild.given (heq ▸ hgiven) with hsame | hown
      · exact h.parts r (hsame ▸ hr) heq
      · cases op with
        | replace_part now id part_number size etag blocks => exact hreplaces.symm.trans hown
        | _ => exact hown.elim

/-- **Nobody starts to wait**: a block that nothing refers to after the operation, and that is
not queued, was so before. The last reference takes the last count with it, and queues it. -/
theorem waiting_before (hwf : WellFormed db) (h : Held upload_id b db)
    (hmild : Mild upload_id b db op) (hthere : (op.apply db).account b ≠ none)
    (hwaiting : Waiting b (op.apply db)) : Waiting b db := by
  obtain ⟨hrefs', hqueued'⟩ := hwaiting
  obtain ⟨a', ha'⟩ := Option.ne_none_iff_exists'.mp hthere
  rw [queued_iff_account ha'] at hqueued'
  cases effect_apply hwf h hmild with
  | released hreleases =>
      obtain ⟨k, haccount, hrefs⟩ := hreleases
      rw [haccount, Option.map_eq_some_iff] at ha'
      obtain ⟨a, ha, rfl⟩ := ha'
      obtain ⟨-, hcount, -⟩ := h.account a ha
      simp only [release, Bool.or_eq_true, decide_eq_true_eq, not_or, not_and] at hqueued'
      obtain ⟨hqueued, hlast⟩ := hqueued'
      -- the count is one at most, so that a release that takes anything queues the block
      have hk : k = 0 := by
        by_contra hk
        exact hlast (Nat.pos_of_ne_zero hk) (by omega)
      exact ⟨by omega, fun hq => hqueued ((queued_iff_account ha).mp hq)⟩
  | listed haccount hrefs => omega
  | claimed haccount =>
      -- the claim queues it
      rw [haccount, Option.map_eq_some_iff] at ha'
      obtain ⟨a, -, rfl⟩ := ha'
      exact absurd rfl hqueued'
  | removed hop haccount => exact absurd haccount hthere

end Effect

/-! ## The attempt and the others -/

/-- The engine, and the blocks that one upload has staged so far. -/
structure Watched where
  w : World
  staged : List BlockRef := []

/-- The block that a step stages for this upload. -/
def stages (upload_id : String) (w : World) : Action → Option BlockRef
  | .stage call spec document =>
      if call.upload_id = upload_id then
        some (uploaded_block w.chat_id w.db.next_block_id spec document)
      else none
  | _ => none

def watch (upload_id : String) (s : Watched) (a : Action) : Option Watched :=
  (step s.w a).map fun w =>
    { w := w, staged := s.staged ++ (stages upload_id s.w a).toList }

/-- The steps of the attempt: those of its call, the cleanup of its blocks, its abort. -/
def Own (upload_id : String) (s : Watched) : Action → Prop
  | .start_task call _ | .stage call _ _ | .finish call _ | .fail call | .replace_part call
  | .commit_upload call _ | .drop call => call.upload_id = upload_id
  | .claim reference | .delete_claimed reference | .cleanup_success reference =>
      reference ∈ s.staged
  | .request (.abort_upload_with_blocks _ id) => id = upload_id
  | _ => False

/-- The attempt does not come to its end: the process dies, its request is dropped before its
blocks are attached, or the database fails in the cleanup of one of its blocks. -/
def Cut (upload_id : String) (s : Watched) : Action → Prop
  | .crash => True
  | .drop call => call.upload_id = upload_id ∧ call.phase ≠ .replaced
  | .claim_error reference => reference ∈ s.staged
  | _ => False

/-- Nobody writes the object at the key, and the attempt does not either: its commit does not go
through. And it is not cut. -/
def Fair (upload : UploadRecord) (s : Watched) (a : Action) : Prop :=
  (∀ op ∈ a.op s.w, Elsewhere upload.bucket upload.key s.w.db op) ∧ ¬ Cut upload.upload_id s a

instance (upload_id : String) (s : Watched) (a : Action) : Decidable (Cut upload_id s a) := by
  unfold Cut
  split <;> infer_instance

instance (upload : UploadRecord) (s : Watched) (a : Action) : Decidable (Fair upload s a) :=
  inferInstanceAs (Decidable (_ ∧ _))

/-- The row of the block, with its document. -/
def Present (db : Database) (block : BlockRef) : Prop :=
  ∃ row ∈ db.telegram_blocks, row.id = block.id ∧ row.message_id = block.message_id

/-- No other task takes up the row of a block of the attempt: a transaction that is given its id
is refused, and its row is removed only by somebody who knows it with its message. -/
def Spared (upload_id : String) (s : Watched) (a : Action) : Prop :=
  ∀ block ∈ s.staged, Present s.w.db block → ∀ op ∈ a.op s.w,
    (block.id ∈ op.given → op.apply s.w.db = s.w.db ∨ replaces upload_id op)
      ∧ (op = .gc_success block.id → op.apply s.w.db = s.w.db
          ∨ Removal.confirms a = some block.message_id)

instance (db : Database) (block : BlockRef) : Decidable (Present db block) :=
  inferInstanceAs (Decidable (∃ row ∈ db.telegram_blocks, _))

instance (upload_id : String) (s : Watched) (a : Action) : Decidable (Spared upload_id s a) :=
  inferInstanceAs (Decidable (∀ block ∈ s.staged, _ → ∀ op ∈ a.op s.w, _))

/-- A step of the attempt leaves the accounts of the blocks of the object at the key. -/
def KeepsCounts (upload : UploadRecord) (s : Watched) (a : Action) : Prop :=
  Own upload.upload_id s a → ∀ s', watch upload.upload_id s a = some s' →
    ∀ o ∈ get_object s.w.db upload.bucket upload.key, ∀ block ∈ o.blocks,
      s'.w.db.account block.id = s.w.db.account block.id

/-- The attempt has ended: no call of it runs, and none of its blocks waits for its cleanup. -/
def Over (upload_id : String) (s : Watched) : Prop :=
  (∀ call ∈ s.w.uploads, call.upload_id ≠ upload_id) ∧ ∀ block ∈ s.staged, block ∉ s.w.cleanups

instance (upload_id : String) (s : Watched) : Decidable (Over upload_id s) :=
  inferInstanceAs (Decidable (_ ∧ _))

/-- The last thing a PUT does that fails: it aborts its upload. -/
def abort (upload : UploadRecord) (now : Int) : Action :=
  .request (.abort_upload_with_blocks now upload.upload_id)

/-- The row of the block is gone, and its message was deleted. -/
def Removed (w : World) (block : BlockRef) : Prop :=
  (∀ row ∈ w.db.telegram_blocks, row.message_id ≠ block.message_id)
    ∧ block.message_id ∈ w.deleted

/-- The object at the key reads as it did before the attempt, nothing is left of its upload, and
each of its blocks is removed with its message, or left to the collector. -/
structure LeavesNoTrace (upload : UploadRecord) (w₀ : World) (s : Watched) : Prop where
  object : get_object s.w.db upload.bucket upload.key
    = get_object w₀.db upload.bucket upload.key
  row : s.w.db.upload? upload.upload_id = none
  parts : ∀ part ∈ s.w.db.multipart_parts, part.upload_id ≠ upload.upload_id
  part_blocks : ∀ row ∈ s.w.db.multipart_part_blocks, row.upload_id ≠ upload.upload_id
  staged : ∀ block ∈ s.staged,
    Removed s.w block ∨ (Present s.w.db block ∧ Transfer.LeftToGc s.w.db block)

/-! ### What the engine remembers -/

section Memory

variable {w w' : World} {a : Action} {upload_id : String} {block : BlockRef}

/-- Somebody who will clean the block up knows it: a call of the attempt whose part is not there
yet, or the list of cleanups. -/
def Remembered (upload_id : String) (w : World) (block : BlockRef) : Prop :=
  (∃ call ∈ w.uploads, call.upload_id = upload_id ∧ call.phase ≠ .replaced ∧ block ∈ call.blocks)
    ∨ block ∈ w.cleanups

/-- What is remembered stays so while the lists only grow. -/
theorem Remembered.mono (h : Remembered upload_id w block) (huploads : w.uploads ⊆ w'.uploads)
    (hcleanups : w.cleanups ⊆ w'.cleanups) : Remembered upload_id w' block :=
  h.imp (fun ⟨call, hcall, hrest⟩ => ⟨call, huploads hcall, hrest⟩) (fun hin => hcleanups hin)

/-- A call goes on, with its blocks. -/
theorem Remembered.advance {call call' : UploadCall} (h : Remembered upload_id w block)
    (hid : call'.upload_id = call.upload_id) (hphase : call'.phase ≠ .replaced)
    (hblocks : call.blocks ⊆ call'.blocks) : Remembered upload_id (w.advance call call') block := by
  rcases h with ⟨c, hc, hown, hrest, hmem⟩ | hin
  · left
    by_cases heq : c = call
    · subst heq
      exact ⟨call', List.mem_cons_self, hid.trans hown, hphase, hblocks hmem⟩
    · exact ⟨c, List.mem_cons_of_mem _ ((List.mem_erase_of_ne heq).mpr hc), hown, hrest, hmem⟩
  · exact Or.inr hin

/-- A call that is over was not the one that knows the block. -/
theorem Remembered.finished {call : UploadCall} (h : Remembered upload_id w block)
    (hother : call.upload_id = upload_id → call.phase = .replaced) :
    Remembered upload_id (w.finished call) block := by
  refine h.imp (fun ⟨c, hc, hown, hphase, hmem⟩ => ⟨c, ?_, hown, hphase, hmem⟩) id
  refine (List.mem_erase_of_ne ?_).mpr hc
  rintro rfl
  exact hphase (hother hown)

/-- The blocks of a call that fails go to the cleanups. -/
theorem Remembered.failed {call : UploadCall} (h : Remembered upload_id w block) :
    Remembered upload_id (w.failed call) block := by
  rcases h with ⟨c, hc, hown, hphase, hmem⟩ | hin
  · by_cases heq : c = call
    · exact Or.inr (List.mem_append_right _ (heq ▸ hmem))
    · exact Or.inl ⟨c, (List.mem_erase_of_ne heq).mpr hc, hown, hphase, hmem⟩
  · exact Or.inr (List.mem_append_left _ hin)

/-- **What a step forgets.** A block that is remembered is remembered after the step, or it has
been claimed, or its part is there. -/
theorem remembered_step {staged : List BlockRef} (h : Remembered upload_id w block)
    (hstaged : block ∈ staged) (hcut : ¬ Cut upload_id ⟨w, staged⟩ a) (hstep : step w a = some w') :
    Remembered upload_id w' block ∨ a = .claim block
      ∨ ∃ call released, a = .replace_part call ∧ block ∈ call.blocks
          ∧ Replaced w.db call.upload_id call.part_number call.next_offset call.etag call.blocks
              released w'.db := by
  have hkept : w'.uploads = w.uploads → w'.cleanups = w.cleanups → Remembered upload_id w' block :=
    fun huploads hcleanups => h.mono (huploads ▸ fun _ h => h) (hcleanups ▸ fun _ h => h)
  cases a with
  | put_object upload =>
      simp only [step] at hstep
      split_ifs at hstep
      split at hstep
      · obtain rfl := Option.some.inj hstep
        exact Or.inl (h.mono (fun _ hc => List.mem_cons_of_mem _ hc) fun _ hr => hr)
      · cases hstep
  | upload_part id part_number =>
      simp only [step] at hstep
      split at hstep
      · cases hstep
      · split_ifs at hstep
        obtain rfl := Option.some.inj hstep
        exact Or.inl (h.mono (fun _ hc => List.mem_cons_of_mem _ hc) fun _ hr => hr)
  | start_task call size =>
      simp only [step] at hstep
      split_ifs at hstep with hcond
      obtain rfl := Option.some.inj hstep
      exact Or.inl (h.advance rfl (by simp [hcond.2.1]) fun _ hb => hb)
  | stage call spec document =>
      simp only [step] at hstep
      split_ifs at hstep with hcond
      split at hstep
      · rename_i w₁ new hrecord
        obtain ⟨-, -, rfl, -⟩ := record_ok hrecord
        obtain rfl := Option.some.inj hstep
        have hsame : Remembered upload_id { w with
            db := { w.db with telegram_blocks := w.db.telegram_blocks ++
              [staged_row w.now (uploaded_block w.chat_id 0 spec document) w.db.next_block_id] }
            sent := document.message_id :: w.sent } block := h
        exact Or.inl (hsame.advance rfl (by simp [hcond.2.1]) (List.subset_append_left _ _))
      · cases hstep
  | stage_late spec document =>
      simp only [step] at hstep
      split at hstep
      · rename_i w₁ new hrecord
        obtain ⟨-, -, rfl, -⟩ := record_ok hrecord
        obtain rfl := Option.some.inj hstep
        exact Or.inl (h.mono (fun _ hc => hc) (List.subset_append_left _ _))
      · cases hstep
  | lose spec document =>
      simp only [step] at hstep
      split at hstep
      · rename_i w₁ new hrecord
        obtain ⟨-, -, rfl, -⟩ := record_ok hrecord
        obtain rfl := Option.some.inj hstep
        exact Or.inl h
      · cases hstep
  | finish call etag =>
      simp only [step] at hstep
      split_ifs at hstep
      obtain rfl := Option.some.inj hstep
      exact Or.inl (h.advance rfl (by simp) fun _ hb => (List.mem_insertionSort _).mpr hb)
  | fail call =>
      simp only [step] at hstep
      split_ifs at hstep
      obtain rfl := Option.some.inj hstep
      exact Or.inl h.failed
  | replace_part call =>
      obtain ⟨hcall, -, -, ⟨hdb, huploads, hcleanups⟩ | ⟨released, hreplaced, huploads, hcleanups⟩⟩ :=
        Uploads.step_replace_part hstep
      · -- refused: the blocks go to the cleanups
        have hfailed : Remembered upload_id (w.failed call) block := h.failed
        refine Or.inl (hfailed.mono ?_ ?_)
        · exact huploads ▸ fun _ hc => hc
        · exact hcleanups ▸ fun _ hc => hc
      · rcases h with ⟨c, hc, hown, hphase, hmem⟩ | hin
        · by_cases heq : c = call
          · exact Or.inr (Or.inr ⟨call, released, rfl, heq ▸ hmem, hreplaced⟩)
          · -- another call of the attempt goes on as it was
            refine Or.inl (Or.inl ⟨c, ?_, hown, hphase, hmem⟩)
            rw [huploads]
            exact List.mem_cons_of_mem _ ((List.mem_erase_of_ne heq).mpr hc)
        · exact Or.inl (Or.inr (hcleanups ▸ hin))
  | commit_upload call condition =>
      simp only [step] at hstep
      split_ifs at hstep with hcond
      obtain rfl := Option.some.inj hstep
      exact Or.inl (Remembered.finished (w := { w with db := _ }) h fun _ => hcond.2.1)
  | drop call =>
      simp only [step] at hstep
      split_ifs at hstep
      obtain rfl := Option.some.inj hstep
      -- the registry of a call that is dropped dies with its task
      refine Or.inl (h.finished fun hown => ?_)
      by_contra hphase
      exact hcut ⟨hown, hphase⟩
  | claim reference =>
      by_cases heq : block = reference
      · exact Or.inr (Or.inl (heq ▸ rfl))
      · simp only [step] at hstep
        split_ifs at hstep
        left
        split at hstep <;>
        · obtain rfl := Option.some.inj hstep
          exact h.imp id fun hin => (List.mem_erase_of_ne heq).mpr hin
  | claim_error reference =>
      simp only [step] at hstep
      split_ifs at hstep
      obtain rfl := Option.some.inj hstep
      refine Or.inl (h.imp id fun hin => (List.mem_erase_of_ne ?_).mpr hin)
      rintro rfl
      exact hcut hstaged
  | copy_row bucket key =>
      simp only [step] at hstep
      split at hstep
      · obtain rfl := Option.some.inj hstep
        exact Or.inl h
      · cases hstep
  | crash => exact absurd trivial hcut
  | stale_blocks limit | gc_candidates limit | gc_candidate block_id =>
      obtain rfl := Option.some.inj hstep
      exact Or.inl h
  | _ =>
      simp only [step] at hstep
      split_ifs at hstep
      obtain rfl := Option.some.inj hstep
      exact Or.inl (hkept rfl rfl)

/-- Messages that were sent stay sent, and deletions are not taken back. -/
theorem sent_deleted_step (hstep : step w a = some w') :
    w.sent ⊆ w'.sent ∧ w.deleted ⊆ w'.deleted := by
  have hrefl : ∀ l : List Int, l ⊆ l := fun _ _ h => h
  have hcons : ∀ (m : Int) (l : List Int), l ⊆ m :: l := fun _ _ _ h => List.mem_cons_of_mem _ h
  cases a with
  | put_object upload =>
      simp only [step] at hstep
      split_ifs at hstep
      split at hstep
      · obtain rfl := Option.some.inj hstep
        exact ⟨hrefl _, hrefl _⟩
      · cases hstep
  | upload_part id part_number =>
      simp only [step] at hstep
      split at hstep
      · cases hstep
      · split_ifs at hstep
        obtain rfl := Option.some.inj hstep
        exact ⟨hrefl _, hrefl _⟩
  | stage call spec document =>
      simp only [step] at hstep
      split_ifs at hstep
      split at hstep
      · rename_i w₁ new hrecord
        obtain ⟨-, -, rfl, -⟩ := record_ok hrecord
        obtain rfl := Option.some.inj hstep
        exact ⟨hcons _ _, hrefl _⟩
      · cases hstep
  | stage_late spec document | lose spec document =>
      simp only [step] at hstep
      split at hstep
      · rename_i w₁ new hrecord
        obtain ⟨-, -, rfl, -⟩ := record_ok hrecord
        obtain rfl := Option.some.inj hstep
        first
          | exact ⟨hcons _ _, hrefl _⟩
          | exact ⟨hcons _ _, hcons _ _⟩
      · cases hstep
  | discard document =>
      simp only [step] at hstep
      split_ifs at hstep
      obtain rfl := Option.some.inj hstep
      exact ⟨hcons _ _, hcons _ _⟩
  | replace_part call =>
      simp only [step] at hstep
      split_ifs at hstep
      split at hstep <;>
      · obtain rfl := Option.some.inj hstep
        exact ⟨hrefl _, hrefl _⟩
  | claim reference =>
      simp only [step] at hstep
      split_ifs at hstep
      split at hstep <;>
      · obtain rfl := Option.some.inj hstep
        exact ⟨hrefl _, hrefl _⟩
  | delete_claimed reference | delete_unclaimed reference | gc_delete record =>
      simp only [step] at hstep
      split_ifs at hstep
      obtain rfl := Option.some.inj hstep
      exact ⟨hrefl _, hcons _ _⟩
  | copy_row bucket key =>
      simp only [step] at hstep
      split at hstep
      · obtain rfl := Option.some.inj hstep
        exact ⟨hrefl _, hrefl _⟩
      · cases hstep
  | stale_blocks limit | gc_candidates limit | gc_candidate block_id | crash =>
      obtain rfl := Option.some.inj hstep
      exact ⟨hrefl _, hrefl _⟩
  | _ =>
      simp only [step] at hstep
      split_ifs at hstep
      obtain rfl := Option.some.inj hstep
      exact ⟨hrefl _, hrefl _⟩

/-- A deletion is confirmed after it was issued. -/
theorem deleted_of_confirms {m : Int} (hconfirms : Removal.confirms a = some m)
    (hstep : step w a = some w') : m ∈ w.deleted := by
  cases a with
  | cleanup_success reference | gc_success record =>
      simp only [step] at hstep
      split_ifs at hstep with hcond
      obtain rfl := Option.some.inj hconfirms
      exact hcond.2
  | _ => cases hconfirms

/-- The table of blocks with one more row. -/
def stored (db : Database) (row : TelegramBlockRow) : Database :=
  { db with telegram_blocks := db.telegram_blocks ++ [row] }

/-- What a step that records a document does: its row has an id and a message that no row had,
and only a call that stages the block learns of it. -/
structure Recorded (upload_id : String) (w : World) (a : Action) (w' : World)
    (row : TelegramBlockRow) : Prop where
  tables : w'.db = stored w.db row
  new_id : row.id ∉ w.db.telegram_blocks.map (·.id)
  new_message : row.message_id ∉ w.sent
  sent : row.message_id ∈ w'.sent
  count : row.ref_count = 1
  state : row.state = .staged
  block : ∀ block, stages upload_id w a = some block →
    block.id = row.id ∧ block.message_id = row.message_id ∧ Remembered upload_id w' block
  calls : ∀ call' ∈ w'.uploads, call' ∈ w.uploads ∨ ∃ call ∈ w.uploads,
    call'.upload_id = call.upload_id ∧ ∀ block ∈ call'.blocks, block ∈ call.blocks
      ∨ (call.upload_id = upload_id → stages upload_id w a = some block)

/-- The actions that record a document are those that stage it; what they add is one row, with an
id that was free, and one message that was not sent before. -/
theorem recorded_step (upload_id : String) (hstep : step w a = some w')
    (hrecords : records a = true) : ∃ row, Recorded upload_id w a w' row := by
  cases a with
  | stage call spec document =>
      simp only [step] at hstep
      split_ifs at hstep with hcond
      split at hstep
      · rename_i w₁ new hrecord
        obtain ⟨hsent, rfl, rfl, -⟩ := record_ok hrecord
        obtain rfl := Option.some.inj hstep
        refine ⟨_, rfl, nextRowid_not_mem _, hsent, List.mem_cons_self, rfl, rfl, ?_, ?_⟩
        · intro block hstages
          simp only [stages] at hstages
          split_ifs at hstages with hown
          obtain rfl := Option.some.inj hstages
          refine ⟨rfl, rfl, Or.inl ⟨_, List.mem_cons_self, hown, by simp [hcond.2.1], ?_⟩⟩
          exact List.mem_append_right _ List.mem_cons_self
        · intro call' hcall'
          rcases List.mem_cons.mp hcall' with rfl | hold
          · refine Or.inr ⟨call, hcond.1, rfl, fun block hblock => ?_⟩
            rcases List.mem_append.mp hblock with hblock | hblock
            · exact Or.inl hblock
            · exact Or.inr fun hown =>
                (if_pos hown).trans (congrArg some (List.mem_singleton.mp hblock).symm)
          · exact Or.inl (List.mem_of_mem_erase hold)
      · cases hstep
  | stage_late spec document | lose spec document =>
      simp only [step] at hstep
      split at hstep
      · rename_i w₁ new hrecord
        obtain ⟨hsent, -, rfl, -⟩ := record_ok hrecord
        obtain rfl := Option.some.inj hstep
        exact ⟨_, rfl, nextRowid_not_mem _, hsent, List.mem_cons_self, rfl, rfl,
          fun _ hstages => (by cases hstages), fun _ hc => Or.inl hc⟩
      · cases hstep
  | _ => cases hrecords

/-- What the tables and the calls name was drawn: messages, and ids of uploads. -/
structure Drawn (w : World) : Prop where
  wellFormed : WellFormed w.db
  rows : ∀ row ∈ w.db.telegram_blocks, row.message_id ∈ w.sent
  uploads : ∀ u ∈ w.db.multipart_uploads, u.upload_id ∈ w.upload_ids
  calls : ∀ call ∈ w.uploads, call.upload_id ∈ w.upload_ids

/-- At the start no upload has been drawn. -/
theorem drawn_init (chat_id : Int) : Drawn (World.init chat_id) where
  wellFormed := wellFormed_empty
  rows := fun _ h => (by cases h)
  uploads := fun _ h => (by cases h)
  calls := fun _ h => (by cases h)

/-- **Ids of uploads are not drawn twice**, and the tables have only uploads whose ids were
drawn. An action that begins an upload draws a new id; all others only end uploads. -/
theorem Drawn.step (h : Drawn w) (hstep : step w a = some w') : Drawn w' := by
  have hsent := (sent_deleted_step hstep).1
  have hids := Endings.upload_ids_mono hstep
  refine ⟨Removal.wellFormed_step h.wellFormed hstep, fun row' hrow' => ?_,
    Endings.drawn_step h.uploads hstep, fun call' hcall' => ?_⟩
  · cases hrecords : records a with
    | true =>
        obtain ⟨row, hrecorded⟩ := recorded_step "" hstep hrecords
        rw [hrecorded.tables] at hrow'
        rcases List.mem_append.mp hrow' with hold | hnew
        · exact hsent (h.rows row' hold)
        · rw [List.mem_singleton.mp hnew]
          exact hrecorded.sent
    | false =>
        obtain ⟨row, hrow, heq⟩ := Removal.rows_step h.wellFormed hstep hrecords row' hrow'
        exact TelegramBlockRow.message_id_of_frozen heq ▸ hsent (h.rows row hrow)
  · cases hrecords : records a with
    | true =>
        obtain ⟨row, hrecorded⟩ := recorded_step "" hstep hrecords
        rcases hrecorded.calls call' hcall' with hold | ⟨call, hcall, hid, -⟩
        · exact hids (h.calls call' hold)
        · exact hid ▸ hids (h.calls call hcall)
    | false =>
        rcases (Uploads.moves_step hstep hrecords).1.origin call' hcall' with hold
          | ⟨call, hcall, -, hid, -⟩ | ⟨-, -, -, hdrawn | hopen⟩
        · exact hids (h.calls call' hold)
        · exact hid ▸ hids (h.calls call hcall)
        · exact hdrawn
        · obtain ⟨u, hu⟩ := Option.ne_none_iff_exists'.mp hopen
          obtain ⟨hmem, hid⟩ := lookup_mem hu
          exact hid ▸ hids (h.uploads u hmem)

end Memory

/-! ## What every step keeps -/

/-- A block of the attempt: its message was sent and is in its own row at most; and it was
deleted, or the row is the attempt's and somebody remembers it as long as that is needed. -/
structure Tracked (upload_id : String) (w : World) (block : BlockRef) : Prop where
  sent : block.message_id ∈ w.sent
  sole : ∀ row ∈ w.db.telegram_blocks, row.message_id = block.message_id → row.id = block.id
  state : Removed w block ∨ (Present w.db block ∧ Held upload_id block.id w.db
    ∧ (Waiting block.id w.db → Remembered upload_id w block))

/-- What holds between two steps of a run in which nobody else writes at the key. -/
structure Attempt (upload : UploadRecord) (found : Option ObjectRecord) (s : Watched) : Prop where
  drawn : Drawn s.w
  known : upload.upload_id ∈ s.w.upload_ids
  row : ∀ u ∈ s.w.db.multipart_uploads, u.upload_id = upload.upload_id → u = upload
  calls : ∀ call ∈ s.w.uploads, call.upload_id = upload.upload_id → call.blocks ⊆ s.staged
  parts : ∀ r ∈ s.w.db.multipart_part_blocks, r.upload_id = upload.upload_id →
    r.block_id ∈ s.staged.map (·.id)
  object : get_object s.w.db upload.bucket upload.key = found
  apart : ∀ o ∈ found, ∀ block ∈ o.blocks, block.id ∉ s.staged.map (·.id)
  blocks : ∀ block ∈ s.staged, Tracked upload.upload_id s.w block

section Step

variable {db : Database} {w w' : World} {s s' : Watched} {a : Action} {upload : UploadRecord}
  {found : Option ObjectRecord} {block : BlockRef} {op : Op}

/-- A block that is there under its own message has an account. -/
theorem account_ne_none_of_present (h : Present db block) : db.account block.id ≠ none := by
  obtain ⟨row, hrow, hid, -⟩ := h
  exact (account_ne_none db).mpr (hid ▸ List.mem_map_of_mem hrow)

/-- The row that is there after an operation has the document it had. -/
theorem present_apply (hwf : WellFormed db) (hstored : ∀ now block, op ≠ .add_staged_block now block)
    (h : Present db block) (hthere : (op.apply db).account block.id ≠ none) :
    Present (op.apply db) block := by
  obtain ⟨row, hrow, hid, hmessage⟩ := h
  obtain ⟨row', hrow', hid'⟩ := List.mem_map.mp ((account_ne_none _).mp hthere)
  obtain ⟨old, hold, heq⟩ := (leavesFree_apply hwf op hstored).rows row' hrow'
  have hsame : old = row := eq_of_key_eq hwf.block_ids hold hrow
    ((TelegramBlockRow.id_of_frozen heq).trans (hid'.trans hid.symm))
  exact ⟨row', hrow', hid',
    (TelegramBlockRow.message_id_of_frozen heq).symm.trans (hsame ▸ hmessage)⟩

/-- A claim that finds nothing that refers to the block queues it. -/
theorem not_waiting_claimed {upload_id : String} (h : Held upload_id block.id db)
    (hpresent : Present db block) (now : Int) :
    ¬ Waiting block.id (queue_stale_block db now block.id).1 := by
  rintro ⟨hrefs, hqueued⟩
  obtain ⟨a, ha⟩ := Option.ne_none_iff_exists'.mp (account_ne_none_of_present hpresent)
  rw [(books_queue_stale_block db now block.id).refs] at hrefs
  have hclaimed := account_queue_stale_block db now block.id block.id
  rw [if_pos ⟨rfl, hrefs⟩, ha, Option.map_some, if_pos (h.account a ha).1] at hclaimed
  exact hqueued ((queued_iff_account hclaimed).mpr rfl)

/-- A part that lists the block refers to it. -/
theorem not_waiting_replaced {db' : Database} {upload_id : String} {part_number size : Int}
    {etag : String} {blocks released : List BlockRef}
    (h : Replaced db upload_id part_number size etag blocks released db') (hin : block ∈ blocks) :
    ¬ Waiting block.id db' := by
  rintro ⟨hrefs, -⟩
  rw [h.books.refs, refs_replace_target] at hrefs
  have hpos := times_pos.mpr (List.mem_map_of_mem (f := BlockRef.id) hin)
  omega

/-- The commit of an attempt that writes nothing at its key changes nothing. -/
theorem apply_commit_elsewhere {now : Int} {upload_id : String} {size : Int} {etag : String}
    {parts : List PartRecord} {condition : ObjectCondition} {bucket key : String}
    (h : Elsewhere bucket key db (.commit_upload now upload_id size etag parts condition))
    (hrow : ∀ u, db.upload? upload_id = some u → u.bucket = bucket ∧ u.key = key) :
    (Op.commit_upload now upload_id size etag parts condition).apply db = db := by
  refine transaction_cases (P := fun d => d = db) rfl (fun db' result hok => ?_)
  cases result with
  | none => exact commit_upload_tx_none hok
  | some r =>
      obtain ⟨hbucket, hkey⟩ := hrow r.1 (commit_upload_tx_ok hok).upload_row
      exact absurd ((CopySource.written_at_commit hok).trans (by rw [hbucket, hkey])) h.1

/-- **The operations of a fair step** leave a block that is spared to the attempt. -/
theorem mild_step (h : Attempt upload found s) (hfair : Fair upload s a)
    (hspared : Spared upload.upload_id s a) (hstep : step s.w a = some w') (hop : a.op s.w = some op)
    (hblock : block ∈ s.staged) (hpresent : Present s.w.db block) :
    Mild upload.upload_id block.id s.w.db op where
  stored := Removal.op_not_record hstep hop
  given := (hspared block hblock hpresent op hop).1
  commit := by
    intro hcommits
    cases op with
    | commit_upload now id size etag parts condition =>
        refine apply_commit_elsewhere (hfair.1 _ hop) fun u hu => ?_
        obtain ⟨hmem, hid⟩ := lookup_mem hu
        obtain rfl := h.row u hmem (hid.trans hcommits)
        exact ⟨rfl, rfl⟩
    | _ => exact hcommits.elim

/-- **One block through one step** that records nothing. -/
theorem Tracked.quiet (h : Attempt upload found s) (hfair : Fair upload s a)
    (hspared : Spared upload.upload_id s a) (hstep : step s.w a = some w')
    (hrecords : records a = false) (hblock : block ∈ s.staged) :
    Tracked upload.upload_id w' block := by
  obtain ⟨hsent, hsole, hstate⟩ := h.blocks block hblock
  obtain ⟨hsent_step, hdeleted_step⟩ := sent_deleted_step hstep
  have hwf := h.drawn.wellFormed
  have hrows := Removal.rows_step hwf hstep hrecords
  -- a row with the message of the block is the row it had
  have hsole' : ∀ row' ∈ w'.db.telegram_blocks, row'.message_id = block.message_id →
      row'.id = block.id ∧ ∃ row ∈ s.w.db.telegram_blocks, row.message_id = block.message_id := by
    intro row' hrow' hmessage
    obtain ⟨row, hrow, heq⟩ := hrows row' hrow'
    have hsame := (TelegramBlockRow.message_id_of_frozen heq).trans hmessage
    exact ⟨(TelegramBlockRow.id_of_frozen heq).symm.trans (hsole row hrow hsame), row, hrow, hsame⟩
  refine ⟨hsent_step hsent, fun row' hrow' hmessage => (hsole' row' hrow' hmessage).1, ?_⟩
  rcases hstate with ⟨hgone, hdeleted⟩ | ⟨hpresent, hheld, hremembered⟩
  · refine Or.inl ⟨fun row' hrow' hmessage => ?_, hdeleted_step hdeleted⟩
    obtain ⟨-, row, hrow, hsame⟩ := hsole' row' hrow' hmessage
    exact hgone row hrow hsame
  · have hdb := step_db hstep hrecords
    cases hop : a.op s.w with
    | none =>
        -- no transaction: only the lists of the engine move
        rw [hop] at hdb
        have hdb : w'.db = s.w.db := hdb
        rw [Present, hdb]
        refine Or.inr ⟨hpresent, hheld, fun hwaiting => ?_⟩
        rcases remembered_step (hremembered hwaiting) hblock hfair.2 hstep with hkept | rfl
          | ⟨call, -, rfl, -⟩
        · exact hkept
        · cases hop
        · cases hop
    | some op =>
        rw [hop] at hdb
        have hdb : w'.db = op.apply s.w.db := hdb
        have hmild := mild_step h hfair hspared hstep hop hblock hpresent
        by_cases hthere : (op.apply s.w.db).account block.id = none
        · -- the row was removed by somebody who has seen its message deleted
          left
          refine ⟨fun row' hrow' hmessage => ?_, ?_⟩
          · have hid := (hsole' row' hrow' hmessage).1
            refine (account_ne_none _).mpr ?_ (hdb ▸ hthere)
            exact hid ▸ List.mem_map_of_mem hrow'
          · have hsome := account_ne_none_of_present hpresent
            have hremoved : op = .gc_success block.id := by
              cases effect_apply hwf hheld hmild with
              | released hreleases =>
                  obtain ⟨k, haccount, -⟩ := hreleases
                  exact absurd (Option.map_eq_none_iff.mp (haccount.symm.trans hthere)) hsome
              | listed haccount hrefs => exact absurd (haccount.symm.trans hthere) hsome
              | claimed haccount =>
                  exact absurd (Option.map_eq_none_iff.mp (haccount.symm.trans hthere)) hsome
              | removed hop haccount => exact hop
            rcases (hspared block hblock hpresent op hop).2 hremoved with hsame | hconfirms
            · exact absurd (hsame ▸ hthere) hsome
            · exact hdeleted_step (deleted_of_confirms hconfirms hstep)
        · -- the row is still there; if it waits, it did before, and is remembered since then
          right
          rw [hdb]
          refine ⟨present_apply hwf hmild.stored hpresent hthere, hheld.apply hwf hmild,
            fun hwaiting => ?_⟩
          have hbefore := waiting_before hwf hheld hmild hthere hwaiting
          rcases remembered_step (hremembered hbefore) hblock hfair.2 hstep with hkept | rfl
            | ⟨call, released, -, hin, hreplaced⟩
          · exact hkept
          -- what forgets the block queues it, or lists it in a part
          · obtain rfl := Option.some.inj hop
            exact absurd hwaiting (not_waiting_claimed hheld hpresent s.w.now)
          · exact absurd hwaiting (hdb ▸ not_waiting_replaced hreplaced hin)

/-- The blocks of the object are rows of the table. -/
theorem ids_of_object {bucket key : String} {o : ObjectRecord} (hwf : WellFormed db)
    (h : get_object db bucket key = some o) : ∀ block ∈ o.blocks,
      block.id ∈ db.telegram_blocks.map (·.id) := by
  obtain ⟨row, -, rfl⟩ := Option.map_eq_some_iff.mp h
  intro block hblock
  by_contra hmissing
  have hpos := GcSafety.refs_pos_of_loaded hwf (List.mem_map_of_mem (f := BlockRef.id) hblock)
  rw [hwf.refs_missing hmissing] at hpos
  omega

/-- The rows of the attempt's parts list its own blocks. -/
theorem part_blocks_step (h : Attempt upload found s) (hstep : step s.w a = some w')
    (hop : a.op s.w = some op) : ∀ r ∈ (op.apply s.w.db).multipart_part_blocks,
      r.upload_id = upload.upload_id → r.block_id ∈ s.staged.map (·.id) := by
  intro r hr hid
  rcases (traced_apply op).parts r hr with hold | ⟨hreplaces, hgiven⟩
  · exact h.parts r hold hid
  · cases op with
    | replace_part now id part_number size etag blocks =>
        -- the blocks of a part are those its call has staged
        obtain ⟨call, hcall, rfl, -, hcall_id, -⟩ := Uploads.op_replace_part hstep hop
        have hown := hcall_id.trans (hreplaces.trans hid)
        obtain ⟨-, -, -, -, -, rfl⟩ := Op.replace_part.inj (Option.some.inj hop)
        exact List.map_subset _ (h.calls call hcall hown) hgiven
    | _ => exact hreplaces.elim

/-- **A step that records nothing** keeps what holds of the attempt. -/
theorem Attempt.quiet (h : Attempt upload found s) (hfair : Fair upload s a)
    (hspared : Spared upload.upload_id s a) (hstep : step s.w a = some w')
    (hrecords : records a = false) : Attempt upload found ⟨w', s.staged⟩ where
  drawn := h.drawn.step hstep
  known := Endings.upload_ids_mono hstep h.known
  row := by
    intro u hu hid
    rw [step_db hstep hrecords] at hu
    rcases upload_ids_step hstep with ⟨created, hnew, hop, -⟩ | ⟨-, hop⟩
    · -- an upload that begins has an id of its own
      rw [hop] at hu
      rcases Staging.uploads_create_upload s.w.db created u hu with hold | rfl
      · exact h.row u hold hid
      · exact absurd (hid ▸ h.known) hnew
    · cases hop' : a.op s.w with
      | none => exact h.row u (by rwa [hop'] at hu) hid
      | some op =>
          rw [hop'] at hu
          exact h.row u (uploads_apply _ op (fun created heq => hop created (heq ▸ hop')) hu) hid
  calls := by
    intro call' hcall' hid
    rcases (Uploads.moves_step hstep hrecords).1.origin call' hcall' with hold
      | ⟨call, hcall, -, hid', -, -, hblocks, -⟩ | ⟨hblocks, -⟩
    · exact h.calls call' hold hid
    · exact fun b hb => h.calls call hcall (hid'.symm.trans hid) (hblocks.mem_iff.mp hb)
    · rw [hblocks]
      exact List.nil_subset _
  parts := by
    rw [step_db hstep hrecords]
    cases hop : a.op s.w with
    | none => exact h.parts
    | some op => exact part_blocks_step h hstep hop
  object := by
    rw [step_db hstep hrecords]
    cases hop : a.op s.w with
    | none => exact h.object
    | some op => exact (Service.get_object_apply h.drawn.wellFormed (hfair.1 op hop)).trans h.object
  apart := h.apart
  blocks := fun _ hblock => Tracked.quiet h hfair hspared hstep hrecords hblock

/-- A new row is in nobody's way: the objects are read as before. -/
theorem get_object_stored {row : TelegramBlockRow} (hwf : WellFormed db)
    (hnew : row.id ∉ db.telegram_blocks.map (·.id)) (bucket key : String) :
    get_object (stored db row) bucket key = get_object db bucket key := by
  have happart : Transfer.Apart db [row.id] (stored db row) :=
    ⟨rfl, ⟨[row], rfl, fun r hr => List.mem_singleton.mp hr ▸ List.mem_singleton.mpr rfl⟩,
      .refl _ _ _⟩
  refine happart.get_object hwf (Transfer.fresh_of_blocks hwf fun r hr hid => hnew ?_) bucket key
  exact List.mem_singleton.mp hid ▸ List.mem_map_of_mem hr

/-- Another block's row changes nothing for a block that is there. -/
theorem Held.stored {upload_id : String} {b : Int} {row : TelegramBlockRow}
    (h : Held upload_id b db) (hnew : row.id ∉ db.telegram_blocks.map (·.id)) (hne : b ≠ row.id) :
    Held upload_id b (stored db row) :=
  ⟨fun a ha => h.account a (((account_insert_block hnew b).trans (if_neg hne)).symm.trans ha),
    h.objects, h.parts⟩

/-- The row of a block that was just stored: nothing lists it yet. -/
theorem held_of_stored {upload_id : String} {row : TelegramBlockRow} (hwf : WellFormed db)
    (hnew : row.id ∉ db.telegram_blocks.map (·.id)) (hcount : row.ref_count = 1)
    (hstate : row.state = .staged) : Held upload_id row.id (stored db row) where
  account := by
    intro a ha
    have haccount : (Attempts.stored db row).account row.id = _ :=
      (account_insert_block hnew row.id).trans (if_pos rfl)
    obtain rfl := Option.some.inj (ha.symm.trans haccount)
    refine ⟨decide_eq_true hstate, Nat.le_of_eq hcount, fun hq => ?_⟩
    exact absurd (of_decide_eq_true hq) (hwf.not_queued_missing hnew)
  objects := fun r hr heq => hnew (heq ▸ hwf.object_block_block r hr)
  parts := fun r hr heq => absurd (heq ▸ hwf.part_block_block r hr) hnew

/-- A block of the attempt through a step that records another one. -/
theorem Tracked.recorded {row : TelegramBlockRow} (h : Attempt upload found s)
    (hfair : Fair upload s a) (hstep : step s.w a = some w') (hrecords : records a = true)
    (hrow : Recorded upload.upload_id s.w a w' row) (hblock : block ∈ s.staged) :
    Tracked upload.upload_id w' block := by
  obtain ⟨hsent, hsole, hstate⟩ := h.blocks block hblock
  obtain ⟨hsent_step, hdeleted_step⟩ := sent_deleted_step hstep
  -- the new row has another message
  have hrows : ∀ r ∈ w'.db.telegram_blocks, r.message_id = block.message_id →
      r ∈ s.w.db.telegram_blocks := by
    intro r hr hmessage
    rw [hrow.tables] at hr
    rcases List.mem_append.mp hr with hold | hnew
    · exact hold
    · rw [List.mem_singleton.mp hnew] at hmessage
      exact absurd (hmessage ▸ hsent) hrow.new_message
  refine ⟨hsent_step hsent, fun r hr hmessage => hsole r (hrows r hr hmessage) hmessage, ?_⟩
  rcases hstate with ⟨hgone, hdeleted⟩ | ⟨⟨r, hr, hid, hmessage⟩, hheld, hremembered⟩
  · exact Or.inl ⟨fun r hr heq => hgone r (hrows r hr heq) heq, hdeleted_step hdeleted⟩
  · have hne : block.id ≠ row.id := fun heq =>
      hrow.new_id (heq ▸ hid ▸ List.mem_map_of_mem hr)
    rw [hrow.tables]
    refine Or.inr ⟨⟨r, List.mem_append_left _ hr, hid, hmessage⟩, hheld.stored hrow.new_id hne,
      fun hwaiting => ?_⟩
    rcases remembered_step (hremembered hwaiting) hblock hfair.2 hstep with hkept | rfl
      | ⟨call, -, rfl, -⟩
    · exact hkept
    · cases hrecords
    · cases hrecords

/-- The block that the attempt has just staged. -/
theorem tracked_of_stages {row : TelegramBlockRow} (h : Drawn s.w)
    (hrow : Recorded upload.upload_id s.w a w' row)
    (hstages : stages upload.upload_id s.w a = some block) : Tracked upload.upload_id w' block := by
  obtain ⟨hid, hmessage, hremembered⟩ := hrow.block block hstages
  refine ⟨hmessage ▸ hrow.sent, fun r hr heq => ?_, Or.inr ⟨⟨row, ?_, hid.symm, hmessage.symm⟩, ?_,
    fun _ => hremembered⟩⟩
  · rw [hrow.tables] at hr
    rcases List.mem_append.mp hr with hold | hnew
    · exact absurd (hmessage ▸ heq ▸ h.rows r hold) hrow.new_message
    · rw [List.mem_singleton.mp hnew, hid]
  · rw [hrow.tables]
    exact List.mem_append_right _ (List.mem_singleton.mpr rfl)
  · rw [hrow.tables, hid]
    exact held_of_stored h.wellFormed hrow.new_id hrow.count hrow.state

/-- **A step that records a block** keeps what holds of the attempt. -/
theorem Attempt.recorded (h : Attempt upload found s) (hfair : Fair upload s a)
    (hstep : step s.w a = some w') (hrecords : records a = true) :
    Attempt upload found ⟨w', s.staged ++ (stages upload.upload_id s.w a).toList⟩ := by
  obtain ⟨row, hrow⟩ := recorded_step upload.upload_id hstep hrecords
  have hwf := h.drawn.wellFormed
  have hsubset : s.staged ⊆ s.staged ++ (stages upload.upload_id s.w a).toList :=
    List.subset_append_left _ _
  refine ⟨h.drawn.step hstep, Endings.upload_ids_mono hstep h.known, ?_, ?_, ?_, ?_, ?_, ?_⟩
  · rw [hrow.tables]
    exact h.row
  · intro call' hcall' hown
    rcases hrow.calls call' hcall' with hold | ⟨call, hcall, hid, hblocks⟩
    · exact fun b hb => hsubset (h.calls call' hold hown hb)
    · have hown := hid.symm.trans hown
      intro b hb
      rcases hblocks b hb with hold | hstaged
      · exact hsubset (h.calls call hcall hown hold)
      · exact List.mem_append_right _ (Option.mem_toList.mpr (hstaged hown))
  · rw [hrow.tables]
    exact fun r hr hown => List.map_subset _ hsubset (h.parts r hr hown)
  · rw [hrow.tables, get_object_stored hwf hrow.new_id]
    exact h.object
  · intro o ho b hb hin
    rw [List.map_append, List.mem_append] at hin
    rcases hin with hin | hin
    · exact h.apart o ho b hb hin
    · -- the new id is no row's, and the object's blocks have rows
      obtain ⟨c, hc, heq⟩ := List.mem_map.mp hin
      have hid := (hrow.block c (Option.mem_toList.mp hc)).1
      refine hrow.new_id ?_
      rw [← hid, heq]
      exact ids_of_object hwf (h.object.trans ho) b hb
  · intro c hc
    rcases List.mem_append.mp hc with hold | hnew
    · exact Tracked.recorded h hfair hstep hrecords hrow hold
    · exact tracked_of_stages h.drawn hrow (Option.mem_toList.mp hnew)

/-- **Every step** of a fair run that spares the blocks keeps what holds of the attempt. -/
theorem Attempt.step (h : Attempt upload found s) (hfair : Fair upload s a)
    (hspared : Spared upload.upload_id s a) (hwatch : watch upload.upload_id s a = some s') :
    Attempt upload found s' := by
  obtain ⟨w', hstep, rfl⟩ := Option.map_eq_some_iff.mp hwatch
  cases hrecords : records a with
  | true => exact h.recorded hfair hstep hrecords
  | false =>
      have hnone : stages upload.upload_id s.w a = none := by
        cases a <;> first | rfl | cases hrecords
      rw [hnone, Option.toList_none, List.append_nil]
      exact h.quiet hfair hspared hstep hrecords

/-- A block that no part of the upload lists is not released with them. -/
theorem times_of_parts (hwf : WellFormed db) {upload_id : String} {b : Int}
    (h : ∀ r ∈ db.multipart_part_blocks, r.upload_id = upload_id → r.block_id ≠ b) :
    times b (held_by_upload db upload_id) = 0 := by
  rw [Endings.times_eq_parts_refs hwf]
  refine references_eq_zero.mpr fun r hr => ?_
  obtain ⟨hmem, hid⟩ := List.mem_filter.mp hr
  exact h r hmem (of_decide_eq_true hid)

/-- The steps of the attempt release its own blocks only. -/
theorem account_own (h : Attempt upload found s) (hfair : Fair upload s a)
    (hown : Own upload.upload_id s a) (hop : a.op s.w = some op) {b : Int}
    (hother : b ∉ s.staged.map (·.id)) : (op.apply s.w.db).account b = s.w.db.account b := by
  have hwf := h.drawn.wellFormed
  have hparts : ∀ r ∈ s.w.db.multipart_part_blocks, r.upload_id = upload.upload_id →
      r.block_id ≠ b := fun r hr hid heq => hother (heq ▸ h.parts r hr hid)
  cases a with
  | request requested =>
      obtain rfl := Option.some.inj hop
      cases requested with
      | abort_upload_with_blocks now id =>
          obtain rfl : id = upload.upload_id := hown
          rcases abort_upload_with_blocks_eq s.w.db now upload.upload_id with heq | heq
          · exact congrArg (·.account b) heq
          · refine (congrArg (·.account b) heq).trans ((account_decrement_blocks _ now _ b).trans ?_)
            rw [times_of_parts hwf hparts]
            exact account_release_zero _ b
      | _ => exact hown.elim
  | replace_part call =>
      obtain rfl := Option.some.inj hop
      have hid : call.upload_id = upload.upload_id := hown
      refine transaction_cases (P := fun d => d.account b = _) rfl (fun db' released hok => ?_)
      have hnone : times b (released_by_part s.w.db call.upload_id call.part_number call.blocks)
          = 0 := by
        -- what the old part held is among the rows of the upload
        have hheld : b ∉ (held_by_part s.w.db call.upload_id call.part_number).map (·.id) := by
          rw [ids_of_rows (hwf.held_by_part call.upload_id call.part_number)]
          intro hin
          obtain ⟨r, hr, heq⟩ := List.mem_map.mp hin
          obtain ⟨hmem, hpart⟩ := List.mem_filter.mp ((List.mem_insertionSort _).mp hr)
          have hpart : r.part = (call.upload_id, call.part_number) := of_decide_eq_true hpart
          exact hparts r hmem ((congrArg Prod.fst hpart).trans hid) heq
        exact List.count_eq_zero.mpr fun hin =>
          hheld (List.map_subset _ (List.filter_subset_self _) hin)
      rw [(replace_part_tx_ok hok).account, hnone]
      exact account_release_zero _ b
  | commit_upload call condition =>
      obtain rfl := Option.some.inj hop
      refine congrArg (·.account b) (apply_commit_elsewhere (hfair.1 _ rfl) fun u hu => ?_)
      obtain ⟨hmem, hid⟩ := lookup_mem hu
      obtain rfl := h.row u hmem (hid.trans hown)
      exact ⟨rfl, rfl⟩
  | claim reference =>
      obtain rfl := Option.some.inj hop
      refine (account_queue_stale_block s.w.db s.w.now reference.id b).trans (if_neg ?_)
      exact fun hclaimed => hother (hclaimed.1 ▸ List.mem_map_of_mem hown)
  | cleanup_success reference =>
      obtain rfl := Option.some.inj hop
      refine (account_gc_success hwf reference.id b).trans (if_neg ?_)
      exact fun hremoved => hother (hremoved.1 ▸ List.mem_map_of_mem hown)
  | _ => first | exact hown.elim | cases hop

/-- **The object at the key keeps its counts** in every step of the attempt. -/
theorem keeps_counts (h : Attempt upload found s) (hfair : Fair upload s a) :
    KeepsCounts upload s a := by
  intro hown s' hwatch o ho block hblock
  obtain ⟨w', hstep, rfl⟩ := Option.map_eq_some_iff.mp hwatch
  have hthere := ids_of_object h.drawn.wellFormed ho block hblock
  cases hrecords : records a with
  | true =>
      obtain ⟨row, hrow⟩ := recorded_step upload.upload_id hstep hrecords
      have hne : block.id ≠ row.id := fun heq => hrow.new_id (heq ▸ hthere)
      exact (congrArg (·.account block.id) hrow.tables).trans
        ((account_insert_block hrow.new_id block.id).trans (if_neg hne))
  | false =>
      refine (congrArg (·.account block.id) (step_db hstep hrecords)).trans ?_
      cases hop : a.op s.w with
      | none => rfl
      | some op => exact account_own h hfair hown hop (h.apart o (h.object.symm.trans ho) block hblock)

/-- **The attempt begins**: its row is new, and so is its call. -/
theorem attempt_begins {w₀ w₁ : World} (h : Drawn w₀)
    (hstep : step w₀ (.put_object upload) = some w₁) :
    Attempt upload (get_object w₀.db upload.bucket upload.key) { w := w₁ } := by
  have hdrawn := h.step hstep
  have hdb : w₁.db = (Op.create_upload upload).apply w₀.db := step_db hstep rfl
  simp only [step] at hstep
  split_ifs at hstep with hcond
  split at hstep
  · obtain rfl := Option.some.inj hstep
    have hnew : upload.upload_id ∉ w₀.upload_ids := fun hin => hcond (Or.inl hin)
    have hrow : upload.upload_id ∉ w₀.db.multipart_uploads.map (·.upload_id) := by
      intro hin
      obtain ⟨u, hu, hid⟩ := List.mem_map.mp hin
      exact hnew (hid ▸ h.uploads u hu)
    refine ⟨hdrawn, List.mem_cons_self, fun u hu hid => ?_, fun call hcall hid => ?_,
      fun r hr hid => ?_, ?_, fun _ _ _ _ => List.not_mem_nil, fun _ hblock => (by cases hblock)⟩
    · rw [hdb] at hu
      rcases Staging.uploads_create_upload w₀.db upload u hu with hold | heq
      · exact absurd (hid ▸ h.uploads u hold) hnew
      · exact heq
    · rcases List.mem_cons.mp hcall with rfl | hold
      · exact List.nil_subset _
      · exact absurd (hid ▸ h.calls call hold) hnew
    · rw [hdb] at hr
      rcases (traced_apply (.create_upload upload)).parts r hr with hold | ⟨hreplaces, -⟩
      · exact absurd hid ((Transfer.no_parts h.wellFormed hrow).2 r hold)
      · exact hreplaces.elim
    · rw [hdb]
      exact Service.get_object_apply h.wellFormed
        ⟨fun heq => (by cases heq), fun _ _ heq => (by cases heq)⟩
  · cases hstep

/-- **What is left** when the row is gone and nobody works on the attempt any more. -/
theorem Attempt.ends {w₀ : World}
    (h : Attempt upload (get_object w₀.db upload.bucket upload.key) s)
    (hrow : s.w.db.upload? upload.upload_id = none) (hover : Over upload.upload_id s) :
    LeavesNoTrace upload w₀ s := by
  have hwf := h.drawn.wellFormed
  obtain ⟨hparts, hpart_blocks⟩ := Transfer.no_parts hwf (lookup_eq_none.mp hrow)
  refine ⟨h.object, hrow, hparts, hpart_blocks, fun block hblock => ?_⟩
  rcases (h.blocks block hblock).state with hremoved | ⟨hpresent, hheld, hremembered⟩
  · exact Or.inl hremoved
  · right
    -- no object lists the block, and the parts that did are gone
    have hobjects : references (·.block_id) block.id s.w.db.object_blocks = 0 :=
      references_eq_zero.mpr hheld.objects
    have hlisted : references (·.block_id) block.id s.w.db.multipart_part_blocks = 0 :=
      references_eq_zero.mpr fun r hr heq => hpart_blocks r hr (hheld.parts r hr heq)
    have hrefs : s.w.db.refs block.id = 0 := by
      simp only [Database.refs, hobjects, hlisted]
    -- unqueued, it would wait for somebody who remembers it, and the attempt is over
    have hqueued : s.w.db.queued block.id := by
      by_contra hnot
      rcases hremembered ⟨hrefs, hnot⟩ with ⟨call, hcall, hown, -⟩ | hin
      · exact hover.1 call hcall hown
      · exact hover.2 block hblock hin
    obtain ⟨a, ha⟩ := Option.ne_none_iff_exists'.mp (account_ne_none_of_present hpresent)
    have hcount := (hheld.account a ha).2.2 ((queued_iff_account ha).mp hqueued)
    obtain ⟨row, hlookup, rfl⟩ := (account_eq_some _).mp ha
    exact ⟨hpresent, ⟨row, hlookup, hcount⟩, hrefs, hqueued⟩

end Step

/-! ## The theorem -/

/-- **A PUT that fails leaves no trace.** Alone, at whatever point it fails and however its tasks
finish, and where the database does not fail in its cleanup, it leaves none exactly if the server
can read its objects back after the commit. And with other tasks at work in between, from any
state of the engine, on any other key: if the attempt comes to its end without a commit, and no
other task takes up one of its blocks, then the object at its key reads as before, its upload is
gone, and each block it has staged is removed with its message or left to the collector; and no
step of it has touched a count of the object at its key. -/
theorem failed_put_leaves_no_trace (env : Env) :
    (env.CleansUp →
      ((∀ (past : List Op) (r : Transfer.Request) (db' : Database) (e : Transfer.UploadError),
          r.Created env (after past) → r.put env (after past) = (db', .error e) →
            NoTrace env (after past) r db')
        ↔ env.ReadsBack))
    ∧ ∀ (chat_id : Int) (past as : List Action) (upload : UploadRecord) (now : Int) (w₀ w₁ : World)
        (s : Watched),
        run step (World.init chat_id) past = some w₀ → step w₀ (.put_object upload) = some w₁ →
        run (watch upload.upload_id) { w := w₁ } (as ++ [abort upload now]) = some s →
        Over upload.upload_id s →
        Meets (watch upload.upload_id) (Fair upload) { w := w₁ } (as ++ [abort upload now]) →
        Meets (watch upload.upload_id) (Spared upload.upload_id) { w := w₁ }
          (as ++ [abort upload now]) →
        LeavesNoTrace upload w₀ s
          ∧ Meets (watch upload.upload_id) (KeepsCounts upload) { w := w₁ }
              (as ++ [abort upload now]) := by
  refine ⟨Transfer.put_alone_leaves_no_trace env, ?_⟩
  intro chat_id past as upload now w₀ w₁ s hpast hbegin hrun hover hfair hspared
  -- from the start of the engine to the start of the attempt, and from there to its end
  have hdrawn : Drawn w₀ := run_inv (C := fun _ _ => True) (fun _ _ _ h _ hstep => h.step hstep)
    (drawn_init chat_id) (Meets.of_forall (fun _ _ => trivial) _ _) hpast
  have hbegun := attempt_begins hdrawn hbegin
  have hboth := hfair.and hspared
  have hkeeps : ∀ s a s', Attempt upload (get_object w₀.db upload.bucket upload.key) s →
      (Fair upload s a ∧ Spared upload.upload_id s a) → watch upload.upload_id s a = some s' →
      Attempt upload (get_object w₀.db upload.bucket upload.key) s' :=
    fun _ _ _ h hC hstep => h.step hC.1 hC.2 hstep
  refine ⟨?_, hboth.of_inv hkeeps (fun _ _ h hC => keeps_counts h hC.1) hbegun⟩
  have hattempt := run_inv hkeeps hbegun hboth hrun
  refine hattempt.ends ?_ hover
  -- the last step is the abort
  obtain ⟨s₁, -, hlast⟩ := run_append.mp hrun
  obtain ⟨s₂, habort, hnil⟩ := run_cons.mp hlast
  obtain rfl : s₂ = s := by simpa using hnil
  obtain ⟨w', hstep, rfl⟩ := Option.map_eq_some_iff.mp habort
  rw [show w'.db = (abort_upload_with_blocks s₁.w.db now upload.upload_id).1 from step_db hstep rfl,
    Endings.upload?_abort, if_pos rfl]

/-! ## The second PUT of a key

The first PUT has stored the object. While the second one is under way, a copy of the object is
made; after an hour the collector claims the first block of the second PUT, whose
`replace_part` is refused for that. One block is removed, the other one is claimed and its
message not deleted. -/

open Tg2s3.GcSafety (document upload_record first_spec second_spec reference put garbage)

/-- A block of five bytes is stored at the key. -/
def stored_at (key upload_id : String) (id message_id : Int) : List Action :=
  let sent := put upload_id 1 [] [reference id first_spec message_id]
  [ .put_object (upload_record upload_id key), .start_task (put upload_id 0 [] []) 5,
    .stage (put upload_id 1 [first_spec] []) first_spec (document message_id 5),
    .finish sent "e", .replace_part { sent with etag := "e", phase := .uploaded },
    .commit_upload { sent with etag := "e", phase := .replaced } {} ]

/-- The row that the first upload has written, and the object as it is read. -/
def object_row (key : String) : ObjectRow :=
  { id := 1, bucket := "b", object_key := key, size := 5, etag := "e", metadata := {}
    created_at := 0, modified_at := 0 }

def object_record (key : String) : ObjectRecord :=
  object_from_row (object_row key) [reference 1 first_spec 11]

def before_put : List Action :=
  .request (.create_bucket 0 "b") :: stored_at "k" "put-1" 1 11

/-- Both blocks are sent, and the second one is the last. -/
def both_sent : UploadCall :=
  put "put-2" 2 [] [reference 2 first_spec 12, reference 3 second_spec 13]

def refused_put : List Action :=
  [ .start_task (put "put-2" 0 [] []) 5,
    .stage (put "put-2" 1 [first_spec] []) first_spec (document 12 5),
    .copy_row "b" "k", .copy_source (object_row "k"), .copy_object (object_record "k") "b" "c" {} {},
    .tick 4000, .stale_blocks 100, .queue_stale { garbage 12 0 0 with block_id := 2 },
    .start_task (put "put-2" 1 [] [reference 2 first_spec 12]) 5,
    .stage (put "put-2" 2 [second_spec] [reference 2 first_spec 12]) second_spec (document 13 5),
    .finish both_sent "f", .replace_part { both_sent with etag := "f", phase := .uploaded },
    .claim (reference 2 first_spec 12), .delete_claimed (reference 2 first_spec 12),
    .claim (reference 3 second_spec 13), .cleanup_success (reference 2 first_spec 12) ]

/-- A PUT alone whose second block is refused, and one among others whose part is refused. -/
theorem failed_put_leaves_no_trace_refused :
    (∃ db', Transfer.five_bytes.put Transfer.refusing_env Transfer.one_bucket
        = (db', .error (.telegram "refused"))
      ∧ NoTrace Transfer.refusing_env Transfer.one_bucket Transfer.five_bytes db')
    ∧ ∃ w₀ w₁ s, run step (World.init (-100)) before_put = some w₀
        ∧ step w₀ (.put_object (upload_record "put-2" "k")) = some w₁
        ∧ run (watch "put-2") { w := w₁ }
            (refused_put ++ [abort (upload_record "put-2" "k") 4000]) = some s
        ∧ s.staged.map (·.message_id) = [12, 13] ∧ s.w.deleted = [12]
        ∧ LeavesNoTrace (upload_record "put-2" "k") w₀ s := by
  constructor
  · -- the PUT alone
    have herror : (Transfer.five_bytes.put Transfer.refusing_env Transfer.one_bucket).2
        = .error (.telegram "refused") := by
      decide +kernel
    have hput : Transfer.five_bytes.put Transfer.refusing_env Transfer.one_bucket
        = ((Transfer.five_bytes.put Transfer.refusing_env Transfer.one_bucket).1,
            .error (.telegram "refused")) :=
      Prod.ext rfl herror
    have halone := (failed_put_leaves_no_trace Transfer.refusing_env).1 ⟨fun _ => rfl, rfl⟩
    exact ⟨_, hput, halone.mpr ⟨rfl, rfl⟩ [.create_bucket 0 "b"] Transfer.five_bytes _ _
      ⟨by decide, by decide, rfl⟩ hput⟩
  · have hrun : (run step (World.init (-100)) before_put).bind (fun w₀ =>
        (step w₀ (.put_object (upload_record "put-2" "k"))).bind fun w₁ =>
          (run (watch "put-2") { w := w₁ }
            (refused_put ++ [abort (upload_record "put-2" "k") 4000])).map fun s =>
              decide (s.staged.map (·.message_id) = [12, 13] ∧ s.w.deleted = [12] ∧ Over "put-2" s
                ∧ Meets (watch "put-2") (Fair (upload_record "put-2" "k")) { w := w₁ }
                    (refused_put ++ [abort (upload_record "put-2" "k") 4000])
                ∧ Meets (watch "put-2") (Spared "put-2") { w := w₁ }
                    (refused_put ++ [abort (upload_record "put-2" "k") 4000])))
        = some true := by
      decide +kernel
    obtain ⟨w₀, hpast, hrun⟩ := Option.bind_eq_some_iff.mp hrun
    obtain ⟨w₁, hbegin, hrun⟩ := Option.bind_eq_some_iff.mp hrun
    obtain ⟨s, hrun, hd⟩ := Option.map_eq_some_iff.mp hrun
    obtain ⟨hstaged, hdeleted, hover, hfair, hspared⟩ := of_decide_eq_true hd
    exact ⟨w₀, w₁, s, hpast, hbegin, hrun, hstaged, hdeleted,
      ((failed_put_leaves_no_trace Transfer.refusing_env).2 (-100) before_put refused_put
        (upload_record "put-2" "k") 4000 w₀ w₁ s hpast hbegin hrun hover hfair hspared).1⟩

/-! ## A copy that comes late

A copy has read its source and waits. The source is deleted, its block collected, and an empty
object put in its place, whose row gets the same id. The PUT of another key stages a block under
the id that the copy remembers. -/

def source_replaced : List Action :=
  [ .copy_row "b" "a", .copy_source (object_row "a"), .request (.delete_object 0 "b" "a" {}),
    .gc_candidates 100, .gc_delete (garbage 11 0 0), .gc_success (garbage 11 0 0),
    .put_object (upload_record "put-2" "a"), .finish (put "put-2" 0 [] []) "e0",
    .replace_part { put "put-2" 0 [] [] with etag := "e0", phase := .uploaded },
    .commit_upload { put "put-2" 0 [] [] with etag := "e0", phase := .replaced } {} ]

def before_late_copy : List Action :=
  .request (.create_bucket 0 "b") :: (stored_at "a" "put-1" 1 11 ++ source_replaced)

def overtaken_put : List Action :=
  [ .start_task (put "put-3" 0 [] []) 5,
    .stage (put "put-3" 1 [first_spec] []) first_spec (document 12 5),
    .copy_object (object_record "a") "b" "c" {} {},
    .fail (put "put-3" 1 [] [reference 1 first_spec 12]),
    .claim (reference 1 first_spec 12) ]

/-- **A late copy leaves a trace.** It takes up the block of the PUT that fails: the cleanup finds
the block committed, and its document stays for good, counted twice and referred to once. -/
theorem late_copy_leaves_trace :
    ∃ w₀ w₁ s, run step (World.init (-100)) before_late_copy = some w₀
      ∧ step w₀ (.put_object (upload_record "put-3" "k")) = some w₁
      ∧ run (watch "put-3") { w := w₁ }
          (overtaken_put ++ [abort (upload_record "put-3" "k") 0]) = some s
      ∧ Over "put-3" s
      ∧ Meets (watch "put-3") (Fair (upload_record "put-3" "k")) { w := w₁ }
          (overtaken_put ++ [abort (upload_record "put-3" "k") 0])
      ∧ 12 ∉ s.w.deleted ∧ (s.w.db.block? 1).map (·.message_id) = some 12
      ∧ (s.w.db.block? 1).map (·.ref_count) = some 2 ∧ s.w.db.refs 1 = 1
      ∧ ¬ LeavesNoTrace (upload_record "put-3" "k") w₀ s := by
  have hrun : (run step (World.init (-100)) before_late_copy).bind (fun w₀ =>
      (step w₀ (.put_object (upload_record "put-3" "k"))).bind fun w₁ =>
        (run (watch "put-3") { w := w₁ }
          (overtaken_put ++ [abort (upload_record "put-3" "k") 0])).map fun s =>
            decide (Over "put-3" s
              ∧ Meets (watch "put-3") (Fair (upload_record "put-3" "k")) { w := w₁ }
                  (overtaken_put ++ [abort (upload_record "put-3" "k") 0])
              ∧ 12 ∉ s.w.deleted ∧ (s.w.db.block? 1).map (·.message_id) = some 12
              ∧ (s.w.db.block? 1).map (·.ref_count) = some 2 ∧ s.w.db.refs 1 = 1
              ∧ s.staged = [reference 1 first_spec 12]))
      = some true := by
    decide +kernel
  obtain ⟨w₀, hpast, hrun⟩ := Option.bind_eq_some_iff.mp hrun
  obtain ⟨w₁, hbegin, hrun⟩ := Option.bind_eq_some_iff.mp hrun
  obtain ⟨s, hrun, hd⟩ := Option.map_eq_some_iff.mp hrun
  obtain ⟨hover, hfair, hdeleted, hmessage, hcount, hrefs, hstaged⟩ := of_decide_eq_true hd
  refine ⟨w₀, w₁, s, hpast, hbegin, hrun, hover, hfair, hdeleted, hmessage, hcount, hrefs, ?_⟩
  intro hnone
  rcases hnone.staged (reference 1 first_spec 12) (hstaged ▸ List.mem_singleton.mpr rfl) with
    ⟨-, hgone⟩ | ⟨-, -, hzero, -⟩
  · exact hdeleted hgone
  · exact absurd (hrefs.symm.trans hzero) (by decide)

end Tg2s3.Attempts
