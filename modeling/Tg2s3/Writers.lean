/-
What a transaction that went through has done.

One theorem per writing transaction of `src/db/`: from "it returned `Ok`" to the
state it left, given up to the books (`Books`), with the change of every account
next to it. Callers cite these and do not unfold a transaction again.

A transaction takes blocks away from some holder -- the object it overwrites, the
part it replaces, the upload it ends. For each of these holders there is the list
of its blocks as the source reads it (`held_by_object`, `held_by_part`,
`held_by_upload`) and the equation that its references are exactly those that
disappear with it.
-/
import Tg2s3.Accounts

set_option autoImplicit false

namespace Tg2s3

open Relational RefCount RefCount.Account

/-! ## Reading after a step that only moved the books -/

namespace Books

variable {db db' : Database}

/-- What is frozen about a row is read the same from both. -/
theorem map_block? {β : Type*} (h : Books db db') {g : TelegramBlockRow → β}
    (hg : ∀ b, g b.frozen = g b) (b : Int) : (db'.block? b).map g = (db.block? b).map g := by
  have hlookup : ∀ rows : List TelegramBlockRow,
      (lookup (·.id) b rows).map g
        = (lookup (·.id) b (rows.map (·.frozen))).map g := by
    intro rows
    induction rows with
    | nil => rfl
    | cons r rows ih =>
        unfold lookup at ih ⊢
        rw [List.map_cons, List.find?_cons, List.find?_cons]
        by_cases hr : r.id = b
        · have hfrozen : r.frozen.id = b := hr
          simp [hr, hfrozen, hg]
        · have hfrozen : ¬ r.frozen.id = b := hr
          simpa [hr, hfrozen] using ih
  unfold Database.block?
  rw [hlookup, h.frozen, ← hlookup]

/-- So the join with the blocks gives the same reference. -/
theorem join_block (h : Books db db') (ordinal block_id byte_offset size : Int) :
    db'.join_block ordinal block_id byte_offset size
      = db.join_block ordinal block_id byte_offset size :=
  h.map_block? (fun _ => rfl) block_id

/-- And the blocks that an upload has besides its listed parts are the same. -/
theorem unused_blocks (h : Books db db') (upload_id : String) (parts : List PartRecord) :
    unused_blocks db' upload_id parts = unused_blocks db upload_id parts := by
  have hjoin : db'.join_part_block = db.join_part_block := funext fun r => h.join_block _ _ _ _
  unfold Tg2s3.unused_blocks Database.upload_block_rows
  rw [h.multipart_part_blocks, hjoin]

/-- The books of the tables without an upload are those of the tables. -/
theorem delete_upload (h : Books db db') (upload_id : String) :
    Books (db.delete_upload upload_id) (db'.delete_upload upload_id) :=
  { h with
    multipart_uploads := by simp only [Database.delete_upload, h.multipart_uploads]
    multipart_parts := by simp only [Database.delete_upload, h.multipart_parts]
    multipart_part_blocks := by simp only [Database.delete_upload, h.multipart_part_blocks] }

/-- A new row of an object is in both. -/
theorem append_object (h : Books db db') (row : ObjectRow) :
    Books { db with objects := db.objects ++ [row] }
      { db' with objects := db'.objects ++ [row] } :=
  { h with objects := by simp [h.objects] }

/-- A new part is in both. -/
theorem append_part (h : Books db db') (row : PartRow) :
    Books { db with multipart_parts := db.multipart_parts ++ [row] }
      { db' with multipart_parts := db'.multipart_parts ++ [row] } :=
  { h with multipart_parts := by simp [h.multipart_parts] }

/-- New rows of a part are in both. -/
theorem append_part_blocks (h : Books db db') (rows : List PartBlockRow) :
    Books { db with multipart_part_blocks := db.multipart_part_blocks ++ rows }
      { db' with multipart_part_blocks := db'.multipart_part_blocks ++ rows } :=
  { h with multipart_part_blocks := by simp [h.multipart_part_blocks] }

/-- The next id of an object is read from the objects. -/
theorem next_object_id (h : Books db db') : db'.next_object_id = db.next_object_id := by
  unfold Database.next_object_id
  rw [h.objects]

end Books

/-! ## The blocks a holder holds -/

/-- The blocks of the object at `(bucket, key)`, if there is one. -/
def held_by_object (db : Database) (bucket key : String) : List BlockRef :=
  match db.object? bucket key with
  | some row => load_object_blocks db row.id
  | none => []

/-- The state without the object at `(bucket, key)`. -/
def without_object (db : Database) (bucket key : String) : Database :=
  match db.object? bucket key with
  | some row => db.delete_object_row row.id
  | none => db

def held_by_part (db : Database) (upload_id : String) (part_number : Int) : List BlockRef :=
  (db.part_block_rows upload_id part_number).filterMap db.join_part_block

def held_by_upload (db : Database) (upload_id : String) : List BlockRef :=
  (db.upload_block_rows upload_id).filterMap db.join_part_block

/-- Blocks with the same rows have the same ids. -/
theorem ids_of_rows {blocks : List BlockRef} {α : Type*} {rows : List α}
    {columns : α → Int × Int × Int × Int} (h : blocks.map (·.row) = rows.map columns) :
    blocks.map (·.id) = rows.map (fun r => (columns r).2.1) := by
  have hid := congrArg (List.map fun t : Int × Int × Int × Int => t.2.1) h
  simpa [List.map_map, Function.comp_def, BlockRef.row] using hid

/-- Loaded references are counted as the rows are that they are loaded from: the join keeps the
id of the block. -/
theorem times_join {α : Type*} {blocks : List BlockRef} {rows : List α}
    {columns : α → Int × Int × Int × Int} (h : blocks.map (·.row) = rows.map columns) (b : Int) :
    times b blocks = references (fun r => (columns r).2.1) b rows := by
  unfold times
  rw [ids_of_rows h, count_map_eq_references]

namespace WellFormed

variable {db : Database}

/-- **What goes with the row of an object** are the references of its rows, and these are what
loading its blocks gives. The foreign key makes the join complete. -/
theorem refs_delete_object_row (h : WellFormed db) (id b : Int) :
    db.refs b = (db.delete_object_row id).refs b + times b (Tg2s3.load_object_blocks db id) := by
  have htimes := times_join (h.load_object_blocks id) b
  have hperm : (db.object_block_rows id).Perm (db.object_blocks.filter (·.object_id = id)) :=
    List.perm_insertionSort _ _
  rw [references_perm hperm] at htimes
  have hsplit := references_deleteWhere (·.block_id) b (·.object_id = id) db.object_blocks
  simp only [Database.refs, Database.delete_object_row, ObjectBlockRow.columns] at htimes ⊢
  omega

/-- The same for the object of a key, which may not be there. -/
theorem refs_without_object (h : WellFormed db) (bucket key : String) (b : Int) :
    db.refs b = (without_object db bucket key).refs b + times b (held_by_object db bucket key) := by
  unfold without_object held_by_object
  cases db.object? bucket key with
  | none => simp
  | some row => exact h.refs_delete_object_row row.id b

/-- The blocks that a part holds are its rows, one by one. -/
theorem held_by_part (h : WellFormed db) (upload_id : String) (part_number : Int) :
    (Tg2s3.held_by_part db upload_id part_number).map (·.row)
      = (db.part_block_rows upload_id part_number).map (·.columns) := by
  refine h.join_part_rows (fun r hr => ?_)
  exact (List.mem_filter.mp ((List.mem_insertionSort _).mp hr)).1

/-- And those of an upload are the rows of all its parts. -/
theorem held_by_upload (h : WellFormed db) (upload_id : String) :
    (Tg2s3.held_by_upload db upload_id).map (·.row)
      = (db.upload_block_rows upload_id).map (·.columns) := by
  refine h.join_part_rows (fun r hr => ?_)
  exact (List.mem_filter.mp ((List.mem_insertionSort _).mp hr)).1

/-- What goes with a part are the references that it holds. -/
theorem refs_delete_part (h : WellFormed db) (upload_id : String) (part_number b : Int) :
    db.refs b = (db.delete_part upload_id part_number).refs b
      + times b (Tg2s3.held_by_part db upload_id part_number) := by
  have htimes := times_join (h.held_by_part upload_id part_number) b
  have hperm : (db.part_block_rows upload_id part_number).Perm
      (db.multipart_part_blocks.filter (·.part = (upload_id, part_number))) :=
    List.perm_insertionSort _ _
  rw [references_perm hperm] at htimes
  have hsplit := references_deleteWhere (·.block_id) b (·.part = (upload_id, part_number))
    db.multipart_part_blocks
  simp only [Database.refs, Database.delete_part, PartBlockRow.columns] at htimes ⊢
  omega

/-- What goes with an upload are the references that it holds. -/
theorem refs_delete_upload (h : WellFormed db) (upload_id : String) (b : Int) :
    db.refs b = (db.delete_upload upload_id).refs b
      + times b (Tg2s3.held_by_upload db upload_id) := by
  have htimes := times_join (h.held_by_upload upload_id) b
  have hperm : (db.upload_block_rows upload_id).Perm
      (db.multipart_part_blocks.filter (·.upload_id = upload_id)) :=
    List.perm_insertionSort _ _
  rw [references_perm hperm] at htimes
  have hsplit := references_deleteWhere (·.block_id) b (·.upload_id = upload_id)
    db.multipart_part_blocks
  simp only [Database.refs, Database.delete_upload, PartBlockRow.columns] at htimes ⊢
  omega

/-- Deleting an object cascades to its rows, so the keys stay. -/
theorem without_object (h : WellFormed db) (bucket key : String) :
    WellFormed (Tg2s3.without_object db bucket key) := by
  unfold Tg2s3.without_object
  cases db.object? bucket key with
  | none => exact h
  | some row => exact h.delete_object_row row.id

end WellFormed

/-! ## Taking the current object away -/

section WithoutObject

variable (db : Database) (bucket key : String)

/-- Deleting the rows of an object is not yet a release. -/
@[simp] theorem account_without_object (b : Int) :
    (without_object db bucket key).account b = db.account b := by
  unfold without_object
  cases db.object? bucket key <;> rfl

/-- Only objects and their rows are deleted. -/
@[simp] theorem telegram_blocks_without_object :
    (without_object db bucket key).telegram_blocks = db.telegram_blocks := by
  unfold without_object
  cases db.object? bucket key <;> rfl

/-- The queue is not touched by that. -/
@[simp] theorem gc_queue_without_object :
    (without_object db bucket key).gc_queue = db.gc_queue := by
  unfold without_object
  cases db.object? bucket key <;> rfl

/-- Nor are the parts. -/
@[simp] theorem multipart_part_blocks_without_object :
    (without_object db bucket key).multipart_part_blocks = db.multipart_part_blocks := by
  unfold without_object
  cases db.object? bucket key <;> rfl

/-- So an upload holds what it held. -/
theorem held_by_upload_without_object (upload_id : String) :
    held_by_upload (without_object db bucket key) upload_id = held_by_upload db upload_id := by
  unfold without_object
  cases db.object? bucket key <;> rfl

end WithoutObject

/-- `remove_existing_object` in closed form. -/
theorem remove_existing_object_ok {db db' : Database} {now : Int} {bucket key : String}
    {condition : ObjectCondition} {old : Option (Int × List BlockRef)}
    (h : remove_existing_object db now bucket key condition = .ok (db', old)) :
    condition.allows ((db.object? bucket key).map (·.etag)) = true
      ∧ db' = decrement_blocks (without_object db bucket key) now (held_by_object db bucket key)
      ∧ (old.map (·.2)).getD [] = held_by_object db bucket key
      ∧ old.map (·.1) = (db.object? bucket key).map (·.id) := by
  obtain ⟨_, hallows, hrest⟩ := bind_ok.mp h
  refine ⟨require_ok.mp hallows, ?_⟩
  unfold without_object held_by_object
  cases hold : db.object? bucket key with
  | none =>
      rw [hold] at hrest
      obtain ⟨rfl, rfl⟩ := Prod.mk.inj (Except.ok.inj hrest)
      exact ⟨rfl, rfl, rfl⟩
  | some row =>
      rw [hold] at hrest
      obtain ⟨rfl, rfl⟩ := Prod.mk.inj (Except.ok.inj hrest)
      exact ⟨rfl, rfl, rfl⟩

/-! ## `delete_object` -/

/-- **What a deletion does**: the object is taken away and its blocks are released, under a
condition on the ETag that stands there. -/
theorem delete_object_tx_ok {db db' : Database} {now : Int} {bucket key : String}
    {condition : ObjectCondition} {deleted : Option ObjectRecord}
    (h : delete_object_tx db now bucket key condition = .ok (db', deleted)) :
    condition.allows ((db.object? bucket key).map (·.etag)) = true
      ∧ db' = decrement_blocks (without_object db bucket key) now (held_by_object db bucket key)
      ∧ (deleted.map (·.blocks)).getD [] = held_by_object db bucket key := by
  obtain ⟨⟨db₁, removed⟩, hremove, hrest⟩ := bind_ok.mp h
  obtain ⟨hallows, hdb₁, hold, hid⟩ := remove_existing_object_ok hremove
  refine ⟨hallows, ?_⟩
  cases removed with
  | none =>
      obtain ⟨rfl, rfl⟩ := Prod.mk.inj (Except.ok.inj hrest)
      have hnone : db.object? bucket key = none := by
        cases hobj : db.object? bucket key with
        | none => rfl
        | some row => rw [hobj] at hid; cases hid
      unfold without_object held_by_object
      rw [hnone]
      exact ⟨rfl, rfl⟩
  | some removed =>
      obtain ⟨rfl, rfl⟩ := Prod.mk.inj (Except.ok.inj hrest)
      exact ⟨hdb₁, hold⟩

/-! ## `commit_upload` -/

/-- The row `commit_upload` writes. -/
def committed_object (db : Database) (now : Int) (upload : UploadRecord) (size : Int)
    (etag : String) : ObjectRow where
  id := (without_object db upload.bucket upload.key).next_object_id
  bucket := upload.bucket
  object_key := upload.key
  size := size
  etag := etag
  metadata := upload.metadata
  created_at := upload.created_at
  modified_at := now

/-- The state after a commit, up to the books. -/
def commit_target (db : Database) (now : Int) (upload : UploadRecord) (size : Int)
    (etag : String) (blocks : List BlockRef) : Database :=
  let rest := without_object db upload.bucket upload.key
  { rest.delete_upload upload.upload_id with
    objects := rest.objects ++ [committed_object db now upload size etag]
    object_blocks := rest.object_blocks
      ++ committed_rows (committed_object db now upload size etag).id 0 0 blocks }

/-- The rows of a commit refer to its blocks. -/
theorem references_committed_rows (object_id ordinal offset b : Int) (blocks : List BlockRef) :
    references (·.block_id) b (committed_rows object_id ordinal offset blocks)
      = times b blocks := by
  rw [← count_map_eq_references]
  unfold times
  congr 1
  induction blocks generalizing ordinal offset with
  | nil => rfl
  | cons block blocks ih => simp only [committed_rows, List.map_cons, ih]

/-- **The references after a commit**: those without the old object and without the upload, and
the blocks of the listed parts. -/
theorem refs_commit_target (db : Database) (now : Int) (upload : UploadRecord) (size : Int)
    (etag : String) (blocks : List BlockRef) (b : Int) :
    (commit_target db now upload size etag blocks).refs b
      = ((without_object db upload.bucket upload.key).delete_upload upload.upload_id).refs b
        + times b blocks := by
  simp only [Database.refs, commit_target, references_append, references_committed_rows,
    Database.delete_upload]
  omega

/-! ### The check against the persisted parts -/

/-- The loop ends well if the parts have distinct numbers and each of them is there as it is
listed. The numbers seen so far are what the induction carries. -/
theorem verify_parts_loop_ok {db : Database} {upload_id : String} {parts : List PartRecord}
    {seen : List Int} (h : verify_parts_loop db upload_id parts seen = .ok ()) :
    (parts.map (·.part_number)).Nodup ∧ (∀ part ∈ parts, part.part_number ∉ seen)
      ∧ ∀ part ∈ parts, part_matches db upload_id part := by
  induction parts generalizing seen with
  | nil => simp
  | cons part parts ih =>
      obtain ⟨_, hseen, h⟩ := bind_ok.mp h
      obtain ⟨_, hmatch, h⟩ := bind_ok.mp h
      obtain ⟨hnodup, hfresh, hall⟩ := ih h
      refine ⟨?_, ?_, ?_⟩
      · rw [List.map_cons, List.nodup_cons]
        refine ⟨?_, hnodup⟩
        intro hin
        obtain ⟨p, hp, heq⟩ := List.mem_map.mp hin
        exact hfresh p hp (heq ▸ List.mem_cons_self)
      · intro p hp
        rcases List.mem_cons.mp hp with rfl | hp
        · exact require_ok.mp hseen
        · exact fun hin => hfresh p hp (List.mem_cons_of_mem _ hin)
      · intro p hp
        rcases List.mem_cons.mp hp with rfl | hp
        · exact require_ok.mp hmatch
        · exact hall p hp

/-- What `verify_parts_tx` has established: every part once, and each as it is
persisted now. -/
theorem verify_parts_tx_ok {db : Database} {upload_id : String} {parts : List PartRecord}
    (h : verify_parts_tx db upload_id parts = .ok ()) :
    (parts.map (·.part_number)).Nodup ∧ ∀ part ∈ parts, part_matches db upload_id part := by
  obtain ⟨hnodup, -, hall⟩ := verify_parts_loop_ok h
  exact ⟨hnodup, hall⟩

/-- A part that is as listed has the rows that are listed. -/
theorem part_matches_rows {db : Database} {upload_id : String} {part : PartRecord}
    (h : part_matches db upload_id part) :
    (db.part_block_rows upload_id part.part_number).map
        (fun r => (r.block_id, r.byte_offset, r.size))
      = part.blocks.map (fun b => (b.id, b.offset, b.size)) := by
  unfold part_matches at h
  cases hrow : db.part? upload_id part.part_number with
  | none => rw [hrow] at h; exact h.elim
  | some row => rw [hrow] at h; exact h.2.2

/-- The blocks of a verified part are the ones that refer to it now. -/
theorem times_part {db : Database} {upload_id : String} {part : PartRecord}
    (h : part_matches db upload_id part) (b : Int) :
    times b part.blocks
      = references (·.block_id) b
          (db.multipart_part_blocks.filter (·.part = (upload_id, part.part_number))) := by
  have hids := congrArg (List.map fun t : Int × Int × Int => t.1) (part_matches_rows h)
  simp only [List.map_map, Function.comp_def] at hids
  unfold times
  rw [← hids, count_map_eq_references]
  exact references_perm (List.perm_insertionSort _ _)

/-- The rows of the parts with these numbers, counted part by part. -/
theorem times_parts {db : Database} {upload_id : String} {parts : List PartRecord}
    (hnodup : (parts.map (·.part_number)).Nodup)
    (h : ∀ part ∈ parts, part_matches db upload_id part) (b : Int) :
    times b (parts.flatMap (·.blocks))
      = references (·.block_id) b ((db.multipart_part_blocks.filter (·.upload_id = upload_id)).filter
          (·.part_number ∈ parts.map (·.part_number))) := by
  induction parts with
  | nil => simp [references]
  | cons part parts ih =>
      rw [List.map_cons, List.nodup_cons] at hnodup
      have hrest := ih hnodup.2 (fun p hp => h p (List.mem_cons_of_mem _ hp))
      have hsplit := references_deleteWhere (·.block_id) b (·.part_number = part.part_number)
        ((db.multipart_part_blocks.filter (·.upload_id = upload_id)).filter
          (·.part_number ∈ (part :: parts).map (·.part_number)))
      rw [List.flatMap_cons, times_append, hrest, times_part (h part List.mem_cons_self), ← hsplit,
        Nat.add_comm]
      unfold deleteWhere
      congr 1
      · congr 1
        rw [List.filter_filter, List.filter_filter, List.filter_filter]
        refine List.filter_congr (fun r _ => ?_)
        simp only [List.map_cons, List.mem_cons, decide_not]
        by_cases hn : r.part_number = part.part_number
        · simp [hn, hnodup.1]
        · simp [hn]
      · congr 1
        rw [List.filter_filter, List.filter_filter]
        refine List.filter_congr (fun r _ => ?_)
        simp only [PartBlockRow.part, List.map_cons, List.mem_cons, Prod.mk.injEq]
        by_cases hn : r.part_number = part.part_number
        · simp [hn]
        · simp [hn]

/-- **The upload's blocks are the used and the unused ones.** -/
theorem times_held_by_upload {db : Database} (hwf : WellFormed db) {upload_id : String}
    {parts : List PartRecord} (h : verify_parts_tx db upload_id parts = .ok ()) (b : Int) :
    times b (held_by_upload db upload_id)
      = times b (parts.flatMap (·.blocks)) + times b (unused_blocks db upload_id parts) := by
  obtain ⟨hnodup, hmatch⟩ := verify_parts_tx_ok h
  have hunused : (unused_blocks db upload_id parts).map (·.row)
      = ((db.upload_block_rows upload_id).filter
          (fun r => r.part_number ∉ parts.map (·.part_number))).map (·.columns) := by
    refine hwf.join_part_rows (fun r hr => ?_)
    have hsorted := (List.mem_insertionSort _).mp (List.mem_filter.mp hr).1
    exact (List.mem_filter.mp hsorted).1
  have hperm : (db.upload_block_rows upload_id).Perm
      (db.multipart_part_blocks.filter (·.upload_id = upload_id)) :=
    List.perm_insertionSort _ _
  rw [times_join (hwf.held_by_upload upload_id), times_join hunused, references_perm hperm,
    references_perm (hperm.filter _), times_parts hnodup hmatch]
  have hsplit := references_deleteWhere (·.block_id) b
    (·.part_number ∈ parts.map (·.part_number))
    (db.multipart_part_blocks.filter (·.upload_id = upload_id))
  simp only [PartBlockRow.columns]
  rw [← hsplit, Nat.add_comm]
  rfl

/-- Everything a commit that went through has checked and done. -/
structure Committed (db : Database) (now : Int) (upload_id : String) (size : Int)
    (etag : String) (parts : List PartRecord) (condition : ObjectCondition)
    (upload : UploadRecord) (released : List BlockRef) (db' : Database) : Prop where
  layout : validate_parts_layout parts = .ok size
  upload_row : db.upload? upload_id = some upload
  verified : verify_parts_tx db upload_id parts = .ok ()
  unqueued : ∀ id ∈ (parts.flatMap (·.blocks)).map (·.id), ¬ db.queued id
  present : ∀ id ∈ (parts.flatMap (·.blocks)).map (·.id), id ∈ db.telegram_blocks.map (·.id)
  allowed : condition.allows ((db.object? upload.bucket upload.key).map (·.etag)) = true
  books : Books (commit_target db now upload size etag (parts.flatMap (·.blocks))) db'
  account : ∀ b, db'.account b = (db.account b).map fun a =>
    release (times b (unused_blocks db upload_id parts))
      (settle (times b (parts.flatMap (·.blocks)))
        (release (times b (held_by_object db upload.bucket upload.key)) a))
  wellFormed : WellFormed db → WellFormed db'
  released_eq : released = held_by_object db upload.bucket upload.key
    ++ unused_blocks db upload_id parts

/-- **What a commit does**, when it goes through: every check that it has made, and the tables
that it leaves. -/
theorem commit_upload_tx_ok {db db' : Database} {now : Int} {upload_id : String} {size : Int}
    {etag : String} {parts : List PartRecord} {condition : ObjectCondition}
    {upload : UploadRecord} {released : List BlockRef}
    (h : commit_upload_tx db now upload_id size etag parts condition
      = .ok (db', some (upload, released))) :
    Committed db now upload_id size etag parts condition upload released db' := by
  obtain ⟨total, hlayout, h⟩ := bind_ok.mp h
  obtain ⟨_, hsize, h⟩ := bind_ok.mp h
  obtain rfl : total = size := require_ok.mp hsize
  cases hupload : db.upload? upload_id with
  | none => rw [hupload] at h; cases h
  | some upload' =>
      rw [hupload] at h
      obtain ⟨_, hverify, h⟩ := bind_ok.mp h
      obtain ⟨_, hqueue, h⟩ := bind_ok.mp h
      obtain ⟨⟨db₁, old⟩, hremove, h⟩ := bind_ok.mp h
      obtain ⟨⟨db₂, object_id⟩, hinsert, h⟩ := bind_ok.mp h
      obtain ⟨db₃, hcommit, h⟩ := bind_ok.mp h
      obtain ⟨hdb', hres⟩ := Prod.mk.inj (Except.ok.inj h)
      obtain ⟨rfl, rfl⟩ := Prod.mk.inj (Option.some.inj hres)
      obtain ⟨hallowed, hdb₁, hold, -⟩ := remove_existing_object_ok hremove
      obtain ⟨hr, -⟩ := insert_object_ok hinsert
      obtain ⟨rfl, rfl⟩ := Prod.mk.inj hr
      obtain ⟨hbooks₃, hwf₃, hthere, haccount₃⟩ := commit_blocks_ok hcommit
      have hbooks₁ : Books (without_object db upload'.bucket upload'.key) db₁ :=
        hdb₁ ▸ books_decrement_blocks _ now _
      have hid := hbooks₁.next_object_id
      -- the chain up to the end of the loop, seen from the start
      have hbooks : Books
          { without_object db upload'.bucket upload'.key with
            objects := (without_object db upload'.bucket upload'.key).objects
              ++ [committed_object db now upload' total etag]
            object_blocks := (without_object db upload'.bucket upload'.key).object_blocks
              ++ committed_rows db₁.next_object_id 0 0 (parts.flatMap (·.blocks)) } db₃ := by
        unfold committed_object
        rw [← hid]
        exact ((hbooks₁.append_object _).append_object_blocks _).trans hbooks₃
      have hunused : unused_blocks db₃ upload_id parts = unused_blocks db upload_id parts := by
        rw [hbooks.unused_blocks]
        unfold unused_blocks Database.upload_block_rows Database.join_part_block
          Database.join_block Database.block?
        simp only [multipart_part_blocks_without_object, telegram_blocks_without_object]
      obtain rfl : upload'.upload_id = upload_id := (lookup_mem hupload).2
      refine
        { layout := hlayout
          upload_row := hupload
          verified := hverify
          unqueued := require_ok.mp hqueue
          present := ?_
          allowed := hallowed
          books := ?_
          account := fun b => ?_
          wellFormed := fun hwf => ?_
          released_eq := by rw [hold, hunused] }
      · intro id hin
        obtain ⟨block, hblock, rfl⟩ := List.mem_map.mp hin
        have hmem : block.id ∈ db₁.telegram_blocks.map (·.id) := hthere block hblock
        rwa [hbooks₁.ids, telegram_blocks_without_object] at hmem
      · rw [← hdb']
        refine Books.trans ?_ ((books_decrement_blocks db₃ now _).delete_upload _)
        unfold commit_target
        simp only [committed_object, ← hid] at hbooks ⊢
        exact hbooks.delete_upload _
      · have hdelete : db'.account b
            = (decrement_blocks db₃ now (unused_blocks db₃ upload'.upload_id parts)).account b := by
          rw [← hdb']
          rfl
        -- the inserted row is no part of an account
        have hloop : db₃.account b
            = (db₁.account b).map (settle (times b (parts.flatMap (·.blocks)))) := haccount₃ b
        rw [hdelete, account_decrement_blocks, hloop, hunused, hdb₁, account_decrement_blocks,
          account_without_object, Option.map_map, Option.map_map]
        rfl
      · rw [← hdb']
        refine WellFormed.delete_upload (wellFormed_decrement_blocks (hwf₃ ?_) now _) _
        refine WellFormed.insert_object ?_ (fun _ => rfl) hinsert
        rw [hdb₁]
        exact wellFormed_decrement_blocks (hwf.without_object _ _) now _

/-! ### The object that was written -/

/-- They are rows of one object. -/
theorem object_id_committed_rows {object_id ordinal offset : Int} {blocks : List BlockRef} :
    ∀ r ∈ committed_rows object_id ordinal offset blocks, r.object_id = object_id := by
  induction blocks generalizing ordinal offset with
  | nil => simp [committed_rows]
  | cons block blocks ih =>
      intro r hr
      rcases List.mem_cons.mp hr with rfl | hr
      · rfl
      · exact ih r hr

/-- The id of a new object is not one that block rows refer to. -/
theorem WellFormed.object_blocks_fresh {db : Database} (h : WellFormed db) :
    ∀ r ∈ db.object_blocks, r.object_id ≠ db.next_object_id :=
  fun r hr heq => nextRowid_not_mem _ (heq ▸ h.object_block_object r hr)

/-- Without the object at a name there is no object at that name. -/
theorem WellFormed.object?_without_object {db : Database} (h : WellFormed db)
    (bucket key : String) : (Tg2s3.without_object db bucket key).object? bucket key = none := by
  unfold Tg2s3.without_object
  cases ho : db.object? bucket key with
  | none => exact ho
  | some row =>
      have hdelete : (db.delete_object_row row.id).object? bucket key
          = (db.object? bucket key).filter (fun r => ¬ r.id = row.id) :=
        lookup_deleteWhere h.object_names (·.id = row.id)
      rw [hdelete, ho]
      simp [Option.filter_some]

/-- **The new object, and its rows.** -/
theorem Committed.object {db db' : Database} {now : Int} {upload_id : String} {size : Int}
    {etag : String} {parts : List PartRecord} {condition : ObjectCondition}
    {upload : UploadRecord} {released : List BlockRef} (hwf : WellFormed db)
    (h : Committed db now upload_id size etag parts condition upload released db') :
    db'.object? upload.bucket upload.key = some (committed_object db now upload size etag)
      ∧ db'.object_blocks.filter
            (·.object_id = (committed_object db now upload size etag).id)
          = committed_rows (committed_object db now upload size etag).id 0 0
              (parts.flatMap (·.blocks)) := by
  have hrest := hwf.without_object upload.bucket upload.key
  constructor
  · have hnone := hwf.object?_without_object upload.bucket upload.key
    have hnew : (committed_object db now upload size etag).name
        ∉ (without_object db upload.bucket upload.key).objects.map (·.name) :=
      lookup_eq_none.mp hnone
    unfold Database.object?
    rw [h.books.objects]
    exact (lookup_append_singleton hnew).trans (if_pos rfl)
  · rw [h.books.object_blocks]
    simp only [commit_target, List.filter_append]
    rw [List.filter_eq_nil_iff.mpr, List.nil_append, List.filter_eq_self.mpr]
    · intro r hr
      simpa using object_id_committed_rows r hr
    · intro r hr
      have hne : r.object_id ≠ (committed_object db now upload size etag).id :=
        hrest.object_blocks_fresh r hr
      simpa using hne

/-- The ordinals of the loop count up. -/
theorem pairwise_committed_rows (object_id ordinal offset : Int) (blocks : List BlockRef) :
    (committed_rows object_id ordinal offset blocks).Pairwise (·.ordinal ≤ ·.ordinal)
      ∧ ∀ r ∈ committed_rows object_id ordinal offset blocks, ordinal ≤ r.ordinal := by
  induction blocks generalizing ordinal offset with
  | nil => exact ⟨List.Pairwise.nil, by simp [committed_rows]⟩
  | cons block blocks ih =>
      obtain ⟨hsorted, hlower⟩ := ih (ordinal + 1) (offset + block.size)
      unfold committed_rows
      refine ⟨List.pairwise_cons.mpr ⟨fun r hr => ?_, hsorted⟩, fun r hr => ?_⟩
      · have := hlower r hr
        dsimp only
        omega
      · rcases List.mem_cons.mp hr with rfl | hr
        · exact Int.le_refl _
        · have := hlower r hr
          omega

/-- The block query on the new object reads the rows as the loop wrote them. -/
theorem Committed.object_block_rows {db db' : Database} {now : Int} {upload_id : String}
    {size : Int} {etag : String} {parts : List PartRecord} {condition : ObjectCondition}
    {upload : UploadRecord} {released : List BlockRef} (hwf : WellFormed db)
    (h : Committed db now upload_id size etag parts condition upload released db') :
    db'.object_block_rows (committed_object db now upload size etag).id
      = committed_rows (committed_object db now upload size etag).id 0 0
          (parts.flatMap (·.blocks)) := by
  unfold Database.object_block_rows
  rw [(h.object hwf).2]
  exact List.Pairwise.insertionSort_eq (pairwise_committed_rows _ _ _ _).1

/-- The early return of `commit_upload` writes nothing. -/
theorem commit_upload_tx_none {db db' : Database} {now : Int} {upload_id : String} {size : Int}
    {etag : String} {parts : List PartRecord} {condition : ObjectCondition}
    (h : commit_upload_tx db now upload_id size etag parts condition = .ok (db', none)) :
    db' = db := by
  obtain ⟨total, -, h⟩ := bind_ok.mp h
  obtain ⟨_, -, h⟩ := bind_ok.mp h
  cases hupload : db.upload? upload_id with
  | none =>
      rw [hupload] at h
      exact (Prod.mk.inj (Except.ok.inj h)).1.symm
  | some upload =>
      rw [hupload] at h
      obtain ⟨_, -, h⟩ := bind_ok.mp h
      obtain ⟨_, -, h⟩ := bind_ok.mp h
      obtain ⟨_, -, h⟩ := bind_ok.mp h
      obtain ⟨_, -, h⟩ := bind_ok.mp h
      obtain ⟨_, -, h⟩ := bind_ok.mp h
      cases (Prod.mk.inj (Except.ok.inj h)).2

/-! ## `copy_object` -/

/-- The row `copy_object` writes. -/
def copied_object (db : Database) (now : Int) (source : ObjectRecord) (bucket key : String)
    (metadata : ObjectMetadata) : ObjectRow where
  id := (without_object db bucket key).next_object_id
  bucket := bucket
  object_key := key
  size := source.size
  etag := source.etag
  metadata := metadata
  created_at := now
  modified_at := now

/-- The state after a copy, up to the books. -/
def copy_target (db : Database) (now : Int) (source : ObjectRecord) (bucket key : String)
    (metadata : ObjectMetadata) : Database :=
  let rest := without_object db bucket key
  { rest with
    objects := rest.objects ++ [copied_object db now source bucket key metadata]
    object_blocks := rest.object_blocks
      ++ copied_rows (copied_object db now source bucket key metadata).id source.blocks }

/-- The rows of a copy refer to the blocks of its source. -/
theorem references_copied_rows (object_id b : Int) (blocks : List BlockRef) :
    references (·.block_id) b (copied_rows object_id blocks) = times b blocks := by
  rw [← count_map_eq_references]
  simp [copied_rows, times, Function.comp_def]

/-- **The references after a copy**: those without the old object, and the blocks of the source
once more. -/
theorem refs_copy_target (db : Database) (now : Int) (source : ObjectRecord)
    (bucket key : String) (metadata : ObjectMetadata) (b : Int) :
    (copy_target db now source bucket key metadata).refs b
      = (without_object db bucket key).refs b + times b source.blocks := by
  simp only [Database.refs, copy_target, references_append, references_copied_rows]
  omega

/-- Everything a copy that went through has checked and done. -/
structure Copied (db : Database) (now : Int) (source : ObjectRecord) (bucket key : String)
    (metadata : ObjectMetadata) (condition : ObjectCondition) (released : List BlockRef)
    (db' : Database) : Prop where
  source_row : ∃ o ∈ db.objects, o.id = source.id ∧ o.bucket = source.bucket
    ∧ o.object_key = source.key
  unqueued : ∀ id ∈ source.blocks.map (·.id), ¬ db.queued id
  present : ∀ id ∈ source.blocks.map (·.id), id ∈ db.telegram_blocks.map (·.id)
  allowed : condition.allows ((db.object? bucket key).map (·.etag)) = true
  books : Books (copy_target db now source bucket key metadata) db'
  account : ∀ b, db'.account b = (db.account b).map fun a =>
    retain (times b source.blocks) (release (times b (held_by_object db bucket key)) a)
  wellFormed : WellFormed db → WellFormed db'
  released_eq : released = held_by_object db bucket key

/-- **What a copy does**, when it goes through. -/
theorem copy_object_tx_ok {db db' : Database} {now : Int} {source : ObjectRecord}
    {bucket key : String} {metadata : ObjectMetadata} {condition : ObjectCondition}
    {released : List BlockRef}
    (h : copy_object_tx db now source bucket key metadata condition = .ok (db', released)) :
    Copied db now source bucket key metadata condition released db' := by
  obtain ⟨_, hsource, h⟩ := bind_ok.mp h
  obtain ⟨_, hqueue, h⟩ := bind_ok.mp h
  obtain ⟨⟨db₁, old⟩, hremove, h⟩ := bind_ok.mp h
  obtain ⟨⟨db₂, object_id⟩, hinsert, h⟩ := bind_ok.mp h
  obtain ⟨db₃, hcopy, h⟩ := bind_ok.mp h
  obtain ⟨rfl, rfl⟩ := Prod.mk.inj (Except.ok.inj h)
  obtain ⟨hallowed, hdb₁, hold, -⟩ := remove_existing_object_ok hremove
  obtain ⟨hr, -⟩ := insert_object_ok hinsert
  obtain ⟨rfl, rfl⟩ := Prod.mk.inj hr
  obtain ⟨hbooks₃, hwf₃, hthere, haccount₃⟩ := copy_blocks_ok hcopy
  have hbooks₁ : Books (without_object db bucket key) db₁ :=
    hdb₁ ▸ books_decrement_blocks _ now _
  have hid := hbooks₁.next_object_id
  refine
    { source_row := require_ok.mp hsource
      unqueued := require_ok.mp hqueue
      present := ?_
      allowed := hallowed
      books := ?_
      account := fun b => ?_
      wellFormed := fun hwf => ?_
      released_eq := hold }
  · intro id hin
    obtain ⟨block, hblock, rfl⟩ := List.mem_map.mp hin
    have hmem : block.id ∈ db₁.telegram_blocks.map (·.id) := hthere block hblock
    rwa [hbooks₁.ids, telegram_blocks_without_object] at hmem
  · unfold copy_target copied_object
    rw [← hid]
    exact ((hbooks₁.append_object _).append_object_blocks _).trans hbooks₃
  · have hloop : db₃.account b = (db₁.account b).map (retain (times b source.blocks)) :=
      haccount₃ b
    rw [hloop, hdb₁, account_decrement_blocks, account_without_object, Option.map_map]
    rfl
  · refine hwf₃ (WellFormed.insert_object ?_ (fun _ => rfl) hinsert)
    rw [hdb₁]
    exact wellFormed_decrement_blocks (hwf.without_object _ _) now _

/-- The copy, and its rows. -/
theorem Copied.object {db db' : Database} {now : Int} {source : ObjectRecord}
    {bucket key : String} {metadata : ObjectMetadata} {condition : ObjectCondition}
    {released : List BlockRef} (hwf : WellFormed db)
    (h : Copied db now source bucket key metadata condition released db') :
    db'.object? bucket key = some (copied_object db now source bucket key metadata)
      ∧ db'.object_block_rows (copied_object db now source bucket key metadata).id
          = (copied_rows (copied_object db now source bucket key metadata).id
              source.blocks).insertionSort (·.ordinal ≤ ·.ordinal) := by
  have hrest := hwf.without_object bucket key
  constructor
  · have hnew : (copied_object db now source bucket key metadata).name
        ∉ (without_object db bucket key).objects.map (·.name) :=
      lookup_eq_none.mp (hwf.object?_without_object bucket key)
    unfold Database.object?
    rw [h.books.objects]
    exact (lookup_append_singleton hnew).trans (if_pos rfl)
  · unfold Database.object_block_rows
    rw [h.books.object_blocks]
    simp only [copy_target, List.filter_append]
    rw [List.filter_eq_nil_iff.mpr, List.nil_append, List.filter_eq_self.mpr]
    · intro r hr
      obtain ⟨block, -, rfl⟩ := List.mem_map.mp hr
      exact decide_eq_true rfl
    · intro r hr
      have hne : r.object_id ≠ (copied_object db now source bucket key metadata).id :=
        hrest.object_blocks_fresh r hr
      simpa using hne

/-! ## `replace_part` -/

/-- The rows the insert loop of `replace_part` appends. -/
def part_rows (upload_id : String) (part_number : Int) : Int → List BlockRef → List PartBlockRow
  | _, [] => []
  | ordinal, block :: rest =>
      { upload_id := upload_id, part_number := part_number, ordinal := ordinal,
        block_id := block.id, byte_offset := block.offset, size := block.size }
        :: part_rows upload_id part_number (ordinal + 1) rest

/-- The rows of a part are inserted one by one, with ascending ordinals; the constraints hold for
each of them if all go in. -/
theorem insert_part_blocks_ok {db db' : Database} {upload_id : String}
    {part_number ordinal : Int} {blocks : List BlockRef}
    (h : insert_part_blocks upload_id part_number db ordinal blocks = .ok db') :
    db' = { db with multipart_part_blocks :=
        db.multipart_part_blocks ++ part_rows upload_id part_number ordinal blocks }
      ∧ (WellFormed db → WellFormed db')
      ∧ ∀ block ∈ blocks, block.id ∈ db.telegram_blocks.map (·.id) := by
  induction blocks generalizing db ordinal with
  | nil =>
      obtain rfl := Except.ok.inj h
      exact ⟨by simp [part_rows], id, by simp⟩
  | cons block blocks ih =>
      obtain ⟨db₁, hins, hrest⟩ := bind_ok.mp h
      obtain ⟨rfl, hwf, hblocks⟩ := ih hrest
      have hfirst := fun hdb : WellFormed db => hdb.insert_part_block hins
      obtain ⟨rfl, -, hblock, -⟩ := insert_part_block_ok hins
      refine ⟨by simp [part_rows], fun hdb => hwf (hfirst hdb), ?_⟩
      intro b hb
      rcases List.mem_cons.mp hb with rfl | hb
      · exact hblock
      · exact hblocks b hb

/-- What `replace_part` releases: the blocks of the old part that the new one
does not have. -/
def released_by_part (db : Database) (upload_id : String) (part_number : Int)
    (blocks : List BlockRef) : List BlockRef :=
  (held_by_part db upload_id part_number).filter (fun block => block.id ∉ blocks.map (·.id))

/-- A block that is not among the new ones is released as often as the old part held it. -/
theorem times_released_by_part {db : Database} {upload_id : String} {part_number : Int}
    {blocks : List BlockRef} {b : Int} (hnew : b ∉ blocks.map (·.id)) :
    times b (released_by_part db upload_id part_number blocks)
      = times b (held_by_part db upload_id part_number) := by
  unfold times released_by_part
  simp only [List.count_eq_countP, List.countP_map, List.countP_filter]
  refine List.countP_congr (fun block _ => ?_)
  simp only [Function.comp_apply, beq_iff_eq, Bool.and_eq_true, decide_eq_true_eq]
  constructor
  · exact And.left
  · rintro rfl
    exact ⟨rfl, hnew⟩

/-- The state after a part was replaced, up to the books. -/
def replace_target (db : Database) (upload_id : String) (part_number size : Int)
    (etag : String) (blocks : List BlockRef) : Database :=
  let rest := db.delete_part upload_id part_number
  { rest with
    multipart_parts := rest.multipart_parts ++
      [{ upload_id := upload_id, part_number := part_number, size := size, etag := etag }]
    multipart_part_blocks :=
      rest.multipart_part_blocks ++ part_rows upload_id part_number 0 blocks }

/-- The rows of a part name their part and its blocks in order. -/
theorem map_block_id_part_rows (upload_id : String) (part_number ordinal : Int)
    (blocks : List BlockRef) :
    (part_rows upload_id part_number ordinal blocks).map (fun r => (r.part, r.block_id))
      = blocks.map (fun b => ((upload_id, part_number), b.id)) := by
  induction blocks generalizing ordinal with
  | nil => rfl
  | cons block blocks ih =>
      rw [part_rows, List.map_cons, List.map_cons, ih]
      rfl

/-- **The references after a part is replaced**: those without the old part, and the new blocks.
-/
theorem refs_replace_target (db : Database) (upload_id : String) (part_number size : Int)
    (etag : String) (blocks : List BlockRef) (b : Int) :
    (replace_target db upload_id part_number size etag blocks).refs b
      = (db.delete_part upload_id part_number).refs b + times b blocks := by
  have hrows : references (·.block_id) b (part_rows upload_id part_number 0 blocks)
      = times b blocks := by
    rw [← count_map_eq_references]
    have hids := congrArg (List.map Prod.snd) (map_block_id_part_rows upload_id part_number 0 blocks)
    simp only [List.map_map, Function.comp_def] at hids
    rw [hids]
    rfl
  simp only [Database.refs, replace_target, references_append, hrows]
  omega

/-- Everything a replacement that went through has checked and done. -/
structure Replaced (db : Database) (upload_id : String) (part_number size : Int)
    (etag : String) (blocks released : List BlockRef) (db' : Database) : Prop where
  upload_row : db.upload? upload_id ≠ none
  unqueued : ∀ id ∈ blocks.map (·.id), ¬ db.queued id
  distinct : (blocks.map (·.id)).Nodup
  present : ∀ block ∈ blocks, block.id ∈ db.telegram_blocks.map (·.id)
  books : Books (replace_target db upload_id part_number size etag blocks) db'
  account : ∀ b, db'.account b
    = (db.account b).map (release (times b (released_by_part db upload_id part_number blocks)))
  wellFormed : WellFormed db → WellFormed db'
  released_eq : released = released_by_part db upload_id part_number blocks

/-- **What replacing a part does**, when it goes through. -/
theorem replace_part_tx_ok {db db' : Database} {now : Int} {upload_id : String}
    {part_number size : Int} {etag : String} {blocks released : List BlockRef}
    (h : replace_part_tx db now upload_id part_number size etag blocks = .ok (db', released)) :
    Replaced db upload_id part_number size etag blocks released db' := by
  obtain ⟨_, hupload, h⟩ := bind_ok.mp h
  obtain ⟨_, hqueue, h⟩ := bind_ok.mp h
  obtain ⟨_, hdistinct, h⟩ := bind_ok.mp h
  obtain ⟨db₁, hpart, h⟩ := bind_ok.mp h
  obtain ⟨db₂, hblocks, h⟩ := bind_ok.mp h
  obtain ⟨rfl, rfl⟩ := Prod.mk.inj (Except.ok.inj h)
  have hbooks := books_decrement_blocks (db.delete_part upload_id part_number) now
    (released_by_part db upload_id part_number blocks)
  have hids := hbooks.ids
  obtain ⟨hdb₂, hwf₂, hpresent⟩ := insert_part_blocks_ok hblocks
  have hwf₁ := fun hdb => WellFormed.insert_part hdb hpart
  obtain ⟨rfl, -, -⟩ := insert_part_ok hpart
  refine
    { upload_row := require_ok.mp hupload
      unqueued := require_ok.mp hqueue
      distinct := require_ok.mp hdistinct
      present := fun block hb => ?_
      books := ?_
      account := fun b => ?_
      wellFormed := fun hwf =>
        hwf₂ (hwf₁ (wellFormed_decrement_blocks (hwf.delete_part _ _) now _))
      released_eq := rfl }
  · have hmem := hpresent block hb
    exact hids ▸ hmem
  · rw [hdb₂]
    exact (hbooks.append_part _).append_part_blocks _
  · rw [hdb₂]
    exact account_decrement_blocks (db.delete_part upload_id part_number) now _ b

/-! ## `abort_upload_with_blocks` -/

/-- An abort finds no upload and does nothing, or it takes the upload away and releases what it
holds. -/
theorem abort_upload_with_blocks_tx_ok {db db' : Database} {now : Int} {upload_id : String}
    {released : Option (List BlockRef)}
    (h : abort_upload_with_blocks_tx db now upload_id = .ok (db', released)) :
    (db.upload? upload_id = none ∧ db' = db ∧ released = none)
      ∨ (db' = decrement_blocks (db.delete_upload upload_id) now (held_by_upload db upload_id)
          ∧ released = some (held_by_upload db upload_id)) := by
  unfold abort_upload_with_blocks_tx at h
  cases hupload : db.upload? upload_id with
  | none =>
      rw [hupload] at h
      obtain ⟨rfl, rfl⟩ := Prod.mk.inj (Except.ok.inj h)
      exact Or.inl ⟨rfl, rfl, rfl⟩
  | some upload =>
      rw [hupload] at h
      obtain ⟨rfl, rfl⟩ := Prod.mk.inj (Except.ok.inj h)
      exact Or.inr ⟨rfl, rfl⟩

end Tg2s3
