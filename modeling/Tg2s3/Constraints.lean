/-
Every statement keeps the constraints of the schema.

The statements that only move the books -- `ref_count` and `state` of a block,
and the rows of `gc_queue` -- are taken together: `Books db db'` says that a step
did nothing else. Which rows are there, which of them refer to a block, and what
a block row says about its document cannot change along `Books`, so a
transaction is read as a chain of `Books` steps between the inserts and deletes.

The foreign keys are what makes the joins total: under `WellFormed` a join with
`telegram_blocks` drops no row.
-/
import Tg2s3.Db.Gc
import Tg2s3.Db.Object

set_option autoImplicit false

namespace Tg2s3

open Relational

/-! ## Steps that only move the books -/

/-- The columns of a block row that no statement updates. -/
def TelegramBlockRow.frozen (b : TelegramBlockRow) : TelegramBlockRow :=
  { b with ref_count := 0, state := .staged }

/-- `db'` differs from `db` in counts, block states and the queue at most. -/
structure Books (db db' : Database) : Prop where
  buckets : db'.buckets = db.buckets
  bucket_cors : db'.bucket_cors = db.bucket_cors
  objects : db'.objects = db.objects
  frozen : db'.telegram_blocks.map (·.frozen) = db.telegram_blocks.map (·.frozen)
  object_blocks : db'.object_blocks = db.object_blocks
  multipart_uploads : db'.multipart_uploads = db.multipart_uploads
  multipart_parts : db'.multipart_parts = db.multipart_parts
  multipart_part_blocks : db'.multipart_part_blocks = db.multipart_part_blocks

namespace Books

variable {db db' db'' : Database}

/-- Nothing has moved. -/
theorem refl (db : Database) : Books db db := by
  constructor <;> rfl

/-- Two moves of the counts and the queue are one. -/
theorem trans (h₁ : Books db db') (h₂ : Books db' db'') : Books db db'' where
  buckets := h₂.buckets.trans h₁.buckets
  bucket_cors := h₂.bucket_cors.trans h₁.bucket_cors
  objects := h₂.objects.trans h₁.objects
  frozen := h₂.frozen.trans h₁.frozen
  object_blocks := h₂.object_blocks.trans h₁.object_blocks
  multipart_uploads := h₂.multipart_uploads.trans h₁.multipart_uploads
  multipart_parts := h₂.multipart_parts.trans h₁.multipart_parts
  multipart_part_blocks := h₂.multipart_part_blocks.trans h₁.multipart_part_blocks

/-- A column of the frozen part of a block row is the same for all rows. -/
theorem map_frozen {β : Type*} (h : Books db db') {g : TelegramBlockRow → β}
    (hg : ∀ b, g b.frozen = g b) : db'.telegram_blocks.map g = db.telegram_blocks.map g := by
  have hcomp : ∀ rows : List TelegramBlockRow, rows.map g = (rows.map (·.frozen)).map g := by
    intro rows
    rw [List.map_map]
    exact List.map_congr_left (fun b _ => (hg b).symm)
  rw [hcomp db'.telegram_blocks, h.frozen, ← hcomp]

/-- The ids of the blocks stay. -/
theorem ids (h : Books db db') : db'.telegram_blocks.map (·.id) = db.telegram_blocks.map (·.id) :=
  h.map_frozen (fun _ => rfl)

/-- The references stay, since their tables do. -/
theorem refs (h : Books db db') (b : Int) : db'.refs b = db.refs b := by
  unfold Database.refs
  rw [h.object_blocks, h.multipart_part_blocks]

/-- The keys stay as well: only those of the queue have to be checked again. -/
theorem wellFormed (h : Books db db') (hwf : WellFormed db)
    (hnodup : (db'.gc_queue.map (·.block_id)).Nodup)
    (hblock : ∀ q ∈ db'.gc_queue, q.block_id ∈ db.telegram_blocks.map (·.id)) :
    WellFormed db' where
  bucket_names := h.buckets ▸ hwf.bucket_names
  cors_buckets := h.bucket_cors ▸ hwf.cors_buckets
  object_ids := h.objects ▸ hwf.object_ids
  object_names := h.objects ▸ hwf.object_names
  block_ids := h.ids ▸ hwf.block_ids
  block_messages := (h.map_frozen (g := TelegramBlockRow.message) fun _ => rfl) ▸ hwf.block_messages
  object_block_keys := h.object_blocks ▸ hwf.object_block_keys
  object_block_object := by rw [h.object_blocks, h.objects]; exact hwf.object_block_object
  object_block_block := by rw [h.object_blocks, h.ids]; exact hwf.object_block_block
  upload_ids := h.multipart_uploads ▸ hwf.upload_ids
  part_keys := h.multipart_parts ▸ hwf.part_keys
  part_upload := by rw [h.multipart_parts, h.multipart_uploads]; exact hwf.part_upload
  part_block_keys := h.multipart_part_blocks ▸ hwf.part_block_keys
  part_block_part := by rw [h.multipart_part_blocks, h.multipart_parts]; exact hwf.part_block_part
  part_block_block := by rw [h.multipart_part_blocks, h.ids]; exact hwf.part_block_block
  queue_ids := hnodup
  queue_block := by rw [h.ids]; exact hblock
  block_ids_pos := by
    intro b hb
    have hmem : b.id ∈ db.telegram_blocks.map (·.id) := h.ids ▸ List.mem_map_of_mem hb
    obtain ⟨b₀, hb₀, heq⟩ := List.mem_map.mp hmem
    exact heq ▸ hwf.block_ids_pos b₀ hb₀
  object_ids_pos := h.objects ▸ hwf.object_ids_pos

end Books

section BooksStatements

variable (db : Database)

/-- An update of a count is a matter of the books. -/
theorem books_update_block (id : Int) {f : TelegramBlockRow → TelegramBlockRow}
    (hf : ∀ b, (f b).frozen = b.frozen) : Books db (db.update_block id f) := by
  constructor <;> first | rfl | exact map_updateWhere hf _

/-- So is a new row in the queue. -/
theorem books_enqueue (id now : Int) : Books db (db.enqueue id now) := by
  constructor <;> rfl

/-- And one that goes. -/
theorem books_dequeue (id : Int) : Books db (db.dequeue id) := by
  constructor <;> rfl

/-- And one that changes. -/
theorem books_update_queue (id : Int) (f : GcQueueRow → GcQueueRow) :
    Books db (db.update_queue id f) := by
  constructor <;> rfl

end BooksStatements

/-! ## What an insert that went through has done -/

section Inserts

variable {db : Database}

/-- A block that goes in comes last, under the next free id, and its message was not there. -/
theorem insert_block_ok {row : Int → TelegramBlockRow} {r : Database × Int}
    (h : db.insert_block row = .ok r) :
    r = ({ db with telegram_blocks := db.telegram_blocks ++ [row db.next_block_id] },
        db.next_block_id)
      ∧ (row db.next_block_id).message ∉ db.telegram_blocks.map (·.message) := by
  unfold Database.insert_block at h
  split at h
  · cases h
  · rename_i rows hrows
    obtain ⟨hnew, rfl⟩ := insertUnique_eq_some.mp hrows
    exact ⟨(Except.ok.inj h).symm, hnew⟩

/-- An object that goes in comes last, under the next free id; no object had its key, and its
bucket is not asked for. -/
theorem insert_object_ok {row : Int → ObjectRow} {r : Database × Int}
    (h : db.insert_object row = .ok r) :
    r = ({ db with objects := db.objects ++ [row db.next_object_id] }, db.next_object_id)
      ∧ (row db.next_object_id).name ∉ db.objects.map (·.name) := by
  unfold Database.insert_object at h
  split at h
  · cases h
  · rename_i rows hrows
    obtain ⟨hnew, rfl⟩ := insertUnique_eq_some.mp hrows
    exact ⟨(Except.ok.inj h).symm, hnew⟩

/-- A reference of an object goes in if its object and its block are there. -/
theorem insert_object_block_ok {row : ObjectBlockRow} {db' : Database}
    (h : db.insert_object_block row = .ok db') :
    db' = { db with object_blocks := db.object_blocks ++ [row] }
      ∧ row.object_id ∈ db.objects.map (·.id)
      ∧ row.block_id ∈ db.telegram_blocks.map (·.id)
      ∧ row.key ∉ db.object_blocks.map (·.key) := by
  unfold Database.insert_object_block at h
  split_ifs at h with hfk
  split at h
  · cases h
  · rename_i rows hrows
    obtain ⟨hnew, rfl⟩ := insertUnique_eq_some.mp hrows
    exact ⟨(Except.ok.inj h).symm, hfk.1, hfk.2, hnew⟩

/-- A part goes in if its upload is there and the number is free. -/
theorem insert_part_ok {row : PartRow} {db' : Database} (h : db.insert_part row = .ok db') :
    db' = { db with multipart_parts := db.multipart_parts ++ [row] }
      ∧ row.upload_id ∈ db.multipart_uploads.map (·.upload_id)
      ∧ row.key ∉ db.multipart_parts.map (·.key) := by
  unfold Database.insert_part at h
  split_ifs at h with hfk
  split at h
  · cases h
  · rename_i rows hrows
    obtain ⟨hnew, rfl⟩ := insertUnique_eq_some.mp hrows
    exact ⟨(Except.ok.inj h).symm, hfk, hnew⟩

/-- A reference of a part goes in if its part and its block are there. -/
theorem insert_part_block_ok {row : PartBlockRow} {db' : Database}
    (h : db.insert_part_block row = .ok db') :
    db' = { db with multipart_part_blocks := db.multipart_part_blocks ++ [row] }
      ∧ row.part ∈ db.multipart_parts.map (·.key)
      ∧ row.block_id ∈ db.telegram_blocks.map (·.id)
      ∧ row.key ∉ db.multipart_part_blocks.map (·.key) := by
  unfold Database.insert_part_block at h
  split_ifs at h with hfk
  split at h
  · cases h
  · rename_i rows hrows
    obtain ⟨hnew, rfl⟩ := insertUnique_eq_some.mp hrows
    exact ⟨(Except.ok.inj h).symm, hfk.1, hfk.2, hnew⟩

/-- An upload goes in if its id is free. -/
theorem insert_upload_ok {row : UploadRecord} {db' : Database}
    (h : db.insert_upload row = .ok db') :
    db' = { db with multipart_uploads := db.multipart_uploads ++ [row] }
      ∧ row.upload_id ∉ db.multipart_uploads.map (·.upload_id) := by
  unfold Database.insert_upload at h
  split at h
  · cases h
  · rename_i rows hrows
    obtain ⟨hnew, rfl⟩ := insertUnique_eq_some.mp hrows
    exact ⟨(Except.ok.inj h).symm, hnew⟩

end Inserts

/-! ## `WellFormed`, statement by statement -/

namespace WellFormed

variable {db : Database}

/-- An update of a row keeps the keys if it keeps the frozen columns, of which the keys are made.
-/
theorem update_block (h : WellFormed db) (id : Int) {f : TelegramBlockRow → TelegramBlockRow}
    (hf : ∀ b, (f b).frozen = b.frozen) : WellFormed (db.update_block id f) :=
  (books_update_block db id hf).wellFormed h h.queue_ids h.queue_block

/-- A block that is there may be queued; if it is queued already, nothing happens. -/
theorem enqueue (h : WellFormed db) {id : Int} (hid : id ∈ db.telegram_blocks.map (·.id))
    (now : Int) : WellFormed (db.enqueue id now) := by
  refine (books_enqueue db id now).wellFormed h (nodup_insertOrIgnore h.queue_ids) ?_
  intro q hq
  rcases mem_insertOrIgnore hq with hq | rfl
  · exact h.queue_block q hq
  · exact hid

/-- A row of the queue may go at any time. -/
theorem dequeue (h : WellFormed db) (id : Int) : WellFormed (db.dequeue id) :=
  (books_dequeue db id).wellFormed h (nodup_deleteWhere h.queue_ids)
    (fun q hq => h.queue_block q (mem_deleteWhere.mp hq).1)

/-- And it may change, but for its block. -/
theorem update_queue (h : WellFormed db) (id : Int) {f : GcQueueRow → GcQueueRow}
    (hf : ∀ q, (f q).block_id = q.block_id) : WellFormed (db.update_queue id f) := by
  have hids : (db.update_queue id f).gc_queue.map (·.block_id) = db.gc_queue.map (·.block_id) :=
    map_updateWhere hf db.gc_queue
  refine (books_update_queue db id f).wellFormed h (hids ▸ h.queue_ids) ?_
  intro q hq
  have hmem : q.block_id ∈ db.gc_queue.map (·.block_id) := hids ▸ List.mem_map_of_mem hq
  obtain ⟨q₀, hq₀, heq⟩ := List.mem_map.mp hmem
  exact heq ▸ h.queue_block q₀ hq₀

/-- A block nothing refers to may go. -/
theorem delete_block (h : WellFormed db) {id : Int} (hrefs : db.refs id = 0) :
    WellFormed (db.delete_block id) := by
  have hzero := Nat.add_eq_zero_iff.mp hrefs
  have hkeep : ∀ b ∈ db.telegram_blocks.map (·.id), b ≠ id →
      b ∈ (deleteWhere (·.id = id) db.telegram_blocks).map (·.id) := by
    intro b hb hne
    obtain ⟨r, hr, rfl⟩ := List.mem_map.mp hb
    exact List.mem_map_of_mem (mem_deleteWhere.mpr ⟨hr, hne⟩)
  exact
    { h with
      block_ids := nodup_deleteWhere h.block_ids
      block_messages := nodup_deleteWhere h.block_messages
      object_block_block := fun r hr =>
        hkeep _ (h.object_block_block r hr) (references_eq_zero.mp hzero.1 r hr)
      part_block_block := fun r hr =>
        hkeep _ (h.part_block_block r hr) (references_eq_zero.mp hzero.2 r hr)
      queue_ids := nodup_deleteWhere h.queue_ids
      queue_block := fun q hq =>
        hkeep _ (h.queue_block q (mem_deleteWhere.mp hq).1) (mem_deleteWhere.mp hq).2
      block_ids_pos := fun b hb => h.block_ids_pos b (mem_deleteWhere.mp hb).1 }

/-- A deleted object takes its references along. -/
theorem delete_object_row (h : WellFormed db) (id : Int) : WellFormed (db.delete_object_row id) :=
  { h with
    object_ids := nodup_deleteWhere h.object_ids
    object_names := nodup_deleteWhere h.object_names
    object_block_keys := nodup_deleteWhere h.object_block_keys
    object_block_object := by
      intro r hr
      obtain ⟨hr, hne⟩ := mem_deleteWhere.mp hr
      obtain ⟨o, ho, heq⟩ := List.mem_map.mp (h.object_block_object r hr)
      exact List.mem_map.mpr ⟨o, mem_deleteWhere.mpr ⟨ho, by rwa [heq]⟩, heq⟩
    object_block_block := fun r hr => h.object_block_block r (mem_deleteWhere.mp hr).1
    object_ids_pos := fun o ho => h.object_ids_pos o (mem_deleteWhere.mp ho).1 }

/-- A deleted part takes its references along. -/
theorem delete_part (h : WellFormed db) (upload_id : String) (part_number : Int) :
    WellFormed (db.delete_part upload_id part_number) :=
  { h with
    part_keys := nodup_deleteWhere h.part_keys
    part_upload := fun r hr => h.part_upload r (mem_deleteWhere.mp hr).1
    part_block_keys := nodup_deleteWhere h.part_block_keys
    part_block_part := by
      intro r hr
      obtain ⟨hr, hne⟩ := mem_deleteWhere.mp hr
      obtain ⟨p, hp, heq⟩ := List.mem_map.mp (h.part_block_part r hr)
      exact List.mem_map.mpr ⟨p, mem_deleteWhere.mpr ⟨hp, by rwa [heq]⟩, heq⟩
    part_block_block := fun r hr => h.part_block_block r (mem_deleteWhere.mp hr).1 }

/-- A deleted upload takes its parts along, and their references. -/
theorem delete_upload (h : WellFormed db) (upload_id : String) :
    WellFormed (db.delete_upload upload_id) :=
  { h with
    upload_ids := nodup_deleteWhere h.upload_ids
    part_keys := nodup_deleteWhere h.part_keys
    part_upload := by
      intro r hr
      obtain ⟨hr, hne⟩ := mem_deleteWhere.mp hr
      obtain ⟨u, hu, heq⟩ := List.mem_map.mp (h.part_upload r hr)
      exact List.mem_map.mpr ⟨u, mem_deleteWhere.mpr ⟨hu, by rwa [heq]⟩, heq⟩
    part_block_keys := nodup_deleteWhere h.part_block_keys
    part_block_part := by
      intro r hr
      obtain ⟨hr, hne⟩ := mem_deleteWhere.mp hr
      obtain ⟨p, hp, heq⟩ := List.mem_map.mp (h.part_block_part r hr)
      have hupload : p.upload_id = r.upload_id := congrArg Prod.fst heq
      exact List.mem_map.mpr ⟨p, mem_deleteWhere.mpr ⟨hp, by rwa [hupload]⟩, heq⟩
    part_block_block := fun r hr => h.part_block_block r (mem_deleteWhere.mp hr).1 }

/-- A new block gets an id that no other one has: the largest, and one more. -/
theorem insert_block (h : WellFormed db) {row : Int → TelegramBlockRow}
    (hrow : ∀ id, (row id).id = id) {r : Database × Int} (hins : db.insert_block row = .ok r) :
    WellFormed r.1 := by
  obtain ⟨rfl, hnew⟩ := insert_block_ok hins
  have hkeep : ∀ b ∈ db.telegram_blocks.map (·.id),
      b ∈ (db.telegram_blocks ++ [row (db.next_block_id)]).map (·.id) := by
    intro b hb
    rw [List.map_append]
    exact List.mem_append_left _ hb
  exact
    { h with
      block_ids := nodup_append_singleton h.block_ids
        (by rw [hrow]; exact nextRowid_not_mem _)
      block_messages := nodup_append_singleton h.block_messages hnew
      object_block_block := fun r hr => hkeep _ (h.object_block_block r hr)
      part_block_block := fun r hr => hkeep _ (h.part_block_block r hr)
      queue_block := fun q hq => hkeep _ (h.queue_block q hq)
      block_ids_pos := by
        intro b hb
        rcases List.mem_append.mp hb with hb | hb
        · exact h.block_ids_pos b hb
        · rw [List.mem_singleton.mp hb, hrow]
          refine nextRowid_pos ?_
          intro i hi
          obtain ⟨b₀, hb₀, rfl⟩ := List.mem_map.mp hi
          exact h.block_ids_pos b₀ hb₀ }

/-- And so does a new object. -/
theorem insert_object (h : WellFormed db) {row : Int → ObjectRow}
    (hrow : ∀ id, (row id).id = id) {r : Database × Int} (hins : db.insert_object row = .ok r) :
    WellFormed r.1 := by
  obtain ⟨rfl, hnew⟩ := insert_object_ok hins
  exact
    { h with
      object_ids := nodup_append_singleton h.object_ids
        (by rw [hrow]; exact nextRowid_not_mem _)
      object_names := nodup_append_singleton h.object_names hnew
      object_block_object := by
        intro r hr
        rw [List.map_append]
        exact List.mem_append_left _ (h.object_block_object r hr)
      object_ids_pos := by
        intro o ho
        rcases List.mem_append.mp ho with ho | ho
        · exact h.object_ids_pos o ho
        · rw [List.mem_singleton.mp ho, hrow]
          refine nextRowid_pos ?_
          intro i hi
          obtain ⟨o₀, ho₀, rfl⟩ := List.mem_map.mp hi
          exact h.object_ids_pos o₀ ho₀ }

/-- The constraints of the table are those that the insertion has checked. -/
theorem insert_object_block (h : WellFormed db) {row : ObjectBlockRow} {db' : Database}
    (hins : db.insert_object_block row = .ok db') : WellFormed db' := by
  obtain ⟨rfl, hobject, hblock, hnew⟩ := insert_object_block_ok hins
  exact
    { h with
      object_block_keys := nodup_append_singleton h.object_block_keys hnew
      object_block_object := by
        simpa [or_imp, forall_and] using And.intro h.object_block_object hobject
      object_block_block := by
        simpa [or_imp, forall_and] using And.intro h.object_block_block hblock }

/-- As for a reference of an object. -/
theorem insert_part (h : WellFormed db) {row : PartRow} {db' : Database}
    (hins : db.insert_part row = .ok db') : WellFormed db' := by
  obtain ⟨rfl, hupload, hnew⟩ := insert_part_ok hins
  exact
    { h with
      part_keys := nodup_append_singleton h.part_keys hnew
      part_upload := by
        simpa [or_imp, forall_and] using And.intro h.part_upload hupload
      part_block_part := by
        intro r hr
        rw [List.map_append]
        exact List.mem_append_left _ (h.part_block_part r hr) }

/-- As for a reference of an object. -/
theorem insert_part_block (h : WellFormed db) {row : PartBlockRow} {db' : Database}
    (hins : db.insert_part_block row = .ok db') : WellFormed db' := by
  obtain ⟨rfl, hpart, hblock, hnew⟩ := insert_part_block_ok hins
  exact
    { h with
      part_block_keys := nodup_append_singleton h.part_block_keys hnew
      part_block_part := by
        simpa [or_imp, forall_and] using And.intro h.part_block_part hpart
      part_block_block := by
        simpa [or_imp, forall_and] using And.intro h.part_block_block hblock }

/-- As for a reference of an object. -/
theorem insert_upload (h : WellFormed db) {row : UploadRecord} {db' : Database}
    (hins : db.insert_upload row = .ok db') : WellFormed db' := by
  obtain ⟨rfl, hnew⟩ := insert_upload_ok hins
  exact
    { h with
      upload_ids := nodup_append_singleton h.upload_ids hnew
      part_upload := by
        intro r hr
        rw [List.map_append]
        exact List.mem_append_left _ (h.part_upload r hr) }

end WellFormed

/-! ## Joins lose no row -/

/-- The columns a join takes from the referring row. -/
def BlockRef.row (b : BlockRef) : Int × Int × Int × Int := (b.ordinal, b.id, b.offset, b.size)

/-- A reference whose block is there is loaded, with the columns of its row. -/
theorem join_block_row {db : Database} {block_id : Int} (ordinal byte_offset size : Int)
    (h : block_id ∈ db.telegram_blocks.map (·.id)) :
    ∃ b, db.join_block ordinal block_id byte_offset size = some b
      ∧ b.row = (ordinal, block_id, byte_offset, size) := by
  obtain ⟨row, hrow⟩ := lookup_isSome.mpr h
  have hid : row.id = block_id := (lookup_mem hrow).2
  refine ⟨Database.block_from_row row ordinal byte_offset size, ?_, ?_⟩
  · unfold Database.join_block Database.block?
    rw [hrow]
    rfl
  · simp [BlockRef.row, Database.block_from_row, hid]

/-- **A join with `telegram_blocks` keeps the referring rows**, in their order,
as long as every one of them has its block. -/
theorem map_row_join {α : Type*} {db : Database} {join : α → Option BlockRef}
    {columns : α → Int × Int × Int × Int} {rows : List α}
    (hjoin : ∀ r, join r = db.join_block (columns r).1 (columns r).2.1 (columns r).2.2.1
      (columns r).2.2.2)
    (h : ∀ r ∈ rows, (columns r).2.1 ∈ db.telegram_blocks.map (·.id)) :
    (rows.filterMap join).map (·.row) = rows.map columns := by
  induction rows with
  | nil => rfl
  | cons r rows ih =>
      obtain ⟨b, hb, hrow⟩ := join_block_row (columns r).1 (columns r).2.2.1 (columns r).2.2.2
        (h r (by simp))
      rw [List.filterMap_cons, hjoin r, hb]
      simp only [List.map_cons, hrow]
      rw [ih (fun r hr => h r (by simp [hr]))]

def ObjectBlockRow.columns (r : ObjectBlockRow) : Int × Int × Int × Int :=
  (r.ordinal, r.block_id, r.byte_offset, r.size)

def PartBlockRow.columns (r : PartBlockRow) : Int × Int × Int × Int :=
  (r.ordinal, r.block_id, r.byte_offset, r.size)

namespace WellFormed

variable {db : Database}

/-- **Loading the blocks of an object** loses none of its rows, by the foreign key on the block.
-/
theorem load_object_blocks (h : WellFormed db) (object_id : Int) :
    (Tg2s3.load_object_blocks db object_id).map (·.row)
      = (db.object_block_rows object_id).map (·.columns) := by
  refine map_row_join (fun _ => rfl) (fun r hr => ?_)
  have hmem := (List.mem_insertionSort _).mp hr
  exact h.object_block_block r (List.mem_filter.mp hmem).1

/-- Loading the blocks of parts loses none of their rows either. -/
theorem join_part_rows (h : WellFormed db) {rows : List PartBlockRow}
    (hrows : ∀ r ∈ rows, r ∈ db.multipart_part_blocks) :
    (rows.filterMap db.join_part_block).map (·.row) = rows.map (·.columns) :=
  map_row_join (fun _ => rfl) (fun r hr => h.part_block_block r (hrows r hr))

end WellFormed

end Tg2s3
