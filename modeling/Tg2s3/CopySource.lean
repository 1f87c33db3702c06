/-
Does `Db::copy_object` copy what its source is now?

The transaction is handed a snapshot. What it compares is the id, the bucket and the key of
the source row, and whether a block of the snapshot is queued. An overwrite deletes the row
and inserts another one, which gets the largest id plus one -- the same id, if the row was
the last one. If the blocks of the snapshot are in use elsewhere, they are not queued either,
and a version that is gone is copied (`outdated_source_copied`).

`NotReused` is what excludes this, step by step: no row that is inserted at the source key
gets the id of the snapshot. An operation that is refused inserts nothing. Then a row with
that id at that key is the row that was read, and it still has its blocks and their documents
(`matched_exec`).
-/
import Tg2s3.Readable
import Tg2s3.Removal

set_option autoImplicit false

namespace Tg2s3.CopySource

open Tg2s3 Relational Machine
open Tg2s3.Reads
open Tg2s3.Answers (Reread)
open Tg2s3.Readable (Objects objects_apply columns)
open Tg2s3.Counts (sent upload_record put_first snapshot)

/-! ## The condition and the property -/

/-- The key at which an operation inserts an object; `none` if it inserts none, also because
its transaction is refused. -/
def written_at (db : Database) : Op → Option (String × String)
  | .commit_upload now upload_id size etag parts condition =>
      match commit_upload_tx db now upload_id size etag parts condition with
      | .ok (_, some (upload, _)) => some (upload.bucket, upload.key)
      | .ok (_, none) => none
      | .error _ => none
  | .copy_object now source bucket key metadata condition =>
      match copy_object_tx db now source bucket key metadata condition with
      | .ok _ => some (bucket, key)
      | .error _ => none
  | _ => none

/-- If the operation inserts an object at this key, the row has another id. -/
def NotReused (id : Int) (bucket key : String) (db : Database) (op : Op) : Prop :=
  written_at db op = some (bucket, key) → ∀ row ∈ (op.apply db).object? bucket key, row.id ≠ id

instance (id : Int) (bucket key : String) (db : Database) (op : Op) :
    Decidable (NotReused id bucket key db op) := inferInstanceAs (Decidable (_ → _))

/-- The snapshot is what the tables hold for its key: size and ETag, and block by block the
row and the document. -/
def Current (db : Database) (source : ObjectRecord) : Prop :=
  ∃ row, db.object? source.bucket source.key = some row ∧ row.id = source.id
    ∧ row.size = source.size ∧ row.etag = source.etag ∧ load_object_blocks db row.id = source.blocks

/-! ## Where an operation writes -/

section Writes

variable {db db' : Database} {now : Int}

theorem written_at_commit {upload_id : String} {size : Int} {etag : String}
    {parts : List PartRecord} {condition : ObjectCondition} {upload : UploadRecord}
    {released : List BlockRef}
    (h : commit_upload_tx db now upload_id size etag parts condition
      = .ok (db', some (upload, released))) :
    written_at db (.commit_upload now upload_id size etag parts condition)
      = some (upload.bucket, upload.key) := by
  simp only [written_at, h]

/-- The row a commit inserts is the object at its name. -/
theorem inserted_by_commit {upload_id : String} {size : Int} {etag : String}
    {parts : List PartRecord} {condition : ObjectCondition} {upload : UploadRecord}
    {released : List BlockRef} (hwf : WellFormed db)
    (h : commit_upload_tx db now upload_id size etag parts condition
      = .ok (db', some (upload, released))) :
    ((Op.commit_upload now upload_id size etag parts condition).apply db).object? upload.bucket
      upload.key = some (committed_object db now upload size etag) := by
  change (transaction db
    (commit_upload_tx db now upload_id size etag parts condition)).1.object? _ _ = _
  rw [h]
  exact ((commit_upload_tx_ok h).object hwf).1

/-- A commit writes where its upload was opened. -/
theorem upload_of_written_at {upload_id : String} {size : Int} {etag : String}
    {parts : List PartRecord} {condition : ObjectCondition} {bucket key : String}
    (h : written_at db (.commit_upload now upload_id size etag parts condition)
      = some (bucket, key)) :
    ∃ upload, db.upload? upload_id = some upload ∧ upload.bucket = bucket ∧ upload.key = key := by
  cases htx : commit_upload_tx db now upload_id size etag parts condition with
  | error e => simp only [written_at, htx, reduceCtorEq] at h
  | ok committed =>
      obtain ⟨d, result⟩ := committed
      cases result with
      | none => simp only [written_at, htx, reduceCtorEq] at h
      | some written =>
          rw [written_at_commit htx] at h
          obtain ⟨hbucket, hkey⟩ := Prod.mk.inj (Option.some.inj h)
          exact ⟨_, (commit_upload_tx_ok htx).upload_row, hbucket, hkey⟩

theorem written_at_copy {source : ObjectRecord} {bucket key : String} {metadata : ObjectMetadata}
    {condition : ObjectCondition} {released : List BlockRef}
    (h : copy_object_tx db now source bucket key metadata condition = .ok (db', released)) :
    written_at db (.copy_object now source bucket key metadata condition) = some (bucket, key) := by
  simp only [written_at, h]

/-- The row a copy inserts is the object at its name. -/
theorem inserted_by_copy {source : ObjectRecord} {bucket key : String} {metadata : ObjectMetadata}
    {condition : ObjectCondition} {released : List BlockRef} (hwf : WellFormed db)
    (h : copy_object_tx db now source bucket key metadata condition = .ok (db', released)) :
    ((Op.copy_object now source bucket key metadata condition).apply db).object? bucket key
      = some (copied_object db now source bucket key metadata) := by
  change (transaction db (copy_object_tx db now source bucket key metadata condition)).1.object? _ _
    = _
  rw [h]
  exact ((copy_object_tx_ok h).object hwf).1

/-- A copy writes at its destination. -/
theorem target_of_written_at {source : ObjectRecord} {bucket key : String}
    {metadata : ObjectMetadata} {condition : ObjectCondition} {target : String × String}
    (h : written_at db (.copy_object now source bucket key metadata condition) = some target) :
    (bucket, key) = target := by
  cases htx : copy_object_tx db now source bucket key metadata condition with
  | error e => simp only [written_at, htx, reduceCtorEq] at h
  | ok copied =>
      rw [written_at_copy htx] at h
      exact Option.some.inj h

end Writes

/-! ## What is stored under an object stays -/

/-- A block that is there before and after an operation keeps its document. -/
theorem document_apply {db : Database} (hwf : WellFormed db) (op : Op) {id : Int}
    (hid : id ∈ db.telegram_blocks.map (·.id))
    (hid' : id ∈ (op.apply db).telegram_blocks.map (·.id)) :
    ((op.apply db).block? id).map document_columns = (db.block? id).map document_columns := by
  by_cases hrecord : ∃ now block, op = .add_staged_block now block
  · obtain ⟨now, block, rfl⟩ := hrecord
    refine transaction_cases (P := fun d => (d.block? id).map document_columns = _) rfl ?_
    intro db' new hok
    obtain ⟨heq, -⟩ := insert_block_ok hok
    obtain ⟨rfl, -⟩ := Prod.mk.inj heq
    have hnew : db.next_block_id ∉ db.telegram_blocks.map (·.id) := nextRowid_not_mem _
    -- a recorded block is appended under an id of its own
    have hold : id ≠ db.next_block_id := fun heq => hnew (heq ▸ hid)
    have hblock : ({ db with telegram_blocks :=
        db.telegram_blocks ++ [staged_row now block db.next_block_id] } : Database).block? id
        = db.block? id := (lookup_append_singleton hnew).trans (if_neg hold)
    rw [hblock]
  · -- the other operations write counts and states, never a document
    have hrows := (leavesFree_apply hwf op (fun now block heq => hrecord ⟨now, block, heq⟩)).rows
    obtain ⟨row', hrow', rfl⟩ := List.mem_map.mp hid'
    obtain ⟨row, hrow, hfrozen⟩ := hrows row' hrow'
    have hsame := TelegramBlockRow.id_of_frozen hfrozen
    have hbefore : db.block? row'.id = some row := lookup_eq_some hwf.block_ids hrow hsame
    have hafter : (op.apply db).block? row'.id = some row' :=
      lookup_eq_some (wellFormed_apply db op hwf).block_ids hrow' rfl
    have hcolumns : document_columns row.frozen = document_columns row'.frozen := by rw [hfrozen]
    rw [hbefore, hafter, Option.map_some, Option.map_some]
    exact congrArg some hcolumns.symm

/-- **One operation.** A row with this id at this key is the row that was there, with what
was stored under it. -/
theorem matched_apply {db : Database} (hwf : WellFormed db) {op : Op} {row : ObjectRow}
    (hnot : NotReused row.id row.bucket row.object_key db op) (hrow : row ∈ (op.apply db).objects) :
    row ∈ db.objects ∧ stored_blocks (op.apply db) row.id = stored_blocks db row.id := by
  have hkept : Objects (fun row' rows => row'.id = row.id → row'.name = row.name →
      row' ∈ db.objects ∧ rows = columns db row.id) (op.apply db) := by
    refine objects_apply hwf (fun row' hrow' hid _ => ⟨hrow', by rw [hid]⟩) ?_ ?_
    · -- the new row of a commit has another id or another name
      rintro now upload_id size etag parts condition db' upload released rfl hok hid hname
      exfalso
      obtain ⟨hbucket, hkey⟩ := Prod.mk.inj hname
      rw [← hbucket, ← hkey] at hnot
      exact hnot (written_at_commit hok) _ (inserted_by_commit hwf hok) hid
    · rintro now source bucket key metadata condition db' released rfl hok hid hname
      exfalso
      obtain ⟨hbucket, hkey⟩ := Prod.mk.inj hname
      rw [← hbucket, ← hkey] at hnot
      exact hnot (written_at_copy hok) _ (inserted_by_copy hwf hok) hid
  -- the columns of the rows are kept, and their blocks with their documents
  obtain ⟨hmem, hcolumns⟩ := hkept row hrow rfl rfl
  refine ⟨hmem, ?_⟩
  unfold stored_blocks
  change with_documents (op.apply db) (columns (op.apply db) row.id)
    = with_documents db (columns db row.id)
  rw [hcolumns]
  refine List.map_congr_left (fun columns hmem => ?_)
  have hbefore := mem_columns hwf row.id columns hmem
  have hafter := mem_columns (wellFormed_apply db op hwf) row.id columns (by
    change columns ∈ Readable.columns (op.apply db) row.id
    rw [hcolumns]
    exact hmem)
  rw [document_apply hwf op hbefore hafter]

/-- **A run of operations**, by induction. -/
theorem matched_exec {db : Database} (hwf : WellFormed db) {ops : List Op} {row : ObjectRow}
    (hnot : ExecMeets Op.apply (NotReused row.id row.bucket row.object_key) db ops)
    (hrow : row ∈ (exec Op.apply db ops).objects) :
    row ∈ db.objects ∧ stored_blocks (exec Op.apply db ops) row.id = stored_blocks db row.id := by
  induction ops generalizing db with
  | nil => exact ⟨hrow, rfl⟩
  | cons op ops ih =>
      obtain ⟨hmem, hstored⟩ := ih (wellFormed_apply db op hwf) hnot.2 hrow
      obtain ⟨hmem', hstored'⟩ := matched_apply hwf hnot.1 hmem
      exact ⟨hmem', hstored.trans hstored'⟩

/-! ## The result -/

/-- What the call reads back when it has committed is there. -/
def ReadsBack (db' : Database) (r : Reread) (bucket key : String) : Prop :=
  r.row_fails = false ∧ r.blocks_fails = false
    ∧ get_object_row (r.row_state db') bucket key ≠ none

/-- **A copy is made of a current source**, or it fails and changes nothing: `mid` is what
commits between the two queries that read the snapshot, `ops` what commits after them. -/
theorem copies_current_source (past mid ops : List Op) (source_bucket source_key : String)
    (source : ObjectRecord) (r : Reread) (now : Int) (bucket key : String) (metadata : ObjectMetadata)
    (condition : ObjectCondition)
    (hread : read_object (after past) (exec Op.apply (after past) mid) source_bucket source_key
      = some source)
    (hnot : ExecMeets Op.apply (NotReused source.id source_bucket source_key) (after past) (mid ++ ops))
    (hback : ∀ db' released, copy_object_tx (exec Op.apply (after past) (mid ++ ops)) now source
      bucket key metadata condition = .ok (db', released) → ReadsBack db' r bucket key) :
    match Answers.copy_object (exec Op.apply (after past) (mid ++ ops)) r now source bucket key
        metadata condition with
    | (_, .ok _) => Current (exec Op.apply (after past) (mid ++ ops)) source
    | (db', .error _) => db' = exec Op.apply (after past) (mid ++ ops) := by
  have hwf : WellFormed (after past) := wellFormed_after past
  obtain ⟨row, hfound, rfl⟩ := Option.map_eq_some_iff.mp hread
  obtain ⟨-, hname⟩ := lookup_mem (hfound : lookup _ _ (after past).objects = some row)
  obtain ⟨rfl, rfl⟩ := Prod.mk.inj hname
  unfold Answers.copy_object
  cases htx : copy_object_tx (exec Op.apply (after past) (mid ++ ops)) now
      (object_from_row row (load_object_blocks (exec Op.apply (after past) mid) row.id)) bucket key
      metadata condition with
  | error e => rfl
  | ok result =>
      obtain ⟨db', released⟩ := result
      obtain ⟨hrow_fails, hblocks_fails, hthere⟩ := hback db' released htx
      have hcurrent : Current (exec Op.apply (after past) (mid ++ ops))
          (object_from_row row (load_object_blocks (exec Op.apply (after past) mid) row.id)) := by
        -- the guard has found a row, and it can only be the one that was read
        obtain ⟨o, ho, hid, hbucket, hkey⟩ := (copy_object_tx_ok htx).source_row
        change o.id = row.id at hid
        change o.bucket = row.bucket at hbucket
        change o.object_key = row.object_key at hkey
        have hwf_end : WellFormed (exec Op.apply (after past) (mid ++ ops)) := wellFormed_exec hwf _
        change ExecMeets Op.apply (NotReused row.id row.bucket row.object_key) _ _ at hnot
        rw [← hid, ← hbucket, ← hkey] at hnot
        obtain ⟨hfirst, -⟩ := matched_exec hwf hnot ho
        obtain rfl : o = row := eq_of_key_eq hwf.object_ids hfirst (lookup_mem hfound).1 hid
        obtain ⟨-, hlater⟩ := execMeets_append.mp hnot
        have ho' := ho
        rw [exec_append] at ho'
        obtain ⟨-, hstored⟩ := matched_exec (wellFormed_exec hwf mid) hlater ho'
        refine ⟨o, object?_of_mem hwf_end ho, rfl, rfl, rfl, ?_⟩
        rw [load_object_blocks_eq, exec_append, hstored, ← load_object_blocks_eq]
        rfl
      cases hrow : get_object_row (r.row_state db') bucket key with
      | none => exact absurd hrow hthere
      | some found =>
          have hreread : Answers.reread db' r bucket key .copy_disappeared
              = .ok (object_from_row found (load_object_blocks (r.blocks_state db') found.id)) := by
            unfold Answers.reread
            rw [hrow]
            refine bind_ok.mpr ⟨(), require_ok.mpr hrow_fails, ?_⟩
            exact bind_ok.mpr ⟨(), require_ok.mpr hblocks_fails, rfl⟩
          dsimp only
          rw [hreread]
          exact hcurrent

/-! ## A source that was overwritten -/

/-- The object of the first put, and a copy of it: both use the one block. -/
def two_users : List Op := put_first ++ [.copy_object 1 snapshot "b" "c" {} {}]

/-- The copy as it is read. -/
def copied_snapshot : ObjectRecord :=
  { snapshot with id := 2, key := "c", created_at := 1, modified_at := 1 }

/-- The copy is overwritten. -/
def overwrites : List Op :=
  [ .create_upload { upload_record "put-2" with key := "c" }, .add_staged_block 1 (sent 0 12 5),
    .replace_part 1 "put-2" 0 5 "e2" [sent 2 12 5],
    .commit_upload 2 "put-2" 5 "e2"
      [{ upload_id := "put-2", part_number := 0, size := 5, etag := "e2",
         blocks := [sent 2 12 5] }] {} ]

/-- The other user of the block is overwritten while the source is copied. -/
theorem copies_current_source_kept :
    Current (exec Op.apply (after two_users) overwrites) snapshot := by
  have hanswer := copies_current_source two_users [] overwrites "b" "k" snapshot {} 3 "b" "d" {} {}
    (by decide) (by decide) (fun db' released htx => ⟨rfl, rfl, by
      change db'.object? "b" "d" ≠ none
      rw [((copy_object_tx_ok htx).object (wellFormed_exec (wellFormed_after _) _)).1]
      exact Option.some_ne_none _⟩)
  have hok : (Answers.copy_object (exec Op.apply (after two_users) ([] ++ overwrites)) {} 3 snapshot
      "b" "d" {} {}).2.isOk = true := by decide
  split at hanswer
  · exact hanswer
  · rename_i db' e heq
    rw [heq] at hok
    cases hok

/-- **A version that is gone is copied.** The row of the copy was the last one, so its
overwrite has its id; the block of the old version is in use by the other object. -/
theorem outdated_source_copied :
    read_object (after two_users) (after two_users) "b" "c" = some copied_snapshot
      ∧ (Answers.copy_object (exec Op.apply (after two_users) overwrites) {} 3 copied_snapshot
          "b" "d" {} {}).2.isOk = true
      ∧ ((exec Op.apply (after two_users) overwrites).object? "b" "c").map (·.etag) = some "e2"
      ∧ copied_snapshot.etag = "e1"
      ∧ ¬ Current (exec Op.apply (after two_users) overwrites) copied_snapshot := by
  have hetag : ((exec Op.apply (after two_users) overwrites).object? "b" "c").map (·.etag)
      = some "e2" := by decide
  refine ⟨by decide, by decide, hetag, rfl, ?_⟩
  rintro ⟨row, hrow, -, -, hsame, -⟩
  change (exec Op.apply (after two_users) overwrites).object? "b" "c" = some row at hrow
  rw [hrow, Option.map_some, hsame] at hetag
  exact absurd (Option.some.inj hetag) (by decide)

end Tg2s3.CopySource
