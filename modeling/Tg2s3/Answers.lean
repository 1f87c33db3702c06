/-
Does the answer of a write describe that write?

`commit_upload` and `copy_object` commit first and then read the object back by
bucket and key, outside the transaction: the two queries of `get_object`. What
other requests commit in between is what the answer describes, and an object that
is gone by then turns a committed write into an error.

The content of a write is what its transaction puts down: size and ETag from the
arguments, and one row for each block, with the document the block row has at the
commit. The answer is faithful exactly if no query of the re-read fails, the row at
the key at the first one has the size and the ETag of the write, and what is stored
under its id at the second one are the blocks of the write (`faithful_iff_kept`).
-/
import Tg2s3.Reads

set_option autoImplicit false

namespace Tg2s3.Answers

open Tg2s3 Relational Machine
open Tg2s3.Counts (put_first snapshot)
open Tg2s3.Reads

/-! ## The two writers with their re-read -/

/-- What comes between the commit of a call and its answer. -/
structure Reread where
  /-- what other requests commit before the query for the row -/
  before_row : List Op := []
  row_fails : Bool := false
  /-- what they commit between the two queries -/
  before_blocks : List Op := []
  blocks_fails : Bool := false

/-- The state the first query finds. -/
def Reread.row_state (r : Reread) (db : Database) : Database := exec Op.apply db r.before_row

/-- The state the second query finds. -/
def Reread.blocks_state (r : Reread) (db : Database) : Database :=
  exec Op.apply (r.row_state db) r.before_blocks

/-- `self.get_object(bucket, key).await?.ok_or_else(..)?`. -/
def reread (db : Database) (r : Reread) (bucket key : String) (missing : DbError) :
    Except DbError ObjectRecord := do
  require (r.row_fails = false) .query_failed
  match get_object_row (r.row_state db) bucket key with
  | none => .error missing
  | some row => do
      require (r.blocks_fails = false) .query_failed
      pure (object_from_row row (load_object_blocks (r.blocks_state db) row.id))

/-- `Db::commit_upload`. -/
def commit_upload (db : Database) (r : Reread) (now : Int) (upload_id : String) (size : Int)
    (etag : String) (parts : List PartRecord) (condition : ObjectCondition) :
    Database × Except DbError (Option (ObjectRecord × List BlockRef)) :=
  match commit_upload_tx db now upload_id size etag parts condition with
  | .error e => (db, .error e)
  | .ok (db', none) => (db', .ok none)
  | .ok (db', some (upload, released)) =>
      (db', (reread db' r upload.bucket upload.key .disappeared_after_commit).map
        fun object => some (object, released))

/-- `Db::copy_object`. -/
def copy_object (db : Database) (r : Reread) (now : Int) (source : ObjectRecord)
    (bucket key : String) (metadata : ObjectMetadata) (condition : ObjectCondition) :
    Database × Except DbError (Option (ObjectRecord × List BlockRef)) :=
  match copy_object_tx db now source bucket key metadata condition with
  | .error e => (db, .error e)
  | .ok (db', released) =>
      (db', (reread db' r bucket key .copy_disappeared).map fun object => some (object, released))

inductive Write
  | commit_upload (now : Int) (upload_id : String) (size : Int) (etag : String)
      (parts : List PartRecord) (condition : ObjectCondition)
  | copy_object (now : Int) (source : ObjectRecord) (bucket key : String)
      (metadata : ObjectMetadata) (condition : ObjectCondition)

namespace Write

def call (db : Database) (r : Reread) :
    Write → Database × Except DbError (Option (ObjectRecord × List BlockRef))
  | commit_upload now upload_id size etag parts condition =>
      Answers.commit_upload db r now upload_id size etag parts condition
  | copy_object now source bucket key metadata condition =>
      Answers.copy_object db r now source bucket key metadata condition

/-! ## What a write puts down -/

def size : Write → Int
  | commit_upload _ _ size _ _ _ => size
  | copy_object _ source _ _ _ _ => source.size

def etag : Write → String
  | commit_upload _ _ _ etag _ _ => etag
  | copy_object _ source _ _ _ _ => source.etag

/-- The rows of its object, in order: ordinal, block, offset and size. -/
def rows : Write → List (Int × Int × Int × Int)
  | commit_upload _ _ _ _ parts _ => (committed_rows 0 0 0 (parts.flatMap (·.blocks))).map (·.columns)
  | copy_object _ source _ _ _ _ =>
      (source.blocks.insertionSort (·.ordinal ≤ ·.ordinal)).map (·.row)

/-- Its blocks, with the documents the block rows have in the state it commits in. -/
def blocks (w : Write) (db : Database) : List BlockRef :=
  (with_documents db w.rows).filterMap stored_ref

/-- The state its transaction commits, and the name of its object; `none` if it does
not commit. -/
def committed (db : Database) : Write → Option (Database × String × String)
  | commit_upload now upload_id size etag parts condition =>
      match commit_upload_tx db now upload_id size etag parts condition with
      | .ok (db', some (upload, _)) => some (db', upload.bucket, upload.key)
      | _ => none
  | copy_object now source bucket key metadata condition =>
      match copy_object_tx db now source bucket key metadata condition with
      | .ok (db', _) => some (db', bucket, key)
      | .error _ => none

theorem committed_commit_upload {db db' : Database} {now : Int} {upload_id : String} {size : Int}
    {etag : String} {parts : List PartRecord} {condition : ObjectCondition} {bucket key : String} :
    (commit_upload now upload_id size etag parts condition).committed db = some (db', bucket, key)
      ↔ ∃ upload released, commit_upload_tx db now upload_id size etag parts condition
            = .ok (db', some (upload, released)) ∧ upload.bucket = bucket ∧ upload.key = key := by
  unfold committed
  dsimp only
  split
  · rename_i db₁ upload released htx
    simp only [htx, Option.some.injEq, Except.ok.injEq, Prod.mk.injEq]
    constructor
    · rintro ⟨rfl, rfl, rfl⟩
      exact ⟨upload, released, ⟨rfl, rfl, rfl⟩, rfl, rfl⟩
    · rintro ⟨upload', released', ⟨rfl, rfl, rfl⟩, rfl, rfl⟩
      exact ⟨rfl, rfl, rfl⟩
  · rename_i hno
    refine iff_of_false (by simp) ?_
    rintro ⟨upload, released, htx, -⟩
    exact hno db' upload released htx

theorem committed_copy_object {db db' : Database} {now : Int} {source : ObjectRecord}
    {bucket key bucket' key' : String} {metadata : ObjectMetadata} {condition : ObjectCondition} :
    (copy_object now source bucket key metadata condition).committed db = some (db', bucket', key')
      ↔ ∃ released, copy_object_tx db now source bucket key metadata condition
            = .ok (db', released) ∧ bucket = bucket' ∧ key = key' := by
  unfold committed
  dsimp only
  split
  · rename_i db₁ released htx
    simp only [htx, Option.some.injEq, Except.ok.injEq, Prod.mk.injEq]
    constructor
    · rintro ⟨rfl, rfl, rfl⟩
      exact ⟨released, ⟨rfl, rfl⟩, rfl, rfl⟩
    · rintro ⟨released', ⟨rfl, rfl⟩, rfl, rfl⟩
      exact ⟨rfl, rfl, rfl⟩
  · rename_i hno
    simp [hno]

end Write

/-- The answer describes the write: an object is the one that was committed, and
after an error nothing is. -/
def Faithful (db : Database) (w : Write) (r : Reread) : Prop :=
  match (w.call db r).2 with
  | .ok (some (object, _)) =>
      object.size = w.size ∧ object.etag = w.etag ∧ object.blocks = w.blocks db
  | .ok none | .error _ => (w.call db r).1 = db ∧ w.committed db = none

instance (db : Database) (w : Write) (r : Reread) : Decidable (Faithful db w r) := by
  unfold Faithful
  split <;> infer_instance

/-- If the write commits, no query of the re-read fails, and both find its content. -/
def Kept (db : Database) (w : Write) (r : Reread) : Prop :=
  ∀ db' bucket key, w.committed db = some (db', bucket, key) →
    r.row_fails = false ∧ r.blocks_fails = false
      ∧ ∃ row ∈ get_object_row (r.row_state db') bucket key,
          row.size = w.size ∧ row.etag = w.etag
            ∧ stored_blocks (r.blocks_state db') row.id = with_documents db w.rows

/-! ## What the transaction leaves -/

theorem columns_committed_rows (object_id ordinal offset : Int) (blocks : List BlockRef) :
    (committed_rows object_id ordinal offset blocks).map (·.columns)
      = (committed_rows 0 ordinal offset blocks).map (·.columns) := by
  induction blocks generalizing ordinal offset with
  | nil => rfl
  | cons block blocks ih =>
      simp only [committed_rows, List.map_cons, ih]
      rfl

theorem columns_copied_rows (object_id : Int) (blocks : List BlockRef) :
    ((copied_rows object_id blocks).insertionSort (·.ordinal ≤ ·.ordinal)).map (·.columns)
      = (blocks.insertionSort (·.ordinal ≤ ·.ordinal)).map (·.row) := by
  unfold copied_rows
  rw [← List.map_insertionSort (r := fun a b : BlockRef => a.ordinal ≤ b.ordinal)]
  · rw [List.map_map]
    rfl
  · intro a _ b _
    exact Iff.rfl

theorem block_id_committed_rows {object_id ordinal offset : Int} {blocks : List BlockRef} :
    ∀ columns ∈ (committed_rows object_id ordinal offset blocks).map (·.columns),
      columns.2.1 ∈ blocks.map (·.id) := by
  induction blocks generalizing ordinal offset with
  | nil => simp [committed_rows]
  | cons block blocks ih =>
      intro columns hcolumns
      rcases List.mem_cons.mp hcolumns with rfl | hcolumns
      · exact List.mem_cons_self
      · exact List.mem_cons_of_mem _ (ih columns hcolumns)

/-- The books do not touch the documents. -/
theorem with_documents_of_books {db db₀ db' : Database} (hbooks : Books db₀ db')
    (hblocks : db₀.telegram_blocks = db.telegram_blocks) (rows : List (Int × Int × Int × Int)) :
    with_documents db' rows = with_documents db rows := by
  unfold with_documents
  refine List.map_congr_left (fun columns _ => ?_)
  rw [hbooks.map_block? (g := document_columns) (fun _ => rfl)]
  unfold Database.block?
  rw [hblocks]

/-- Its row is at its name, with its size and its ETag; what is stored under the id
of the row is what the write put down. -/
theorem written {w : Write} {db db' : Database} {bucket key : String}
    (hwf : WellFormed db) (h : w.committed db = some (db', bucket, key)) :
    WellFormed db' ∧ (∀ columns ∈ w.rows, columns.2.1 ∈ db.telegram_blocks.map (·.id))
      ∧ ∃ row, get_object_row db' bucket key = some row ∧ row.size = w.size ∧ row.etag = w.etag
        ∧ stored_blocks db' row.id = with_documents db w.rows := by
  cases w with
  | commit_upload now upload_id size etag parts condition =>
      obtain ⟨upload, released, htx, rfl, rfl⟩ := Write.committed_commit_upload.mp h
      have hcommitted := commit_upload_tx_ok htx
      refine ⟨hcommitted.wellFormed hwf, ?_, _, (hcommitted.object hwf).1, rfl, rfl, ?_⟩
      · exact fun columns hcolumns =>
          hcommitted.present _ (block_id_committed_rows columns hcolumns)
      · unfold stored_blocks
        rw [hcommitted.object_block_rows hwf, columns_committed_rows]
        refine with_documents_of_books hcommitted.books ?_ _
        simp only [commit_target, Database.delete_upload, telegram_blocks_without_object]
  | copy_object now source bucket' key' metadata condition =>
      obtain ⟨released, htx, rfl, rfl⟩ := Write.committed_copy_object.mp h
      have hcopied := copy_object_tx_ok htx
      refine ⟨hcopied.wellFormed hwf, ?_, _, (hcopied.object hwf).1, rfl, rfl, ?_⟩
      · intro columns hcolumns
        obtain ⟨block, hblock, rfl⟩ := List.mem_map.mp hcolumns
        exact hcopied.present _ (List.mem_map_of_mem ((List.mem_insertionSort _).mp hblock))
      · unfold stored_blocks
        rw [(hcopied.object hwf).2, columns_copied_rows]
        refine with_documents_of_books hcopied.books ?_ _
        simp only [copy_target, telegram_blocks_without_object]

/-- **The version a write commits** has its size, its ETag and its blocks. -/
theorem version_committed {w : Write} {db db' : Database} {bucket key : String}
    (hwf : WellFormed db) (h : w.committed db = some (db', bucket, key)) :
    ∃ object, get_object db' bucket key = some object
      ∧ object.size = w.size ∧ object.etag = w.etag ∧ object.blocks = w.blocks db := by
  obtain ⟨-, -, row, hrow, hsize, hetag, hstored⟩ := written hwf h
  refine ⟨_, Option.map_eq_some_iff.mpr ⟨row, hrow, rfl⟩, hsize, hetag, ?_⟩
  exact (load_object_blocks_eq db' row.id).trans (by rw [hstored]; rfl)

/-! ## What the call answers -/

theorem call_of_committed {w : Write} {db db' : Database} {bucket key : String}
    (h : w.committed db = some (db', bucket, key)) (r : Reread) :
    ∃ missing released, w.call db r
      = (db', (reread db' r bucket key missing).map fun object => some (object, released)) := by
  cases w with
  | commit_upload now upload_id size etag parts condition =>
      obtain ⟨upload, released, htx, rfl, rfl⟩ := Write.committed_commit_upload.mp h
      refine ⟨.disappeared_after_commit, released, ?_⟩
      simp only [Write.call, Answers.commit_upload, htx]
  | copy_object now source bucket' key' metadata condition =>
      obtain ⟨released, htx, rfl, rfl⟩ := Write.committed_copy_object.mp h
      refine ⟨.copy_disappeared, released, ?_⟩
      simp only [Write.call, Answers.copy_object, htx]

/-- A call that does not commit leaves the database as it was, and returns no object. -/
theorem call_of_not_committed {w : Write} {db : Database} (h : w.committed db = none)
    (r : Reread) :
    (w.call db r).1 = db ∧ ((w.call db r).2 = .ok none ∨ ∃ e, (w.call db r).2 = .error e) := by
  cases w with
  | commit_upload now upload_id size etag parts condition =>
      simp only [Write.call, Answers.commit_upload]
      split
      · exact ⟨rfl, Or.inr ⟨_, rfl⟩⟩
      · rename_i db' htx
        exact ⟨commit_upload_tx_none htx, Or.inl rfl⟩
      · rename_i db' upload released htx
        have := Write.committed_commit_upload.mpr ⟨upload, released, htx, rfl, rfl⟩
        rw [h] at this
        cases this
  | copy_object now source bucket key metadata condition =>
      simp only [Write.call, Answers.copy_object]
      split
      · exact ⟨rfl, Or.inr ⟨_, rfl⟩⟩
      · rename_i db' released htx
        have := Write.committed_copy_object.mpr ⟨released, htx, rfl, rfl⟩
        rw [h] at this
        cases this

theorem reread_ok {db : Database} {r : Reread} {bucket key : String} {missing : DbError}
    {object : ObjectRecord} :
    reread db r bucket key missing = .ok object
      ↔ r.row_fails = false ∧ r.blocks_fails = false
        ∧ ∃ row ∈ get_object_row (r.row_state db) bucket key,
            object = object_from_row row (load_object_blocks (r.blocks_state db) row.id) := by
  unfold reread
  rw [bind_ok]
  constructor
  · rintro ⟨_, hrow_query, h⟩
    cases hrow : get_object_row (r.row_state db) bucket key with
    | none => rw [hrow] at h; cases h
    | some row =>
        rw [hrow] at h
        obtain ⟨_, hblocks_query, h⟩ := bind_ok.mp h
        exact ⟨require_ok.mp hrow_query, require_ok.mp hblocks_query, row, rfl,
          (Except.ok.inj h).symm⟩
  · rintro ⟨hrow_query, hblocks_query, row, hrow, rfl⟩
    refine ⟨(), require_ok.mpr hrow_query, ?_⟩
    rw [hrow]
    exact bind_ok.mpr ⟨(), require_ok.mpr hblocks_query, rfl⟩

/-! ## The result -/

/-- A call that commits: faithful if and only if its re-read finds its content. -/
theorem faithful_of_commits {db db' : Database} {w : Write} {bucket key : String}
    (hwf : WellFormed db) (h : w.committed db = some (db', bucket, key)) (r : Reread) :
    Faithful db w r ↔ r.row_fails = false ∧ r.blocks_fails = false
      ∧ ∃ row ∈ get_object_row (r.row_state db') bucket key,
          row.size = w.size ∧ row.etag = w.etag
            ∧ stored_blocks (r.blocks_state db') row.id = with_documents db w.rows := by
  obtain ⟨hwf', hpresent, -⟩ := written hwf h
  obtain ⟨missing, released, hcall⟩ := call_of_committed h r
  have hwf_blocks : WellFormed (r.blocks_state db') := wellFormed_exec (wellFormed_exec hwf' _) _
  unfold Faithful
  rw [hcall]
  cases hanswer : reread db' r bucket key missing with
  | error e =>
      refine iff_of_false (fun hnot => by rw [h] at hnot; cases hnot.2) ?_
      rintro ⟨hrow_query, hblocks_query, row, hrow, -⟩
      have hok : reread db' r bucket key missing = .ok _ :=
        reread_ok.mpr ⟨hrow_query, hblocks_query, row, hrow, rfl⟩
      rw [hanswer] at hok
      cases hok
  | ok object =>
      obtain ⟨hrow_query, hblocks_query, row, hrow, rfl⟩ := reread_ok.mp hanswer
      have hstored : stored_blocks (r.blocks_state db') row.id = with_documents db w.rows
          ↔ load_object_blocks (r.blocks_state db') row.id = w.blocks db :=
        stored_eq_iff hwf_blocks hpresent row.id
      constructor
      · rintro ⟨hsize, hetag, hblocks⟩
        exact ⟨hrow_query, hblocks_query, row, hrow, hsize, hetag, hstored.mpr hblocks⟩
      · rintro ⟨-, -, row', hrow', hsize, hetag, hblocks⟩
        obtain rfl : row = row' := Option.some.inj ((Option.mem_def.mp hrow).symm.trans hrow')
        exact ⟨hsize, hetag, hstored.mp hblocks⟩

/-- **The answer describes the write if and only if its content is kept until it has
been read back**; and what a call commits is its own content. -/
theorem faithful_iff_kept (past : List Op) (w : Write) (r : Reread) :
    (Faithful (after past) w r ↔ Kept (after past) w r)
      ∧ ∀ db' bucket key, w.committed (after past) = some (db', bucket, key) →
          ∃ object, get_object db' bucket key = some object
            ∧ object.size = w.size ∧ object.etag = w.etag ∧ object.blocks = w.blocks (after past) := by
  have hwf : WellFormed (after past) := wellFormed_after past
  refine ⟨?_, fun db' bucket key h => version_committed hwf h⟩
  unfold Kept
  cases hcommitted : w.committed (after past) with
  | none =>
      refine iff_of_true ?_ (fun db' bucket key h => by cases h)
      obtain ⟨hdb, hanswer⟩ := call_of_not_committed hcommitted r
      unfold Faithful
      rcases hanswer with hnone | ⟨e, herror⟩
      · rw [hnone]
        exact ⟨hdb, hcommitted⟩
      · rw [herror]
        exact ⟨hdb, hcommitted⟩
  | some result =>
      obtain ⟨db', bucket, key⟩ := result
      rw [faithful_of_commits hwf hcommitted r]
      constructor
      · rintro hkept db'' bucket' key' heq
        obtain ⟨rfl, hname⟩ := Prod.mk.inj (Option.some.inj heq)
        obtain ⟨rfl, rfl⟩ := Prod.mk.inj hname
        exact hkept
      · exact fun hkept => hkept db' bucket key rfl

/-! ## Two answers that do not describe the write -/

/-- The upload of `put_second`, at its commit. -/
def second_write : Write :=
  .commit_upload 2 "put-2" 5 "e2"
    [{ upload_id := "put-2", part_number := 0, size := 5, etag := "e2",
       blocks := [Counts.sent 2 12 5] }] {}

/-- The object of the first upload is kept under another key. -/
def with_other : List Op :=
  put_first ++ put_second ++ [.copy_object 1 snapshot "b" "other" {} {}]

/-- Before the re-read the other object is copied onto the key. -/
def overwritten : Reread :=
  { before_row := [.copy_object 3 { snapshot with id := 2, key := "other" } "b" "k" {} {}] }

/-- Before the re-read the object is deleted. -/
def removed : Reread := { before_row := [.delete_object 3 "b" "k" {}] }

/-- **An answer can describe another write.** The upload commits with ETag `e2` and
is answered with `e1`, the ETag of a copy that came after it; and where a delete came
after it, the answer is an error although the object was committed. -/
theorem answer_of_another_write :
    ((second_write.call (after with_other) overwritten).2.toOption.bind id).map
        (fun answer => (answer.1.etag, answer.1.blocks.map (·.message_id))) = some ("e1", [11])
      ∧ ¬ Faithful (after with_other) second_write overwritten
      ∧ (second_write.call (after with_other) removed).2 = .error .disappeared_after_commit
      ∧ ((second_write.call (after with_other) removed).1.object? "b" "k").map (·.etag) = some "e2"
      ∧ ¬ Faithful (after with_other) second_write removed := by
  decide

end Tg2s3.Answers
