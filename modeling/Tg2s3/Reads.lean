/-
Does a read see one version of the object?

`get_object` is two queries and no transaction: the row of the object, then the
blocks under the id of that row. Between the two any number of transactions may
commit. An overwrite deletes the row and inserts a new one, and the id of the new
row is one more than the largest id left -- often the id of the row it deleted
(`objects.id` has no `AUTOINCREMENT`). So the second query may answer for another
object than the first.

The condition is `Undisturbed`: the row is still in the table at the second query,
or what the tables hold under its id is what they held at the first one (an empty
object that was deleted, or a copy of the object onto itself that kept the id).
It is exact as far as the versions at the two queries go (`undisturbed_iff`).
-/
import Mathlib.Data.List.Infix
import Tg2s3.Counts

set_option autoImplicit false

namespace Tg2s3.Reads

open Tg2s3 Relational Machine
open Tg2s3.Counts (sent upload_record put_first snapshot)

/-! ## A read, each query in the state it finds -/

/-- `Db::get_object`. -/
def read_object (row_state blocks_state : Database) (bucket key : String) :
    Option ObjectRecord :=
  (get_object_row row_state bucket key).map fun row =>
    object_from_row row (load_object_blocks blocks_state row.id)

/-- `Engine::get_object`. -/
def engine_get_object (bucket_state row_state blocks_state : Database) (bucket key : String) :
    Except DbError ObjectRecord := do
  require (bucket ∈ bucket_state.buckets.map (·.name)) .no_such_bucket
  match read_object row_state blocks_state bucket key with
  | none => .error .no_such_key
  | some object => do
      validate_object_layout object
      pure object

/-- The record is a version that was current at some moment while `ops` ran. -/
def OneVersion (db : Database) (ops : List Op) (bucket key : String) (object : ObjectRecord) :
    Prop :=
  ∃ past ∈ ops.inits, get_object (exec Op.apply db past) bucket key = some object

instance (db : Database) (ops : List Op) (bucket key : String) (object : ObjectRecord) :
    Decidable (OneVersion db ops bucket key object) := inferInstanceAs (Decidable (∃ _ ∈ _, _))

/-- No object of this state has an invalid layout. -/
def ValidLayouts (db : Database) : Prop :=
  ∀ row ∈ db.objects,
    validate_object_layout (object_from_row row (load_object_blocks db row.id)) = .ok ()

instance (db : Database) : Decidable (ValidLayouts db) :=
  inferInstanceAs (Decidable (∀ _ ∈ _, _))

/-- The columns of a block row a reader sees. -/
def document_columns (b : TelegramBlockRow) : TelegramBlockRow :=
  { b with size := 0, ref_count := 0, state := .staged, created_at := 0 }

/-- What the tables hold for these rows: their columns and the documents they refer
to. -/
def with_documents (db : Database) (rows : List (Int × Int × Int × Int)) :
    List ((Int × Int × Int × Int) × Option TelegramBlockRow) :=
  rows.map fun columns => (columns, (db.block? columns.2.1).map document_columns)

/-- What the tables hold under the id of an object. -/
def stored_blocks (db : Database) (object_id : Int) :
    List ((Int × Int × Int × Int) × Option TelegramBlockRow) :=
  with_documents db ((db.object_block_rows object_id).map (·.columns))

/-- Between the two queries the row stayed, or what is stored under its id did. -/
def Undisturbed (row_state blocks_state : Database) (bucket key : String) : Prop :=
  ∀ row ∈ get_object_row row_state bucket key,
    row ∈ blocks_state.objects ∨ stored_blocks blocks_state row.id = stored_blocks row_state row.id

instance (row_state blocks_state : Database) (bucket key : String) :
    Decidable (Undisturbed row_state blocks_state bucket key) := by
  unfold Undisturbed
  infer_instance

/-! ## The second query answers from what is stored -/

/-- The block reference of a stored row. -/
def stored_ref (p : (Int × Int × Int × Int) × Option TelegramBlockRow) : Option BlockRef :=
  p.2.map fun b => Database.block_from_row b p.1.1 p.1.2.2.1 p.1.2.2.2

/-- The stored row of a block reference. -/
def ref_stored (block : BlockRef) : (Int × Int × Int × Int) × Option TelegramBlockRow :=
  (block.row,
   some { id := block.id, chat_id := block.chat_id, message_id := block.message_id,
          backend := block.backend, document_id := block.document_id, file_id := block.file_id,
          file_unique_id := block.file_unique_id, size := 0, message_date := block.message_date,
          ref_count := 0, state := .staged, created_at := 0 })

theorem load_object_blocks_eq (db : Database) (object_id : Int) :
    load_object_blocks db object_id = (stored_blocks db object_id).filterMap stored_ref := by
  unfold load_object_blocks stored_blocks with_documents
  rw [List.filterMap_map, List.filterMap_map]
  refine List.filterMap_congr (fun r _ => ?_)
  unfold Database.join_object_block Database.join_block stored_ref ObjectBlockRow.columns
  simp only [Function.comp_def, Option.map_map]
  rfl

/-- Where every block is there, the join drops no row: its answer determines what is
stored. -/
theorem with_documents_eq {db : Database} {rows : List (Int × Int × Int × Int)}
    (hrows : ∀ columns ∈ rows, columns.2.1 ∈ db.telegram_blocks.map (·.id)) :
    with_documents db rows
      = ((with_documents db rows).filterMap stored_ref).map ref_stored := by
  rw [List.map_filterMap]
  have hall : ∀ p ∈ with_documents db rows, (stored_ref p).map ref_stored = some p := by
    intro p hp
    obtain ⟨columns, hcolumns, rfl⟩ := List.mem_map.mp hp
    obtain ⟨b, hb⟩ := lookup_isSome.mpr (hrows columns hcolumns)
    have hblock : db.block? columns.2.1 = some b := hb
    have hid : b.id = columns.2.1 := (lookup_mem hb).2
    rw [hblock]
    simp only [stored_ref, ref_stored, Database.block_from_row, document_columns, Option.map_some,
      BlockRef.row, hid]
  rw [List.filterMap_congr hall, List.filterMap_some]

theorem mem_columns {db : Database} (hwf : WellFormed db) (object_id : Int) :
    ∀ columns ∈ (db.object_block_rows object_id).map (·.columns),
      columns.2.1 ∈ db.telegram_blocks.map (·.id) := by
  intro columns hcolumns
  obtain ⟨r, hr, rfl⟩ := List.mem_map.mp hcolumns
  have hmem := (List.mem_insertionSort _).mp hr
  exact hwf.object_block_block r (List.mem_filter.mp hmem).1

/-- A load lists the blocks in the order of the rows, so sorting them changes nothing. -/
theorem rows_of_loaded {db : Database} (hwf : WellFormed db) (object_id : Int) :
    ((load_object_blocks db object_id).insertionSort (·.ordinal ≤ ·.ordinal)).map (·.row)
      = (db.object_block_rows object_id).map (·.columns) := by
  have hrows := hwf.load_object_blocks object_id
  have hordinals : (load_object_blocks db object_id).map (·.ordinal)
      = (db.object_block_rows object_id).map (·.ordinal) := by
    have hfirst := congrArg (List.map fun t : Int × Int × Int × Int => t.1) hrows
    rw [List.map_map, List.map_map] at hfirst
    exact hfirst
  have hsorted : (load_object_blocks db object_id).Pairwise (·.ordinal ≤ ·.ordinal) := by
    have hpairwise : ((load_object_blocks db object_id).map (·.ordinal)).Pairwise (· ≤ ·) := by
      rw [hordinals]
      exact List.pairwise_map.mpr (List.pairwise_insertionSort _ _)
    exact List.pairwise_map.mp hpairwise
  rw [List.Pairwise.insertionSort_eq hsorted, hrows]

/-- What is stored under an id is what was stored for these rows if and only if the
query answers the same. -/
theorem stored_eq_iff {db db' : Database} (hwf' : WellFormed db')
    {rows : List (Int × Int × Int × Int)}
    (hrows : ∀ columns ∈ rows, columns.2.1 ∈ db.telegram_blocks.map (·.id)) (object_id : Int) :
    stored_blocks db' object_id = with_documents db rows
      ↔ load_object_blocks db' object_id = (with_documents db rows).filterMap stored_ref := by
  constructor
  · intro h
    rw [load_object_blocks_eq, h]
  · intro h
    have hstored := with_documents_eq (mem_columns hwf' object_id)
    rw [with_documents_eq hrows, ← h, load_object_blocks_eq]
    exact hstored

/-! ## The condition and the versions at the two queries -/

/-- A row that is in the table is the current one at its name. -/
theorem object?_of_mem {db : Database} (hwf : WellFormed db) {row : ObjectRow}
    (hrow : row ∈ db.objects) : db.object? row.bucket row.object_key = some row :=
  lookup_eq_some hwf.object_names hrow rfl

theorem object_from_row_inj {row row' : ObjectRow} {blocks blocks' : List BlockRef}
    (h : object_from_row row blocks = object_from_row row' blocks') :
    row = row' ∧ blocks = blocks' := by
  simp only [object_from_row, ObjectRecord.mk.injEq] at h
  obtain ⟨hid, hbucket, hkey, hsize, hetag, hmetadata, hcreated, hmodified, hblocks⟩ := h
  refine ⟨?_, hblocks⟩
  cases row
  cases row'
  simp only [ObjectRow.mk.injEq]
  exact ⟨hid, hbucket, hkey, hsize, hetag, hmetadata, hcreated, hmodified⟩

/-- **The condition is exact**: it says that the record is the version of the first
query or the version of the second one. -/
theorem undisturbed_iff {db db' : Database} (hwf : WellFormed db) (hwf' : WellFormed db')
    {bucket key : String} {object : ObjectRecord}
    (hread : read_object db db' bucket key = some object) :
    Undisturbed db db' bucket key
      ↔ get_object db bucket key = some object ∨ get_object db' bucket key = some object := by
  obtain ⟨row, hrow, rfl⟩ := Option.map_eq_some_iff.mp hread
  obtain ⟨-, hname⟩ := lookup_mem (hrow : lookup _ _ db.objects = some row)
  obtain ⟨hbucket, hkey⟩ := Prod.mk.inj hname
  unfold Undisturbed get_object
  rw [hrow]
  simp only [Option.mem_def, Option.some.injEq, forall_eq', Option.map_some]
  have hstored : stored_blocks db' row.id = stored_blocks db row.id
      ↔ load_object_blocks db' row.id = load_object_blocks db row.id := by
    rw [load_object_blocks_eq db]
    exact stored_eq_iff hwf' (mem_columns hwf row.id) row.id
  rw [hstored, or_comm]
  refine or_congr ⟨fun h => by rw [h], fun h => (object_from_row_inj h).2.symm⟩ ?_
  constructor
  · intro hmem
    have hrow' : get_object_row db' bucket key = some row := by
      rw [← hbucket, ← hkey]
      exact object?_of_mem hwf' hmem
    rw [hrow']
    rfl
  · intro h
    obtain ⟨row', hrow', heq⟩ := Option.map_eq_some_iff.mp h
    obtain ⟨rfl, -⟩ := object_from_row_inj heq
    exact (lookup_mem hrow').1

/-! ## The result -/

/-- **A read that is not disturbed sees one version**, the one at its first query
or the one at its second, and its layout is valid if every version's is. -/
theorem read_one_version (past ops : List Op) (bucket key : String)
    (hundisturbed : Undisturbed (after past) (exec Op.apply (after past) ops) bucket key) :
    (∀ object, read_object (after past) (exec Op.apply (after past) ops) bucket key = some object →
      OneVersion (after past) ops bucket key object)
    ∧ ((∀ mid ∈ ops.inits, ValidLayouts (exec Op.apply (after past) mid)) →
      ∀ bucket_state, engine_get_object bucket_state (after past) (exec Op.apply (after past) ops)
        bucket key ≠ .error .invalid_layout) := by
  have hwf : WellFormed (after past) := wellFormed_after past
  have hversion : ∀ object,
      read_object (after past) (exec Op.apply (after past) ops) bucket key = some object →
        OneVersion (after past) ops bucket key object := by
    intro object hread
    rcases (undisturbed_iff hwf (wellFormed_exec hwf ops) hread).mp hundisturbed with h | h
    · exact ⟨[], (List.mem_inits _ _).mpr List.nil_prefix, h⟩
    · exact ⟨ops, (List.mem_inits _ _).mpr List.prefix_rfl, h⟩
  refine ⟨hversion, fun hvalid bucket_state herror => ?_⟩
  unfold engine_get_object require at herror
  split_ifs at herror with hbucket
  · cases hread : read_object (after past) (exec Op.apply (after past) ops) bucket key with
    | none =>
        rw [hread] at herror
        cases herror
    | some object =>
        obtain ⟨mid, hmid, hcurrent⟩ := hversion object hread
        obtain ⟨row, hrow, rfl⟩ := Option.map_eq_some_iff.mp hcurrent
        have hlayout := hvalid mid hmid row (lookup_mem hrow).1
        rw [hread] at herror
        simp only [hlayout] at herror
        cases herror
  · cases herror

/-- The object is copied to another key while it is read. -/
theorem read_one_version_copied :
    read_object (after put_first)
        (exec Op.apply (after put_first) [.copy_object 1 snapshot "b" "other" {} {}]) "b" "k"
      = some snapshot
    ∧ OneVersion (after put_first) [.copy_object 1 snapshot "b" "other" {} {}] "b" "k" snapshot :=
  have hread : read_object (after put_first)
      (exec Op.apply (after put_first) [.copy_object 1 snapshot "b" "other" {} {}]) "b" "k"
        = some snapshot := by decide
  ⟨hread, (read_one_version put_first [.copy_object 1 snapshot "b" "other" {} {}] "b" "k"
    (by decide)).1 snapshot hread⟩

/-! ## Two reads that are disturbed -/

/-- A second upload to the same key, up to its commit. -/
def put_second : List Op :=
  [ .create_upload (upload_record "put-2"), .add_staged_block 1 (sent 0 12 5),
    .replace_part 1 "put-2" 0 5 "e2" [sent 2 12 5] ]

def commit_second : Op :=
  .commit_upload 2 "put-2" 5 "e2"
    [{ upload_id := "put-2", part_number := 0, size := 5, etag := "e2",
       blocks := [sent 2 12 5] }] {}

/-- **A read can mix two versions.** The overwrite commits between the queries and
gets the same row id: the record has the ETag of the first object and the block of
the second, and passes the layout check. -/
theorem read_mixes_versions :
    ∃ object, read_object (after (put_first ++ put_second))
        (exec Op.apply (after (put_first ++ put_second)) [commit_second]) "b" "k" = some object
      ∧ object.etag = "e1" ∧ object.blocks.map (·.message_id) = [12]
      ∧ validate_object_layout object = .ok ()
      ∧ ¬ OneVersion (after (put_first ++ put_second)) [commit_second] "b" "k" object
      ∧ engine_get_object (after put_first) (after put_first)
          (exec Op.apply (after put_first) [.delete_object 1 "b" "k" {}]) "b" "k"
        = .error .invalid_layout
      ∧ ∀ mid ∈ [Op.delete_object 1 "b" "k" {}].inits,
          ValidLayouts (exec Op.apply (after put_first) mid) :=
  ⟨{ snapshot with blocks := [sent 2 12 5] }, by decide⟩

end Tg2s3.Reads
