/-
Are the conditions of a copy checked on what is copied?

The handler of CopyObject loads the source, compares its ETag with the
`x-amz-copy-source-if-*` headers and takes its metadata; the engine then loads the
source again, and what it finds there goes into the transaction. An overwrite that
commits between the two loads is copied unchecked, with the metadata of the
version before it. (The conditions on the destination are checked once more inside
the transaction, see `remove_existing_object`.)

`SourceKept` is the exact condition: the second load is not disturbed, its row gets
the same answer from the headers as the first one, and has the same metadata unless
the request replaces it; and up to the transaction the blocks of that load keep their
documents. (A block id can be handed out again in that gap. The transaction compares
ids and would then refer the destination to a document of another object.)
-/
import Mathlib
import Tg2s3.Answers
import Tg2s3.S3.Request

set_option autoImplicit false

namespace Tg2s3.S3

open Tg2s3 Relational Machine
open Tg2s3.Reads (read_object engine_get_object Undisturbed undisturbed_iff stored_blocks
  stored_eq_iff rows_of_loaded with_documents put_second commit_second)
open Tg2s3.Answers (Reread)
open Tg2s3.Counts (put_first snapshot)

/-! ## The request, each query in the state it finds -/

/-- What other requests commit before each query of `Engine::get_object`. -/
structure Load where
  before_bucket : List Op := []
  before_row : List Op := []
  before_blocks : List Op := []

namespace Load

variable (l : Load) (db : Database)

def bucket_state : Database := exec Op.apply db l.before_bucket
def row_state : Database := exec Op.apply (l.bucket_state db) l.before_row
def blocks_state : Database := exec Op.apply (l.row_state db) l.before_blocks

/-- `Engine::get_object`. -/
def get_object (bucket key : String) : Except DbError ObjectRecord :=
  engine_get_object (l.bucket_state db) (l.row_state db) (l.blocks_state db) bucket key

end Load

/-- What other requests commit while a copy runs. -/
structure CopyRun where
  /-- the load of the handler -/
  first : Load := {}
  /-- before the engine asks for the destination bucket -/
  before_target : List Op := []
  /-- the load of the engine -/
  second : Load := {}
  before_commit : List Op := []
  reread : Reread := {}

namespace CopyRun

variable (r : CopyRun) (db : Database)

def target_state : Database := exec Op.apply (r.first.blocks_state db) r.before_target
def commit_state : Database :=
  exec Op.apply (r.second.blocks_state (r.target_state db)) r.before_commit

/-- The row the handler's load finds. -/
def first_row (bucket key : String) : Option ObjectRow :=
  get_object_row (r.first.row_state db) bucket key

/-- The row the engine's load finds. -/
def second_row (bucket key : String) : Option ObjectRow :=
  get_object_row (r.second.row_state (r.target_state db)) bucket key

variable {db} in
/-- The tables that the second load reads are well formed. -/
theorem wellFormed_row (h : WellFormed db) :
    WellFormed (r.second.row_state (r.target_state db)) :=
  wellFormed_exec (wellFormed_exec (wellFormed_exec (wellFormed_exec
    (wellFormed_exec (wellFormed_exec h _) _) _) _) _) _

variable {db} in
/-- And so are those of the commit. -/
theorem wellFormed_commit (h : WellFormed db) : WellFormed (r.commit_state db) :=
  wellFormed_exec (wellFormed_exec (r.wellFormed_row h) _) _

/-- `Engine::copy_object`, after the handler's load; the first component is what its
transaction leaves. -/
def engine_copy_object (now : Int) (source_bucket source_key bucket key : String)
    (metadata : ObjectMetadata) (condition : ObjectCondition) :
    Database × Except DbError ObjectRecord :=
  let load : Except DbError ObjectRecord := do
    require (bucket ∈ (r.target_state db).buckets.map (·.name)) .no_such_bucket
    r.second.get_object (r.target_state db) source_bucket source_key
  match load with
  | .error e => (r.commit_state db, .error e)
  | .ok source =>
      match Answers.copy_object (r.commit_state db) r.reread now source bucket key metadata
          condition with
      | (db', .ok (some (object, _))) => (db', .ok object)
      | (db', .ok none) => (db', .error .copy_disappeared)
      | (db', .error e) => (db', .error e)

end CopyRun

/-- `eq_ignore_ascii_case`. -/
def eq_ignore_ascii_case (a b : String) : Bool :=
  a.toList.map Char.toLower = b.toList.map Char.toLower

/-- The metadata directive is `REPLACE`. -/
def replaces_metadata (headers : HeaderMap) : Bool :=
  ((headers.text "x-amz-metadata-directive").map (eq_ignore_ascii_case · "REPLACE")).getD false

section Source

variable (percent_decode : String → Option String)

/-- What the handler does before it calls the engine: the name of the source, and the
metadata of the destination. -/
def prepare_copy (db : Database) (r : CopyRun) (source : String) (headers : HeaderMap) :
    Except S3Error (String × String × ObjectMetadata) := do
  let (source_bucket, source_key) ← parse_copy_source percent_decode source
  let source_object ← (r.first.get_object db source_bucket source_key).mapError S3Error.engine
  check_copy_source_conditions source_object.etag headers
  pure (source_bucket, source_key,
    if replaces_metadata headers then metadata_from_headers headers else source_object.metadata)

/-- `copy_object` of the S3 layer. -/
def copy_object (db : Database) (r : CopyRun) (now : Int) (bucket key source : String)
    (headers : HeaderMap) (condition : ObjectCondition) :
    Database × Except S3Error ObjectRecord :=
  match prepare_copy percent_decode db r source headers with
  | .error e => (r.commit_state db, .error e)
  | .ok (source_bucket, source_key, metadata) =>
      let (db', result) :=
        r.engine_copy_object db now source_bucket source_key bucket key metadata condition
      (db', result.mapError S3Error.engine)

end Source

/-! ## One version -/

/-- In the state its transaction left, the destination has the size and the ETag of this
version of the source, and its blocks: the documents too are those of the version. -/
def Received (db' : Database) (bucket key : String) (headers : HeaderMap) (v : ObjectRecord) :
    Prop :=
  ∃ object, Tg2s3.get_object db' bucket key = some object
    ∧ object.size = v.size ∧ object.etag = v.etag ∧ object.blocks = v.blocks
    ∧ (replaces_metadata headers = false → object.metadata = v.metadata)

/-- **One version is checked and copied**: what the engine has loaded was the version
of the source at one of the queries of that load, it passes the conditions, and the
destination has its content and, unless it is replaced, its metadata. -/
def CopiesVersion (db : Database) (r : CopyRun) (db' : Database)
    (source_bucket source_key bucket key : String) (headers : HeaderMap) : Prop :=
  ∃ v, r.second.get_object (r.target_state db) source_bucket source_key = .ok v
    ∧ (Tg2s3.get_object (r.second.row_state (r.target_state db)) source_bucket source_key = some v
      ∨ Tg2s3.get_object (r.second.blocks_state (r.target_state db)) source_bucket source_key
        = some v)
    ∧ check_copy_source_conditions v.etag headers = .ok ()
    ∧ Received db' bucket key headers v

/-- The blocks of this object still have the documents they had when it was loaded. -/
def DocumentsKept (loaded commit_state : Database) (object_id : Int) : Prop :=
  with_documents commit_state ((loaded.object_block_rows object_id).map (·.columns))
    = stored_blocks loaded object_id

instance (loaded commit_state : Database) (object_id : Int) :
    Decidable (DocumentsKept loaded commit_state object_id) :=
  inferInstanceAs (Decidable (_ = _))

/-- The second load is not disturbed, its row is as good as that of the first, and its blocks
keep their documents until the transaction runs. -/
def SourceKept (db : Database) (r : CopyRun) (bucket key : String) (headers : HeaderMap) : Prop :=
  Undisturbed (r.second.row_state (r.target_state db)) (r.second.blocks_state (r.target_state db))
      bucket key
    ∧ ∀ before ∈ r.first_row db bucket key, ∀ row ∈ r.second_row db bucket key,
        check_copy_source_conditions row.etag headers
            = check_copy_source_conditions before.etag headers
          ∧ (replaces_metadata headers = false → row.metadata = before.metadata)
          ∧ DocumentsKept (r.second.blocks_state (r.target_state db)) (r.commit_state db) row.id

instance (db : Database) (r : CopyRun) (bucket key : String) (headers : HeaderMap) :
    Decidable (SourceKept db r bucket key headers) :=
  inferInstanceAs (Decidable (_ ∧ _))

/-! ## A copy that succeeds -/

/-- To translate errors leaves the successes. -/
theorem mapError_ok {ε ε' α : Type} {f : ε → ε'} {x : Except ε α} {a : α} :
    x.mapError f = .ok a ↔ x = .ok a := by
  cases x with
  | error e => simp [Except.mapError]
  | ok b => simp [Except.mapError]

/-- A load that went through: the row of its first query with the blocks of its
second. -/
theorem Load.get_object_ok {l : Load} {db : Database} {bucket key : String} {object : ObjectRecord}
    (h : l.get_object db bucket key = .ok object) :
    ∃ row, get_object_row (l.row_state db) bucket key = some row
      ∧ object = object_from_row row (load_object_blocks (l.blocks_state db) row.id)
      ∧ read_object (l.row_state db) (l.blocks_state db) bucket key = some object := by
  unfold Load.get_object engine_get_object at h
  obtain ⟨_, -, h⟩ := bind_ok.mp h
  cases hread : read_object (l.row_state db) (l.blocks_state db) bucket key with
  | none =>
      rw [hread] at h
      cases h
  | some found =>
      rw [hread] at h
      obtain ⟨_, -, h⟩ := bind_ok.mp h
      obtain rfl := Except.ok.inj h
      obtain ⟨row, hrow, hobject⟩ := Option.map_eq_some_iff.mp hread
      exact ⟨row, hrow, hobject.symm, rfl⟩

/-- What a copy that answered with an object has gone through. -/
structure Answered (percent_decode : String → Option String) (db : Database) (r : CopyRun) (now : Int)
    (bucket key source : String) (headers : HeaderMap) (condition : ObjectCondition) (db' : Database)
    (source_bucket source_key : String) (before v : ObjectRecord) : Prop where
  source_name : parse_copy_source percent_decode source = .ok (source_bucket, source_key)
  first_load : r.first.get_object db source_bucket source_key = .ok before
  checked : check_copy_source_conditions before.etag headers = .ok ()
  second_load : r.second.get_object (r.target_state db) source_bucket source_key = .ok v
  committed : ∃ released, copy_object_tx (r.commit_state db) now v bucket key
    (if replaces_metadata headers then metadata_from_headers headers else before.metadata) condition
      = .ok (db', released)

/-- A copy that succeeds has found its source twice, checked the layout, and committed. -/
theorem engine_copy_object_ok {db db' : Database} {r : CopyRun} {now : Int}
    {source_bucket source_key bucket key : String} {metadata : ObjectMetadata}
    {condition : ObjectCondition} {object : ObjectRecord}
    (h : r.engine_copy_object db now source_bucket source_key bucket key metadata condition
      = (db', .ok object)) :
    ∃ v released, r.second.get_object (r.target_state db) source_bucket source_key = .ok v
      ∧ copy_object_tx (r.commit_state db) now v bucket key metadata condition
        = .ok (db', released) := by
  unfold CopyRun.engine_copy_object at h
  dsimp only at h
  split at h
  · cases (Prod.mk.inj h).2
  · rename_i v hload
    obtain ⟨_, -, hsecond⟩ := bind_ok.mp hload
    unfold Answers.copy_object at h
    cases htx : copy_object_tx (r.commit_state db) now v bucket key metadata condition with
    | error e =>
        rw [htx] at h
        cases (Prod.mk.inj h).2
    | ok result =>
        obtain ⟨committed, released⟩ := result
        rw [htx] at h
        dsimp only at h
        refine ⟨v, released, hsecond, htx.trans ?_⟩
        cases hreread : Answers.reread committed r.reread bucket key .copy_disappeared with
        | error e =>
            rw [hreread] at h
            cases (Prod.mk.inj h).2
        | ok found =>
            rw [hreread] at h
            rw [(Prod.mk.inj h).1]

/-- And before that it has found its source once more, for the conditions and the headers. -/
theorem copy_object_ok {percent_decode : String → Option String} {db db' : Database} {r : CopyRun}
    {now : Int} {bucket key source : String} {headers : HeaderMap} {condition : ObjectCondition}
    {object : ObjectRecord}
    (h : copy_object percent_decode db r now bucket key source headers condition
      = (db', .ok object)) :
    ∃ source_bucket source_key before v, Answered percent_decode db r now bucket key source headers
      condition db' source_bucket source_key before v := by
  unfold copy_object at h
  cases hprepare : prepare_copy percent_decode db r source headers with
  | error e =>
      rw [hprepare] at h
      cases (Prod.mk.inj h).2
  | ok prepared =>
      obtain ⟨source_bucket, source_key, metadata⟩ := prepared
      rw [hprepare] at h
      obtain ⟨hdb', hresult⟩ := Prod.mk.inj h
      obtain ⟨v, released, hsecond, htx⟩ :=
        engine_copy_object_ok (Prod.ext hdb' (mapError_ok.mp hresult))
      unfold prepare_copy at hprepare
      obtain ⟨⟨bucket₀, key₀⟩, hparse, hprepare⟩ := bind_ok.mp hprepare
      obtain ⟨before, hfirst, hprepare⟩ := bind_ok.mp hprepare
      obtain ⟨_, hcheck, hprepare⟩ := bind_ok.mp hprepare
      obtain ⟨rfl, hrest⟩ := Prod.mk.inj (Except.ok.inj hprepare)
      obtain ⟨rfl, rfl⟩ := Prod.mk.inj hrest
      exact ⟨_, _, before, v, hparse, mapError_ok.mp hfirst, hcheck, hsecond, released, htx⟩

/-- **The destination has the documents that were loaded if and only if they were kept**: the
row of the copy refers to the block ids of the load, whatever these name at the commit. -/
theorem blocks_of_destination {loaded commit_state db' : Database} (hwf : WellFormed loaded)
    (hwf' : WellFormed db') {object_id copied_id : Int}
    (hstored : stored_blocks db' copied_id = with_documents commit_state
      (((load_object_blocks loaded object_id).insertionSort (·.ordinal ≤ ·.ordinal)).map (·.row))) :
    load_object_blocks db' copied_id = load_object_blocks loaded object_id
      ↔ DocumentsKept loaded commit_state object_id := by
  rw [rows_of_loaded hwf] at hstored
  have hiff := stored_eq_iff hwf' (Reads.mem_columns hwf object_id) copied_id
  rw [hstored] at hiff
  unfold DocumentsKept
  refine Iff.trans ?_ hiff.symm
  rw [Reads.load_object_blocks_eq loaded]
  rfl

/-- **A copy copies the version it has checked if and only if its source was kept.** -/
theorem copy_source_version (percent_decode : String → Option String) (past : List Op) (r : CopyRun)
    (now : Int) (bucket key source source_bucket source_key : String) (headers : HeaderMap)
    (condition : ObjectCondition) (db' : Database) (object : ObjectRecord)
    (hsource : parse_copy_source percent_decode source = .ok (source_bucket, source_key))
    (hcopy : copy_object percent_decode (after past) r now bucket key source headers condition
      = (db', .ok object)) :
    CopiesVersion (after past) r db' source_bucket source_key bucket key headers
      ↔ SourceKept (after past) r source_bucket source_key headers := by
  obtain ⟨bucket₀, key₀, before, v, hanswered⟩ := copy_object_ok hcopy
  obtain ⟨rfl, rfl⟩ := Prod.mk.inj (Except.ok.inj (hanswered.source_name.symm.trans hsource))
  -- every state on the way is a well-formed one
  have hwf_row : WellFormed (r.second.row_state (r.target_state (after past))) :=
    r.wellFormed_row (wellFormed_after past)
  have hwf_blocks : WellFormed (r.second.blocks_state (r.target_state (after past))) :=
    wellFormed_exec hwf_row _
  have hwf_commit : WellFormed (r.commit_state (after past)) :=
    r.wellFormed_commit (wellFormed_after past)
  obtain ⟨row₁, hrow₁, hbefore, -⟩ := Load.get_object_ok hanswered.first_load
  obtain ⟨row₂, hrow₂, hv, hread⟩ := Load.get_object_ok hanswered.second_load
  obtain ⟨released, htx⟩ := hanswered.committed
  have hcommitted := Answers.Write.committed_copy_object.mpr ⟨released, htx, rfl, rfl⟩
  obtain ⟨-, -, row, hrow, hsize, hetag, hstored⟩ := Answers.written hwf_commit hcommitted
  have hwf' : WellFormed db' := (copy_object_tx_ok htx).wellFormed hwf_commit
  have hobject := ((copy_object_tx_ok htx).object hwf_commit).1
  change stored_blocks db' row.id = with_documents (r.commit_state (after past))
    ((v.blocks.insertionSort (·.ordinal ≤ ·.ordinal)).map (·.row)) at hstored
  rw [hv] at hstored
  have hblocks : load_object_blocks db' row.id
        = load_object_blocks (r.second.blocks_state (r.target_state (after past))) row₂.id
      ↔ DocumentsKept (r.second.blocks_state (r.target_state (after past)))
          (r.commit_state (after past)) row₂.id :=
    blocks_of_destination hwf_blocks hwf' hstored
  -- what a request for the destination finds
  have hfound : Tg2s3.get_object db' bucket key
      = some (object_from_row row (load_object_blocks db' row.id)) := by
    unfold Tg2s3.get_object
    rw [hrow]
    rfl
  have hcheck₁ := hanswered.checked
  rw [hbefore] at hcheck₁
  have hsame : row = copied_object (r.commit_state (after past)) now v bucket key
      (if replaces_metadata headers then metadata_from_headers headers else before.metadata) :=
    Option.some.inj (hrow.symm.trans hobject)
  have hmetadata : replaces_metadata headers = false → row.metadata = row₁.metadata := by
    intro hkeep
    rw [hsame, hbefore]
    simp only [copied_object, hkeep]
    rfl
  unfold SourceKept
  rw [undisturbed_iff hwf_row hwf_blocks hread]
  constructor
  · rintro ⟨v', hload, hversion, hcheck, object', hobject', -, -, hcontent, hmetadata'⟩
    obtain rfl := Except.ok.inj (hanswered.second_load.symm.trans hload)
    obtain rfl := Option.some.inj (hfound.symm.trans hobject')
    refine ⟨hversion, fun first hfirst second hsecond => ?_⟩
    obtain rfl := Option.some.inj (hrow₁.symm.trans hfirst)
    obtain rfl := Option.some.inj (hrow₂.symm.trans hsecond)
    rw [hv] at hcheck hcontent hmetadata'
    refine ⟨hcheck.trans hcheck₁.symm, fun hkeep => ?_, hblocks.mp hcontent⟩
    exact (hmetadata' hkeep).symm.trans (hmetadata hkeep)
  · rintro ⟨hversion, hkept⟩
    obtain ⟨hcheck, hmetadata', hdocuments⟩ := hkept row₁ hrow₁ row₂ hrow₂
    refine ⟨v, hanswered.second_load, hversion, ?_, _, hfound, hsize, hetag, ?_, fun hkeep => ?_⟩
    · rw [hv]
      exact hcheck.trans hcheck₁
    · rw [hv]
      exact hblocks.mpr hdocuments
    · rw [hv]
      exact (hmetadata hkeep).trans (hmetadata' hkeep).symm

/-! ## Two copies -/

/-- The copy asks for the first version. -/
def match_first : HeaderMap where
  entries := [("x-amz-copy-source-if-match", ascii "e1")]

/-- Between the two loads the object is copied to another key; the source is kept. -/
def elsewhere : CopyRun := { before_target := [.copy_object 1 snapshot "b" "other" {} {}] }

/-- Between the two loads the source is overwritten. -/
def overtaken_copy : CopyRun := { before_target := [commit_second] }

/-- A copy while other keys are written: it copies the version that it has found. -/
theorem copy_source_version_elsewhere :
    ∃ db' object, copy_object some (after (put_first ++ put_second)) elsewhere 3 "b" "c" "/b/k"
        match_first {} = (db', .ok object)
      ∧ CopiesVersion (after (put_first ++ put_second)) elsewhere db' "b" "k" "b" "c" match_first := by
  have hanswer : (copy_object some (after (put_first ++ put_second)) elsewhere 3 "b" "c" "/b/k"
      match_first {}).2.isOk = true := by
    decide
  cases hcopy : copy_object some (after (put_first ++ put_second)) elsewhere 3 "b" "c" "/b/k"
      match_first {} with
  | mk db' result =>
      rw [hcopy] at hanswer
      cases result with
      | error e => cases hanswer
      | ok object =>
          exact ⟨db', object, rfl, (copy_source_version some (put_first ++ put_second) elsewhere 3 "b"
            "c" "/b/k" "b" "k" match_first {} db' object (by decide) hcopy).mpr (by decide)⟩

/-- **A copy can copy what it did not check**: the request asks for the ETag `e1`, and
the destination gets `e2`. -/
theorem unchecked_version_copied :
    ∃ db' object, copy_object some (after (put_first ++ put_second)) overtaken_copy 3 "b" "c" "/b/k"
        match_first {} = (db', .ok object)
      ∧ (db'.object? "b" "c").map (·.etag) = some "e2"
      ∧ check_copy_source_conditions "e2" match_first = .error .precondition_failed
      ∧ ¬ CopiesVersion (after (put_first ++ put_second)) overtaken_copy db' "b" "k" "b" "c"
          match_first := by
  have hanswer : (copy_object some (after (put_first ++ put_second)) overtaken_copy 3 "b" "c" "/b/k"
      match_first {}).2.isOk = true
      ∧ ((copy_object some (after (put_first ++ put_second)) overtaken_copy 3 "b" "c" "/b/k"
        match_first {}).1.object? "b" "c").map (·.etag) = some "e2" := by
    decide
  have hloaded : ((overtaken_copy.second.get_object (overtaken_copy.target_state
      (after (put_first ++ put_second))) "b" "k").toOption.map fun v =>
        check_copy_source_conditions v.etag match_first) = some (.error .precondition_failed) := by
    decide
  cases hcopy : copy_object some (after (put_first ++ put_second)) overtaken_copy 3 "b" "c" "/b/k"
      match_first {} with
  | mk db' result =>
      rw [hcopy] at hanswer
      cases result with
      | error e => cases hanswer.1
      | ok object =>
          refine ⟨db', object, rfl, hanswer.2, by decide, ?_⟩
          rintro ⟨v, hload, -, hcheck, -⟩
          rw [hload] at hloaded
          cases hcheck.symm.trans (Option.some.inj hloaded)

end Tg2s3.S3
