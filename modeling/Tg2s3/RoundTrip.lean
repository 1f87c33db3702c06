/-
`put_object` of `src/engine/object.rs`: what is put is what is read.

A PUT makes an upload row, sends the body, attaches the blocks as part 0 and commits. The
blocks of the object are those of the part, each with the document that its upload led to,
so a range of the object is that window of the body (`put_round_trip`). Telegram is taken
at its word: a document that it took it has, and serves any range of it (`Faithful`).
-/
import Tg2s3.Sending
import Tg2s3.Answers
import Tg2s3.Buckets

set_option autoImplicit false

namespace Tg2s3.Transfer

open Relational Assembly Slices
open Download (Bytes Telegram Holds Stored range_stream)
open Reads (document_columns ref_stored stored_ref with_documents engine_get_object)

/-! ## `put_object` -/

/-- Between `create_upload` and the end of the request. -/
def put_body (env : Env) (db : Database) (upload_id : String) (body : Body)
    (expected_length : Option Int) (condition : ObjectCondition) :
    Database × Except UploadError ObjectRecord :=
  match upload env db upload_id 0 body expected_length with
  | (db, .error e) => (db, .error e)
  | (db, .ok (part, actual_length)) =>
      match expected_length.filter (· ≠ actual_length) with
      | some expected => (db, .error (.incomplete_body expected actual_length))
      | none =>
          match replace_part db env.now upload_id 0 actual_length part.etag part.blocks with
          | (db, .error e) => (cleanup_block_refs env db part.blocks, .error (.db e))
          | (db, .ok _) =>
              match Answers.commit_upload db
                  { row_fails := env.row_query_fails, blocks_fails := env.blocks_query_fails }
                  env.now upload_id actual_length part.etag [part] condition with
              | (db, .ok (some (object, _))) => (db, .ok object)
              | (db, .ok none) => (db, .error .upload_disappeared)
              | (db, .error e) => (db, .error (.db e))

/-- The abort after a failure; an error of the database is only written to the log. -/
def abort_put (env : Env) (db : Database) (upload_id : String) : Database :=
  if env.abort_fails then db else (abort_upload_with_blocks db env.now upload_id).1

/-- Where the database does not fail in it, the abort is that of the upload. -/
theorem Env.CleansUp.abort_put_eq {env : Env} (hworks : env.CleansUp) (db : Database)
    (upload_id : String) :
    abort_put env db upload_id = (abort_upload_with_blocks db env.now upload_id).1 :=
  if_neg (by rw [hworks.2]; exact Bool.false_ne_true)

/-- `Engine::put_object`; `upload_id` is the fresh UUID. -/
def put_object (env : Env) (db : Database) (upload_id bucket key : String) (body : Body)
    (metadata : ObjectMetadata) (expected_length : Option Int) (condition : ObjectCondition) :
    Database × Except UploadError ObjectRecord :=
  if bucket_exists db bucket = false then (db, .error (.db .no_such_bucket))
  else
    match check_size expected_length env.config.max_object_size with
    | .error e => (db, .error e)
    | .ok () =>
        match create_upload db
            { upload_id := upload_id, bucket := bucket, key := key, metadata := metadata
              kind := .put, created_at := env.now } with
        | (db, .error e) => (db, .error (.db e))
        | (db, .ok ()) =>
            match put_body env db upload_id body expected_length condition with
            | (db, .error e) => (abort_put env db upload_id, .error e)
            | (db, .ok object) => (db, .ok object)

/-! ## The blocks of the part -/

/-- Telegram has what it took: the document of an upload holds its bytes. -/
def Faithful (env : Env) (telegram : Telegram) : Prop :=
  ∀ (piece : Piece) (document : StoredDocument) (id : Int),
    env.upload_stream piece.1 piece.2 = .ok document →
      Holds telegram (uploaded_block env.config.chat_id id piece.1 document) piece.2

section Pieces

variable {env : Env}

/-- The blocks lie in the object as the pieces lie in the body. -/
theorem stored_of_pieces {telegram : Telegram} (hfaithful : Faithful env telegram)
    {ordinal offset : Int} {sent : List Piece} {blocks : List BlockRef}
    (hsent : Consecutive ordinal offset sent) (h : List.Forall₂ (IsUpload env) sent blocks) :
    Stored telegram offset blocks (content sent) := by
  induction h generalizing ordinal offset with
  | nil => exact .nil _
  | @cons piece block sent blocks hblock _ ih =>
      obtain ⟨-, hoffset, hsize, hpos, hrest⟩ := hsent
      obtain ⟨id, document, hdocument, rfl⟩ := hblock
      exact .cons hoffset hsize hpos (hfaithful piece document id hdocument) (ih hrest)

/-- The rows of the object are the rows of the blocks: the counters of the commit are the
ordinals and the offsets of the upload. -/
theorem columns_of_pieces {object_id ordinal offset : Int} {sent : List Piece}
    {blocks : List BlockRef} (hsent : Consecutive ordinal offset sent)
    (h : List.Forall₂ (IsUpload env) sent blocks) :
    (committed_rows object_id ordinal offset blocks).map (·.columns) = blocks.map (·.row) := by
  induction h generalizing ordinal offset with
  | nil => rfl
  | @cons piece block sent blocks hblock _ ih =>
      obtain ⟨hordinal, hoffset, -, -, hrest⟩ := hsent
      obtain ⟨id, document, -, rfl⟩ := hblock
      have htail := ih hrest
      unfold committed_rows
      rw [List.map_cons, List.map_cons, List.cons.injEq]
      refine ⟨?_, htail⟩
      simp only [ObjectBlockRow.columns, BlockRef.row, uploaded_block, hordinal, hoffset]

/-- What is stored of a block is all of it. -/
theorem stored_ref_ref_stored (block : BlockRef) : stored_ref (ref_stored block) = some block := rfl

/-- Where every block is staged, its row gives it back. -/
theorem documents_of_staged {db : Database} {blocks : List BlockRef}
    (h : ∀ block ∈ blocks, Staged db block) :
    (with_documents db (blocks.map (·.row))).filterMap stored_ref = blocks := by
  have hrefs : with_documents db (blocks.map (·.row)) = blocks.map ref_stored := by
    unfold with_documents
    rw [List.map_map]
    refine List.map_congr_left (fun block hblock => ?_)
    exact congrArg (Prod.mk block.row) (h block hblock)
  rw [hrefs, List.filterMap_map]
  exact (List.filterMap_congr (fun block _ => stored_ref_ref_stored block)).trans
    List.filterMap_some

/-- A staged block stays staged while only counts and the queue move. -/
theorem Staged.books {db db' : Database} {block : BlockRef} (h : Staged db block)
    (hbooks : Books db db') : Staged db' block := by
  unfold Staged at *
  rw [hbooks.map_block? (g := document_columns) (fun _ => rfl)]
  exact h

end Pieces

/-! ## What a PUT has committed -/

/-- The body that a successful PUT was given, and what it put down. -/
structure Put (env : Env) (upload : UploadRecord) (body : Body) (db' : Database)
    (object : ObjectRecord) : Prop where
  read : get_object db' upload.bucket upload.key = some object
  bucket : upload.bucket ∈ db'.buckets.map (·.name)
  layout : validate_object_layout object = .ok ()
  body : ∃ bytes sent, collect body = .ok bytes ∧ object.size = bytes.length
    ∧ object.etag = md5_etag env bytes
    ∧ Consecutive 0 0 sent ∧ content sent = bytes ∧ List.Forall₂ (IsUpload env) sent object.blocks

/-- The layout of one part is the layout of its object. -/
theorem layout_of_part {part : PartRecord} {size : Int} {object : ObjectRecord}
    (h : validate_parts_layout [part] = .ok size) (hsize : object.size = size) (hpos : 0 ≤ size)
    (hblocks : object.blocks = part.blocks) : validate_object_layout object = .ok () := by
  obtain ⟨⟨offset, ids⟩, hvalid, h⟩ := bind_ok.mp h
  obtain ⟨_, -, h⟩ := bind_ok.mp h
  cases hadd : checked_add 0 offset with
  | none => rw [hadd] at h; cases h
  | some total =>
      rw [hadd] at h
      obtain rfl := Except.ok.inj h
      have htotal := (Download.checked_add_eq_some hadd).1
      refine bind_ok.mpr ⟨(), require_ok.mpr (by omega), bind_ok.mpr ⟨(offset, ids), ?_, ?_⟩⟩
      · rw [hblocks]
        exact hvalid
      · exact require_ok.mpr (by omega)

/-- The commit of the one part. -/
theorem commit_part_ok {env : Env} {db db₁ db₂ db' : Database} {upload : UploadRecord} {body : Body}
    {bytes : Bytes} {part : PartRecord} {condition : ObjectCondition} {object : ObjectRecord}
    {size : Int} {freed : List BlockRef}
    (hpart : Uploaded env db upload.upload_id 0 bytes part db₁) (hbytes : collect body = .ok bytes)
    (hsize : size = bytes.length) (hwf : WellFormed db₂)
    (hrow : db₂.upload? upload.upload_id = some upload)
    (hstaged : ∀ block ∈ part.blocks, Staged db₂ block)
    (hbucket : upload.bucket ∈ db₂.buckets.map (·.name))
    (h : Answers.commit_upload db₂
        { row_fails := env.row_query_fails, blocks_fails := env.blocks_query_fails } env.now
        upload.upload_id size part.etag [part] condition = (db', .ok (some (object, freed)))) :
    Put env upload body db' object := by
  obtain ⟨sent, hconsecutive, -, hcontent, hblocks⟩ := hpart.pieces
  let w := Answers.Write.commit_upload env.now upload.upload_id size part.etag [part] condition
  let r : Answers.Reread :=
    { row_fails := env.row_query_fails, blocks_fails := env.blocks_query_fails }
  have hcall : Answers.commit_upload db₂ r env.now upload.upload_id size part.etag [part] condition
      = w.call db₂ r := rfl
  rw [hcall] at h
  -- an answer with an object means that the commit went through and was read back
  cases hcommitted : w.committed db₂ with
  | none =>
      have hno := Answers.call_of_not_committed hcommitted r
      obtain ⟨db₃, result, hresult⟩ : ∃ db₃ result, w.call db₂ r = (db₃, result) := ⟨_, _, rfl⟩
      rw [hresult] at h hno
      obtain ⟨-, rfl⟩ := Prod.mk.inj h
      rcases hno.2 with hnone | ⟨e, herror⟩
      · cases hnone
      · cases herror
  | some target =>
      obtain ⟨db₃, bucket, key⟩ := target
      obtain ⟨missing, released, hanswer⟩ := Answers.call_of_committed hcommitted r
      rw [hanswer] at h
      cases hreread : Answers.reread db₃ r bucket key missing with
      | error e =>
          rw [hreread] at h
          cases (Prod.mk.inj h).2
      | ok object' =>
          rw [hreread] at h
          obtain ⟨rfl, hok⟩ := Prod.mk.inj h
          obtain rfl : object' = object :=
            congrArg Prod.fst (Option.some.inj (Except.ok.inj hok))
          obtain ⟨-, -, row, hget, hobject⟩ := Answers.reread_ok.mp hreread
          have hread : get_object db₃ bucket key = some object' :=
            Option.map_eq_some_iff.mpr ⟨row, hget, hobject.symm⟩
          obtain ⟨version, hversion, hversion_size, hetag, hversion_blocks⟩ :=
            Answers.version_committed hwf hcommitted
          obtain rfl := Option.some.inj (hversion.symm.trans hread)
          obtain ⟨upload', released', htx, rfl, rfl⟩ :=
            Answers.Write.committed_commit_upload.mp hcommitted
          have hdone := commit_upload_tx_ok htx
          obtain rfl := Option.some.inj (hdone.upload_row.symm.trans hrow)
          -- the layout of one part from offset 0 is the part's own
          have hall : version.blocks = part.blocks := by
            rw [hversion_blocks]
            change (with_documents db₂ ((committed_rows 0 0 0 ([part].flatMap (·.blocks))).map
              (·.columns))).filterMap stored_ref = part.blocks
            rw [List.flatMap_singleton, columns_of_pieces hconsecutive hblocks]
            exact documents_of_staged hstaged
          refine ⟨hread, ?_, layout_of_part hdone.layout hversion_size (by omega) hall,
            bytes, sent, hbytes, hversion_size.trans hsize, hetag.trans hpart.etag_eq,
            hconsecutive, hcontent, hall ▸ hblocks⟩
          rw [hdone.books.buckets]
          change _ ∈ (without_object db₂ _ _).buckets.map (·.name)
          rw [Buckets.buckets_without_object]
          exact hbucket

/-- An answer with an object comes from a commit with an object. -/
theorem object_of_answer {answer : Database × Except DbError (Option (ObjectRecord × List BlockRef))}
    {db' : Database} {object : ObjectRecord}
    (h : (match answer with
        | (db, .ok (some (object, _))) => (db, .ok object)
        | (db, .ok none) => (db, .error UploadError.upload_disappeared)
        | (db, .error e) => (db, .error (.db e))) = (db', Except.ok object)) :
    ∃ freed, answer = (db', .ok (some (object, freed))) := by
  obtain ⟨db, e | _ | ⟨found, freed⟩⟩ := answer
  · cases (Prod.mk.inj h).2
  · cases (Prod.mk.inj h).2
  · obtain ⟨rfl, hok⟩ := Prod.mk.inj h
    rw [Except.ok.inj hok]
    exact ⟨freed, rfl⟩

/-- Up to the commit: the body is sent and its blocks are attached, and the upload is still
there. -/
theorem put_body_commits {env : Env} {db db' : Database} {upload : UploadRecord} {body : Body}
    {expected_length : Option Int} {condition : ObjectCondition} {object : ObjectRecord}
    (h : put_body env db upload.upload_id body expected_length condition = (db', .ok object))
    (hwf : WellFormed db) (hupload : db.upload? upload.upload_id = some upload) :
    ∃ db₁ db₂ bytes part size, collect body = .ok bytes
      ∧ Uploaded env db upload.upload_id 0 bytes part db₁ ∧ size = (bytes.length : Int)
      ∧ WellFormed db₂ ∧ db₂.upload? upload.upload_id = some upload
      ∧ (∀ block ∈ part.blocks, Staged db₂ block) ∧ db₂.buckets = db.buckets
      ∧ ∃ freed, Answers.commit_upload db₂
          { row_fails := env.row_query_fails, blocks_fails := env.blocks_query_fails } env.now
          upload.upload_id size part.etag [part] condition
        = (db', .ok (some (object, freed))) := by
  unfold put_body at h
  obtain ⟨db₁, result, hsent⟩ : ∃ db₁ result,
      Transfer.upload env db upload.upload_id 0 body expected_length = (db₁, result) := ⟨_, _, rfl⟩
  rw [hsent] at h
  rcases result with e | ⟨part, actual_length⟩
  · cases h
  -- the body was read to its end and all its blocks are staged
  obtain ⟨bytes, hbytes, htotal, hpart⟩ := upload_ok hsent hwf
  dsimp only at h
  split at h
  · cases h
  obtain ⟨db₂, result, hreplace⟩ : ∃ db₂ result,
      replace_part db₁ env.now upload.upload_id 0 actual_length part.etag part.blocks
        = (db₂, result) := ⟨_, _, rfl⟩
  rw [hreplace] at h
  rcases result with e | released
  · cases h
  dsimp only at h
  have hreplaced :
      Replaced db₁ upload.upload_id 0 actual_length part.etag part.blocks released db₂ := by
    unfold replace_part transaction at hreplace
    split at hreplace
    · rename_i htx
      obtain ⟨rfl, hok⟩ := Prod.mk.inj hreplace
      obtain rfl := Except.ok.inj hok
      exact replace_part_tx_ok htx
    · cases (Prod.mk.inj hreplace).2
  -- replace_part moves counts and part rows; what else is there stays
  have hwf₂ := hreplaced.wellFormed hpart.wellFormed
  have hrow : db₂.upload? upload.upload_id = some upload := by
    unfold Database.upload?
    rw [hreplaced.books.multipart_uploads]
    change db₁.upload? upload.upload_id = some upload
    rw [hpart.only_blocks]
    exact hupload
  have hstaged : ∀ block ∈ part.blocks, Staged db₂ block := by
    intro block hblock
    have hbefore : Staged (replace_target db₁ upload.upload_id 0 actual_length part.etag
      part.blocks) block := hpart.staged block hblock
    exact hbefore.books hreplaced.books
  have hbuckets : db₂.buckets = db.buckets := by
    rw [hreplaced.books.buckets]
    change db₁.buckets = db.buckets
    rw [hpart.only_blocks]
  obtain ⟨freed, hanswer⟩ := object_of_answer h
  exact ⟨db₁, db₂, bytes, part, actual_length, hbytes, hpart, htotal, hwf₂, hrow, hstaged,
    hbuckets, freed, hanswer⟩

/-- The three transactions after each other, and the query that reads the object back. -/
theorem put_body_ok {env : Env} {db db' : Database} {upload : UploadRecord} {body : Body}
    {expected_length : Option Int} {condition : ObjectCondition} {object : ObjectRecord}
    (h : put_body env db upload.upload_id body expected_length condition = (db', .ok object))
    (hwf : WellFormed db) (hupload : db.upload? upload.upload_id = some upload)
    (hbucket : upload.bucket ∈ db.buckets.map (·.name)) : Put env upload body db' object := by
  obtain ⟨db₁, db₂, bytes, part, size, hbytes, hpart, hsize, hwf₂, hrow, hstaged, hbuckets, freed,
    h⟩ := put_body_commits h hwf hupload
  exact commit_part_ok hpart hbytes hsize hwf₂ hrow hstaged (hbuckets ▸ hbucket) h

/-- Up to the body: the bucket is there, and the upload has its row. -/
theorem put_object_creates {env : Env} {db db' : Database} {upload_id bucket key : String}
    {body : Body} {metadata : ObjectMetadata} {expected_length : Option Int}
    {condition : ObjectCondition} {object : ObjectRecord}
    (h : put_object env db upload_id bucket key body metadata expected_length condition
      = (db', .ok object)) (hwf : WellFormed db) :
    ∃ db₁, WellFormed db₁
      ∧ db₁.upload? upload_id = some { upload_id := upload_id, bucket := bucket, key := key
                                       metadata := metadata, kind := .put, created_at := env.now }
      ∧ bucket ∈ db₁.buckets.map (·.name)
      ∧ put_body env db₁ upload_id body expected_length condition = (db', .ok object) := by
  unfold put_object at h
  split_ifs at h with hno
  · cases h
  split at h
  · cases h
  obtain ⟨db₁, result, hcreate⟩ : ∃ db₁ result, create_upload db
      { upload_id := upload_id, bucket := bucket, key := key, metadata := metadata, kind := .put
        created_at := env.now } = (db₁, result) := ⟨_, _, rfl⟩
  rw [hcreate] at h
  -- the transaction checks the bucket and inserts the row
  rcases result with e | u
  · cases h
  dsimp only at h
  split at h
  · cases (Prod.mk.inj h).2
  · rename_i db₂ object' hbody
    obtain ⟨rfl, hok⟩ := Prod.mk.inj h
    obtain rfl := Except.ok.inj hok
    unfold create_upload transaction at hcreate
    split at hcreate
    · rename_i htx
      obtain ⟨rfl, -⟩ := Prod.mk.inj hcreate
      obtain ⟨_, hbucket, htx⟩ := bind_ok.mp htx
      obtain ⟨db₃, hinsert, htx⟩ := bind_ok.mp htx
      obtain ⟨rfl, -⟩ := Prod.mk.inj (Except.ok.inj htx)
      have hwf₁ := hwf.insert_upload hinsert
      obtain ⟨rfl, hnew⟩ := insert_upload_ok hinsert
      exact ⟨_, hwf₁, (lookup_append_singleton hnew).trans (if_pos rfl), require_ok.mp hbucket,
        hbody⟩
    · cases (Prod.mk.inj hcreate).2

/-- **A PUT that succeeds**: its body has come in without an error, the object is at its key with
the MD5 and the length of the body, and its blocks are those that were staged, in the order of
their ordinals. Every step of it must have gone through, so the conditions of all of them are at
hand. -/
theorem put_object_ok {env : Env} {db db' : Database} {upload_id bucket key : String}
    {body : Body} {metadata : ObjectMetadata} {expected_length : Option Int}
    {condition : ObjectCondition} {object : ObjectRecord}
    (h : put_object env db upload_id bucket key body metadata expected_length condition
      = (db', .ok object)) (hwf : WellFormed db) :
    Put env
      { upload_id := upload_id, bucket := bucket, key := key, metadata := metadata, kind := .put
        created_at := env.now } body db' object := by
  obtain ⟨db₁, hwf₁, hupload, hbucket, hbody⟩ := put_object_creates h hwf
  exact put_body_ok hbody hwf₁ hupload hbucket

/-- **What is put is what is read**: after any history, whatever the frames of the body,
whether its length is known, and in whatever order the blocks are uploaded. -/
theorem put_round_trip (env : Env) (telegram : Telegram) (past : List Op) (db' : Database)
    (upload_id bucket key : String) (body : Body) (bytes : Bytes) (metadata : ObjectMetadata)
    (expected_length : Option Int) (condition : ObjectCondition) (object : ObjectRecord)
    (hbytes : collect body = .ok bytes)
    (h : put_object env (after past) upload_id bucket key body metadata expected_length condition
      = (db', .ok object))
    (hfaithful : Faithful env telegram) :
    engine_get_object db' db' db' bucket key = .ok object
      ∧ object.size = bytes.length
      ∧ object.etag = String.ofList (Hex.encode (env.md5 bytes))
      ∧ ∀ start stop : Int, 0 ≤ start → start ≤ stop → stop < object.size →
          collect (range_stream telegram object.blocks start stop)
            = .ok (window start (stop + 1) bytes) := by
  obtain ⟨hread, hbucket, hlayout, bytes', sent, hbytes', hsize, hetag, hsent, hcontent, hblocks⟩ :=
    put_object_ok h (wellFormed_after past)
  obtain rfl : bytes' = bytes := Except.ok.inj (hbytes'.symm.trans hbytes)
  refine ⟨?_, hsize, hetag, fun start stop hstart hle hstop => ?_⟩
  · unfold engine_get_object
    refine bind_ok.mpr ⟨(), require_ok.mpr hbucket, ?_⟩
    have hobject : Reads.read_object db' db' bucket key = some object := hread
    rw [hobject]
    exact bind_ok.mpr ⟨(), hlayout, rfl⟩
  · have hstored := stored_of_pieces hfaithful hsent hblocks
    rw [Download.collect_range_stream hstored hle, hcontent, Int.sub_zero, Int.sub_zero]

/-! ## Five bytes in three blocks -/

def sample_config : Config where
  chat_id := 7
  chunk_size := 2
  upload_concurrency := 2
  max_object_size := 100
  chunk_size_checked := by decide
  upload_concurrency_checked := by decide
  max_object_size_checked := by decide

/-- The bytes of a document as the text of its file id. -/
def sample_file_id (bytes : Bytes) : String :=
  String.ofList (bytes.map fun b => Char.ofNat b.toNat)

def sample_file (file_id : String) : Bytes := file_id.toList.map fun c => UInt8.ofNat c.toNat

/-- Nothing fails; the tasks finish in an order of their own. -/
def sample_env : Env where
  config := sample_config
  now := 1000
  md5 := fun bytes => bytes.take 2
  upload_stream := fun spec bytes =>
    if bytes.length ≤ 4294967296 then .ok
      { backend := .bot_api, message_id := spec.ordinal + 1, document_id := none
        file_id := sample_file_id bytes, file_unique_id := "u", file_size := 0
        message_date := 1000 }
    else .error (.telegram "file is too big")
  delete_message := fun _ => .deleted
  throttled := fun _ _ => false
  write_fails := fun _ _ => false
  shutdown_fails := fun _ => false
  spool_fails := fun _ => false
  finishing := fun n => [1 - n]
  picked := fun n => n
  row_query_fails := false
  blocks_query_fails := false

/-- A Bot API server whose files are their ids. -/
def sample_telegram : Telegram where
  file := fun file_id start stop =>
    .ok (.partial_content [.ok (window start (stop + 1) (sample_file file_id))])
  document := fun _ => .error (.telegram "no session")

/-- A document of the sample Telegram is its own name. -/
theorem sample_file_sample_file_id (bytes : Bytes) : sample_file (sample_file_id bytes) = bytes := by
  unfold sample_file sample_file_id
  rw [String.toList_ofList, List.map_map]
  refine (List.map_congr_left (fun b _ => ?_)).trans (List.map_id _)
  have hb : b.toNat < 256 := b.toNat_lt
  have hvalid : b.toNat.isValidChar := Or.inl (by omega)
  dsimp only [Function.comp_apply, id_eq]
  rw [Char.ofNat, dif_pos hvalid]
  exact UInt8.ofNat_toNat

/-- The sample Telegram gives back what it was sent. -/
theorem sample_faithful : Faithful sample_env sample_telegram := by
  intro piece document id hdocument
  unfold sample_env at hdocument
  dsimp only at hdocument
  split_ifs at hdocument with hlength
  obtain rfl := Except.ok.inj hdocument
  refine ⟨hlength, fun start stop _ _ _ => ⟨_, rfl, ?_⟩⟩
  dsimp only
  rw [collect_cons_ok, collect_nil]
  change Except.ok (window start (stop + 1) (sample_file (sample_file_id piece.2)) ++ []) = _
  rw [sample_file_sample_file_id, List.append_nil]

/-- Five bytes in two frames, with an empty one in between; three of them are read. -/
theorem put_round_trip_sample :
    ∃ db' object,
      put_object sample_env (after [.create_bucket 1 "b"]) "put-1" "b" "k"
        [.ok [1], .ok [], .ok [2, 3, 4, 5]] {} (some 5) {} = (db', .ok object)
      ∧ collect (range_stream sample_telegram object.blocks 1 3) = .ok [2, 3, 4] := by
  have hok : (put_object sample_env (after [.create_bucket 1 "b"]) "put-1" "b" "k"
      [.ok [1], .ok [], .ok [2, 3, 4, 5]] {} (some 5) {}).2.isOk = true := by decide +kernel
  obtain ⟨db', result, hput⟩ : ∃ db' result, put_object sample_env (after [.create_bucket 1 "b"])
      "put-1" "b" "k" [.ok [1], .ok [], .ok [2, 3, 4, 5]] {} (some 5) {} = (db', result) :=
    ⟨_, _, rfl⟩
  rw [hput] at hok
  cases result with
  | error e => cases hok
  | ok object =>
      obtain ⟨-, hsize, -, hrange⟩ := put_round_trip sample_env sample_telegram
        [.create_bucket 1 "b"] db' "put-1" "b" "k" [.ok [1], .ok [], .ok [2, 3, 4, 5]]
        [1, 2, 3, 4, 5] {} (some 5) {} object rfl hput sample_faithful
      exact ⟨db', object, hput, hrange 1 3 (by decide) (by decide) (by rw [hsize]; decide)⟩

end Tg2s3.Transfer
