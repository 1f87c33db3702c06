/-
The life of an object that is uploaded in parts.

A part stays what it is, in rows and documents, until it is sent again or its upload ends: no
other operation replaces it (`part_apply`). So a part that was stored is stored when the upload
is completed, whatever is served and collected in between, and the object has the bytes of the
parts in the order of the list. The blocks keep their documents on the way from the parts to
the object, only their ordinals and offsets are counted anew (`stored_committed`).

The result is about the requests alone (`multipart_then_get`): a GET after a completion returns
the bodies of the parts, each as it was sent last.
-/
import Tg2s3.Lifecycle

set_option autoImplicit false

namespace Tg2s3.MultipartLife

open Tg2s3 Relational Machine
open Tg2s3.Auth (SigV4 Crypto)
open Tg2s3.Reads (with_documents stored_ref ref_stored document_columns)
open Tg2s3.Download (Bytes Stored Holds)
open Tg2s3.Transfer (Body Faithful Uploaded Staged IsUpload Consecutive Piece md5_etag upload_ok)
open Tg2s3.S3 (Method HeaderMap HeaderValue quoted ascii)
open Tg2s3.S3.Dispatch (Server Request Reply)
open Tg2s3.Service
open Tg2s3.Lifecycle
open Assembly Slices

/-! ## A part and its rows -/

section Rows

variable {upload_id : String} {part_number : Int} {db d : Database}

/-- If the part is there afterwards, it is as it was before. -/
def PartKept (upload_id : String) (part_number : Int) (db d : Database) : Prop :=
  ∀ row, d.part? upload_id part_number = some row →
    db.part? upload_id part_number = some row
      ∧ d.part_block_rows upload_id part_number = db.part_block_rows upload_id part_number

/-- If the part is there at the end, it was there in the middle, unchanged each time. -/
theorem PartKept.trans {d' : Database} (h : PartKept upload_id part_number db d)
    (h' : PartKept upload_id part_number d d') : PartKept upload_id part_number db d' := by
  intro row hrow
  obtain ⟨hmid, hrows⟩ := h' row hrow
  obtain ⟨hfirst, hrows'⟩ := h row hmid
  exact ⟨hfirst, hrows.trans hrows'⟩

/-- The tables of the parts are the same. -/
theorem part_kept_of_tables (hparts : d.multipart_parts = db.multipart_parts)
    (hblocks : d.multipart_part_blocks = db.multipart_part_blocks) :
    PartKept upload_id part_number db d := by
  intro row hrow
  unfold Database.part? Database.part_block_rows at *
  rw [hparts] at hrow
  exact ⟨hrow, by rw [hblocks]⟩

/-- Moves of counts and of the queue do not touch the parts. -/
theorem part_kept_of_books (h : Books db d) : PartKept upload_id part_number db d :=
  part_kept_of_tables h.multipart_parts h.multipart_part_blocks

/-- Rows that a deletion does not meet. -/
theorem filter_deleteWhere {α : Type*} {p q : α → Prop} [DecidablePred p] [DecidablePred q]
    {rows : List α} (h : ∀ r ∈ rows, q r → ¬ p r) :
    (deleteWhere p rows).filter (fun r => q r) = rows.filter (fun r => q r) := by
  unfold deleteWhere
  rw [List.filter_filter]
  refine List.filter_congr (fun r hr => ?_)
  by_cases hq : q r
  · simp [hq, h r hr hq]
  · simp [hq]

/-- The end of an upload takes its parts away, and no other. -/
theorem part_kept_delete_upload (hwf : WellFormed db) (ended : String) :
    PartKept upload_id part_number db (db.delete_upload ended) := by
  intro row hrow
  have hlookup := lookup_deleteWhere (k := (upload_id, part_number)) hwf.part_keys
    (fun r => r.upload_id = ended)
  change lookup _ _ (deleteWhere _ db.multipart_parts) = some row at hrow
  rw [hlookup] at hrow
  obtain ⟨hrow, hother⟩ := Option.filter_eq_some_iff.mp hrow
  have hname : row.upload_id = upload_id := (Prod.mk.inj (lookup_mem hrow).2).1
  have hne : upload_id ≠ ended := by
    rw [← hname]
    exact of_decide_eq_true hother
  refine ⟨hrow, ?_⟩
  unfold Database.part_block_rows
  change List.insertionSort _ ((deleteWhere (fun r => r.upload_id = ended)
    db.multipart_part_blocks).filter _) = _
  rw [filter_deleteWhere]
  intro r _ hpart hid
  exact hne ((Prod.mk.inj hpart).1.symm.trans hid)

/-- Another part takes its place in the tables beside this one. -/
theorem part_kept_replace_target {other : String} {number size : Int} {etag : String}
    {blocks : List BlockRef} (hne : (upload_id, part_number) ≠ (other, number)) :
    PartKept upload_id part_number db (replace_target db other number size etag blocks) := by
  intro row hrow
  unfold Database.part? at *
  change lookup _ _ (deleteWhere _ db.multipart_parts ++ [_]) = some row at hrow
  rw [lookup_append_singleton, if_neg, lookup_delete_key, if_neg hne] at hrow
  · refine ⟨hrow, ?_⟩
    unfold Database.part_block_rows
    change List.insertionSort _ ((deleteWhere (fun r => r.part = (other, number))
      db.multipart_part_blocks ++ part_rows other number 0 blocks).filter _) = _
    have hnew : (part_rows other number 0 blocks).filter
        (fun r => r.part = (upload_id, part_number)) = [] := by
      refine List.filter_eq_nil_iff.mpr (fun r hr heq => ?_)
      have hpart : (r.part, r.block_id)
          ∈ blocks.map (fun b => ((other, number), b.id)) := by
        rw [← map_block_id_part_rows other number 0 blocks]
        exact List.mem_map_of_mem hr
      obtain ⟨_, -, hb⟩ := List.mem_map.mp hpart
      exact hne ((of_decide_eq_true heq).symm.trans (Prod.mk.inj hb).1.symm)
    rw [List.filter_append, hnew, List.append_nil, filter_deleteWhere]
    exact fun r _ hpart hother => hne (hpart.symm.trans hother)
  · exact hne
  · exact key_not_mem_delete PartRow.key _ _

/-- An abort deletes the parts of its own upload. If the part is still there, it was of another
one. -/
theorem part_kept_abort (hwf : WellFormed db) (now : Int) (ended : String) :
    PartKept upload_id part_number db (abort_upload_with_blocks db now ended).1 := by
  rcases abort_upload_with_blocks_eq db now ended with heq | heq
  · rw [heq]
    exact part_kept_of_tables rfl rfl
  · rw [heq]
    exact (part_kept_delete_upload hwf ended).trans
      (part_kept_of_books (books_decrement_blocks _ now _))

/-- **An operation that does not replace the part** keeps it, or its upload has ended. -/
theorem part_kept_apply {op : Op} (hwf : WellFormed db) (hop : Spares upload_id part_number op) :
    PartKept upload_id part_number db (op.apply db) := by
  have hsame {d : Database} (hparts : d.multipart_parts = db.multipart_parts)
      (hblocks : d.multipart_part_blocks = db.multipart_part_blocks) :
      PartKept upload_id part_number db d := part_kept_of_tables hparts hblocks
  have hself : PartKept upload_id part_number db db := hsame rfl rfl
  have hobject (bucket key : String) :
      PartKept upload_id part_number db (without_object db bucket key) := by
    unfold without_object
    split <;> exact hsame rfl rfl
  cases op with
  | create_bucket now name => exact hsame rfl rfl
  | delete_bucket name =>
      change PartKept _ _ db (Tg2s3.delete_bucket db name).1
      unfold Tg2s3.delete_bucket
      split_ifs <;> exact hsame rfl rfl
  | set_bucket_cors now bucket configuration =>
      change PartKept _ _ db (Tg2s3.set_bucket_cors db now bucket configuration)
      unfold Tg2s3.set_bucket_cors
      split_ifs <;> exact hsame rfl rfl
  | delete_bucket_cors bucket => exact hsame rfl rfl
  | create_upload upload =>
      refine transaction_cases (P := PartKept _ _ db) hself (fun db' u hok => ?_)
      obtain ⟨_, -, hok⟩ := bind_ok.mp hok
      obtain ⟨db₁, hinsert, hok⟩ := bind_ok.mp hok
      obtain ⟨rfl, -⟩ := Prod.mk.inj (Except.ok.inj hok)
      obtain ⟨rfl, -⟩ := insert_upload_ok hinsert
      exact hsame rfl rfl
  | add_staged_block now block =>
      refine transaction_cases (P := PartKept _ _ db) hself (fun db' id hok => ?_)
      obtain ⟨hinsert, -⟩ := insert_block_ok hok
      obtain ⟨rfl, -⟩ := Prod.mk.inj hinsert
      exact hsame rfl rfl
  | replace_part now other number size etag blocks =>
      have hne : (upload_id, part_number) ≠ (other, number) := by
        intro heq
        obtain ⟨rfl, rfl⟩ := Prod.mk.inj heq
        exact hop now size etag blocks rfl
      refine transaction_cases (P := PartKept _ _ db) hself (fun db' released hok => ?_)
      exact (part_kept_replace_target hne).trans
        (part_kept_of_books (replace_part_tx_ok hok).books)
  | commit_upload now ended size etag parts condition =>
      refine transaction_cases (P := PartKept _ _ db) hself (fun db' result hok => ?_)
      cases result with
      | none => exact commit_upload_tx_none hok ▸ hself
      | some r =>
          have hdone := commit_upload_tx_ok hok
          -- the old object goes, the new one comes, and the upload ends
          have hrest : WellFormed (without_object db r.1.bucket r.1.key) :=
            hwf.without_object r.1.bucket r.1.key
          have hended : PartKept upload_id part_number db (commit_target db now r.1 size etag
              (parts.flatMap (·.blocks))) :=
            ((hobject r.1.bucket r.1.key).trans
              (part_kept_delete_upload hrest r.1.upload_id)).trans (part_kept_of_tables rfl rfl)
          exact hended.trans (part_kept_of_books hdone.books)
  | abort_upload_with_blocks now ended => exact part_kept_abort hwf now ended
  | expire_uploads now before =>
      have hall := expire_uploads_induction
        (P := fun d => WellFormed d ∧ PartKept upload_id part_number db d) now before ⟨hwf, hself⟩
        (fun d ended hd => ⟨wellFormed_apply d (.abort_upload_with_blocks now ended) hd.1,
          hd.2.trans (part_kept_abort hd.1 now ended)⟩)
      exact hall.2
  | delete_object now bucket key condition =>
      refine transaction_cases (P := PartKept _ _ db) hself (fun db' deleted hok => ?_)
      obtain ⟨-, rfl, -⟩ := delete_object_tx_ok hok
      exact (hobject bucket key).trans (part_kept_of_books (books_decrement_blocks _ now _))
  | copy_object now source bucket key metadata condition =>
      refine transaction_cases (P := PartKept _ _ db) hself (fun db' released hok => ?_)
      have htarget : PartKept upload_id part_number db
          (copy_target db now source bucket key metadata) :=
        (hobject bucket key).trans (part_kept_of_tables rfl rfl)
      exact htarget.trans (part_kept_of_books (copy_object_tx_ok hok).books)
  | queue_stale_block now block_id => exact part_kept_of_books (books_queue_stale_block db now block_id)
  | gc_success block_id =>
      change PartKept _ _ db (Tg2s3.gc_success db block_id)
      unfold Tg2s3.gc_success
      split
      · split_ifs <;> exact hsame rfl rfl
      · exact hself
  | gc_failure block_id error next_attempt => exact hsame rfl rfl
  | gc_orphan block_id error => exact hsame rfl rfl

end Rows

/-! ## What is stored of a part -/

section Documents

variable {upload_id : String} {part_number : Int} {db : Database}

/-- What the tables hold for the rows of a part. -/
def stored_part (db : Database) (upload_id : String) (part_number : Int) :
    List ((Int × Int × Int × Int) × Option TelegramBlockRow) :=
  with_documents db ((db.part_block_rows upload_id part_number).map (·.columns))

/-- The blocks that a part holds are what its rows join to. -/
theorem held_by_part_eq (db : Database) (upload_id : String) (part_number : Int) :
    held_by_part db upload_id part_number
      = (stored_part db upload_id part_number).filterMap stored_ref := by
  unfold held_by_part stored_part with_documents
  rw [List.filterMap_map, List.filterMap_map]
  refine List.filterMap_congr (fun r _ => ?_)
  unfold Database.join_part_block Database.join_block stored_ref PartBlockRow.columns
  simp only [Function.comp_def, Option.map_map]
  rfl

/-- Each row of the part has its block, by the foreign key. -/
theorem mem_part_columns (hwf : WellFormed db) :
    ∀ columns ∈ (db.part_block_rows upload_id part_number).map (·.columns),
      columns.2.1 ∈ db.telegram_blocks.map (·.id) := by
  intro columns hcolumns
  obtain ⟨r, hr, rfl⟩ := List.mem_map.mp hcolumns
  have hmem := (List.mem_insertionSort _).mp hr
  exact hwf.part_block_block r (List.mem_filter.mp hmem).1

/-- The part, if it is there, has this ETag, and its blocks are these bytes. -/
def PartStores (telegram : Download.Telegram) (db : Database) (upload_id : String)
    (part_number : Int) (etag : String) (bytes : Bytes) : Prop :=
  ∀ row, db.part? upload_id part_number = some row → row.etag = etag ∧ row.size = bytes.length
    ∧ Stored telegram 0 (held_by_part db upload_id part_number) bytes

/-- The documents of its blocks stay with the rows. -/
theorem PartStores.apply {telegram : Download.Telegram} {etag : String} {bytes : Bytes} {op : Op}
    (h : PartStores telegram db upload_id part_number etag bytes) (hwf : WellFormed db)
    (hop : Spares upload_id part_number op) :
    PartStores telegram (op.apply db) upload_id part_number etag bytes := by
  intro row hrow
  obtain ⟨hbefore, hrows⟩ := part_kept_apply hwf hop row hrow
  obtain ⟨hetag, hsize, hstored⟩ := h row hbefore
  have hsame : stored_part (op.apply db) upload_id part_number
      = stored_part db upload_id part_number := by
    unfold stored_part with_documents
    rw [hrows]
    refine List.map_congr_left (fun columns hcolumns => ?_)
    have hafter := mem_part_columns (wellFormed_apply db op hwf) columns (hrows ▸ hcolumns)
    rw [CopySource.document_apply hwf op (mem_part_columns hwf columns hcolumns) hafter]
  rw [held_by_part_eq, hsame, ← held_by_part_eq]
  exact ⟨hetag, hsize, hstored⟩

/-- **Events that do not send the part** keep what is stored of it. -/
theorem PartStores.kept {telegram : Download.Telegram} {past events : List Event} {etag : String}
    {bytes : Bytes} (h : PartStores telegram (served past) upload_id part_number etag bytes)
    (hpart : part_number ≠ 0)
    (hnot : ∀ event ∈ events, ¬ event.Sends upload_id part_number) :
    PartStores telegram (served (past ++ events)) upload_id part_number etag bytes := by
  induction events generalizing past with
  | nil => rwa [List.append_nil]
  | cons event rest ih =>
      have hwf := (sound_served past).counts.wellFormed
      have hkept : WellFormed (serve (served past) event)
          ∧ PartStores telegram (serve (served past) event) upload_id part_number etag bytes := by
        refine (serve_leads hwf event).inv (I := fun d => WellFormed d
          ∧ PartStores telegram d upload_id part_number etag bytes) (fun d op hd hop => ?_) ⟨hwf, h⟩
        exact ⟨wellFormed_apply d op hd.1, hd.2.apply hd.1 (hop.spares upload_id part_number hpart
          (hnot event List.mem_cons_self))⟩
      have hnext := hkept.2
      rw [serve_served] at hnext
      have hrest := ih hnext fun e he => hnot e (List.mem_cons_of_mem _ he)
      rwa [List.append_assoc] at hrest

end Documents

/-! ## Sending a part -/

section Sending

variable {call : Call} {db : Database} {upload_id : String} {part_number : Int}

/-- A PUT of a part. -/
structure SendsPart (call : Call) (upload_id : String) (part_number : Int) : Prop where
  target : ∃ bucket key, call.For bucket key
  method : call.r.method = .PUT
  part : Serving.query_part (call.r.query call.s) = some (upload_id, part_number)

/-- The rows of a new part are in the order of its blocks, with their ordinals. -/
theorem columns_part_rows {env : Transfer.Env} {ordinal offset : Int} {sent : List Piece}
    {blocks : List BlockRef} (hsent : Consecutive ordinal offset sent)
    (h : List.Forall₂ (IsUpload env) sent blocks) :
    (part_rows upload_id part_number ordinal blocks).map (·.columns) = blocks.map (·.row) := by
  induction h generalizing ordinal offset with
  | nil => rfl
  | @cons piece block sent blocks hblock _ ih =>
      obtain ⟨hordinal, -, -, -, hrest⟩ := hsent
      obtain ⟨id, document, -, rfl⟩ := hblock
      unfold part_rows
      rw [List.map_cons, List.map_cons, ih hrest]
      simp only [PartBlockRow.columns, BlockRef.row, uploaded_block, hordinal]

/-- The rows are written with ascending ordinals, so that sorting them gives the order in which
they were sent. -/
theorem pairwise_part_rows (upload_id : String) (part_number ordinal : Int)
    (blocks : List BlockRef) :
    (∀ r ∈ part_rows upload_id part_number ordinal blocks,
        r.part = (upload_id, part_number) ∧ ordinal ≤ r.ordinal)
      ∧ (part_rows upload_id part_number ordinal blocks).Pairwise (·.ordinal ≤ ·.ordinal) := by
  induction blocks generalizing ordinal with
  | nil => exact ⟨fun _ h => (by cases h), List.Pairwise.nil⟩
  | cons block rest ih =>
      obtain ⟨hrows, hpairwise⟩ := ih (ordinal + 1)
      unfold part_rows
      refine ⟨fun r hr => ?_, List.Pairwise.cons (fun r hr => ?_) hpairwise⟩
      · rcases List.mem_cons.mp hr with rfl | hr
        · exact ⟨rfl, le_refl _⟩
        · obtain ⟨hpart, hle⟩ := hrows r hr
          exact ⟨hpart, by omega⟩
      · obtain ⟨-, hle⟩ := hrows r hr
        dsimp only
        omega

/-- The rows of the part that has just been put in the tables. -/
theorem part_block_rows_replace_target {size : Int} {etag : String} {blocks : List BlockRef} :
    (replace_target db upload_id part_number size etag blocks).part_block_rows upload_id part_number
      = part_rows upload_id part_number 0 blocks := by
  obtain ⟨hrows, hpairwise⟩ := pairwise_part_rows upload_id part_number 0 blocks
  unfold Database.part_block_rows
  change List.insertionSort _ ((deleteWhere (fun r => r.part = (upload_id, part_number))
    db.multipart_part_blocks ++ part_rows upload_id part_number 0 blocks).filter _) = _
  have hold : (deleteWhere (fun r => r.part = (upload_id, part_number))
      db.multipart_part_blocks).filter (fun r => r.part = (upload_id, part_number)) = [] := by
    refine List.filter_eq_nil_iff.mpr (fun r hr heq => ?_)
    exact (mem_deleteWhere.mp hr).2 (of_decide_eq_true heq)
  have hnew : (part_rows upload_id part_number 0 blocks).filter
      (fun r => r.part = (upload_id, part_number)) = part_rows upload_id part_number 0 blocks :=
    List.filter_eq_self.mpr fun r hr => decide_eq_true (hrows r hr).1
  rw [List.filter_append, hold, hnew, List.nil_append]
  exact List.Pairwise.insertionSort_eq hpairwise

/-- A replacement stores what was uploaded. -/
theorem part_stores_replaced {env : Transfer.Env} {telegram : Download.Telegram} {d d' : Database}
    {bytes : Bytes} {part : PartRecord} {size : Int} {released : List BlockRef}
    (hfaithful : Faithful env telegram) (hsent : Uploaded env db upload_id part_number bytes part d)
    (hsize : size = bytes.length)
    (h : Replaced d upload_id part_number size part.etag part.blocks released d') :
    PartStores telegram d' upload_id part_number (md5_etag env bytes) bytes := by
  obtain ⟨sent, hconsecutive, -, hcontent, hblocks⟩ := hsent.pieces
  intro row hrow
  let new : PartRow :=
    { upload_id := upload_id, part_number := part_number, size := size, etag := part.etag }
  unfold Database.part? at hrow
  rw [h.books.multipart_parts] at hrow
  change lookup PartRow.key new.key
    (deleteWhere (fun r => r.key = new.key) d.multipart_parts ++ [new]) = some row at hrow
  rw [lookup_append_singleton (key_not_mem_delete PartRow.key new _), if_pos rfl] at hrow
  obtain rfl := Option.some.inj hrow
  refine ⟨hsent.etag_eq, hsize, ?_⟩
  have hrows : d'.part_block_rows upload_id part_number
      = part_rows upload_id part_number 0 part.blocks := by
    unfold Database.part_block_rows
    rw [h.books.multipart_part_blocks]
    exact part_block_rows_replace_target
  have hstaged : ∀ block ∈ part.blocks, Staged d' block := by
    intro block hblock
    have hbefore : Staged (replace_target d upload_id part_number size part.etag part.blocks) block :=
      hsent.staged block hblock
    exact hbefore.books h.books
  rw [held_by_part_eq]
  unfold stored_part
  rw [hrows, columns_part_rows hconsecutive hblocks, Transfer.documents_of_staged hstaged, ← hcontent]
  exact Transfer.stored_of_pieces hfaithful hconsecutive hblocks

/-- **A part that was accepted** is stored under its number with the body that was sent, cut into
documents that Telegram has taken. That the bytes come back from there is left to `Faithful`. -/
theorem engine_upload_part_ok {s : Server} {d : Database} {body : Body}
    {expected_length : Option Int} {part : PartRecord} (hwf : WellFormed db)
    (h : S3.Dispatch.engine_upload_part s db upload_id part_number body expected_length
      = (d, .ok part)) :
    1 ≤ part_number ∧ ∃ bytes, collect body = .ok bytes
      ∧ ∀ telegram, Faithful s.env telegram →
          PartStores telegram d upload_id part_number (md5_etag s.env bytes) bytes := by
  unfold S3.Dispatch.engine_upload_part at h
  split at h
  · cases (Prod.mk.inj h).2
  rename_i hrange
  split at h
  · cases (Prod.mk.inj h).2
  split at h
  · cases (Prod.mk.inj h).2
  split at h
  · cases (Prod.mk.inj h).2
  split at h
  · cases (Prod.mk.inj h).2
  rename_i d₁ sent size hupload
  obtain ⟨bytes, hbytes, hsize, huploaded⟩ := upload_ok hupload hwf
  split at h
  · cases (Prod.mk.inj h).2
  rename_i d₂ released hreplace
  obtain ⟨rfl, -⟩ := Prod.mk.inj h
  unfold replace_part transaction at hreplace
  split at hreplace
  · rename_i htx
    obtain ⟨rfl, hreleased⟩ := Prod.mk.inj hreplace
    obtain rfl := Except.ok.inj hreleased
    refine ⟨(not_not.mp hrange).1, bytes, hbytes, fun telegram hfaithful => ?_⟩
    exact part_stores_replaced hfaithful huploaded hsize (replace_part_tx_ok htx)
  · cases (Prod.mk.inj hreplace).2

/-- **A part that is answered with 200** is stored, under the ETag of the response. -/
theorem part_stores_of_put (hwf : WellFormed db) (hput : SendsPart call upload_id part_number)
    (hok : (call.response db).status = 200) :
    1 ≤ part_number ∧ ∃ bytes, collect call.r.body = .ok bytes
      ∧ ∀ telegram, Faithful call.s.env telegram →
          PartStores telegram (serve db call.event) upload_id part_number
            (md5_etag call.s.env bytes) bytes := by
  obtain ⟨r', reply, hsame, hdispatch, -⟩ := dispatched_of_ok hok
  obtain ⟨bucket, key, htarget⟩ := hput.target
  have hmethod : r'.method = .PUT := hsame.method.trans hput.method
  have hquery : r'.query call.s = call.r.query call.s := by
    unfold Request.query
    rw [hsame.uri]
  unfold Call.For at htarget
  rw [← hsame.uri, ← hsame.headers] at htarget
  rw [dispatch_plain (by rw [hmethod]; decide) htarget] at hdispatch
  -- the query names an upload and a number
  have hpart := hput.part
  unfold Serving.query_part at hpart
  obtain ⟨id, hid, hpart⟩ := Option.bind_eq_some_iff.mp hpart
  obtain ⟨number, hnumber, hpart⟩ := Option.bind_eq_some_iff.mp hpart
  obtain ⟨rfl, rfl⟩ := Prod.mk.inj (Option.some.inj hpart)
  unfold S3.Dispatch.dispatch_object at hdispatch
  rw [hquery, hid, hmethod] at hdispatch
  dsimp only at hdispatch
  split_ifs at hdispatch
  · cases (Prod.mk.inj hdispatch).2
  unfold S3.Dispatch.dispatch_upload at hdispatch
  split at hdispatch
  · cases (Prod.mk.inj hdispatch).2
  split_ifs at hdispatch
  · cases (Prod.mk.inj hdispatch).2
  -- the handler; it answers 200 only after the engine has
  unfold S3.Dispatch.upload_part at hdispatch
  rw [hnumber] at hdispatch
  dsimp only at hdispatch
  split_ifs at hdispatch
  · cases (Prod.mk.inj hdispatch).2
  split at hdispatch
  · cases (Prod.mk.inj hdispatch).2
  split at hdispatch
  · cases (Prod.mk.inj hdispatch).2
  rename_i d part hengine
  obtain ⟨rfl, -⟩ := Prod.mk.inj hdispatch
  obtain ⟨hlow, bytes, hbytes, hstores⟩ := engine_upload_part_ok hwf hengine
  exact ⟨hlow, bytes, hsame.body bytes hbytes, hstores⟩

end Sending

/-! ## Completing the upload -/

section Blocks

variable {telegram : Download.Telegram} {db : Database}

/-- Telegram holds a block for what it is a document of, not for its place. -/
theorem holds_of_row {b : TelegramBlockRow} {ordinal offset size ordinal' offset' size' : Int}
    {bytes : Bytes} (h : Holds telegram (Database.block_from_row b ordinal offset size) bytes) :
    Holds telegram (Database.block_from_row b ordinal' offset' size') bytes := h

/-- The rows of two lists of blocks: the second ones start after the ordinals and the bytes of
the first ones. -/
theorem committed_rows_append (object_id ordinal offset : Int) (blocks blocks' : List BlockRef) :
    committed_rows object_id ordinal offset (blocks ++ blocks')
      = committed_rows object_id ordinal offset blocks
        ++ committed_rows object_id (ordinal + blocks.length) (offset + (blocks.map (·.size)).sum)
          blocks' := by
  induction blocks generalizing ordinal offset with
  | nil => simp [committed_rows]
  | cons block rest ih =>
      have hordinal : ordinal + 1 + (rest.length : Int) = ordinal + ((block :: rest).length : Int) := by
        rw [List.length_cons]
        omega
      rw [List.cons_append, committed_rows, committed_rows, ih, List.cons_append, hordinal,
        List.map_cons, List.sum_cons, Int.add_assoc offset]

/-- The blocks that a commit writes down, with their documents. -/
def written (db : Database) (ordinal offset : Int) (blocks : List BlockRef) : List BlockRef :=
  (with_documents db ((committed_rows 0 ordinal offset blocks).map (·.columns))).filterMap stored_ref

/-- The first block is written at the offset where the list starts, with the document of its row.
-/
theorem written_cons {block : BlockRef} {blocks : List BlockRef} {b : TelegramBlockRow}
    {ordinal offset : Int} (hblock : db.block? block.id = some b) :
    written db ordinal offset (block :: blocks)
      = Database.block_from_row (document_columns b) ordinal offset block.size
        :: written db (ordinal + 1) (offset + block.size) blocks := by
  have hfirst : stored_ref ((ordinal, block.id, offset, block.size),
      (db.block? block.id).map document_columns)
      = some (Database.block_from_row (document_columns b) ordinal offset block.size) := by
    rw [hblock]
    rfl
  exact List.filterMap_cons_some hfirst

/-- What is written for two lists, one after the other. The induction is on the first one. -/
theorem written_append (ordinal offset : Int) (blocks blocks' : List BlockRef) :
    written db ordinal offset (blocks ++ blocks')
      = written db ordinal offset blocks
        ++ written db (ordinal + blocks.length) (offset + (blocks.map (·.size)).sum) blocks' := by
  unfold written with_documents
  rw [committed_rows_append, List.map_append, List.map_append, List.filterMap_append]

/-- Two stored pieces that follow each other are one. -/
theorem stored_append {offset : Int} {blocks blocks' : List BlockRef} {bytes bytes' : Bytes}
    (h : Stored telegram offset blocks bytes)
    (h' : Stored telegram (offset + bytes.length) blocks' bytes') :
    Stored telegram offset (blocks ++ blocks') (bytes ++ bytes') := by
  induction h with
  | nil offset =>
      rw [List.length_nil, Int.natCast_zero, Int.add_zero] at h'
      exact h'
  | @cons offset block blocks content rest hoffset hsize hpos hholds _ ih =>
      rw [List.cons_append, List.append_assoc]
      refine .cons hoffset hsize hpos hholds (ih ?_)
      rw [List.length_append] at h'
      have hnext : offset + block.size + (rest.length : Int)
          = offset + ((content.length + rest.length : ℕ) : Int) := by omega
      rwa [hnext]

/-- **The blocks of a part in the object**: the same documents, from another offset on. -/
theorem stored_committed {columns : List (Int × Int × Int × Int)} {blocks : List BlockRef}
    {start ordinal offset : Int} {bytes : Bytes}
    (hpresent : ∀ c ∈ columns, c.2.1 ∈ db.telegram_blocks.map (·.id))
    (hsame : columns.map (fun c => (c.2.1, c.2.2.2)) = blocks.map fun b => (b.id, b.size))
    (h : Stored telegram start ((with_documents db columns).filterMap stored_ref) bytes) :
    Stored telegram offset (written db ordinal offset blocks) bytes
      ∧ (blocks.map (·.size)).sum = bytes.length := by
  induction columns generalizing blocks start ordinal offset bytes with
  | nil =>
      obtain rfl : blocks = [] := List.map_eq_nil_iff.mp hsame.symm
      cases h
      exact ⟨.nil offset, rfl⟩
  | cons c columns ih =>
      cases blocks with
      | nil => cases hsame
      | cons block blocks =>
          obtain ⟨hfirst, hrest⟩ := List.cons.inj hsame
          obtain ⟨hid, hsize⟩ := Prod.mk.inj hfirst
          obtain ⟨b, hb⟩ := lookup_isSome.mpr (hpresent c List.mem_cons_self)
          have hblock : db.block? c.2.1 = some b := hb
          unfold with_documents at h
          rw [List.map_cons, hblock, Option.map_some] at h
          change Stored telegram start
            (Database.block_from_row (document_columns b) c.1 c.2.2.1 c.2.2.2
              :: (with_documents db columns).filterMap stored_ref) bytes at h
          cases h with
          | cons hoffset hlength hpos hholds hmore =>
              rename_i content rest
              -- the rest begins where this block ends
              obtain ⟨hstored, hsum⟩ : Stored telegram (offset + block.size)
                  (written db (ordinal + 1) (offset + block.size) blocks) rest
                  ∧ (blocks.map (·.size)).sum = rest.length :=
                ih (fun c hc => hpresent c (List.mem_cons_of_mem _ hc)) hrest hmore
              change c.2.2.2 = (content.length : Int) at hlength
              change 0 < c.2.2.2 at hpos
              rw [written_cons (hid ▸ hblock)]
              constructor
              · exact .cons rfl (hsize.symm.trans hlength) (hsize ▸ hpos) (holds_of_row hholds) hstored
              · rw [List.map_cons, List.sum_cons, hsum, List.length_append, ← hsize, hlength]
                exact (Int.natCast_add _ _).symm

/-- **The blocks of all parts in the object**, by induction on the list of the request. -/
theorem stored_parts {upload_id : String} {requested : List (Int × String)}
    {ordered : List PartRecord} {contents : List Bytes} {ordinal offset : Int} (hwf : WellFormed db)
    (hpersisted : List.Forall₂ (Completion.Persisted db upload_id) requested ordered)
    (hstores : List.Forall₂ (fun p bytes => ∃ etag, PartStores telegram db upload_id p.1 etag bytes)
      requested contents) :
    Stored telegram offset (written db ordinal offset (ordered.flatMap (·.blocks))) contents.flatten
      ∧ (ordered.map (·.size)).sum = contents.flatten.length := by
  induction hpersisted generalizing contents ordinal offset with
  | nil =>
      cases hstores
      exact ⟨.nil offset, rfl⟩
  | @cons p part requested ordered hfirst _ ih =>
      cases hstores with
      | @cons _ bytes _ contents hholds hrest =>
          obtain ⟨etag, hholds⟩ := hholds
          obtain ⟨row, hrow, hpart_size, -⟩ := id hfirst
          obtain ⟨-, hsize, hpart⟩ := hholds row hrow
          rw [held_by_part_eq] at hpart
          have hcolumns : ((db.part_block_rows upload_id p.1).map (·.columns)).map
              (fun c => (c.2.1, c.2.2.2)) = part.blocks.map fun b => (b.id, b.size) := by
            rw [List.map_map]
            exact hfirst.blocks
          obtain ⟨hhead, hsum⟩ : Stored telegram offset (written db ordinal offset part.blocks) bytes
              ∧ (part.blocks.map (·.size)).sum = bytes.length :=
            stored_committed (mem_part_columns hwf) hcolumns hpart
          obtain ⟨htail, htotal⟩ : Stored telegram (offset + bytes.length)
              (written db (ordinal + part.blocks.length) (offset + bytes.length)
                (ordered.flatMap (·.blocks))) contents.flatten
              ∧ (ordered.map (·.size)).sum = contents.flatten.length := ih hrest
          rw [List.flatMap_cons, List.flatten_cons, written_append, hsum]
          refine ⟨stored_append hhead htail, ?_⟩
          rw [List.map_cons, List.sum_cons, htotal, ← hpart_size, hsize, List.length_append]
          exact (Int.natCast_add _ _).symm

end Blocks

section Completing

variable {call : Call} {db : Database} {bucket key upload_id : String}
  {requested : List (Int × String)}

/-- A completion with this list of parts. -/
structure Completes (call : Call) (bucket key upload_id : String) (requested : List (Int × String)) :
    Prop where
  target : call.For bucket key
  method : call.r.method = .POST
  upload : S3.query_value (call.r.query call.s) "uploadId" = some upload_id
  body : ∃ bytes, S3.Dispatch.to_bytes (2 * 1024 * 1024) call.r.body = .ok bytes
    ∧ call.s.parse_complete bytes = some requested

/-- The object that a completion answers with: it is there, and its blocks are those of the
persisted parts. -/
theorem complete_multipart_ok {md5 : List UInt8 → List UInt8} {max_object_size now : Int}
    {d : Database} {object : ObjectRecord} (hwf : WellFormed db)
    (h : Completion.complete_multipart md5 max_object_size db db db db {} now upload_id requested
      = (d, .ok object)) :
    ∃ upload ordered, db.upload? upload_id = some upload
      ∧ List.Forall₂ (Completion.Persisted db upload_id) requested ordered
      ∧ get_object d upload.bucket upload.key = some object
      ∧ object.size = (ordered.map (·.size)).sum
      ∧ object.blocks = written db 0 0 (ordered.flatMap (·.blocks)) := by
  unfold Completion.complete_multipart at h
  split at h
  · cases (Prod.mk.inj h).2
  rename_i ordered total etag hprepare
  have hselected : List.Forall₂ Completion.Selected requested ordered
      ∧ total = (ordered.map (·.size)).sum := by
    unfold Completion.prepare at hprepare
    obtain ⟨_, -, hprepare⟩ := bind_ok.mp hprepare
    obtain ⟨_, -, hprepare⟩ := bind_ok.mp hprepare
    obtain ⟨_, -, hprepare⟩ := bind_ok.mp hprepare
    obtain ⟨_, -, hprepare⟩ := bind_ok.mp hprepare
    obtain ⟨⟨found, digests, sum⟩, hselect, hprepare⟩ := bind_ok.mp hprepare
    obtain ⟨rfl, hrest⟩ := Prod.mk.inj (Except.ok.inj hprepare)
    obtain ⟨rfl, -⟩ := Prod.mk.inj hrest
    obtain ⟨hall, -, -, -, hsum, -⟩ := Completion.select_parts_ok hselect
    exact ⟨hall, hsum.trans (Int.zero_add _)⟩
  split at h
  · rename_i d' found released hcommit
    obtain ⟨rfl, hfound⟩ := Prod.mk.inj h
    obtain rfl := Except.ok.inj hfound
    let w := Answers.Write.commit_upload now upload_id total etag ordered {}
    have hcall : w.call db {} = (d', .ok (some (found, released))) := hcommit
    cases hcommitted : w.committed db with
    | none =>
        obtain ⟨-, hnone | ⟨e, herror⟩⟩ := Answers.call_of_not_committed hcommitted {}
        · rw [hcall] at hnone
          cases hnone
        · rw [hcall] at herror
          cases herror
    | some target =>
        obtain ⟨d₁, name, key'⟩ := target
        obtain ⟨missing, freed, hanswer⟩ := Answers.call_of_committed hcommitted {}
        rw [hcall] at hanswer
        obtain ⟨rfl, hreread⟩ := Prod.mk.inj hanswer
        cases hresult : Answers.reread d' {} name key' missing with
        | error e =>
            rw [hresult] at hreread
            cases hreread
        | ok object' =>
            rw [hresult] at hreread
            obtain rfl : found = object' :=
              congrArg Prod.fst (Option.some.inj (Except.ok.inj hreread))
            obtain ⟨-, -, row, hrow, hobject⟩ := Answers.reread_ok.mp hresult
            have hread : get_object d' name key' = some found :=
              Option.map_eq_some_iff.mpr ⟨row, hrow, hobject.symm⟩
            obtain ⟨version, hversion, hsize, -, hblocks⟩ :=
              Answers.version_committed hwf hcommitted
            obtain rfl := Option.some.inj (hversion.symm.trans hread)
            obtain ⟨upload, released', htx, rfl, rfl⟩ :=
              Answers.Write.committed_commit_upload.mp hcommitted
            have hdone := commit_upload_tx_ok htx
            exact ⟨upload, ordered, hdone.upload_row,
              Completion.all_persisted hselected.1 (verify_parts_tx_ok hdone.verified).2, hread,
              hsize.trans hselected.2, hblocks⟩
  · cases (Prod.mk.inj h).2
  · cases (Prod.mk.inj h).2

/-- **A completion that is answered with 200** has stored the bytes of its parts. -/
theorem stores_of_complete {telegram : Download.Telegram} {contents : List Bytes}
    (hwf : WellFormed db) (hcomplete : Completes call bucket key upload_id requested)
    (hok : (call.response db).status = 200)
    (hparts : List.Forall₂
      (fun p bytes => ∃ etag, PartStores telegram db upload_id p.1 etag bytes) requested contents) :
    ∃ etag result, (call.response db).content = .xml (.completed result)
      ∧ result.etag = quoted etag
      ∧ Stores telegram (serve db call.event) bucket key etag contents.flatten := by
  obtain ⟨r', reply, hsame, hdispatch, hanswer⟩ := dispatched_of_ok hok
  have hmethod : r'.method = .POST := hsame.method.trans hcomplete.method
  have hbody : r'.body = call.r.body := hsame.unread (by rw [hcomplete.method]; decide)
  have hquery : r'.query call.s = call.r.query call.s := by
    unfold Request.query
    rw [hsame.uri]
  have htarget := hcomplete.target
  unfold Call.For at htarget
  rw [← hsame.uri, ← hsame.headers] at htarget
  rw [dispatch_plain (by rw [hmethod]; decide) htarget] at hdispatch
  -- down the cascade to the handler: every other branch answers an error
  unfold S3.Dispatch.dispatch_object at hdispatch
  rw [hquery, hcomplete.upload, hmethod, hbody] at hdispatch
  dsimp only at hdispatch
  split_ifs at hdispatch
  · cases (Prod.mk.inj hdispatch).2
  unfold S3.Dispatch.dispatch_upload at hdispatch
  split at hdispatch
  · cases (Prod.mk.inj hdispatch).2
  rename_i upload hupload
  split at hdispatch
  · cases (Prod.mk.inj hdispatch).2
  rename_i hname
  obtain ⟨hbucket, hkey⟩ := not_or.mp hname
  -- the body that the handler has read lists the parts
  obtain ⟨bytes, hbytes, hparse⟩ := hcomplete.body
  unfold S3.Dispatch.complete_multipart at hdispatch
  rw [hbytes] at hdispatch
  dsimp only at hdispatch
  rw [hparse] at hdispatch
  dsimp only at hdispatch
  split at hdispatch
  · cases (Prod.mk.inj hdispatch).2
  rename_i d object hobject
  obtain ⟨rfl, hreply⟩ := Prod.mk.inj hdispatch
  obtain rfl := Except.ok.inj hreply
  obtain ⟨upload', ordered, hrow, hpersisted, hread, hsize, hblocks⟩ :=
    complete_multipart_ok hwf hobject
  obtain rfl := Option.some.inj (hrow.symm.trans hupload)
  rw [not_not.mp hbucket, not_not.mp hkey] at hread
  -- the handler compares ETags without their quotes
  have hnormalized : List.Forall₂
      (fun p bytes => ∃ etag, PartStores telegram db upload_id p.1 etag bytes)
      (requested.map fun part => (part.1, normalize_etag part.2)) contents :=
    List.forall₂_map_left_iff.mpr hparts
  obtain ⟨hstored, htotal⟩ : Stored telegram 0 (written db 0 0 (ordered.flatMap (·.blocks)))
      contents.flatten ∧ (ordered.map (·.size)).sum = contents.flatten.length :=
    stored_parts hwf hpersisted hnormalized
  refine ⟨object.etag, _, congrArg S3.Handle.HttpResponse.content hanswer, rfl, object, hread, rfl,
    hsize.trans htotal, ?_⟩
  rw [hblocks]
  exact hstored

end Completing

/-! ## What is read is what was sent -/

/-- In this run the part was sent with these bytes, and has not been sent again. -/
def SentLast (telegram : Download.Telegram) (events : List Event) (upload_id : String)
    (part_number : Int) (bytes : Bytes) : Prop :=
  ∃ before call after, events = before ++ [call.event] ++ after
    ∧ SendsPart call upload_id part_number ∧ (call.response (served before)).status = 200
    ∧ collect call.r.body = .ok bytes ∧ Faithful call.s.env telegram
    ∧ ∀ event ∈ after, ¬ event.Sends upload_id part_number

/-- **What was sent last is stored**: the request that sent it has stored it, and no event after
that replaces the part. -/
theorem part_stores_of_sent {telegram : Download.Telegram} {events : List Event} {upload_id : String}
    {part_number : Int} {bytes : Bytes} (h : SentLast telegram events upload_id part_number bytes) :
    ∃ etag, PartStores telegram (served events) upload_id part_number etag bytes := by
  obtain ⟨before, call, after, rfl, hput, hok, hbytes, hfaithful, hafter⟩ := h
  have hwf := (sound_served before).counts.wellFormed
  obtain ⟨hlow, bytes', hbytes', hstores⟩ := part_stores_of_put hwf hput hok
  obtain rfl := Except.ok.inj (hbytes'.symm.trans hbytes)
  have hstored := hstores telegram hfaithful
  rw [serve_served] at hstored
  exact ⟨_, hstored.kept (by omega) hafter⟩

/-- **Parts, completion, then GET**: the bodies of the listed parts come back one after the other,
each as it was sent last, under the ETag of the completion. The parts may be sent in any order and
more than once, and anything else may be served and collected in between. -/
theorem multipart_then_get (past later : List Event) (complete get : Call)
    (bucket key upload_id : String) (requested : List (Int × String)) (contents : List Bytes)
    (hparts : List.Forall₂
      (fun p bytes => SentLast get.s.telegram past upload_id p.1 bytes) requested contents)
    (hcomplete : Completes complete bucket key upload_id requested)
    (hok : (complete.response (served past)).status = 200)
    (hlater : ∀ event ∈ later, ¬ event.Touches bucket key) (hget : get.Gets bucket key) :
    let response := get.response (served (past ++ [complete.event] ++ later))
    response.status = 200
      ∧ (∃ result, (complete.response (served past)).content = .xml (.completed result)
          ∧ response.headers.get "etag" = S3.from_str result.etag)
      ∧ ∃ stream, response.content = .stream stream ∧ collect stream = .ok contents.flatten := by
  intro response
  have hwf := (sound_served past).counts.wellFormed
  have hstores : List.Forall₂ (fun p bytes =>
      ∃ etag, PartStores get.s.telegram (served past) upload_id p.1 etag bytes) requested contents :=
    hparts.imp fun _ _ hsent => part_stores_of_sent hsent
  obtain ⟨etag, result, hresult, hetag, hstored⟩ := stores_of_complete hwf hcomplete hok hstores
  rw [serve_served] at hstored
  obtain ⟨hstatus, hetag', stream, hstream, hcollect⟩ :=
    get_of_stores (sound_served _) hget (hstored.kept hlater)
  exact ⟨hstatus, ⟨result, hresult, hetag'.trans (hetag ▸ rfl)⟩, stream, hstream, hcollect⟩

section Visits

/-- Its ETags have the 16 bytes of an MD5, and the length of a document is its message. -/
def part_env : Transfer.Env :=
  { Transfer.sample_env with
    md5 := fun _ => List.replicate 16 7
    upload_stream := fun spec bytes =>
      (Transfer.sample_env.upload_stream spec bytes).map fun document =>
        { document with message_id := bytes.length } }

/-- A server whose clients send one part. -/
def part_server : Server :=
  { S3.Dispatch.path_server with
    env := part_env
    form_urlencoded := fun query =>
      if query = "uploads" then [("uploads", "")] else [("uploadId", "u"), ("partNumber", "1")]
    parse_complete := fun _ => some [(1, "07070707070707070707070707070707")] }

/-- A request for the object `k`, or for its upload. -/
def part_visitor (method : Method) (query : String) (body : Body) : Call where
  auth := { access_key := none, secret_key := none, region := "us-east-1", allow_anonymous := true }
  crypto := Auth.crypto
  now := 0
  s := part_server
  request_id := "r"
  r := { method := method, uri := { path := "/b/k", query := some query }, headers := {}
         body := body }

def send_part (bytes : Bytes) : Call := part_visitor .PUT "part" [.ok bytes]

def complete_k : Call := part_visitor .POST "upload" []

/-- The upload begins, and its part is sent twice. -/
def sent_twice : List Event :=
  with_bucket ++ [(part_visitor .POST "uploads" []).event, (send_part [9]).event]
    ++ [(send_part [1, 2]).event]

/-- The sample Telegram gives back each document under the message that its length stands for. -/
theorem faithful_part_env : Faithful part_env Transfer.sample_telegram := by
  intro piece document id hdocument
  obtain ⟨taken, htaken, rfl⟩ : ∃ taken, Transfer.sample_env.upload_stream piece.1 piece.2 = .ok taken
      ∧ document = { taken with message_id := piece.2.length } := by
    cases htaken : Transfer.sample_env.upload_stream piece.1 piece.2 with
    | error e =>
        unfold part_env at hdocument
        dsimp only at hdocument
        rw [htaken] at hdocument
        cases hdocument
    | ok taken =>
        unfold part_env at hdocument
        dsimp only at hdocument
        rw [htaken] at hdocument
        exact ⟨taken, rfl, (Except.ok.inj hdocument).symm⟩
  obtain ⟨hlimit, hserves⟩ := Transfer.sample_faithful piece taken id htaken
  have hbot : taken.backend = .bot_api := by
    unfold Transfer.sample_env at htaken
    dsimp only at htaken
    split_ifs at htaken
    obtain rfl := Except.ok.inj htaken
    rfl
  have hbackend : ∀ (chat_id : Int) (sent : StoredDocument), sent.backend = .bot_api →
      (uploaded_block chat_id id piece.1 sent).backend = .bot_api := fun _ _ hsent => hsent
  refine ⟨hlimit, ?_⟩
  rw [hbackend _ taken hbot] at hserves
  rw [hbackend _ { taken with message_id := piece.2.length } hbot]
  exact hserves

/-- A part is sent twice with different bytes, and the upload is completed; the object has the
bytes that were sent last. -/
theorem multipart_then_get_sample :
    let response := (visitor .GET "/b/k" [] []).response
      (served (sent_twice ++ [complete_k.event] ++ []))
    response.status = 200
      ∧ (∃ result, (complete_k.response (served sent_twice)).content = .xml (.completed result)
          ∧ response.headers.get "etag" = S3.from_str result.etag)
      ∧ ∃ stream, response.content = .stream stream ∧ collect stream = .ok [[1, 2]].flatten := by
  have htarget (method : Method) (query : String) (body : Body) :
      (part_visitor method query body).For "b" "k" :=
    show S3.path_target some (S3.trim_slashes "/b/k".toList) = _ by decide
  refine multipart_then_get sent_twice [] complete_k _ "b" "k" "u"
    [(1, "07070707070707070707070707070707")] [[1, 2]] (List.Forall₂.cons ?_ .nil) ?_
    (by decide +kernel) (List.forall_mem_nil _) (gets_visitor (by decide))
  · exact ⟨_, send_part [1, 2], [], (List.append_nil _).symm,
      ⟨⟨"b", "k", htarget _ _ _⟩, rfl, by decide⟩, by decide +kernel, rfl, faithful_part_env,
      List.forall_mem_nil _⟩
  · exact ⟨htarget _ _ _, rfl, by decide, [], by decide, rfl⟩

end Visits

end Tg2s3.MultipartLife
