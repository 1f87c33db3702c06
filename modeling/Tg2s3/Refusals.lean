/-
What a request leaves that is refused.

A request can fail at many points: at a check, in a transaction, in the middle of a body, at
Telegram. Whatever the point, the tables are then the ones from before, and at most some
documents more, which nothing refers to and which wait in the queue to be deleted; so every
object reads as before (`refused_request_leaves_no_trace`).

The handlers are read once more for this. `Settled` says of an outcome that a reply is a
success to the client and that an error has left the tables; it goes along the routing as
`Implemented` does. What a handler still does after its transaction must not fail then: the
header values are visible ASCII, and the object that was committed is read back. The latter is
the one condition: a PUT whose read-back fails answers an error although it has stored its
object.
-/
import Tg2s3.AtRest
import Tg2s3.Lifecycle

set_option autoImplicit false

namespace Tg2s3.Refusals

open Tg2s3 Relational
open Tg2s3.Transfer (Env Body NoTrace md5_etag)
open Tg2s3.S3 (Method HeaderMap Printable S3Error from_str from_str_of_printable quoted)
open Tg2s3.S3.Dispatch (Server Request Reply Outcome DispatchError after_check read refuse
  header_response empty_response)
open Tg2s3.Service
open Tg2s3.Lifecycle (Call)

/-! ## The tables of a refused request -/

/-- The tables are the same, but for rows of new documents after the old ones. -/
structure LeftAlone (db d : Database) : Prop where
  tables : d = { db with telegram_blocks := d.telegram_blocks, gc_queue := d.gc_queue }
  blocks : db.telegram_blocks <+: d.telegram_blocks
  queue : db.gc_queue <+: d.gc_queue

section LeftAlone

variable {db d : Database} {mine : List Int}

/-- Doing nothing leaves the tables alone. -/
theorem LeftAlone.refl (db : Database) : LeftAlone db db :=
  ⟨rfl, List.prefix_refl _, List.prefix_refl _⟩

/-- What an attempt has staged stands after the rows from before. -/
theorem leftAlone_of_apart (h : Transfer.Apart db mine d) : LeftAlone db d := by
  refine ⟨h.tables, ?_, ?_⟩
  · obtain ⟨rows, heq, -⟩ := h.blocks
    exact ⟨rows, heq.symm⟩
  · obtain ⟨rows, heq, -⟩ := h.queue
    exact ⟨rows, heq.symm⟩

/-- The references are rows of tables that are the same. -/
theorem LeftAlone.refs (h : LeftAlone db d) (b : Int) : d.refs b = db.refs b := by
  rw [h.tables]
  rfl

/-- A document from before has its row. -/
theorem LeftAlone.block? (h : LeftAlone db d) (hwf : WellFormed d) {b : Int}
    (hb : b ∈ db.telegram_blocks.map (·.id)) : d.block? b = db.block? b := by
  obtain ⟨row, hrow, rfl⟩ := List.mem_map.mp hb
  have hids : (db.telegram_blocks.map (·.id)).Nodup := (h.blocks.sublist.map _).nodup hwf.block_ids
  have hnow : d.block? row.id = some row :=
    lookup_eq_some hwf.block_ids (h.blocks.subset hrow) rfl
  have hthen : db.block? row.id = some row := lookup_eq_some hids hrow rfl
  rw [hnow, hthen]

/-- **Every object reads as before**: its documents are not the new ones. -/
theorem LeftAlone.get_object (h : LeftAlone db d) (hwf : WellFormed db) (hwf' : WellFormed d)
    (bucket key : String) : get_object d bucket key = get_object db bucket key := by
  have hobject : get_object_row d bucket key = get_object_row db bucket key := by
    rw [h.tables]
    rfl
  have hblocks : ∀ object_id, load_object_blocks d object_id = load_object_blocks db object_id := by
    intro object_id
    have hrows : d.object_block_rows object_id = db.object_block_rows object_id := by
      rw [h.tables]
      rfl
    unfold load_object_blocks
    rw [hrows]
    refine List.filterMap_congr (fun r hr => ?_)
    have hmem := (List.mem_filter.mp ((List.mem_insertionSort _).mp hr)).1
    unfold Database.join_object_block Database.join_block
    rw [h.block? hwf' (hwf.object_block_block r hmem)]
  unfold Tg2s3.get_object
  rw [hobject]
  congr 1
  funext row
  rw [hblocks]

end LeftAlone

/-! ## Outcomes -/

/-- A reply is a success to the client, and an error has left the tables. -/
structure Settled (db : Database) (outcome : Outcome) : Prop where
  success : ∀ reply, outcome.2 = .ok reply → (S3.Handle.to_response reply).status < 300
  failure : ∀ e, outcome.2 = .error e → LeftAlone db outcome.1

section Settled

variable {db d : Database}

/-- A success may leave whatever it likes; all there is to show is that its status is one. -/
theorem settled_ok (db d : Database) {reply : Reply}
    (hstatus : (S3.Handle.to_response reply).status < 300) : Settled db (d, .ok reply) := by
  refine ⟨fun reply' h => ?_, fun _ h => (by cases h)⟩
  obtain rfl := Except.ok.inj h
  exact hstatus

/-- An error has a status of 400 or more, so the tables must be left alone. -/
theorem settled_error (h : LeftAlone db d) (e : DispatchError) : Settled db (d, .error e) :=
  ⟨fun _ h => (by cases h), fun _ _ => h⟩

/-- A refusal comes before anything is written. -/
theorem settled_refuse (db : Database) (e : S3Error) : Settled db (refuse db e) :=
  settled_error (.refl db) _

/-- A check that fails refuses the request; one that passes leaves it to the rest of the handler.
-/
theorem settled_after_check {α : Type} {check : Except S3Error α} {next : α → Outcome}
    (h : ∀ a, check = .ok a → Settled db (next a)) : Settled db (after_check db check next) := by
  unfold S3.Dispatch.after_check
  split
  · exact settled_error (.refl db) _
  · exact h _ rfl

/-- An answer in XML has the status 200. -/
theorem settled_read_xml {α : Type} (check : Except S3Error α) (render : α → S3.Answer) :
    Settled db (read db (check.map fun a => .xml (render a))) := by
  refine settled_after_check fun reply hreply => settled_ok db db ?_
  cases check with
  | error e => cases hreply
  | ok a =>
      obtain rfl := Except.ok.inj hreply
      change 200 < 300
      omega

/-- The header of the response is one. -/
theorem settled_header {name value : String} (h : Printable value.toList) :
    Settled db (d, header_response name value) := by
  unfold S3.Dispatch.header_response
  rw [from_str_of_printable h]
  refine settled_ok db d ?_
  change 200 < 300
  omega

end Settled

/-! ## Values of headers -/

/-- A hexadecimal digit may stand in a header. -/
theorem printable_of_digit {c : Char} (h : Hex.value c ≠ none) : 32 ≤ c.toNat ∧ c.toNat < 127 := by
  have hle : ∀ a b : Char, a ≤ b ↔ a.toNat ≤ b.toNat := fun _ _ => Iff.rfl
  unfold Hex.value at h
  split_ifs at h with h₁ h₂ h₃
  all_goals
    simp only [hle, Char.reduceToNat] at *
  · omega
  · omega
  · omega
  · exact absurd rfl h

/-- An ETag is hexadecimal text in quotes. -/
theorem printable_etag (env : Env) (bytes : Download.Bytes) :
    Printable (quoted (md5_etag env bytes)).toList := by
  unfold quoted md5_etag
  simp only [String.toList_append, String.toList_ofList]
  refine Printable.append (Printable.append ?_ ?_) ?_
  · exact S3.printable_of_all (by decide)
  · exact fun c hc => printable_of_digit (Hex.isDigit_of_mem_encode c hc)
  · exact S3.printable_of_all (by decide)

/-- The name of a bucket is made of letters, digits, hyphens and dots. -/
theorem printable_bucket {bucket : String} {u : Unit} (h : S3.validate_bucket bucket = .ok u) :
    Printable ("/" ++ bucket).toList := by
  have hvalid := S3.ensure_ok.mp h
  simp only [not_or] at hvalid
  have hall : bucket.toList.all (fun c => c.isAlphanum || c = '-' || c = '.') = true := by
    exact Bool.not_eq_false _ ▸ hvalid.2.2.1
  rw [String.toList_append]
  refine Printable.append (S3.printable_of_all (by decide)) fun c hc => ?_
  have hc := List.all_eq_true.mp hall c hc
  simp only [Bool.or_eq_true, decide_eq_true_eq] at hc
  rcases hc with (halpha | rfl) | rfl
  · unfold Char.isAlphanum Char.isAlpha Char.isUpper Char.isLower Char.isDigit at halpha
    have hle : ∀ a b : UInt32, a ≤ b ↔ a.toNat ≤ b.toNat := fun _ _ => Iff.rfl
    simp only [Bool.or_eq_true, Bool.and_eq_true, decide_eq_true_eq, ge_iff_le, hle] at halpha
    have hupper : 'A'.val.toNat = 65 ∧ 'Z'.val.toNat = 90 := by decide
    have hlower : 'a'.val.toNat = 97 ∧ 'z'.val.toNat = 122 := by decide
    have hdigit : '0'.val.toNat = 48 ∧ '9'.val.toNat = 57 := by decide
    change 32 ≤ c.val.toNat ∧ c.val.toNat < 127
    omega
  · decide
  · decide

/-! ## Buckets and deletion -/

section Handlers

variable {s : Server} {db : Database}

/-- Rules are stored, or they are refused before anything is written: the body is read and
checked first. -/
theorem settled_put_bucket_cors (bucket : String) (body : Body) :
    Settled db (S3.Dispatch.put_bucket_cors s db bucket body) := by
  refine settled_after_check fun _ _ => ?_
  split
  · exact settled_error (.refl db) _
  · rename_i bytes _
    split
    · rename_i d e hput
      unfold S3.put_bucket_cors at hput
      split_ifs at hput
      · split at hput
        · cases (Prod.mk.inj hput).2
        · obtain ⟨rfl, -⟩ := Prod.mk.inj hput
          exact settled_error (.refl db) _
      · obtain ⟨rfl, -⟩ := Prod.mk.inj hput
        exact settled_error (.refl db) _
    · exact settled_ok db _ (by decide)

/-- A bucket is created by one insertion, which is refused as a whole if the name is taken. -/
theorem settled_create_bucket (bucket : String) :
    Settled db (S3.Dispatch.create_bucket s db bucket) :=
  settled_after_check fun _ hvalid => settled_header (printable_bucket hvalid)

/-- A bucket that is not empty is not deleted at all. -/
theorem settled_delete_bucket (bucket : String) :
    Settled db (S3.Dispatch.delete_bucket db bucket) := by
  unfold S3.Dispatch.delete_bucket Tg2s3.delete_bucket
  split
  all_goals
    rename_i hdelete
    split_ifs at hdelete
    all_goals
      cases (Prod.mk.inj hdelete).2
  · rw [← (Prod.mk.inj hdelete).1]
    exact settled_refuse db _
  · rw [← (Prod.mk.inj hdelete).1]
    exact settled_refuse db _
  · exact settled_ok db _ (by decide)

/-- A bulk delete answers with its errors in the body. -/
theorem settled_multi_delete (bucket : String) (body : Body) :
    Settled db (S3.Dispatch.multi_delete s db bucket body) := by
  refine settled_after_check fun _ _ => ?_
  split
  · exact settled_error (.refl db) _
  split
  · exact settled_refuse db _
  · refine settled_after_check fun _ _ => settled_ok db _ ?_
    change 200 < 300
    omega

/-- A transaction that fails leaves the tables. -/
theorem transaction_error {α : Type} {body : Except DbError (Database × α)} {d : Database}
    {e : DbError} (h : transaction db body = (d, .error e)) : d = db := by
  unfold transaction at h
  split at h
  · cases (Prod.mk.inj h).2
  · exact (Prod.mk.inj h).1.symm

/-- The condition is checked inside the transaction of the deletion, so that one which does not
hold takes nothing away. -/
theorem settled_delete_object (bucket key : String) (headers : HeaderMap) :
    Settled db (S3.Dispatch.delete_object s db bucket key headers) := by
  refine settled_after_check fun _ _ => ?_
  split
  · rename_i d e hdelete
    unfold S3.Dispatch.engine_delete_object at hdelete
    split_ifs at hdelete
    · obtain ⟨rfl, -⟩ := Prod.mk.inj hdelete
      exact settled_refuse db _
    · split at hdelete
      · rename_i hresult
        obtain ⟨rfl, -⟩ := Prod.mk.inj hdelete
        obtain rfl := transaction_error hresult
        exact settled_refuse _ _
      · cases (Prod.mk.inj hdelete).2
  · exact settled_ok db _ (by decide)

/-! ## Copies and completions -/

/-- **A write that answers without an object has changed nothing**: what it commits can be
read back. -/
theorem call_refused {w : Answers.Write} {d : Database}
    {result : Except DbError (Option (ObjectRecord × List BlockRef))} (hwf : WellFormed db)
    (h : w.call db {} = (d, result)) (hno : ∀ answer, result ≠ .ok (some answer)) : d = db := by
  cases hcommitted : w.committed db with
  | none =>
      have hsame := (Answers.call_of_not_committed hcommitted {}).1
      rw [h] at hsame
      exact hsame
  | some target =>
      obtain ⟨d₁, bucket, key⟩ := target
      obtain ⟨missing, released, hanswer⟩ := Answers.call_of_committed hcommitted {}
      obtain ⟨version, hversion, -⟩ := Answers.version_committed hwf hcommitted
      obtain ⟨row, hrow, -⟩ := Option.map_eq_some_iff.mp hversion
      rw [h] at hanswer
      cases hreread : Answers.reread d₁ {} bucket key missing with
      | ok object =>
          rw [hreread] at hanswer
          exact absurd (Prod.mk.inj hanswer).2 (hno _)
      | error e =>
          obtain ⟨-, hfails⟩ := Transfer.reread_error (r := {}) hrow hreread
          exact absurd ⟨rfl, rfl⟩ hfails

/-- A copy is one transaction, and what fails before or in it leaves no row. The read-back cannot
fail here: the tables that it reads are those of the copy. -/
theorem settled_copy_object (hwf : WellFormed db) (bucket key source : String)
    (headers : HeaderMap) : Settled db (S3.Dispatch.copy_object s db bucket key source headers) := by
  refine settled_after_check fun _ _ => ?_
  split
  · rename_i d e hcopy
    obtain rfl : d = db := by
      unfold S3.copy_object at hcopy
      split at hcopy
      · exact (Prod.mk.inj hcopy).1.symm
      rename_i source_bucket source_key metadata _
      obtain ⟨d', result, hengine⟩ : ∃ d' result, S3.CopyRun.engine_copy_object {} db s.env.now
          source_bucket source_key bucket key metadata (S3.object_condition headers)
            = (d', result) := ⟨_, _, rfl⟩
      rw [hengine] at hcopy
      obtain ⟨rfl, herror⟩ := Prod.mk.inj hcopy
      unfold S3.CopyRun.engine_copy_object at hengine
      dsimp only at hengine
      split at hengine
      · exact (Prod.mk.inj hengine).1.symm
      rename_i source _
      let w := Answers.Write.copy_object s.env.now source bucket key metadata
        (S3.object_condition headers)
      split at hengine
      · obtain ⟨-, rfl⟩ := Prod.mk.inj hengine
        cases herror
      · rename_i hanswer
        obtain ⟨rfl, -⟩ := Prod.mk.inj hengine
        exact call_refused (w := w) hwf hanswer fun _ heq => (by cases heq)
      · rename_i hanswer
        obtain ⟨rfl, -⟩ := Prod.mk.inj hengine
        exact call_refused (w := w) hwf hanswer fun _ heq => (by cases heq)
    exact settled_refuse _ _
  · refine settled_ok db _ ?_
    change 200 < 300
    omega

/-- A completion is one transaction too. The parts are looked up before it, and no part is
touched if one of them does not fit. -/
theorem settled_complete_multipart (hwf : WellFormed db) (upload_id : String) (body : Body) :
    Settled db (S3.Dispatch.complete_multipart s db upload_id body) := by
  unfold S3.Dispatch.complete_multipart
  split
  · exact settled_error (.refl db) _
  split
  · exact settled_refuse db _
  split
  · rename_i parts _ d e hcomplete
    obtain rfl : d = db := by
      unfold Completion.complete_multipart at hcomplete
      split at hcomplete
      · exact (Prod.mk.inj hcomplete).1.symm
      rename_i ordered total etag _
      let w := Answers.Write.commit_upload s.env.now upload_id total etag ordered {}
      split at hcomplete
      · cases (Prod.mk.inj hcomplete).2
      · rename_i hanswer
        obtain ⟨rfl, -⟩ := Prod.mk.inj hcomplete
        exact call_refused (w := w) hwf hanswer fun _ heq => (by cases heq)
      · rename_i hanswer
        obtain ⟨rfl, -⟩ := Prod.mk.inj hcomplete
        exact call_refused (w := w) hwf hanswer fun _ heq => (by cases heq)
    exact settled_error (.refl _) _
  · refine settled_ok db _ ?_
    change 200 < 300
    omega

/-- An abort ends the upload, or there is none; then the answer is an error and the tables are as
they were. -/
theorem settled_abort_multipart (upload_id : String) :
    Settled db (S3.Dispatch.abort_multipart s db upload_id) := by
  unfold S3.Dispatch.abort_multipart
  split
  · rename_i habort
    obtain rfl := transaction_error habort
    exact settled_refuse _ _
  · rename_i d habort
    obtain rfl : d = db := by
      unfold abort_upload_with_blocks transaction abort_upload_with_blocks_tx at habort
      cases hupload : db.upload? upload_id with
      | none =>
          rw [hupload] at habort
          exact (Prod.mk.inj habort).1.symm
      | some upload =>
          rw [hupload] at habort
          cases (Prod.mk.inj habort).2
    exact settled_refuse _ _
  · exact settled_ok db _ (by decide)

/-- The row of the upload is inserted last. -/
theorem settled_create_multipart (bucket key : String) (headers : HeaderMap) :
    Settled db (S3.Dispatch.create_multipart s db bucket key headers) := by
  refine settled_after_check fun _ _ => ?_
  split
  · rename_i hcreate
    obtain rfl := transaction_error hcreate
    exact settled_refuse _ _
  · refine settled_ok db _ ?_
    change 200 < 300
    omega

/-! ## Transfers -/

/-- **A PUT that fails** leaves the tables: before its row is there nothing was done, and
afterwards its blocks are cleaned up. -/
theorem leftAlone_of_put {env : Env} {d : Database} {upload_id bucket key : String} {body : Body}
    {metadata : ObjectMetadata} {expected_length : Option Int} {condition : ObjectCondition}
    {e : Transfer.UploadError} (hwf : WellFormed db) (hworks : env.CleansUp) (hread : env.ReadsBack)
    (h : Transfer.put_object env db upload_id bucket key body metadata expected_length condition
      = (d, .error e)) : LeftAlone db d := by
  let r : Transfer.Request :=
    { upload_id := upload_id, bucket := bucket, key := key, body := body, metadata := metadata
      expected_length := expected_length, condition := condition }
  -- either the upload had its row, and the failure is one of those of the attempt
  by_cases hcreated : r.Created env db
  · have htrace : NoTrace env db r d := Transfer.put_failed hwf hworks hcreated h (.inl hread)
    exact ⟨htrace.tables, htrace.blocks, htrace.queue⟩
  · -- or one of the checks before it refused
    obtain rfl : d = db := by
      unfold Transfer.put_object at h
      split_ifs at h with hbucket
      · exact (Prod.mk.inj h).1.symm
      split at h
      · exact (Prod.mk.inj h).1.symm
      rename_i hsize
      split at h
      · rename_i hcreate
        obtain rfl := transaction_error hcreate
        exact (Prod.mk.inj h).1.symm
      · rename_i hcreate
        exact absurd ⟨Bool.eq_true_of_not_eq_false hbucket, hsize, congrArg Prod.snd hcreate⟩ hcreated
    exact .refl _

/-- **A PUT.** Its failures are those of `leftAlone_of_put`; when it succeeds, its ETag is
printable, so that the answer cannot fail any more. -/
theorem settled_put_object (hwf : WellFormed db) (hworks : s.env.CleansUp)
    (hread : s.env.ReadsBack) (bucket key : String) (headers : HeaderMap) (body : Body) :
    Settled db (S3.Dispatch.put_object s db bucket key headers body) := by
  refine settled_after_check fun _ _ => ?_
  split
  · exact settled_error (.refl db) _
  split
  · rename_i hput
    exact settled_error (leftAlone_of_put hwf hworks hread hput) _
  · rename_i object hput
    obtain ⟨-, -, -, bytes, -, -, -, hetag, -⟩ := Transfer.put_object_ok hput hwf
    rw [hetag]
    exact settled_header (printable_etag s.env bytes)

/-- **A part that fails**: the guard of the upload cleans up, or the engine does. -/
theorem leftAlone_of_upload_part {d : Database} {upload_id : String} {part_number : Int}
    {body : Body} {expected_length : Option Int} {e : DispatchError} (hwf : WellFormed db)
    (h : S3.Dispatch.engine_upload_part s db upload_id part_number body expected_length
      = (d, .error e)) : LeftAlone db d := by
  unfold S3.Dispatch.engine_upload_part at h
  split at h
  · exact (Prod.mk.inj h).1 ▸ .refl db
  split at h
  · exact (Prod.mk.inj h).1 ▸ .refl db
  split at h
  · exact (Prod.mk.inj h).1 ▸ .refl db
  split at h
  · exact (Prod.mk.inj h).1 ▸ .refl db
  -- whatever their order, the blocks of the body are cleaned up
  have hbooked : Transfer.Booked s.env db (Transfer.upload_body s.env db body expected_length).1 :=
    Transfer.upload_body_booked hwf body expected_length
  obtain ⟨tasks, sent, hsent⟩ : ∃ tasks sent,
      Transfer.upload_body s.env db body expected_length = (tasks, sent) := ⟨_, _, rfl⟩
  rw [hsent] at hbooked
  have hclean : ∀ blocks : List BlockRef, blocks.Perm tasks.registered →
      LeftAlone db (Transfer.cleanup_block_refs s.env tasks.db blocks) := by
    intro blocks hperm
    exact leftAlone_of_apart (AtRest.cleanedUp_of_booked hwf hbooked hperm).apart
  unfold Transfer.upload at h
  rw [hsent] at h
  rcases sent with e' | ⟨uploaded, total, digest⟩
  · rw [← (Prod.mk.inj h).1]
    exact hclean _ (.refl _)
  · obtain ⟨_, _, -, -, -, hdelivered⟩ := Transfer.upload_body_ok hsent hwf
    have hperm := (List.perm_insertionSort (fun a b : BlockRef => a.ordinal ≤ b.ordinal)
      uploaded).trans hdelivered.registered
    dsimp only at h
    split at h
    · rename_i hreplace
      obtain rfl := transaction_error hreplace
      rw [← (Prod.mk.inj h).1]
      exact hclean _ hperm
    · cases (Prod.mk.inj h).2

/-- The ETag of a part is the MD5 of some bytes. -/
theorem etag_of_upload_part {d : Database} {upload_id : String} {part_number : Int} {body : Body}
    {expected_length : Option Int} {part : PartRecord}
    (h : S3.Dispatch.engine_upload_part s db upload_id part_number body expected_length
      = (d, .ok part)) : ∃ bytes, part.etag = md5_etag s.env bytes := by
  unfold S3.Dispatch.engine_upload_part at h
  split at h
  · cases (Prod.mk.inj h).2
  split at h
  · cases (Prod.mk.inj h).2
  split at h
  · cases (Prod.mk.inj h).2
  split at h
  · cases (Prod.mk.inj h).2
  split at h
  · cases (Prod.mk.inj h).2
  rename_i hupload
  split at h
  · cases (Prod.mk.inj h).2
  · obtain rfl := Except.ok.inj (Prod.mk.inj h).2
    unfold Transfer.upload at hupload
    split at hupload
    · cases (Prod.mk.inj hupload).2
    · rename_i digest _
      obtain ⟨rfl, -⟩ := Prod.mk.inj (Except.ok.inj (Prod.mk.inj hupload).2)
      exact ⟨digest, rfl⟩

/-- **A part.** As for a PUT, but there is no upload to abort: the blocks are cleaned up and the
upload of the client stays. -/
theorem settled_upload_part (hwf : WellFormed db) (upload_id : String)
    (query : List (String × String)) (headers : HeaderMap) (body : Body) :
    Settled db (S3.Dispatch.upload_part s db upload_id query headers body) := by
  unfold S3.Dispatch.upload_part
  split
  · exact settled_refuse db _
  split
  · exact settled_refuse db _
  split
  · exact settled_error (.refl db) _
  split
  · rename_i hupload
    exact settled_error (leftAlone_of_upload_part hwf hupload) _
  · rename_i hupload
    obtain ⟨bytes, hetag⟩ := etag_of_upload_part hupload
    rw [hetag]
    exact settled_header (printable_etag s.env bytes)

/-- A GET only reads; its status says whether it is the whole object. -/
theorem settled_get_object (bucket key : String) (headers : HeaderMap) (head_only : Bool) :
    Settled db (S3.Dispatch.get_object s db bucket key headers head_only) := by
  refine settled_after_check fun response hresponse => ?_
  split
  · exact settled_refuse db _
  rename_i object hload
  rw [hload] at hresponse
  obtain ⟨_, _, partial_content, -, hstatus, -⟩ := S3.get_object_ok hresponse
  have hsuccess : response.status < 300 := by
    rw [hstatus]
    split <;> omega
  split
  · exact settled_ok db db hsuccess
  split
  · exact settled_error (.refl db) _
  · exact settled_ok db db hsuccess

/-! ## The routing -/

/-- The requests to a bucket, branch by branch. -/
theorem settled_dispatch_bucket (method : Method) (bucket : String)
    (query : List (String × String)) (body : Body) :
    Settled db (S3.Dispatch.dispatch_bucket s db method bucket query body) := by
  have hlist : Settled db (S3.Dispatch.list_objects s db bucket query) := settled_read_xml _ .objects
  unfold S3.Dispatch.dispatch_bucket
  split
  · split
    · exact settled_after_check fun _ _ => settled_read_xml (.ok _) id
    · exact settled_put_bucket_cors bucket body
    · exact settled_after_check fun _ _ => settled_ok db _ (by decide)
    · exact settled_refuse db _
  split
  · split
    · exact settled_after_check fun _ _ => settled_read_xml (.ok _) id
    · exact settled_refuse db _
  split
  · split
    · exact settled_read_xml (.ok _) id
    · exact settled_refuse db _
  split
  · split
    · exact settled_multi_delete bucket body
    · exact settled_refuse db _
  split
  · split
    · exact hlist
    · exact settled_refuse db _
  split
  · exact settled_create_bucket bucket
  · exact settled_after_check fun _ _ => settled_ok db db (by decide)
  · exact settled_delete_bucket bucket
  · exact hlist
  · exact settled_refuse db _

/-- The requests to an upload. -/
theorem settled_dispatch_upload (hwf : WellFormed db) (method : Method)
    (bucket key upload_id : String) (query : List (String × String)) (headers : HeaderMap)
    (body : Body) :
    Settled db (S3.Dispatch.dispatch_upload s db method bucket key upload_id query headers body) := by
  unfold S3.Dispatch.dispatch_upload
  split
  · exact settled_refuse db _
  split
  · exact settled_refuse db _
  split
  · unfold S3.Dispatch.list_parts
    split
    · exact settled_refuse db _
    · exact settled_read_xml (.ok _) id
  · exact settled_upload_part hwf upload_id query headers body
  · exact settled_complete_multipart hwf upload_id body
  · exact settled_abort_multipart upload_id
  · exact settled_refuse db _

/-- The requests to a key, in the order in which the source tells them apart. -/
theorem settled_dispatch_object (hwf : WellFormed db) (hworks : s.env.CleansUp)
    (hread : s.env.ReadsBack) (method : Method) (bucket key : String)
    (query : List (String × String)) (headers : HeaderMap) (body : Body) :
    Settled db (S3.Dispatch.dispatch_object s db method bucket key query headers body) := by
  unfold S3.Dispatch.dispatch_object
  split
  · exact settled_refuse db _
  split
  · exact settled_dispatch_upload hwf method bucket key _ query headers body
  split
  · split
    · exact settled_copy_object hwf bucket key _ headers
    · exact settled_put_object hwf hworks hread bucket key headers body
  split
  · exact settled_create_multipart bucket key headers
  split
  · exact settled_multi_delete bucket body
  split
  · exact settled_refuse db _
  split
  · exact settled_get_object bucket key headers _
  split
  · exact settled_delete_object bucket key headers
  · exact settled_refuse db _

/-- **Every request is settled.** -/
theorem settled_dispatch (hwf : WellFormed db) (hworks : s.env.CleansUp) (hread : s.env.ReadsBack)
    (r : Request) :
    Settled db (S3.Dispatch.dispatch s db r) := by
  refine settled_after_check fun target _ => ?_
  split
  · exact settled_ok db db (by decide)
  split
  · split
    · exact settled_read_xml (.ok _) id
    · exact settled_refuse db _
  · split
    · exact settled_dispatch_bucket r.method _ (r.query s) r.body
    · exact settled_dispatch_object hwf hworks hread r.method _ _ (r.query s) r.headers r.body

end Handlers

/-! ## What the client sees -/

/-- What is there after a request that is refused. -/
structure Undone (db d : Database) : Prop extends LeftAlone db d where
  objects : ∀ bucket key, get_object d bucket key = get_object db bucket key
  left : ∀ row ∈ d.telegram_blocks, row ∉ db.telegram_blocks →
    row.ref_count = 0 ∧ d.queued row.id

/-- What is new after an event that has left the tables is for the collector only. -/
theorem undone_of_leftAlone {past : List Event} {event : Event}
    (hpast : ∀ e ∈ past, AtRest.CleansUp e) (hworks : AtRest.CleansUp event)
    (h : LeftAlone (served past) (serve (served past) event)) :
    Undone (served past) (serve (served past) event) := by
  have hwf : WellFormed (served past) := (sound_served past).counts.wellFormed
  have hrested : AtRest.Rested (serve (served past) event) :=
    (AtRest.rested_served hpast).serve hworks
  have hwf' : WellFormed (serve (served past) event) := hrested.sound.counts.wellFormed
  refine ⟨h, h.get_object hwf hwf', fun row hrow hnew => hrested.queued hrow ?_⟩
  rw [h.refs]
  refine hwf.refs_missing fun hmem => ?_
  obtain ⟨old, hold, hid⟩ := List.mem_map.mp hmem
  -- the ids are distinct, so the row would be the old one
  have hfirst := lookup_eq_some hwf'.block_ids (h.blocks.subset hold) hid
  have hsecond := lookup_eq_some hwf'.block_ids hrow rfl
  exact hnew (Option.some.inj (hfirst.symm.trans hsecond) ▸ hold)

/-- The handler refuses a request before `dispatch`, or because of it. -/
theorem leftAlone_of_status {db : Database} {call : Call} (hwf : WellFormed db)
    (hworks : call.s.env.CleansUp) (hread : call.s.env.ReadsBack)
    (h : 300 ≤ (call.response db).status) :
    LeftAlone db (serve db call.event) := by
  obtain ⟨auth, crypto, now, s, request_id, r⟩ := call
  change 300 ≤ (S3.Handle.answer auth crypto now s db request_id r).2.status at h
  change LeftAlone db (S3.Handle.answer auth crypto now s db request_id r).1
  unfold S3.Handle.answer at h ⊢
  split
  · exact .refl db
  rename_i r' payload_hash hhashed
  rw [hhashed] at h
  dsimp only at h
  split
  · exact .refl db
  rename_i hverified
  rw [hverified] at h
  dsimp only at h
  split_ifs at h ⊢
  · exact .refl db
  · have hsettled : Settled db (S3.Dispatch.dispatch s db r') := settled_dispatch hwf hworks hread r'
    obtain ⟨d, result, hdispatch⟩ : ∃ d result, S3.Dispatch.dispatch s db r' = (d, result) :=
      ⟨_, _, rfl⟩
    rw [hdispatch] at h hsettled ⊢
    -- an error of the dispatch has left the tables; a reply has a status below 300
    cases result with
    | error e => exact hsettled.failure e rfl
    | ok reply =>
        have hsuccess := hsettled.success reply rfl
        exact absurd hsuccess (Nat.not_lt.mpr h)

/-- **A request that is refused leaves no trace.** If the response is no success, for whatever
reason and after however much work, then every object reads as before, the tables are the same,
and what was sent to Telegram waits for the collector. The database is not to fail in a cleanup,
nor in reading an object back. -/
theorem refused_request_leaves_no_trace (past : List Event) (call : Call)
    (hpast : ∀ event ∈ past, AtRest.CleansUp event) (hworks : call.s.env.CleansUp)
    (hread : call.s.env.ReadsBack) (h : 300 ≤ (call.response (served past)).status) :
    Undone (served past) (serve (served past) call.event) :=
  undone_of_leftAlone hpast hworks
    (leftAlone_of_status (sound_served past).counts.wellFormed hworks hread h)

/-- Five bytes for the key `k`. Telegram refuses the second of three blocks, and does not
delete the first. -/
def put_refused : Call :=
  { Lifecycle.put_k with
    s := { S3.Dispatch.path_server with env := Transfer.refusing_env }
    r := { Lifecycle.put_k.r with
      headers := { entries := [("content-length", S3.ascii "5")] }
      body := Transfer.five_bytes.body } }

/-- The PUT is answered with 500, after one of its blocks has been sent and stored. -/
theorem refused_request_leaves_no_trace_sample :
    (put_refused.response (served Lifecycle.with_bucket)).status = 500
      ∧ Undone (served Lifecycle.with_bucket)
          (serve (served Lifecycle.with_bucket) put_refused.event) := by
  have hstatus : (put_refused.response (served Lifecycle.with_bucket)).status = 500 := by
    decide +kernel
  refine ⟨hstatus,
    refused_request_leaves_no_trace Lifecycle.with_bucket put_refused ?_ ⟨fun _ => rfl, rfl⟩
      ⟨rfl, rfl⟩ ?_⟩
  · intro event hevent
    obtain rfl := List.mem_singleton.mp hevent
    trivial
  rw [hstatus]
  omega

/-- The first of the new blocks is left to the collector. -/
example : (serve (served Lifecycle.with_bucket) put_refused.event).telegram_blocks.map (·.ref_count)
    = [0] := by decide +kernel

end Tg2s3.Refusals
