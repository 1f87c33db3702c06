/-
The life of an object, from the request that writes it to the request that reads it.

What is stored at a key is said without the tables: an ETag, and bytes that Telegram serves
(`Stores`). A PUT that is answered with 200 stores its body, a copy stores what its source
stores, any event that is not about the key leaves what is stored there, and a GET returns it.
The theorems put these together: whatever is served and collected in between, what is read is
what was written (`put_then_get`), also through a copy whose source is gone by then
(`copy_then_get`).
-/
import Tg2s3.Service
import Tg2s3.S3.Metadata

set_option autoImplicit false

namespace Tg2s3.Lifecycle

open Tg2s3 Relational Machine
open Tg2s3.Auth (SigV4 Crypto)
open Tg2s3.Download (Bytes Stored)
open Tg2s3.Transfer (Body Faithful Put put_object_ok stored_of_pieces md5_etag sample_faithful)
open Tg2s3.S3 (Method HeaderMap HeaderValue quoted ascii)
open Tg2s3.S3.Dispatch (Server Request Reply)
open Tg2s3.S3.Handle (HttpResponse)
open Tg2s3.Serving (target_bucket)
open Tg2s3.Service
open Assembly Slices

/-! ## Requests and responses -/

/-- A request, with what it finds outside the tables. -/
structure Call where
  auth : SigV4
  crypto : Crypto
  now : Int
  s : Server
  request_id : String
  r : Request

namespace Call

variable (call : Call) (db : Database)

def event : Event :=
  .request call.auth call.crypto call.now call.s call.request_id call.r

def response : HttpResponse :=
  (S3.Handle.handle call.auth call.crypto call.now call.s db call.request_id call.r).2

/-- The request is for this object. -/
def For (bucket key : String) : Prop :=
  S3.Target.parse call.s.percent_decode call.r.uri call.r.headers call.s.public_host
    = .ok { bucket := some bucket, key := some key }

/-- It is for the object, not for an upload of it. -/
structure Plain (bucket key : String) : Prop where
  target : call.For bucket key
  no_upload : S3.query_value (call.r.query call.s) "uploadId" = none

end Call

/-- A request for another object does not touch this one, if it is not a bulk delete. -/
theorem Call.For.elsewhere {call : Call} {bucket other key : String} (h : call.For bucket other)
    (hmethod : call.r.method ≠ .POST) (hother : other ≠ key) : ¬ call.event.Touches bucket key := by
  rintro ⟨-, ⟨target, htarget, hkey⟩ | ⟨hpost, -⟩⟩
  · obtain rfl := Except.ok.inj (h.symm.trans htarget)
    exact hother (Option.some.inj hkey)
  · exact hmethod hpost

section Responses

variable {call : Call} {db : Database}

/-- No error of `dispatch` becomes 200. -/
theorem status_for_ne (text : String) : S3.Handle.status_for text ≠ 200 := by
  unfold S3.Handle.status_for
  cases hfind : S3.Dispatch.S3_ERRORS.find? fun e => decide (e.1.toList <:+: text.toList) with
  | none => decide
  | some e =>
      have hall : ∀ e ∈ S3.Dispatch.S3_ERRORS, e.2 ≠ 200 := by decide
      exact hall e (List.mem_of_find?_eq_some hfind)

/-- The status of an error is the one that was asked for, whatever its texts are. -/
theorem status_error_response (status : ℕ) (code message : String) (uri : S3.Uri)
    (request_id : String) :
    (S3.Handle.error_response status code message uri request_id).status = status := by
  unfold S3.Handle.error_response
  split_ifs <;> rfl

/-- Reading the body for its hash leaves the bytes. -/
theorem collect_of_to_bytes {limit : ℕ} {body : Transfer.Body} {bytes : Bytes}
    (h : S3.Dispatch.to_bytes limit body = .ok bytes) : collect body = .ok bytes := by
  induction body generalizing limit bytes with
  | nil => exact h
  | cons frame rest ih =>
      cases frame with
      | error e => cases h
      | ok frame =>
          unfold S3.Dispatch.to_bytes at h
          dsimp only at h
          split at h
          · cases h
          obtain ⟨tail, htail, h⟩ := bind_ok.mp h
          obtain rfl := Except.ok.inj h
          rw [collect_cons_ok, ih htail]
          rfl

/-- The request as it is dispatched: its body may have been read before. -/
structure SameRequest (r r' : Request) : Prop where
  method : r'.method = r.method
  uri : r'.uri = r.uri
  headers : r'.headers = r.headers
  body : ∀ bytes, collect r'.body = .ok bytes → collect r.body = .ok bytes
  unread : r.method ≠ .PUT → r'.body = r.body

/-- Hashing the body of a request changes the body at most, and puts back what it has read. -/
theorem same_of_hashed_body {c : Crypto} {s : Server} {r r' : Request} {payload_hash : Option String}
    (h : S3.Handle.hashed_body c s r = .ok (r', payload_hash)) : SameRequest r r' := by
  unfold S3.Handle.hashed_body at h
  split at h
  · rename_i hcors
    -- only the body of a PUT is read here
    have hput : r.method = .PUT := by
      unfold S3.Handle.is_cors_put at hcors
      simp only [Bool.and_eq_true, decide_eq_true_eq] at hcors
      exact hcors.1.1
    split at h
    · cases h
    · rename_i bytes hbytes
      obtain ⟨rfl, -⟩ := Prod.mk.inj (Except.ok.inj h)
      refine ⟨rfl, rfl, rfl, fun bytes' hbytes' => ?_, fun hne => absurd hput hne⟩
      have hsame : collect [Except.ok (ε := Transfer.UploadError) bytes] = .ok bytes := by
        rw [collect_cons_ok, collect_nil]
        exact congrArg Except.ok (List.append_nil bytes)
      rw [hsame] at hbytes'
      rw [← Except.ok.inj hbytes']
      exact collect_of_to_bytes hbytes
  · obtain ⟨rfl, -⟩ := Prod.mk.inj (Except.ok.inj h)
    exact ⟨rfl, rfl, rfl, fun _ hbytes => hbytes, fun _ => rfl⟩

/-- The CORS headers are none of the object's. -/
theorem etag_apply_cors (percent_decode : String → Option String) (cors : CorsConfiguration)
    (fails : Bool) (public_host : Option String) (uri : S3.Uri) (headers response : HeaderMap) :
    (S3.apply_cors percent_decode db cors fails public_host uri headers response).get "etag"
      = response.get "etag" := by
  have hother (headers : HeaderMap) (name value : String) (hname : name ≠ "etag") :
      (S3.insert_header headers name value).get "etag" = headers.get "etag" :=
    S3.get_insert_header headers value hname
  unfold S3.apply_cors
  split
  · rfl
  · dsimp only
    split
    · rw [hother _ "vary" _ (by decide), hother _ "access-control-max-age" _ (by decide),
        hother _ "access-control-expose-headers" _ (by decide),
        hother _ "access-control-allow-headers" _ (by decide),
        hother _ "access-control-allow-methods" _ (by decide),
        hother _ "access-control-allow-origin" _ (by decide)]
    · rfl

/-- What the handler answers before CORS. -/
def Call.answer (call : Call) (db : Database) : HttpResponse :=
  (S3.Handle.answer call.auth call.crypto call.now call.s db call.request_id call.r).2

/-- The headers that CORS adds have other names, so the ETag of the answer is the one of the
response. -/
theorem etag_response : (call.response db).headers.get "etag" = (call.answer db).headers.get "etag" :=
  etag_apply_cors _ _ _ _ _ _ _

/-- **A response with 200** comes from a reply of `dispatch`. -/
theorem dispatched_of_ok (h : (call.response db).status = 200) :
    ∃ r' reply, SameRequest call.r r'
      ∧ S3.Dispatch.dispatch call.s db r' = (serve db call.event, .ok reply)
      ∧ call.answer db = S3.Handle.to_response reply := by
  obtain ⟨auth, crypto, now, s, request_id, r⟩ := call
  change (S3.Handle.answer auth crypto now s db request_id r).2.status = 200 at h
  change ∃ r' reply, SameRequest r r'
    ∧ S3.Dispatch.dispatch s db r' = ((S3.Handle.answer auth crypto now s db request_id r).1, .ok reply)
    ∧ (S3.Handle.answer auth crypto now s db request_id r).2 = S3.Handle.to_response reply
  -- every other branch answers with the status of an error
  unfold S3.Handle.answer at h ⊢
  split at h
  · rw [status_error_response] at h
    cases h
  · rename_i r' payload_hash hhashed
    split at h
    · rw [status_error_response] at h
      cases h
    · split_ifs at h ⊢
      · rw [status_error_response] at h
        cases h
      · split at h
        · rename_i d reply hdispatch
          refine ⟨r', reply, same_of_hashed_body hhashed, ?_, rfl⟩
          rw [hdispatch]
        · exact absurd ((status_error_response _ _ _ _ _).symm.trans h) (status_for_ne _)

end Responses

/-! ## What is stored at a key -/

/-- The object at the key has this ETag, and its blocks are these bytes. -/
def Stores (telegram : Download.Telegram) (db : Database) (bucket key etag : String) (bytes : Bytes) :
    Prop :=
  ∃ object, get_object db bucket key = some object ∧ object.etag = etag
    ∧ object.size = bytes.length ∧ Stored telegram 0 object.blocks bytes

/-- **Events about other keys** leave it. -/
theorem Stores.kept {telegram : Download.Telegram} {past events : List Event}
    {bucket key etag : String} {bytes : Bytes}
    (h : Stores telegram (served past) bucket key etag bytes)
    (hnot : ∀ event ∈ events, ¬ event.Touches bucket key) :
    Stores telegram (served (past ++ events)) bucket key etag bytes := by
  unfold Stores served at *
  rw [exec_append]
  have hsame := get_object_exec (sound_served past).counts.wellFormed hnot
  unfold served at hsame
  rwa [hsame]

/-! ## Writing -/

section Put

variable {call : Call} {db : Database} {bucket key : String}

/-- A request for an object, once it has come through the routing. -/
theorem dispatch_plain {s : Server} {r : Request} (hmethod : r.method ≠ .OPTIONS)
    (htarget : S3.Target.parse s.percent_decode r.uri r.headers s.public_host
      = .ok { bucket := some bucket, key := some key }) :
    S3.Dispatch.dispatch s db r
      = S3.Dispatch.dispatch_object s db r.method bucket key (r.query s) r.headers r.body := by
  unfold S3.Dispatch.dispatch S3.Dispatch.after_check
  rw [htarget]
  dsimp only
  rw [if_neg hmethod]

/-- A PUT of a body to the key. -/
structure Call.Puts (call : Call) (bucket key : String) : Prop extends call.Plain bucket key where
  method : call.r.method = .PUT
  no_source : call.r.headers.text "x-amz-copy-source" = none

/-- The dispatch of a PUT to a key that names no upload. -/
theorem dispatch_put {s : Server} {r r' : Request} (hsame : SameRequest r r')
    (hmethod : r.method = .PUT)
    (htarget : S3.Target.parse s.percent_decode r.uri r.headers s.public_host
      = .ok { bucket := some bucket, key := some key })
    (hquery : S3.query_value (r.query s) "uploadId" = none) {d : Database} {reply : Reply}
    (h : S3.Dispatch.dispatch s db r' = (d, .ok reply)) :
    (match r.headers.text "x-amz-copy-source" with
      | some source => S3.Dispatch.copy_object s db bucket key source r.headers
      | none => S3.Dispatch.put_object s db bucket key r.headers r'.body) = (d, .ok reply) := by
  have hmethod' : r'.method = .PUT := hsame.method.trans hmethod
  have hquery' : r'.query s = r.query s := by
    unfold S3.Dispatch.Request.query
    rw [hsame.uri]
  rw [← hsame.uri, ← hsame.headers] at htarget
  rw [dispatch_plain (by rw [hmethod']; decide) htarget] at h
  unfold S3.Dispatch.dispatch_object at h
  rw [hquery', hquery, hmethod', hsame.headers] at h
  dsimp only at h
  rw [if_pos rfl] at h
  split_ifs at h
  · cases (Prod.mk.inj h).2
  · exact h

/-- **A PUT that is answered with 200** has stored its body, under the ETag of the response. -/
theorem stores_of_put (hwf : WellFormed db) (hput : call.Puts bucket key)
    (hok : (call.response db).status = 200) :
    ∃ bytes, collect call.r.body = .ok bytes
      ∧ (call.response db).headers.get "etag"
          = S3.from_str (quoted (md5_etag call.s.env bytes))
      ∧ ∀ telegram, Faithful call.s.env telegram →
          Stores telegram (serve db call.event) bucket key (md5_etag call.s.env bytes) bytes := by
  obtain ⟨r', reply, hsame, hdispatch, hanswer⟩ := dispatched_of_ok hok
  have hdispatch := dispatch_put hsame hput.method hput.target hput.no_upload hdispatch
  rw [hput.no_source] at hdispatch
  dsimp only at hdispatch
  unfold S3.Dispatch.put_object S3.Dispatch.after_check at hdispatch
  dsimp only at hdispatch
  -- the write conditions, the admission of the body, and then the engine
  split at hdispatch
  · cases (Prod.mk.inj hdispatch).2
  split at hdispatch
  · cases (Prod.mk.inj hdispatch).2
  split at hdispatch
  · cases (Prod.mk.inj hdispatch).2
  rename_i object hput_object
  obtain ⟨rfl, hreply⟩ := Prod.mk.inj hdispatch
  obtain ⟨hread, -, -, bytes, sent, hbytes, hsize, hetag, hsent, hcontent, hblocks⟩ :=
    put_object_ok hput_object hwf
  refine ⟨bytes, hsame.body bytes hbytes, ?_, fun telegram hfaithful => ?_⟩
  · unfold S3.Dispatch.header_response at hreply
    rw [etag_response, hanswer, ← hetag]
    -- the ETag is a header, which it has to be fit for
    cases hvalue : S3.from_str (quoted object.etag) with
    | none =>
        rw [hvalue] at hreply
        cases hreply
    | some value =>
        rw [hvalue] at hreply
        obtain rfl := Except.ok.inj hreply
        change (({} : HeaderMap).insert "etag" value).get "etag" = _
        rw [S3.get_insert, if_pos rfl]
  · exact ⟨object, hread, hetag, hsize, hcontent ▸ stored_of_pieces hfaithful hsent hblocks⟩

/-- A PUT that copies this source to the key. -/
structure Call.Copies (call : Call) (bucket key source_bucket source_key : String) : Prop
    extends call.Plain bucket key where
  method : call.r.method = .PUT
  source : ∃ text, call.r.headers.text "x-amz-copy-source" = some text
    ∧ S3.parse_copy_source call.s.percent_decode text = .ok (source_bucket, source_key)

/-- A copy has the blocks of its source, and their documents. -/
theorem blocks_of_copy (hsound : Sound db) {v : ObjectRecord} {source_bucket source_key : String}
    (hread : get_object db source_bucket source_key = some v) (now : Int) (metadata : ObjectMetadata)
    (condition : ObjectCondition) :
    (Answers.Write.copy_object now v bucket key metadata condition).blocks db = v.blocks := by
  obtain ⟨row, hrow, rfl⟩ := Option.map_eq_some_iff.mp hread
  change (Reads.with_documents db (((load_object_blocks db row.id).insertionSort
    (·.ordinal ≤ ·.ordinal)).map (·.row))).filterMap Reads.stored_ref = load_object_blocks db row.id
  rw [Reads.rows_of_loaded hsound.counts.wellFormed]
  exact (Reads.load_object_blocks_eq db row.id).symm

/-- **A copy that is answered with 200** has stored what its source stores. -/
theorem stores_of_copy {telegram : Download.Telegram} {source_bucket source_key etag : String}
    {bytes : Bytes} (hsound : Sound db) (hcopy : call.Copies bucket key source_bucket source_key)
    (hok : (call.response db).status = 200)
    (h : Stores telegram db source_bucket source_key etag bytes) :
    Stores telegram (serve db call.event) bucket key etag bytes := by
  obtain ⟨source, hsource, hetag, hsize, hstored⟩ := h
  obtain ⟨r', reply, hsame, hdispatch, -⟩ := dispatched_of_ok hok
  have hdispatch := dispatch_put hsame hcopy.method hcopy.target hcopy.no_upload hdispatch
  obtain ⟨text, htext, hparse⟩ := hcopy.source
  rw [htext] at hdispatch
  dsimp only at hdispatch
  unfold S3.Dispatch.copy_object S3.Dispatch.after_check at hdispatch
  dsimp only at hdispatch
  split at hdispatch
  · cases (Prod.mk.inj hdispatch).2
  split at hdispatch
  · cases (Prod.mk.inj hdispatch).2
  rename_i d object hcopied
  obtain ⟨rfl, -⟩ := Prod.mk.inj hdispatch
  obtain ⟨source_bucket', source_key', before, v, hanswered⟩ := S3.copy_object_ok hcopied
  obtain ⟨rfl, rfl⟩ := Prod.mk.inj (Except.ok.inj (hanswered.source_name.symm.trans hparse))
  -- nothing comes between the load of the engine and its commit
  obtain ⟨-, -, -, hread⟩ := S3.Load.get_object_ok hanswered.second_load
  have hread : get_object db source_bucket' source_key' = some v := hread
  obtain rfl := Option.some.inj (hread.symm.trans hsource)
  obtain ⟨released, htx⟩ := hanswered.committed
  obtain ⟨copied, hget, hcopied_size, hcopied_etag, hblocks⟩ := Answers.version_committed
    hsound.counts.wellFormed (Answers.Write.committed_copy_object.mpr ⟨released, htx, rfl, rfl⟩)
  refine ⟨copied, hget, hcopied_etag.trans hetag, hcopied_size.trans hsize, ?_⟩
  rw [hblocks, blocks_of_copy hsound hread]
  exact hstored

end Put

/-! ## Reading -/

/-- The headers that make a GET one of a part, or of no object at all. -/
def condition_names : List String :=
  ["range", "if-match", "if-none-match", "if-modified-since", "if-unmodified-since"]

/-- A GET of the whole object that the server accepts. -/
structure Call.Gets (call : Call) (bucket key : String) : Prop extends call.Plain bucket key where
  method : call.r.method = .GET
  unconditional : ∀ name ∈ condition_names, call.r.headers.get_all name = []
  verified : S3.Handle.verify call.auth call.crypto call.now call.s call.r none = .ok ()
  not_streaming : S3.Handle.is_streaming_payload call.r.headers = false
  admitted : call.s.admission = .granted

/-- The first header that is set is the ETag. -/
theorem etag_object_headers (fmt_http_date : Int → String) (object : ObjectRecord)
    (length start stop : Int) :
    (S3.object_headers fmt_http_date object length start stop false).get "etag"
      = S3.from_str (quoted object.etag) := by
  unfold S3.object_headers
  dsimp only
  rw [if_neg Bool.false_ne_true, S3.get_user_headers _ _ (by decide),
    S3.get_insert_optional _ _ (by decide), S3.get_insert_optional _ _ (by decide),
    S3.get_insert_optional _ _ (by decide), S3.get_insert_optional _ _ (by decide),
    S3.get_insert_header _ _ (by decide), S3.get_insert_header _ _ (by decide),
    S3.get_insert_header _ _ (by decide), S3.get_insert_header _ _ (by decide)]
  exact S3.get_insert_header_self _ rfl

section Get

variable {call : Call} {db : Database} {bucket key etag : String} {bytes : Bytes}

/-- A header that is not there has no text. -/
theorem Call.Gets.text (h : call.Gets bucket key) (name : String) (hname : name ∈ condition_names) :
    call.r.headers.text name = none ∧ call.r.headers.contains_key name = false := by
  have hnone := h.unconditional name hname
  constructor
  · unfold HeaderMap.text HeaderMap.get
    rw [hnone]
    rfl
  · unfold HeaderMap.contains_key HeaderMap.get
    rw [hnone]
    rfl

/-- Without one of these headers no condition can fail, whatever the object is. -/
theorem Call.Gets.conditions (h : call.Gets bucket key) (object : ObjectRecord) :
    S3.check_conditions call.s.parse_http_date object call.r.headers = .ok () := by
  unfold S3.check_conditions
  rw [(h.text "if-match" (by decide)).1, (h.text "if-none-match" (by decide)).1,
    (h.text "if-match" (by decide)).2, (h.text "if-none-match" (by decide)).2,
    (h.text "if-unmodified-since" (by decide)).1,
    (h.text "if-modified-since" (by decide)).1]
  rfl

/-- The handler's load finds the object. -/
theorem load_of_stores (h : Sound db) {object : ObjectRecord}
    (hread : get_object db bucket key = some object) :
    ({} : S3.Load).get_object db bucket key = .ok object := by
  obtain ⟨row, hrow, rfl⟩ := Option.map_eq_some_iff.mp hread
  obtain ⟨hmem, hname⟩ := lookup_mem hrow
  obtain ⟨rfl, rfl⟩ := Prod.mk.inj hname
  have hvalid := ((h.objects row hmem).accepted h.counts.wellFormed).1
  unfold S3.Load.get_object Reads.engine_get_object
  refine bind_ok.mpr ⟨(), require_ok.mpr (h.housed.objects row hmem), ?_⟩
  have hfound : Reads.read_object db db row.bucket row.object_key
      = some (object_from_row row (load_object_blocks db row.id)) := hread
  split
  · rename_i hnone
    cases hfound.symm.trans hnone
  · rename_i object hsome
    obtain rfl := Option.some.inj (hfound.symm.trans hsome)
    exact bind_ok.mpr ⟨(), hvalid, rfl⟩

/-- **A GET returns what is stored**: all bytes, and their ETag. -/
theorem get_of_stores (hsound : Sound db) (hget : call.Gets bucket key)
    (h : Stores call.s.telegram db bucket key etag bytes) :
    (call.response db).status = 200
      ∧ (call.response db).headers.get "etag" = S3.from_str (quoted etag)
      ∧ ∃ stream, (call.response db).content = .stream stream ∧ collect stream = .ok bytes := by
  obtain ⟨object, hread, rfl, hsize, hstored⟩ := h
  have hload := load_of_stores hsound hread
  have hstands : bucket_exists db bucket = true := by
    obtain ⟨row, hrow, -⟩ := Option.map_eq_some_iff.mp hread
    obtain ⟨hmem, hname⟩ := lookup_mem hrow
    obtain ⟨rfl, -⟩ := Prod.mk.inj hname
    exact decide_eq_true (hsound.housed.objects row hmem)
  have hinterval : S3.parse_range (call.r.headers.text "range") object.size
      = .ok (0, object.size - 1, false) := by
    rw [(hget.text "range" (by decide)).1]
    unfold S3.parse_range
    split_ifs with hzero
    · rw [hzero]
      rfl
    · rfl
  -- what the handler of the object answers
  obtain ⟨response, hresponse, hstatus, hetag, hbody⟩ : ∃ response,
      S3.get_object call.s.fmt_http_date call.s.parse_http_date call.s.telegram (.ok object)
        call.r.headers false = .ok response ∧ response.status = 200
      ∧ response.headers.get "etag" = S3.from_str (quoted object.etag)
      ∧ collect response.body = .ok bytes := by
    refine ⟨_, bind_ok.mpr ⟨object, rfl, bind_ok.mpr ⟨(), hget.conditions object,
      bind_ok.mpr ⟨_, hinterval, rfl⟩⟩⟩, rfl, ?_, ?_⟩
    · dsimp only
      split_ifs
      · rw [S3.get_insert, if_neg (by decide), etag_object_headers]
      · exact etag_object_headers _ _ _ _ _
    · dsimp only
      by_cases hzero : object.size = 0
      · rw [if_pos (Or.inr hzero)]
        have hempty : bytes = [] := List.length_eq_zero_iff.mp (by omega)
        rw [hempty]
        rfl
      · rw [if_neg (by simp [hzero])]
        have hle : (0 : Int) ≤ object.size - 1 := by omega
        rw [Download.collect_range_stream hstored hle, Int.sub_zero, Int.sub_zero,
          Int.sub_add_cancel, hsize, window_all]
  have hdispatch : S3.Dispatch.dispatch call.s db call.r = (db, .ok (.object response)) := by
    rw [dispatch_plain (by rw [hget.method]; decide) hget.target]
    unfold S3.Dispatch.dispatch_object
    rw [hget.no_upload, hget.method, if_neg (by rw [hstands]; decide)]
    dsimp only
    have hpost : (Method.GET = Method.POST) = False := eq_false (by decide)
    simp only [hpost, false_and, if_false, reduceCtorEq, decide_false, true_or, if_true]
    unfold S3.Dispatch.get_object S3.Dispatch.after_check
    rw [hload]
    dsimp only
    rw [hresponse]
    dsimp only
    unfold S3.Dispatch.acquire
    rw [hget.admitted]
    split_ifs <;> rfl
  have hanswer : S3.Handle.answer call.auth call.crypto call.now call.s db call.request_id call.r
      = (db, S3.Handle.to_response (.object response)) := by
    have hhashed : S3.Handle.hashed_body call.crypto call.s call.r = .ok (call.r, none) := by
      unfold S3.Handle.hashed_body S3.Handle.is_cors_put
      rw [hget.method]
      rfl
    unfold S3.Handle.answer
    rw [hhashed]
    dsimp only
    rw [if_neg (by rw [hget.method]; decide), hget.verified]
    dsimp only
    rw [if_neg (by rw [hget.not_streaming]; simp), hdispatch]
  have hresponse_eq : call.answer db = S3.Handle.to_response (.object response) :=
    congrArg Prod.snd hanswer
  refine ⟨?_, ?_, response.body, ?_, hbody⟩
  · exact (congrArg HttpResponse.status hresponse_eq).trans hstatus
  · rw [etag_response, hresponse_eq]
    exact hetag
  · exact congrArg HttpResponse.content hresponse_eq

end Get

/-! ## What is read is what was written -/

section Visits

/-- A request by anybody, to a server that lets everybody in. -/
def visitor (method : Method) (path : String) (headers : List (String × HeaderValue)) (body : Body) :
    Call where
  auth := { access_key := none, secret_key := none, region := "us-east-1", allow_anonymous := true }
  crypto := Auth.crypto
  now := 0
  s := S3.Dispatch.path_server
  request_id := "r"
  r := { method := method, uri := { path := path, query := none }, headers := { entries := headers }
         body := body }

/-- A path of the sample server names the key that it spells. -/
theorem plain_visitor {method : Method} {path key : String} {headers : List (String × HeaderValue)}
    {body : Body}
    (h : S3.path_target some (S3.trim_slashes path.toList)
      = .ok { bucket := some "b", key := some key }) :
    (visitor method path headers body).Plain "b" key where
  target := h
  no_upload := rfl

/-- A GET without headers asks for the whole object, and anybody may ask. -/
theorem gets_visitor {path key : String}
    (h : S3.path_target some (S3.trim_slashes path.toList)
      = .ok { bucket := some "b", key := some key }) :
    (visitor .GET path [] []).Gets "b" key where
  toPlain := plain_visitor h
  method := rfl
  unconditional := fun _ _ => rfl
  verified := rfl
  not_streaming := rfl
  admitted := rfl

/-- Two bytes for the key `k`. -/
def put_k : Call := visitor .PUT "/b/k" [] [.ok [1, 2]]

/-- The request is a plain PUT of the key `k`. -/
theorem puts_k : put_k.Puts "b" "k" where
  toPlain := plain_visitor (by decide)
  method := rfl
  no_source := by decide

/-- A copy of them for the key `c`. -/
def copy_k : Call := visitor .PUT "/b/c" [("x-amz-copy-source", ascii "/b/k")] []

/-- The request is a copy of `k` to `c`. -/
theorem copies_k : copy_k.Copies "b" "c" "b" "k" where
  toPlain := plain_visitor (by decide)
  method := rfl
  source := ⟨"/b/k", by decide, by decide⟩

def delete_k : Call := visitor .DELETE "/b/k" [] []

def with_bucket : List Event := [.start 1 ["b"]]

end Visits

/-- One more event at the end of a run. -/
theorem serve_served (past : List Event) (event : Event) :
    serve (served past) event = served (past ++ [event]) := by
  unfold served
  rw [exec_append]
  rfl

/-- **PUT, then GET**: whatever is served and collected in between, if it is not about the key, the
whole body comes back under the ETag that the PUT was answered with. -/
theorem put_then_get (past later : List Event) (put get : Call) (bucket key : String)
    (hput : put.Puts bucket key) (hok : (put.response (served past)).status = 200)
    (hlater : ∀ event ∈ later, ¬ event.Touches bucket key)
    (hget : get.Gets bucket key) (hfaithful : Faithful put.s.env get.s.telegram) :
    let response := get.response (served (past ++ [put.event] ++ later))
    response.status = 200
      ∧ response.headers.get "etag" = (put.response (served past)).headers.get "etag"
      ∧ ∃ bytes stream, collect put.r.body = .ok bytes ∧ response.content = .stream stream
          ∧ collect stream = .ok bytes := by
  intro response
  have hwf := (sound_served past).counts.wellFormed
  obtain ⟨bytes, hbytes, hetag, hstores⟩ := stores_of_put hwf hput hok
  have hstored := hstores get.s.telegram hfaithful
  rw [serve_served] at hstored
  obtain ⟨hstatus, hetag', stream, hstream, hcollect⟩ :=
    get_of_stores (sound_served _) hget (hstored.kept hlater)
  exact ⟨hstatus, hetag'.trans hetag.symm, bytes, stream, hbytes, hstream, hcollect⟩

/-- Two bytes are stored, copied to another key, and read: they come back as they were sent. -/
theorem put_then_get_sample :
    let response := (visitor .GET "/b/k" [] []).response
      (served (with_bucket ++ [put_k.event] ++ [copy_k.event]))
    response.status = 200
      ∧ response.headers.get "etag" = (put_k.response (served with_bucket)).headers.get "etag"
      ∧ ∃ bytes stream, collect put_k.r.body = .ok bytes ∧ response.content = .stream stream
          ∧ collect stream = .ok bytes := by
  refine put_then_get with_bucket [copy_k.event] put_k _ "b" "k" puts_k (by decide +kernel) ?_
    (gets_visitor (by decide)) sample_faithful
  intro event hevent
  obtain rfl := List.mem_singleton.mp hevent
  exact copies_k.target.elsewhere (by decide) (by decide)

/-- **PUT, copy, then GET of the copy**: the copy keeps the bytes, also when its source has been
overwritten or deleted, and collected, by then. -/
theorem copy_then_get (past between later : List Event) (put copy get : Call)
    (source_bucket source_key bucket key : String)
    (hput : put.Puts source_bucket source_key) (hok : (put.response (served past)).status = 200)
    (hbetween : ∀ event ∈ between, ¬ event.Touches source_bucket source_key)
    (hcopy : copy.Copies bucket key source_bucket source_key)
    (hcopied : (copy.response (served (past ++ [put.event] ++ between))).status = 200)
    (hlater : ∀ event ∈ later, ¬ event.Touches bucket key)
    (hget : get.Gets bucket key) (hfaithful : Faithful put.s.env get.s.telegram) :
    let response := get.response (served (past ++ [put.event] ++ between ++ [copy.event] ++ later))
    response.status = 200
      ∧ response.headers.get "etag" = (put.response (served past)).headers.get "etag"
      ∧ ∃ bytes stream, collect put.r.body = .ok bytes ∧ response.content = .stream stream
          ∧ collect stream = .ok bytes := by
  intro response
  have hwf := (sound_served past).counts.wellFormed
  obtain ⟨bytes, hbytes, hetag, hstores⟩ := stores_of_put hwf hput hok
  have hstored := hstores get.s.telegram hfaithful
  rw [serve_served] at hstored
  have hcopy_stored := stores_of_copy (sound_served _) hcopy hcopied (hstored.kept hbetween)
  rw [serve_served] at hcopy_stored
  obtain ⟨hstatus, hetag', stream, hstream, hcollect⟩ :=
    get_of_stores (sound_served _) hget (hcopy_stored.kept hlater)
  exact ⟨hstatus, hetag'.trans hetag.symm, bytes, stream, hbytes, hstream, hcollect⟩

/-- Two bytes are stored and copied; the original is deleted, and the copy is read. -/
theorem copy_then_get_sample :
    let response := (visitor .GET "/b/c" [] []).response
      (served (with_bucket ++ [put_k.event] ++ [] ++ [copy_k.event] ++ [delete_k.event]))
    response.status = 200
      ∧ response.headers.get "etag" = (put_k.response (served with_bucket)).headers.get "etag"
      ∧ ∃ bytes stream, collect put_k.r.body = .ok bytes ∧ response.content = .stream stream
          ∧ collect stream = .ok bytes := by
  refine copy_then_get with_bucket [] [delete_k.event] put_k copy_k _ "b" "k" "b" "c" puts_k
    (by decide +kernel) (List.forall_mem_nil _) copies_k (by decide +kernel) ?_
    (gets_visitor (by decide)) sample_faithful
  intro event hevent
  obtain rfl := List.mem_singleton.mp hevent
  have hdelete : delete_k.For "b" "k" := (plain_visitor (by decide)).target
  exact hdelete.elsewhere (by decide) (by decide)

end Tg2s3.Lifecycle
