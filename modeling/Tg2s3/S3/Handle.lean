/-
`handle` of `src/s3.rs`: a request from its signature to its response.

The signature is checked before anything is looked at, a body in chunks with signatures of
their own is refused, and what `dispatch` bails with becomes a response by the first code in
a table that is a part of the error's text.

A signature covers the headers that it lists. The routing reads two headers on its way to the
objects, `Host` where there is a public host, and `x-amz-copy-source`; the check does not ask
for either of them, so whoever has a presigned URL for a PUT can turn it into a copy
(`unsigned_copy_source`). Where these two are signed or absent, the objects are those that
were signed (`signed_requests_act_alike`).
-/
import Tg2s3.Auth
import Tg2s3.S3.Dispatch

set_option autoImplicit false

namespace Tg2s3.S3.Handle

open Tg2s3.Auth (SigV4 Crypto crypto AuthError Authorization verify_with_payload_hash signed_names)
open Tg2s3.S3.Dispatch
open Tg2s3.Transfer (Body)
open Tg2s3.Download (Bytes)

/-! ## Responses -/

inductive Content
  | empty
  | xml (value : Answer)
  | stream (body : Download.Stream)

structure HttpResponse where
  status : ℕ
  headers : HeaderMap
  content : Content

def xml_headers : HeaderMap := { entries := [("content-type", ascii "application/xml")] }

def to_response : Reply → HttpResponse
  | .empty status headers => { status := status, headers := headers, content := .empty }
  | .xml value => { status := 200, headers := xml_headers, content := .xml value }
  | .object response =>
      { status := response.status, headers := response.headers, content := .stream response.body }

/-- The status of the first code that is a part of the text. -/
def status_for (text : String) : ℕ :=
  ((S3_ERRORS.find? fun e => decide (e.1.toList <:+: text.toList)).map (·.2)).getD 500

def error_response (status : ℕ) (code message : String) (uri : Uri) (request_id : String) :
    HttpResponse :=
  if status = 304 then
    { status := status, headers := insert_header {} "x-amz-request-id" request_id
      content := .empty }
  else
    let headers := insert_header xml_headers "x-amz-request-id" request_id
    { status := status
      headers := if code = "SlowDown" then insert_header headers "retry-after" "5" else headers
      content := .xml (.error
        { code := code, message := message, resource := uri.path, request_id := request_id }) }

/-- The response to what `dispatch` bailed with. -/
def failed_response (text : String) (uri : Uri) (request_id : String) : HttpResponse :=
  let code := error_code text
  error_response (status_for text) code (public_error_message code text) uri request_id

/-! ## The handler -/

def is_streaming_payload (headers : HeaderMap) : Bool :=
  (headers.text "x-amz-content-sha256").any (fun value =>
      "STREAMING-".toList.isPrefixOf value.toList)
    || (headers.text "content-encoding").any fun value =>
      (value.toList.splitOn ',').any fun token =>
        eq_ignore_ascii_case (String.ofList (Auth.trim token)) "aws-chunked"

/-- A PUT of CORS rules; its body is hashed if the client did not do so. -/
def is_cors_put (r : Request) (query : List (String × String)) : Bool :=
  r.method = .PUT && query.any fun p => eq_ignore_ascii_case p.1 "cors"

section Handler

variable (auth : SigV4) (c : Crypto) (now : Int) (s : Server)

/-- The body that has been read for its hash, with the hash. -/
def hashed_body (r : Request) : Except Transfer.UploadError (Request × Option String) :=
  if is_cors_put r (r.query s) && !r.headers.contains_key "x-amz-content-sha256" then
    match to_bytes (1024 * 1024) r.body with
    | .error e => .error e
    | .ok bytes =>
        .ok ({ r with body := [.ok bytes] }, some (String.ofList (Hex.encode (c.sha256 bytes))))
  else .ok (r, none)

/-- `SigV4::verify_with_payload_hash` for this request. -/
def verify (r : Request) (payload_hash : Option String) : Except AuthError Unit :=
  verify_with_payload_hash auth c now r.method r.uri.path (r.query s) r.headers payload_hash

/-- `handle`, before the CORS headers. -/
def answer (db : Database) (request_id : String) (r : Request) : Database × HttpResponse :=
  match hashed_body c s r with
  | .error e =>
      (db, error_response 400 "InvalidRequest" ("read CORS request body: " ++ e.message) r.uri
        request_id)
  | .ok (r, payload_hash) =>
      match if r.method = .OPTIONS then .ok () else verify auth c now s r payload_hash with
      | .error e =>
          (db, error_response 403 (error_code e.message) e.message r.uri request_id)
      | .ok () =>
          if r.method ≠ .OPTIONS ∧ is_streaming_payload r.headers then
            (db, error_response 501 "NotImplemented" ("aws-chunked streaming payloads are not "
              ++ "supported; retry with a non-streaming payload") r.uri request_id)
          else
            match dispatch s db r with
            | (db, .ok reply) => (db, to_response reply)
            | (db, .error e) => (db, failed_response e.message r.uri request_id)

def handle (db : Database) (request_id : String) (r : Request) : Database × HttpResponse :=
  let (db, response) := answer auth c now s db request_id r
  (db, { response with
    headers := apply_cors s.percent_decode db s.cors s.cors_headers_fail s.public_host r.uri
      r.headers response.headers })

end Handler

/-! ## What a request acts on -/

/-- The names that `dispatch` takes from a request. -/
structure Act where
  bucket : Option String
  key : Option String
  copy_source : Option String
  deriving DecidableEq, Repr

section Acts

variable (s : Server)

/-- What the request is about: its target, and the object that a PUT copies. -/
def act (r : Request) : Except S3Error Act :=
  (Target.parse s.percent_decode r.uri r.headers s.public_host).map fun target =>
    { bucket := target.bucket, key := target.key
      copy_source := if r.method = .PUT ∧ query_has (r.query s) "uploadId" = false then
          r.headers.text "x-amz-copy-source" else none }

/-- `dispatch` looks for its bucket, its key and the source of a copy there. -/
theorem dispatch_of_act (db : Database) {r : Request} {a : Act} (h : act s r = .ok a)
    (hmethod : r.method ≠ .OPTIONS) :
    dispatch s db r =
      match a.bucket, a.key, a.copy_source with
      | none, _, _ => if r.method = .GET then list_buckets s db else refuse db .method_not_allowed
      | some bucket, none, _ => dispatch_bucket s db r.method bucket (r.query s) r.body
      | some bucket, some key, none =>
          dispatch_object s db r.method bucket key (r.query s) r.headers r.body
      | some bucket, some key, some source =>
          if bucket_exists db bucket = false then refuse db .no_such_bucket
          else Dispatch.copy_object s db bucket key source r.headers := by
  unfold act at h
  unfold dispatch
  cases htarget : Target.parse s.percent_decode r.uri r.headers s.public_host with
  | error e =>
      rw [htarget] at h
      cases h
  | ok target =>
      rw [htarget] at h
      obtain rfl := Except.ok.inj h
      change (if r.method = .OPTIONS then _ else _) = _
      rw [if_neg hmethod]
      obtain ⟨bucket, key⟩ := target
      cases bucket with
      | none => rfl
      | some bucket =>
          cases key with
          | none => rfl
          | some key =>
              by_cases hput : r.method = .PUT ∧ query_has (r.query s) "uploadId" = false
              · -- a PUT of an object: with a source it is a copy
                rw [if_pos hput]
                cases hsource : r.headers.text "x-amz-copy-source" with
                | none => rfl
                | some source =>
                    dsimp only
                    unfold dispatch_object
                    rw [query_value_eq_none hput.2, hput.1]
                    dsimp only
                    rw [if_pos rfl, hsource]
              · rw [if_neg hput]

end Acts

/-! ## What a signature covers -/

section Signatures

variable (s : Server)

/-- The header is signed, or neither request has it. -/
def Covered (r r' : Request) (name : String) : Prop :=
  (∀ a, Auth.authorization (r.query s) r.headers = .ok a → name.toList ∈ signed_names a.signed_headers)
    ∨ r.headers.get_all name = [] ∧ r'.headers.get_all name = []

/-- The requests agree on every header that is signed. -/
def AgreeOnSigned (r r' : Request) : Prop :=
  ∀ a, Auth.authorization (r.query s) r.headers = .ok a →
    ∀ name ∈ signed_names a.signed_headers,
      r.headers.get_all (String.ofList name) = r'.headers.get_all (String.ofList name)

variable {s}

/-- An accepted request has said what it signed. -/
theorem authorization_of_accepted {auth : SigV4} {c : Crypto} {now : Int} {r : Request}
    {payload_hash : Option String} {access_key : String} (hkey : auth.access_key = some access_key)
    (h : verify auth c now s r payload_hash = .ok ()) :
    ∃ a, Auth.authorization (r.query s) r.headers = .ok a := by
  unfold verify verify_with_payload_hash at h
  rw [hkey] at h
  obtain ⟨_, -, h⟩ := bind_ok.mp h
  obtain ⟨a, ha, -⟩ := bind_ok.mp h
  exact ⟨a, ha⟩

/-- A header that is covered reads the same in both requests: it is signed, and the signed values
agree. -/
theorem text_eq_of_covered {r r' : Request} {a : Authorization} {name : String}
    (ha : Auth.authorization (r.query s) r.headers = .ok a) (hsigned : AgreeOnSigned s r r')
    (h : Covered s r r' name) : r.headers.text name = r'.headers.text name := by
  unfold HeaderMap.text HeaderMap.get
  rcases h with h | ⟨hnone, hnone'⟩
  · have heq := hsigned a ha name.toList (h a ha)
    rw [String.ofList_toList] at heq
    rw [heq]
  · rw [hnone, hnone']

/-- The target depends on the host only if the server has one of its own. -/
theorem target_eq {percent_decode : String → Option String} {uri : Uri} {headers headers' : HeaderMap}
    {public_host : Option String}
    (h : public_host ≠ none → headers.text "host" = headers'.text "host") :
    Target.parse percent_decode uri headers public_host
      = Target.parse percent_decode uri headers' public_host := by
  unfold Target.parse
  cases public_host with
  | none => rfl
  | some host => rw [h (Option.some_ne_none host)]

end Signatures

/-- **Two requests under one signature act on the same objects**, if the headers that the
routing reads are signed or absent: `Host` where there is a public host, and
`x-amz-copy-source` of a PUT. -/
theorem signed_requests_act_alike (auth : SigV4) (c : Crypto) (s : Server) (access_key : String)
    (now now' : Int) (r r' : Request) (payload_hash payload_hash' : Option String)
    (hkey : auth.access_key = some access_key)
    (hmethod : r.method = r'.method) (huri : r.uri = r'.uri) (hsigned : AgreeOnSigned s r r')
    (haccepted : verify auth c now s r payload_hash = .ok ())
    (_ : verify auth c now' s r' payload_hash' = .ok ())
    (hhost : s.public_host ≠ none → Covered s r r' "host")
    (hsource : r.method = .PUT → Covered s r r' "x-amz-copy-source") :
    act s r = act s r' := by
  obtain ⟨a, ha⟩ := authorization_of_accepted hkey haccepted
  unfold act
  rw [← huri, target_eq fun hpublic => text_eq_of_covered ha hsigned (hhost hpublic)]
  congr 1
  funext target
  have hquery : r'.query s = r.query s := by
    unfold Request.query
    rw [huri]
  rw [← hmethod, hquery]
  by_cases hput : r.method = .PUT
  · rw [text_eq_of_covered ha hsigned (hsource hput)]
  · rw [if_neg (fun h => hput h.1), if_neg (fun h => hput h.1)]

/-! ## A presigned PUT -/

section Presigned

def key_pair : SigV4 where
  access_key := some "AKIDEXAMPLE"
  secret_key := some "secret"
  region := "us-east-1"
  allow_anonymous := false

/-- The parameters of the URL but for the last, which is the signature. -/
def unsigned_parameters : List (String × String) :=
  [("X-Amz-Algorithm", "AWS4-HMAC-SHA256"),
    ("X-Amz-Credential", "AKIDEXAMPLE/20260101/us-east-1/s3/aws4_request"),
    ("X-Amz-Date", "20260101T000000Z"), ("X-Amz-Expires", "3600"), ("X-Amz-SignedHeaders", "host")]

def url_parameters (signature : String) : List (String × String) :=
  unsigned_parameters ++ [("X-Amz-Signature", signature)]

/-- The canonical request of the URL, with its one signed header. -/
def url_text : List Char :=
  ("PUT\n/b/k\nX-Amz-Algorithm=AWS4-HMAC-SHA256&X-Amz-Credential=AKIDEXAMPLE%2F20260101%2F"
    ++ "us-east-1%2Fs3%2Faws4_request&X-Amz-Date=20260101T000000Z&X-Amz-Expires=3600"
    ++ "&X-Amz-SignedHeaders=host\nhost:s3.test\n\nhost\nUNSIGNED-PAYLOAD").toList

def url_signature (c : Crypto) : String :=
  Auth.expected_signature c (Auth.signing_key c "secret" "20260101" "us-east-1" "s3")
    "20260101T000000Z" "20260101/us-east-1/s3/aws4_request" url_text

/-- The server, which reads the query of the URL as it is. -/
def url_server (c : Crypto) : Server :=
  { path_server with form_urlencoded := fun _ => url_parameters (url_signature c) }

def url_query (c : Crypto) : String :=
  "X-Amz-Algorithm=AWS4-HMAC-SHA256&X-Amz-Credential=AKIDEXAMPLE%2F20260101%2Fus-east-1%2Fs3"
    ++ "%2Faws4_request&X-Amz-Date=20260101T000000Z&X-Amz-Expires=3600"
    ++ "&X-Amz-SignedHeaders=host&X-Amz-Signature=" ++ url_signature c

/-- A PUT with the URL and these headers beside `Host`. -/
def upload (c : Crypto) (others : List (String × HeaderValue)) : Request where
  method := .PUT
  uri := { path := "/b/k", query := some (url_query c) }
  headers := { entries := ("host", ascii "s3.test") :: others }
  body := []

/-- The signature is one parameter more, and the last one. -/
theorem parameter_url (signature name : String) :
    Auth.parameter (url_parameters signature) name
      = (Auth.parameter unsigned_parameters name).or
          (if eq_ignore_ascii_case "X-Amz-Signature" name then some signature else none) := by
  unfold Auth.parameter url_parameters
  rw [List.find?_append]
  cases unsigned_parameters.find? fun p => eq_ignore_ascii_case p.1 name with
  | some p => rfl
  | none =>
      rw [Option.none_or, List.find?_singleton]
      dsimp only
      split <;> rfl

/-- A URL with a signature is a presigned one. -/
theorem presigned_url (signature : String) : Auth.presigned (url_parameters signature) = true := by
  unfold Auth.presigned url_parameters
  rw [List.any_append, List.any_cons]
  have hlast : Auth.is_signature ("X-Amz-Signature", signature) = true := by
    show eq_ignore_ascii_case "X-Amz-Signature" "X-Amz-Signature" = true
    decide
  rw [hlast, Bool.true_or, Bool.or_true]

/-- What is signed is the URL without it. -/
theorem signed_parameters_url (signature : String) :
    Auth.signed_parameters (url_parameters signature) true = unsigned_parameters := by
  unfold Auth.signed_parameters url_parameters
  have hlast : Auth.is_signature ("X-Amz-Signature", signature) = true := by
    show eq_ignore_ascii_case "X-Amz-Signature" "X-Amz-Signature" = true
    decide
  have hfront : unsigned_parameters.filter (fun p => !(true && Auth.is_signature p))
      = unsigned_parameters := by decide
  rw [List.filter_append, hfront, List.filter_singleton, hlast]
  rfl

/-- The parts of the authorization are read from the parameters. -/
theorem authorization_url (signature : String) (headers : HeaderMap) :
    Auth.authorization (url_parameters signature) headers = .ok
      { credential := "AKIDEXAMPLE/20260101/us-east-1/s3/aws4_request", signed_headers := "host"
        signature := signature, amz_date := "20260101T000000Z", expires := some 3600 } := by
  unfold Auth.authorization
  rw [if_pos (presigned_url signature)]
  unfold Auth.presigned_authorization
  simp only [parameter_url]
  have hfront (name value : String) (h : Auth.parameter unsigned_parameters name = some value) :
      (Auth.parameter unsigned_parameters name).or
        (if eq_ignore_ascii_case "X-Amz-Signature" name then some signature else none)
      = some value := by
    rw [h]
    rfl
  have hsignature : (Auth.parameter unsigned_parameters "X-Amz-Signature").or
      (if eq_ignore_ascii_case "X-Amz-Signature" "X-Amz-Signature" then some signature else none)
      = some signature := by
    rw [show Auth.parameter unsigned_parameters "X-Amz-Signature" = none by decide,
      show eq_ignore_ascii_case "X-Amz-Signature" "X-Amz-Signature" = true by decide]
    rfl
  rw [hsignature, hfront "X-Amz-Algorithm" "AWS4-HMAC-SHA256" (by decide),
    hfront "X-Amz-Credential" "AKIDEXAMPLE/20260101/us-east-1/s3/aws4_request" (by decide),
    hfront "X-Amz-SignedHeaders" "host" (by decide),
    hfront "X-Amz-Date" "20260101T000000Z" (by decide),
    hfront "X-Amz-Expires" "3600" (by decide)]
  have hexpires : (some "3600").bind (fun text : String => parse_i64 text.toList) = some 3600 := by
    decide
  rw [hexpires]
  rfl

/-- Headers of other names do not touch the host. -/
theorem get_all_host {others : List (String × HeaderValue)}
    (hothers : ∀ line ∈ others, line.1 ≠ "host") :
    ({ entries := ("host", ascii "s3.test") :: others } : HeaderMap).get_all "host"
      = [ascii "s3.test"] := by
  unfold HeaderMap.get_all
  rw [List.filter_cons_of_pos (by decide), List.filter_eq_nil_iff.mpr]
  · rfl
  · intro line hline heq
    exact hothers line hline (of_decide_eq_true heq)

/-- So the text that is signed is the same with and without them. -/
theorem text_url (signature : String) {others : List (String × HeaderValue)}
    (hothers : ∀ line ∈ others, line.1 ≠ "host") :
    Auth.canonical_request .PUT "/b/k" (url_parameters signature)
        { entries := ("host", ascii "s3.test") :: others } "host" "UNSIGNED-PAYLOAD"
      = .ok url_text := by
  have hget := get_all_host hothers
  have hvalue : Auth.signed_value { entries := ("host", ascii "s3.test") :: others } "host".toList
      = .ok "s3.test".toList := by
    unfold Auth.signed_value
    rw [String.ofList_toList, hget]
    decide
  have hheaders : Auth.canonical_headers { entries := ("host", ascii "s3.test") :: others } "host"
      = .ok "host:s3.test".toList := by
    unfold Auth.canonical_headers Auth.signed_values
    rw [show signed_names "host" = ["host".toList] by decide, List.mapM_cons, hvalue,
      List.mapM_nil]
    rfl
  unfold Auth.canonical_request Auth.canonical_query
  rw [hheaders, presigned_url, signed_parameters_url]
  decide +kernel

/-- Whoever has the URL is let in, with whatever headers beside `Host`. -/
theorem upload_accepted {c : Crypto}
    (hdate : c.parse_date_time "20260101T000000" = some 1767225600)
    {others : List (String × HeaderValue)}
    (hothers : ∀ line ∈ others, line.1 ≠ "host" ∧ line.1 ≠ "x-amz-content-sha256") :
    verify key_pair c 1767225600000000000 (url_server c) (upload c others) none = .ok () := by
  have hrequest_time : Auth.parse_amz_date c "20260101T000000Z" = .ok 1767225600000000000 := by
    unfold Auth.parse_amz_date
    rw [show String.ofList ("20260101T000000Z".toList.reverse.dropWhile (· = 'Z')).reverse
      = "20260101T000000" by decide, hdate]
    rfl
  have hget : (upload c others).headers.get "x-amz-content-sha256" = none := by
    unfold HeaderMap.get HeaderMap.get_all
    rw [List.filter_eq_nil_iff.mpr]
    · rfl
    · intro line hline heq
      rcases List.mem_cons.mp hline with rfl | hline
      · exact absurd heq (by decide)
      · exact (hothers line hline).2 (of_decide_eq_true heq)
  have hhash : Auth.payload_hashes .PUT (url_parameters (url_signature c)) (upload c others).headers
      none = ["UNSIGNED-PAYLOAD"] := by
    unfold Auth.payload_hashes Auth.payload_hash Auth.default_payload_hash HeaderMap.text
    rw [hget, presigned_url]
    rfl
  have hscope : Auth.credential_date "AKIDEXAMPLE" "us-east-1"
      "AKIDEXAMPLE/20260101/us-east-1/s3/aws4_request" "20260101T000000Z" = .ok "20260101" := by
    decide
  have hbind {α β : Type} (a : α) (next : α → Except AuthError β) : (.ok a >>= next) = next a := rfl
  have htext := text_url (url_signature c) fun line hline => (hothers line hline).1
  change verify_with_payload_hash key_pair c 1767225600000000000 .PUT "/b/k"
    (url_parameters (url_signature c)) (upload c others).headers none = .ok ()
  unfold verify_with_payload_hash
  simp only [key_pair, Auth.ok_or, hbind, authorization_url, hscope, hrequest_time, hhash]
  rw [show Auth.check_time 1767225600000000000 1767225600000000000 (some 3600) = .ok () by decide,
    hbind]
  have hsame : Auth.expected_signature c (Auth.signing_key c "secret" "20260101" "us-east-1" "s3")
      "20260101T000000Z" ("20260101" ++ "/" ++ "us-east-1" ++ "/s3/aws4_request") url_text
      = url_signature c := by
    rw [show "20260101" ++ "/" ++ "us-east-1" ++ "/s3/aws4_request"
      = "20260101/us-east-1/s3/aws4_request" by decide]
    rfl
  rw [Auth.any_matches_of_first]
  · rfl
  · rw [show (upload c others).headers = { entries := ("host", ascii "s3.test") :: others } from rfl,
      htext]
    exact congrArg Except.ok (decide_eq_true hsame)

/-- `Host` is the one header that the URL signs. -/
theorem agree_upload (c : Crypto) {others others' : List (String × HeaderValue)}
    (h : ∀ line ∈ others, line.1 ≠ "host") (h' : ∀ line ∈ others', line.1 ≠ "host") :
    AgreeOnSigned (url_server c) (upload c others) (upload c others') := by
  intro a ha name hname
  change Auth.authorization (url_parameters (url_signature c)) (upload c others).headers = .ok a at ha
  rw [authorization_url] at ha
  obtain rfl := Except.ok.inj ha
  have hhost : name = "host".toList := by
    rw [show signed_names "host" = ["host".toList] by decide] at hname
    exact List.mem_singleton.mp hname
  rw [hhost, String.ofList_toList]
  exact (get_all_host h).trans (get_all_host h').symm

/-- Both requests put the same object. -/
theorem act_upload (c : Crypto) (others : List (String × HeaderValue)) :
    act (url_server c) (upload c others) = .ok
      { bucket := some "b", key := some "k"
        copy_source := (upload c others).headers.text "x-amz-copy-source" } := by
  have htarget : Target.parse (url_server c).percent_decode (upload c others).uri
      (upload c others).headers (url_server c).public_host
      = .ok { bucket := some "b", key := some "k" } := by
    change path_target some (trim_slashes "/b/k".toList) = _
    decide
  have hquery : query_has ((upload c others).query (url_server c)) "uploadId" = false := by
    change (unsigned_parameters ++ [("X-Amz-Signature", url_signature c)]).any _ = false
    rw [List.any_append]
    exact Bool.or_eq_false_iff.mpr ⟨by decide, rfl⟩
  unfold act
  rw [htarget, if_pos ⟨rfl, hquery⟩]
  rfl

/-- A header that is not signed is added, and the request does the same. -/
theorem signed_requests_act_alike_upload :
    act (url_server crypto) (upload crypto [])
      = act (url_server crypto) (upload crypto [("x-other", ascii "1")]) := by
  have hdate : crypto.parse_date_time "20260101T000000" = some 1767225600 := by decide
  have haccepted := upload_accepted hdate (List.forall_mem_nil _)
  have hother : verify key_pair crypto 1767225600000000000 (url_server crypto)
      (upload crypto [("x-other", ascii "1")]) none = .ok () := upload_accepted hdate (by decide)
  refine signed_requests_act_alike key_pair crypto (url_server crypto) "AKIDEXAMPLE" _ _ _ _ _ _ rfl
    rfl rfl (agree_upload crypto (List.forall_mem_nil _) (by decide)) haccepted hother
    (fun h => absurd rfl h) (fun _ => Or.inr ⟨?_, ?_⟩)
  · show ({ entries := [("host", ascii "s3.test")] } : HeaderMap).get_all "x-amz-copy-source" = []
    decide
  · show ({ entries := [("host", ascii "s3.test"), ("x-other", ascii "1")] } : HeaderMap).get_all
      "x-amz-copy-source" = []
    decide

/-- **A presigned PUT can be turned into a copy**: the URL was signed for an upload to `/b/k`; with
one header more it is a copy of `/b/secret`. The signature is accepted all the same. -/
theorem unsigned_copy_source :
    verify key_pair crypto 1767225600000000000 (url_server crypto) (upload crypto []) none = .ok ()
      ∧ verify key_pair crypto 1767225600000000000 (url_server crypto)
          (upload crypto [("x-amz-copy-source", ascii "/b/secret")]) none = .ok ()
      ∧ AgreeOnSigned (url_server crypto) (upload crypto [])
          (upload crypto [("x-amz-copy-source", ascii "/b/secret")])
      ∧ act (url_server crypto) (upload crypto [])
          = .ok { bucket := some "b", key := some "k", copy_source := none }
      ∧ act (url_server crypto) (upload crypto [("x-amz-copy-source", ascii "/b/secret")])
          = .ok { bucket := some "b", key := some "k", copy_source := some "/b/secret" } := by
  have hdate : crypto.parse_date_time "20260101T000000" = some 1767225600 := by decide
  refine ⟨upload_accepted hdate (List.forall_mem_nil _), upload_accepted hdate (by decide),
    agree_upload crypto (List.forall_mem_nil _) (by decide), ?_, ?_⟩
  · have hnone : ({ entries := [("host", ascii "s3.test")] } : HeaderMap).text "x-amz-copy-source"
        = none := by decide
    rw [act_upload, show (upload crypto []).headers.text "x-amz-copy-source" = none from hnone]
  · have hsome : ({ entries := [("host", ascii "s3.test"),
        ("x-amz-copy-source", ascii "/b/secret")] } : HeaderMap).text "x-amz-copy-source"
        = some "/b/secret" := by decide
    rw [act_upload, show (upload crypto [("x-amz-copy-source", ascii "/b/secret")]).headers.text
      "x-amz-copy-source" = some "/b/secret" from hsome]

end Presigned

end Tg2s3.S3.Handle
