/-
`dispatch`, `dispatch_bucket` and `dispatch_object` of `src/s3.rs`: which handler a
request gets, and what it leaves in the tables.

The handlers are the ones of the other modules. Here they run one after the other, with no
other request in between, and the tasks that clean up afterwards belong to a later step.

The README promises `NotImplemented` for the features that the server does not have. The
routing does not know their names: it asks for the names it knows, and a query with none of
them is a plain request for the bucket or the object. Only a POST that is neither an
initiation nor a bulk delete comes to `NotImplemented` (and `UploadPartCopy`, which has a
check of its own). So `DELETE /bucket/key?tagging` deletes the object.
-/
import Tg2s3.RoundTrip
import Tg2s3.Completion
import Tg2s3.S3.Copy
import Tg2s3.S3.List
import Tg2s3.S3.GetObject
import Tg2s3.S3.Xml
import Tg2s3.S3.Cors
import Tg2s3.S3.Addressing

set_option autoImplicit false

namespace Tg2s3.S3.Dispatch

open Relational Machine
open Tg2s3.Transfer (UploadError Body check_size)
open Tg2s3.Completion (EngineError)
open Tg2s3.Download (Bytes)

/-! ## Errors and replies -/

inductive DispatchError
  | s3 (error : S3Error)
  | upload (error : UploadError)
  | complete (error : EngineError)
  | part_number
  /-- a text that is no header value -/
  | header_value
  | admission_closed
  deriving DecidableEq, Repr

def DispatchError.message : DispatchError → String
  | .s3 error => error.message
  | .upload error => error.message
  | .complete error => error.message
  | .part_number => "part number must be between 1 and 10,000"
  | .header_value => "failed to parse header value"
  | .admission_closed => "transfer admission controller closed"

inductive Reply
  | empty (status : ℕ) (headers : HeaderMap)
  | xml (value : Answer)
  | object (response : Response)

def empty_response (status : ℕ) : Reply := .empty status {}

/-- An empty response with one header, whose value has to be one. -/
def header_response (name value : String) : Except DispatchError Reply :=
  match from_str value with
  | some value => .ok (.empty 200 (({} : HeaderMap).insert name value))
  | none => .error .header_value

/-- What a request leaves in the tables, and its answer. -/
abbrev Outcome := Database × Except DispatchError Reply

/-- A step of the S3 layer that only looks, and what comes after it. -/
def after_check {α : Type} (db : Database) (check : Except S3Error α) (next : α → Outcome) :
    Outcome :=
  match check with
  | .error e => (db, .error (.s3 e))
  | .ok a => next a

/-- An answer that does not touch the tables. -/
def read (db : Database) (reply : Except S3Error Reply) : Outcome :=
  after_check db reply fun reply => (db, .ok reply)

def refuse (db : Database) (error : S3Error) : Outcome := (db, .error (.s3 error))

/-! ## The server -/

/-- What `AdmissionController::acquire` comes to. -/
inductive Admission
  | granted
  | slow_down
  | closed
  deriving DecidableEq, Repr

def acquire : Admission → Except DispatchError Unit
  | .granted => .ok ()
  | .slow_down => .error (.upload .slow_down)
  | .closed => .error .admission_closed

structure DeleteRequest where
  objects : List String
  quiet : Bool

/-- What a request finds: the configuration, the answers of Telegram and of other crates, and
the fresh UUID. -/
structure Server where
  public_host : Option String
  region : String
  cors : CorsConfiguration
  /-- whether the query of the rules fails: where they are asked for, and where the headers of
  the response are made -/
  cors_answer_fails : Bool := false
  cors_headers_fail : Bool := false
  env : Transfer.Env
  telegram : Download.Telegram
  new_upload_id : String
  admission : Admission
  percent_decode : String → Option String
  form_urlencoded : String → List (String × String)
  base64_encode : String → String
  base64_decode : String → Option String
  format_time : Int → String
  fmt_http_date : Int → String
  parse_http_date : String → Option Int
  /-- the parsers of the bodies, after the check for UTF-8 -/
  parse_cors : Bytes → Option CorsConfigurationXml
  parse_delete : Bytes → Option DeleteRequest
  parse_complete : Bytes → Option (List (Int × String))

structure Request where
  method : Method
  uri : Uri
  headers : HeaderMap
  body : Body

/-- `to_bytes` -/
def to_bytes (limit : ℕ) : Body → Except UploadError Bytes
  | [] => .ok []
  | .error e :: _ => .error e
  | .ok frame :: rest => do
      if limit < frame.length then .error (.io "length limit exceeded")
      let bytes ← to_bytes (limit - frame.length) rest
      pure (frame ++ bytes)

section Handlers

variable (s : Server) (db : Database)

/-! ## Buckets -/

def list_buckets : Outcome :=
  read db (.ok (.xml (.buckets
    { buckets := (db.buckets.insertionSort (·.name ≤ ·.name)).map fun bucket =>
        { name := bucket.name, creation_date := s.format_time bucket.created_at } })))

def list_objects (bucket : String) (query : List (String × String)) : Outcome :=
  read db ((S3.list_objects s.format_time s.base64_encode s.base64_decode db bucket query).map
    fun result => .xml (.objects result))

/-- `CorsConfigurationXml::from` -/
def cors_xml (configuration : CorsConfiguration) : CorsConfigurationXml where
  rules := [{
    allowed_origins := configuration.allowed_origins
    allowed_methods := configuration.allowed_methods
    allowed_headers := configuration.allowed_headers
    expose_headers := configuration.expose_headers
    max_age_seconds := some configuration.max_age_seconds }]

def get_bucket_cors (bucket : String) : Outcome :=
  after_check db (ensure (bucket_exists db bucket = true) .no_such_bucket) fun _ =>
    read db (.ok (.xml (.cors (cors_xml (Buckets.effective_bucket_cors db s.cors
      s.cors_answer_fails bucket)))))

def put_bucket_cors (bucket : String) (body : Body) : Outcome :=
  after_check db (ensure (bucket_exists db bucket = true) .no_such_bucket) fun _ =>
    match to_bytes (1024 * 1024) body with
    | .error e => (db, .error (.upload e))
    | .ok bytes =>
        match S3.put_bucket_cors db s.env.now bucket
            ((s.parse_cors bytes).elim (.error .malformed_xml) .ok) with
        | (db, .error e) => (db, .error (.s3 e))
        | (db, .ok ()) => (db, .ok (empty_response 200))

def delete_bucket_cors (bucket : String) : Outcome :=
  after_check db (ensure (bucket_exists db bucket = true) .no_such_bucket) fun _ =>
    (Tg2s3.delete_bucket_cors db bucket, .ok (empty_response 204))

def list_multipart_uploads (bucket : String) : Outcome :=
  after_check db (ensure (bucket_exists db bucket = true) .no_such_bucket) fun _ =>
    let uploads := (db.multipart_uploads.filter (·.bucket = bucket)).insertionSort
      (·.created_at ≤ ·.created_at)
    read db (.ok (.xml (.uploads
      { bucket := bucket
        uploads := (uploads.filter (·.kind = .multipart)).map fun upload =>
          { key := upload.key, upload_id := upload.upload_id
            initiated := s.format_time upload.created_at } })))

def create_bucket (bucket : String) : Outcome :=
  after_check db (validate_bucket bucket) fun _ =>
    ((Tg2s3.create_bucket db s.env.now bucket).1, header_response "location" ("/" ++ bucket))

def head_bucket (bucket : String) : Outcome :=
  after_check db (ensure (bucket_exists db bucket = true) .no_such_bucket) fun _ =>
    (db, .ok (empty_response 200))

def delete_bucket (bucket : String) : Outcome :=
  match Tg2s3.delete_bucket db bucket with
  | (db, none) => refuse db .no_such_bucket
  | (db, some false) => refuse db .bucket_not_empty
  | (db, some true) => (db, .ok (empty_response 204))

/-! ## Deleting -/

/-- `Engine::delete_object` -/
def engine_delete_object (bucket key : String) (condition : ObjectCondition) :
    Database × Except DbError Bool :=
  if bucket_exists db bucket = false then (db, .error .no_such_bucket)
  else
    match Tg2s3.delete_object db s.env.now bucket key condition with
    | (db, .error e) => (db, .error e)
    | (db, .ok deleted) => (db, .ok deleted.isSome)

def S3_ERRORS : List (String × ℕ) :=
  [ ("NoSuchKey", 404), ("NoSuchBucket", 404), ("NoSuchUpload", 404), ("EntityTooLarge", 413),
    ("SlowDown", 503), ("PreconditionFailed", 412), ("NotModified", 304), ("BucketNotEmpty", 409),
    ("EntityTooSmall", 400), ("IncompleteBody", 400), ("InvalidPartOrder", 400),
    ("InvalidPart", 400), ("InvalidRequest", 400), ("InvalidRange", 416), ("InvalidArgument", 400),
    ("InvalidBucketName", 400), ("MalformedXML", 400), ("NotImplemented", 501),
    ("MethodNotAllowed", 405), ("AccessDenied", 403), ("SignatureDoesNotMatch", 403),
    ("RequestTimeTooSkewed", 403) ]

/-- The first code that is a part of the text. -/
def error_code (text : String) : String :=
  ((S3_ERRORS.find? fun e => decide (e.1.toList <:+: text.toList)).map (·.1)).getD "InternalError"

def public_error_message (code text : String) : String :=
  if code = "InternalError" then "Internal server error" else text

/-- The loop of `multi_delete`. -/
def delete_each (bucket : String) :
    Database → List String → Database × List String × List DeleteErrorXml
  | db, [] => (db, [], [])
  | db, key :: keys =>
      match engine_delete_object s db bucket key {} with
      | (db, .ok _) =>
          let (db, deleted, errors) := delete_each bucket db keys
          (db, key :: deleted, errors)
      | (db, .error e) =>
          let (db, deleted, errors) := delete_each bucket db keys
          let code := error_code e.message
          (db, deleted, { key := key, code := code
                          message := public_error_message code e.message } :: errors)

def multi_delete (bucket : String) (body : Body) : Outcome :=
  after_check db (ensure (bucket_exists db bucket = true) .no_such_bucket) fun _ =>
    match to_bytes (4 * 1024 * 1024) body with
    | .error e => (db, .error (.upload e))
    | .ok bytes =>
        match s.parse_delete bytes with
        | none => refuse db .malformed_xml
        | some request =>
            after_check db (ensure (¬ (request.objects = [] ∨ 1000 < request.objects.length))
              .invalid_request) fun _ =>
              let (db, deleted, errors) := delete_each s bucket db request.objects
              (db, .ok (.xml (delete_result request.quiet deleted errors)))

def delete_object (bucket key : String) (headers : HeaderMap) : Outcome :=
  let condition := object_condition headers
  after_check db (check_write_conditions ((Tg2s3.get_object db bucket key).map (·.etag)) condition)
    fun _ =>
      match engine_delete_object s db bucket key condition with
      | (db, .error e) => refuse db (.engine e)
      | (db, .ok _) => (db, .ok (empty_response 204))

/-! ## Objects -/

def request_content_length (headers : HeaderMap) : Except S3Error (Option Int) :=
  match headers.get "content-length" with
  | none => .ok none
  | some value =>
      match (to_str value).bind fun text => parse_i64 text.toList with
      | none => .error .invalid_request
      | some value => if value < 0 then .error .invalid_request else .ok (some value)

/-- The checks of a body before a transfer begins. -/
def body_admission (headers : HeaderMap) : Except DispatchError (Option Int) := do
  let length ← (request_content_length headers).mapError .s3
  (check_size length s.env.config.max_object_size).mapError .upload
  acquire s.admission
  pure length

def put_object (bucket key : String) (headers : HeaderMap) (body : Body) : Outcome :=
  let condition := object_condition headers
  after_check db (check_write_conditions ((Tg2s3.get_object db bucket key).map (·.etag)) condition)
    fun _ =>
      match body_admission s headers with
      | .error e => (db, .error e)
      | .ok length =>
          match Transfer.put_object s.env db s.new_upload_id bucket key body
              (metadata_from_headers headers) length condition with
          | (db, .error e) => (db, .error (.upload e))
          | (db, .ok object) => (db, header_response "etag" (quoted object.etag))

def copy_object (bucket key source : String) (headers : HeaderMap) : Outcome :=
  let condition := object_condition headers
  after_check db (check_write_conditions ((Tg2s3.get_object db bucket key).map (·.etag)) condition)
    fun _ =>
      match S3.copy_object s.percent_decode db {} s.env.now bucket key source headers condition with
      | (db, .error e) => refuse db e
      | (db, .ok object) =>
          (db, .ok (.xml (.copied
            { etag := quoted object.etag, last_modified := s.format_time object.modified_at })))

def get_object (bucket key : String) (headers : HeaderMap) (head_only : Bool) : Outcome :=
  let load := ({} : Load).get_object db bucket key
  after_check db (S3.get_object s.fmt_http_date s.parse_http_date s.telegram load headers head_only)
    fun response =>
      -- a transfer has to be admitted, if there is anything to transfer
      match load with
      | .error e => refuse db (.engine e)
      | .ok object =>
          if head_only ∨ object.size ≤ 0 then (db, .ok (.object response))
          else
            match acquire s.admission with
            | .error e => (db, .error e)
            | .ok () => (db, .ok (.object response))

/-! ## Multipart uploads -/

def create_multipart (bucket key : String) (headers : HeaderMap) : Outcome :=
  after_check db (ensure (bucket_exists db bucket = true) .no_such_bucket) fun _ =>
    match create_upload db
        { upload_id := s.new_upload_id, bucket := bucket, key := key
          metadata := metadata_from_headers headers, kind := .multipart
          created_at := s.env.now } with
    | (db, .error e) => refuse db (.engine e)
    | (db, .ok ()) =>
        (db, .ok (.xml (.initiated
          { bucket := bucket, key := key, upload_id := s.new_upload_id })))

def list_parts (upload_id : String) : Outcome :=
  match get_upload db upload_id with
  | none => refuse db .no_such_upload
  | some upload =>
      let parts := parts_from_rows (get_parts_rows db upload_id false)
        (get_parts_blocks db upload_id false)
      read db (.ok (.xml (.parts
        { bucket := upload.bucket, key := upload.key, upload_id := upload_id
          parts := parts.map fun part =>
            { part_number := part.part_number, etag := quoted part.etag, size := part.size
              last_modified := s.format_time upload.created_at } })))

/-- `Engine::upload_part` -/
def engine_upload_part (upload_id : String) (part_number : Int) (body : Body)
    (expected_length : Option Int) : Database × Except DispatchError PartRecord :=
  if ¬ (1 ≤ part_number ∧ part_number ≤ 10000) then (db, .error .part_number)
  else
    match get_upload db upload_id with
    | none => (db, .error (.s3 .no_such_upload))
    | some upload =>
        if upload.kind ≠ .multipart then (db, .error (.s3 .no_such_upload))
        else
          match check_size expected_length s.env.config.max_object_size with
          | .error e => (db, .error (.upload e))
          | .ok () =>
              match Transfer.upload s.env db upload_id part_number body expected_length with
              | (db, .error e) => (db, .error (.upload e))
              | (db, .ok (part, size)) =>
                  match replace_part db s.env.now upload_id part_number size part.etag
                      part.blocks with
                  | (db, .error e) =>
                      (Transfer.cleanup_block_refs s.env db part.blocks, .error (.s3 (.engine e)))
                  | (db, .ok _) =>
                      (db, .ok { upload_id := upload_id, part_number := part_number, size := size
                                 etag := part.etag, blocks := part.blocks })

def upload_part (upload_id : String) (query : List (String × String)) (headers : HeaderMap)
    (body : Body) : Outcome :=
  if headers.contains_key "x-amz-copy-source" then refuse db .not_implemented
  else
    match (query_value query "partNumber").bind fun text => parse_i32 text.toList with
    | none => refuse db .invalid_argument
    | some part_number =>
        match body_admission s headers with
        | .error e => (db, .error e)
        | .ok length =>
            match engine_upload_part s db upload_id part_number body length with
            | (db, .error e) => (db, .error e)
            | (db, .ok part) => (db, header_response "etag" (quoted part.etag))

def complete_multipart (upload_id : String) (body : Body) : Outcome :=
  match to_bytes (2 * 1024 * 1024) body with
  | .error e => (db, .error (.upload e))
  | .ok bytes =>
      match s.parse_complete bytes with
      | none => refuse db .invalid_request
      | some parts =>
          match Completion.complete_multipart s.env.md5 s.env.config.max_object_size db db db db {}
              s.env.now upload_id (parts.map fun part => (part.1, normalize_etag part.2)) with
          | (db, .error e) => (db, .error (.complete e))
          | (db, .ok object) =>
              (db, .ok (.xml (.completed
                { bucket := object.bucket, key := object.key, etag := quoted object.etag
                  location := "/" ++ object.bucket ++ "/" ++ object.key })))

def abort_multipart (upload_id : String) : Outcome :=
  match abort_upload_with_blocks db s.env.now upload_id with
  | (db, .error e) => refuse db (.engine e)
  | (db, .ok none) => refuse db .no_such_upload
  | (db, .ok (some _)) => (db, .ok (empty_response 204))

/-! ## Routing -/

def dispatch_bucket (method : Method) (bucket : String) (query : List (String × String))
    (body : Body) : Outcome :=
  if query_has query "cors" then
    match method with
    | .GET => get_bucket_cors s db bucket
    | .PUT => put_bucket_cors s db bucket body
    | .DELETE => delete_bucket_cors db bucket
    | _ => refuse db .method_not_allowed
  else if query_has query "uploads" then
    if method = .GET then list_multipart_uploads s db bucket else refuse db .method_not_allowed
  else if query_has query "location" then
    if method = .GET then read db (.ok (.xml (bucket_location s.region)))
    else refuse db .method_not_allowed
  else if query_has query "delete" then
    if method = .POST then multi_delete s db bucket body else refuse db .method_not_allowed
  else if query_value query "list-type" = some "2" ∨ query_has query "prefix"
      ∨ query_has query "delimiter" ∨ query_has query "max-keys" then
    if method = .GET then list_objects s db bucket query else refuse db .method_not_allowed
  else
    match method with
    | .PUT => create_bucket s db bucket
    | .HEAD => head_bucket db bucket
    | .DELETE => delete_bucket db bucket
    | .GET => list_objects s db bucket query
    | _ => refuse db .method_not_allowed

/-- The requests of a multipart upload. -/
def dispatch_upload (method : Method) (bucket key upload_id : String)
    (query : List (String × String)) (headers : HeaderMap) (body : Body) : Outcome :=
  match get_upload db upload_id with
  | none => refuse db .no_such_upload
  | some upload =>
      if upload.bucket ≠ bucket ∨ upload.key ≠ key then refuse db .no_such_upload
      else
        match method with
        | .GET => list_parts s db upload_id
        | .PUT => upload_part s db upload_id query headers body
        | .POST => complete_multipart s db upload_id body
        | .DELETE => abort_multipart s db upload_id
        | _ => refuse db .method_not_allowed

def dispatch_object (method : Method) (bucket key : String) (query : List (String × String))
    (headers : HeaderMap) (body : Body) : Outcome :=
  if bucket_exists db bucket = false then refuse db .no_such_bucket
  else
    match query_value query "uploadId" with
    | some upload_id => dispatch_upload s db method bucket key upload_id query headers body
    | none =>
        if method = .PUT then
          match headers.text "x-amz-copy-source" with
          | some source => copy_object s db bucket key source headers
          | none => put_object s db bucket key headers body
        else if method = .POST ∧ query_has query "uploads" then
          create_multipart s db bucket key headers
        else if method = .POST ∧ query_has query "delete" then multi_delete s db bucket body
        else if method = .POST then refuse db .not_implemented
        else if method = .GET ∨ method = .HEAD then
          get_object s db bucket key headers (method = .HEAD)
        else if method = .DELETE then delete_object s db bucket key headers
        else refuse db .method_not_allowed

/-- The parameters of the request. -/
def Request.query (r : Request) : List (String × String) :=
  s.form_urlencoded (r.uri.query.getD "")

def dispatch (r : Request) : Outcome :=
  after_check db (Target.parse s.percent_decode r.uri r.headers s.public_host) fun target =>
    if r.method = .OPTIONS then (db, .ok (empty_response 204))
    else
      match target.bucket with
      | none => if r.method = .GET then list_buckets s db else refuse db .method_not_allowed
      | some bucket =>
          match target.key with
          | none => dispatch_bucket s db r.method bucket (r.query s) r.body
          | some key => dispatch_object s db r.method bucket key (r.query s) r.headers r.body

end Handlers

/-! ## Who answers `NotImplemented` -/

/-- The check does not end with `NotImplemented`. -/
def Knows {α : Type} (check : Except S3Error α) : Prop := check ≠ .error .not_implemented

/-- The request was not answered with `NotImplemented`. -/
def Implemented (outcome : Outcome) : Prop := outcome.2 ≠ .error (.s3 .not_implemented)

section Checks

variable {α β : Type}

/-- A value is no refusal. -/
theorem knows_ok (a : α) : Knows (.ok a : Except S3Error α) := by
  intro h
  cases h

/-- Nor is an error with another code. -/
theorem knows_error {e : S3Error} (h : e ≠ .not_implemented) : Knows (.error e : Except S3Error α) :=
  fun heq => h (Except.error.inj heq)

/-- Two steps know what they do if each of them does. -/
theorem Knows.bind {check : Except S3Error α} {next : α → Except S3Error β} (h : Knows check)
    (hnext : ∀ a, Knows (next a)) : Knows (check >>= next) := by
  intro heq
  rcases bind_error.mp heq with hcheck | ⟨a, -, hrest⟩
  · exact h hcheck
  · exact hnext a hrest

/-- What is done with a result cannot refuse it. -/
theorem Knows.map {check : Except S3Error α} (f : α → β) (h : Knows check) :
    Knows (check.map f) := by
  cases check with
  | error e => exact fun heq => h (congrArg _ (Except.error.inj heq))
  | ok a => exact knows_ok _

/-- A check refuses with its own code. -/
theorem knows_ensure {cond : Prop} [Decidable cond] {e : S3Error} (h : e ≠ .not_implemented) :
    Knows (ensure cond e) := by
  unfold ensure
  split
  · exact knows_ok _
  · exact knows_error h

/-- No error of the engine is one of the S3 layer. -/
theorem knows_engine (result : Except DbError α) : Knows (result.mapError S3Error.engine) := by
  cases result with
  | error e => exact knows_error (fun h => (by cases h))
  | ok a => exact knows_ok a

/-- A reply is an implementation. -/
theorem implemented_ok (db : Database) (reply : Reply) : Implemented (db, .ok reply) := by
  intro h
  cases h

/-- And so is a refusal for any other reason. -/
theorem implemented_refuse (db : Database) {e : S3Error} (h : e ≠ .not_implemented) :
    Implemented (refuse db e) := by
  intro heq
  cases heq
  exact h rfl

/-- A handler behind a check is implemented if both are. -/
theorem Implemented.after_check {db : Database} {check : Except S3Error α} {next : α → Outcome}
    (h : Knows check) (hnext : ∀ a, Implemented (next a)) :
    Implemented (after_check db check next) := by
  cases check with
  | error e => exact implemented_refuse db (fun heq => h (congrArg _ heq))
  | ok a => exact hnext a

/-- A reply that is only read, likewise. -/
theorem implemented_read (db : Database) {reply : Except S3Error Reply} (h : Knows reply) :
    Implemented (read db reply) :=
  Implemented.after_check h (implemented_ok db)

end Checks

section S3

variable {percent_decode : String → Option String}

/-- Paths are refused as invalid requests. -/
theorem knows_decode_path (path : List Char) : Knows (decode_path percent_decode path) := by
  unfold decode_path
  split
  · exact knows_ok _
  · exact knows_error (by decide)

/-- So are targets of a path. -/
theorem knows_path_target (path : List Char) : Knows (path_target percent_decode path) := by
  unfold path_target
  split
  · exact knows_ok _
  · split
    · exact (knows_decode_path _).bind fun _ => (knows_decode_path _).bind fun _ => knows_ok _
    · exact (knows_decode_path _).bind fun _ => knows_ok _

/-- And the targets of a request, from its host or its path. -/
theorem knows_target (uri : Uri) (headers : HeaderMap) (public_host : Option String) :
    Knows (Target.parse percent_decode uri headers public_host) := by
  unfold Target.parse
  cases public_host with
  | none => exact knows_path_target _
  | some public_host =>
      dsimp only
      split
      · split
        · exact knows_ok _
        · exact (knows_decode_path _).bind fun _ => knows_ok _
      · exact knows_path_target _

/-- A source that does not parse is an invalid request. -/
theorem knows_parse_copy_source (source : String) :
    Knows (parse_copy_source percent_decode source) := by
  unfold parse_copy_source
  refine (knows_decode_path _).bind fun _ => (knows_decode_path _).bind fun _ => ?_
  exact (knows_ensure (by decide)).bind fun _ => knows_ok _

/-- Conditions on the source are answered with 412. -/
theorem knows_check_copy_source_conditions (etag : String) (headers : HeaderMap) :
    Knows (check_copy_source_conditions etag headers) := by
  unfold check_copy_source_conditions
  -- every check is an `ensure`, or is left out
  repeat' first
    | exact knows_ok _
    | exact knows_ensure (by decide)
    | refine (knows_ensure (by decide)).bind fun _ => ?_
    | split

/-- A copy fails for its source, for its conditions or in the database. -/
theorem knows_copy_object (db : Database) (r : CopyRun) (now : Int) (bucket key source : String)
    (headers : HeaderMap) (condition : ObjectCondition) :
    Knows (S3.copy_object percent_decode db r now bucket key source headers condition).2 := by
  have hprepare : Knows (prepare_copy percent_decode db r source headers) := by
    unfold prepare_copy
    refine (knows_parse_copy_source source).bind fun _ => (knows_engine _).bind fun _ => ?_
    exact (knows_check_copy_source_conditions _ _).bind fun _ => knows_ok _
  unfold S3.copy_object
  split
  · rename_i e he
    exact knows_error fun h => hprepare (he.trans (congrArg _ h))
  · exact knows_engine _

/-- A listing fails for its parameters or its bucket. -/
theorem knows_list_objects (format_time : Int → String) (base64_encode : String → String)
    (base64_decode : String → Option String) (db : Database) (bucket : String)
    (query : List (String × String)) :
    Knows (S3.list_objects format_time base64_encode base64_decode db bucket query) := by
  have hmax : Knows (list_max_keys query) := by
    unfold list_max_keys
    split
    · exact knows_ok _
    · split
      · exact knows_ok _
      · exact knows_error (by decide)
  have hafter : Knows (list_after base64_decode query) := by
    unfold list_after
    split
    · split
      · split
        · exact knows_ok _
        · exact knows_error (by decide)
      · exact knows_ok _
    · exact knows_ok _
  unfold S3.list_objects list_request
  refine Knows.bind ?_ fun _ => knows_ok _
  refine (knows_ensure (by decide)).bind fun _ => ?_
  exact hmax.bind fun _ => hafter.bind fun _ => knows_ok _

/-- A range that cannot be satisfied is answered with 416. -/
theorem knows_parse_range (value : Option String) (size : Int) : Knows (parse_range value size) := by
  unfold parse_range
  split
  · exact knows_ok _
  · split
    · exact knows_ok _
    · split
      · exact knows_error (by decide)
      · unfold range_of_ends
        repeat' first
          | exact knows_ok _
          | exact knows_error (by decide)
          | split

/-- A condition of a GET is answered with 304 or 412. -/
theorem knows_check_conditions (parse_http_date : String → Option Int) (object : ObjectRecord)
    (headers : HeaderMap) : Knows (check_conditions parse_http_date object headers) := by
  unfold check_conditions
  repeat' first
    | exact knows_ok _
    | exact knows_ensure (by decide)
    | refine (knows_ensure (by decide)).bind fun _ => ?_
    | split

/-- So a GET fails for its object, its conditions or its range. -/
theorem knows_get_object (fmt_http_date : Int → String) (parse_http_date : String → Option Int)
    (telegram : Download.Telegram) (load : Except DbError ObjectRecord) (headers : HeaderMap)
    (head_only : Bool) :
    Knows (S3.get_object fmt_http_date parse_http_date telegram load headers head_only) := by
  unfold S3.get_object
  refine (knows_engine load).bind fun _ => (knows_check_conditions _ _ _).bind fun _ => ?_
  exact (knows_parse_range _ _).bind fun _ => knows_ok _

/-- Rules are refused as malformed or invalid. -/
theorem knows_put_bucket_cors (db : Database) (now : Int) (bucket : String)
    {body : Except S3Error CorsConfigurationXml} (h : Knows body) :
    Knows (S3.put_bucket_cors db now bucket body).2 := by
  have hbody : Knows (body >>= into_configuration) := by
    refine h.bind fun xml => ?_
    unfold into_configuration
    refine (knows_ensure (by decide)).bind fun _ => (knows_ensure (by decide)).bind fun _ => ?_
    exact (knows_ensure (by decide)).bind fun _ => knows_ok _
  unfold S3.put_bucket_cors
  split
  · split
    · exact knows_ok _
    · rename_i e he
      exact knows_error fun heq => hbody (he.trans (congrArg _ heq))
  · exact knows_error (by decide)

end S3

section Handlers

variable (s : Server) (db : Database)

/-- A response that only has a header is one. -/
theorem implemented_header_response (name value : String) :
    Implemented (db, header_response name value) := by
  unfold header_response
  intro h
  split at h
  · cases h
  · cases h

/-- The bucket is asked for first. -/
theorem implemented_of_bucket {bucket : String} {next : Unit → Outcome}
    (h : ∀ u, Implemented (next u)) :
    Implemented (after_check db (ensure (bucket_exists db bucket = true) .no_such_bucket) next) :=
  Implemented.after_check (knows_ensure (by decide)) h

/-- Rules of a bucket are implemented. -/
theorem implemented_put_bucket_cors (bucket : String) (body : Body) :
    Implemented (put_bucket_cors s db bucket body) := by
  refine implemented_of_bucket db fun _ => ?_
  split
  · intro h
    cases h
  · rename_i bytes _
    have hbody : Knows ((s.parse_cors bytes).elim (.error .malformed_xml) .ok) := by
      cases s.parse_cors bytes with
      | none => exact knows_error (by decide)
      | some xml => exact knows_ok xml
    have hput := knows_put_bucket_cors db s.env.now bucket hbody
    split
    · rename_i e he
      rw [he] at hput
      exact implemented_refuse _ fun h => hput (congrArg _ h)
    · exact implemented_ok _ _

/-- And so is the bulk delete: what goes wrong with one key is told in the body of its answer. -/
theorem implemented_multi_delete (bucket : String) (body : Body) :
    Implemented (multi_delete s db bucket body) := by
  refine implemented_of_bucket db fun _ => ?_
  split
  · intro h
    cases h
  · split
    · exact implemented_refuse db (by decide)
    · exact Implemented.after_check (knows_ensure (by decide)) fun _ => implemented_ok _ _

/-- **Every request to a bucket** is implemented, or refused for another reason. The case split
is that of the source, branch by branch. -/
theorem implemented_dispatch_bucket (method : Method) (bucket : String)
    (query : List (String × String)) (body : Body) :
    Implemented (dispatch_bucket s db method bucket query body) := by
  have hlist : Implemented (list_objects s db bucket query) :=
    implemented_read db ((knows_list_objects _ _ _ _ _ _).map _)
  have hrefuse : Implemented (refuse db .method_not_allowed) :=
    implemented_refuse db (by decide)
  unfold dispatch_bucket
  split
  · cases method with
    | GET => exact implemented_of_bucket db fun _ => implemented_read db (knows_ok _)
    | PUT => exact implemented_put_bucket_cors s db bucket body
    | DELETE => exact implemented_of_bucket db fun _ => implemented_ok _ _
    | _ => exact hrefuse
  split
  · split
    · exact implemented_of_bucket db fun _ => implemented_read db (knows_ok _)
    · exact hrefuse
  split
  · split
    · exact implemented_read db (knows_ok _)
    · exact hrefuse
  split
  · split
    · exact implemented_multi_delete s db bucket body
    · exact hrefuse
  split
  · split
    · exact hlist
    · exact hrefuse
  cases method with
  | PUT =>
      refine Implemented.after_check (knows_ensure (by decide)) fun _ => ?_
      exact implemented_header_response _ _ _
  | HEAD => exact implemented_of_bucket db fun _ => implemented_ok _ _
  | DELETE =>
      change Implemented (delete_bucket db bucket)
      unfold delete_bucket
      split
      · exact implemented_refuse _ (by decide)
      · exact implemented_refuse _ (by decide)
      · exact implemented_ok _ _
  | GET => exact hlist
  | _ => exact hrefuse

variable {s} in
/-- The admission of a body refuses it for its length or for the load of the server. -/
theorem implemented_body_admission {headers : HeaderMap} {e : DispatchError}
    (h : body_admission s headers = .error e) : Implemented (db, .error e) := by
  have hlength : Knows (request_content_length headers) := by
    unfold request_content_length
    split
    · exact knows_ok _
    · split
      · exact knows_error (by decide)
      · split
        · exact knows_error (by decide)
        · exact knows_ok _
  intro heq
  obtain rfl := Except.error.inj heq
  rcases bind_error.mp h with h | ⟨length, -, h⟩
  · cases hresult : request_content_length headers with
    | error e =>
        rw [hresult] at h hlength
        cases h
        exact hlength rfl
    | ok length =>
        rw [hresult] at h
        cases h
  rcases bind_error.mp h with h | ⟨_, -, h⟩
  · cases hsize : check_size length s.env.config.max_object_size with
    | error e =>
        rw [hsize] at h
        cases h
    | ok _ =>
        rw [hsize] at h
        cases h
  rcases bind_error.mp h with h | ⟨_, -, h⟩
  · cases hadmission : s.admission with
    | _ =>
        rw [hadmission] at h
        cases h
  · cases h

/-- A PUT is implemented. -/
theorem implemented_put_object (bucket key : String) (headers : HeaderMap) (body : Body) :
    Implemented (put_object s db bucket key headers body) := by
  refine Implemented.after_check (knows_ensure (by decide)) fun _ => ?_
  split
  · rename_i e he
    exact implemented_body_admission db he
  · split
    · intro h
      cases h
    · exact implemented_header_response _ _ _

/-- A copy is implemented. -/
theorem implemented_copy_object (bucket key source : String) (headers : HeaderMap) :
    Implemented (copy_object s db bucket key source headers) := by
  refine Implemented.after_check (knows_ensure (by decide)) fun _ => ?_
  have hcopy : Knows (S3.copy_object s.percent_decode db {} s.env.now bucket key source headers
      (object_condition headers)).2 := knows_copy_object _ _ _ _ _ _ _ _
  split
  · rename_i e he
    rw [he] at hcopy
    exact implemented_refuse _ fun h => hcopy (congrArg _ h)
  · exact implemented_ok _ _

/-- GET and HEAD are implemented. -/
theorem implemented_get_object (bucket key : String) (headers : HeaderMap) (head_only : Bool) :
    Implemented (get_object s db bucket key headers head_only) := by
  refine Implemented.after_check (knows_get_object _ _ _ _ _ _) fun response => ?_
  split
  · exact implemented_refuse db (fun h => (by cases h))
  · split
    · exact implemented_ok _ _
    · cases s.admission with
      | granted => exact implemented_ok _ _
      | slow_down => exact fun h => (by cases h)
      | closed => exact fun h => (by cases h)

/-- DELETE is implemented. -/
theorem implemented_delete_object (bucket key : String) (headers : HeaderMap) :
    Implemented (delete_object s db bucket key headers) := by
  refine Implemented.after_check (knows_ensure (by decide)) fun _ => ?_
  split
  · exact implemented_refuse _ (fun h => (by cases h))
  · exact implemented_ok _ _

/-- The initiation of an upload is implemented. -/
theorem implemented_create_multipart (bucket key : String) (headers : HeaderMap) :
    Implemented (create_multipart s db bucket key headers) := by
  refine implemented_of_bucket db fun _ => ?_
  split
  · exact implemented_refuse _ (fun h => (by cases h))
  · exact implemented_ok _ _

/-- A part fails in the engine, never for want of an implementation. -/
theorem implemented_engine_upload_part (upload_id : String) (part_number : Int) (body : Body)
    (expected_length : Option Int) :
    (engine_upload_part s db upload_id part_number body expected_length).2
      ≠ .error (.s3 .not_implemented) := by
  intro h
  unfold engine_upload_part at h
  split at h
  · cases h
  split at h
  · cases h
  split at h
  · cases h
  split at h
  · cases h
  split at h
  · cases h
  split at h
  · cases h
  · cases h

/-- A part is refused so only when it is to be a copy. -/
theorem implemented_upload_part (upload_id : String) (query : List (String × String))
    {headers : HeaderMap} (body : Body)
    (h : headers.contains_key "x-amz-copy-source" = false) :
    Implemented (upload_part s db upload_id query headers body) := by
  unfold upload_part
  rw [h]
  split
  · rename_i hcopy
    cases hcopy
  split
  · exact implemented_refuse db (by decide)
  split
  · rename_i e he
    exact implemented_body_admission db he
  split
  · rename_i part_number _ _ length _ _ _ e he
    have hpart := implemented_engine_upload_part s db upload_id part_number body length
    rw [he] at hpart
    exact fun heq => hpart (congrArg _ (Except.error.inj heq))
  · exact implemented_header_response _ _ _

/-- The request asks for something that the server refuses as not implemented: a POST on an
object that is neither an initiation, a bulk delete nor the completion of an upload, or a part
that is to be a copy. -/
def NotOffered (method : Method) (bucket key : String) (query : List (String × String))
    (headers : HeaderMap) : Prop :=
  match query_value query "uploadId" with
  | none => method = .POST ∧ query_has query "uploads" = false ∧ query_has query "delete" = false
  | some upload_id => method = .PUT ∧ headers.contains_key "x-amz-copy-source" = true
      ∧ ∃ upload, get_upload db upload_id = some upload ∧ upload.bucket = bucket
        ∧ upload.key = key

/-- With the id of an upload that is there, a part that is to be a copy is the only request that
is not offered. -/
theorem implemented_dispatch_upload {method : Method} {bucket key upload_id : String}
    {query : List (String × String)} {headers : HeaderMap} {body : Body}
    (hquery : query_value query "uploadId" = some upload_id)
    (h : ¬ NotOffered db method bucket key query headers) :
    Implemented (dispatch_upload s db method bucket key upload_id query headers body) := by
  unfold NotOffered at h
  rw [hquery] at h
  unfold dispatch_upload
  split
  · exact implemented_refuse db (by decide)
  rename_i upload hupload
  split
  · exact implemented_refuse db (by decide)
  rename_i hname
  cases method with
  | GET =>
      change Implemented (list_parts s db upload_id)
      unfold list_parts
      rw [hupload]
      exact implemented_read db (knows_ok _)
  | PUT =>
      refine implemented_upload_part s db upload_id query body ?_
      by_contra hcopy
      refine h ⟨rfl, Bool.eq_true_of_not_eq_false hcopy, upload, hupload, ?_, ?_⟩
      · exact Decidable.not_not.mp fun hne => hname (Or.inl hne)
      · exact Decidable.not_not.mp fun hne => hname (Or.inr hne)
  | POST =>
      change Implemented (complete_multipart s db upload_id body)
      unfold complete_multipart
      split
      · exact fun h => (by cases h)
      split
      · exact implemented_refuse db (by decide)
      split
      · exact fun h => (by cases h)
      · exact implemented_ok _ _
  | DELETE =>
      change Implemented (abort_multipart s db upload_id)
      unfold abort_multipart
      split
      · exact implemented_refuse _ (fun h => (by cases h))
      · exact implemented_refuse _ (by decide)
      · exact implemented_ok _ _
  | _ => exact implemented_refuse db (by decide)

/-- **Every request to a key** that is offered is implemented: this is one direction of the
theorem, with the branches in the order of the source. -/
theorem implemented_dispatch_object {method : Method} {bucket key : String}
    {query : List (String × String)} {headers : HeaderMap} {body : Body}
    (h : ¬ (bucket_exists db bucket = true ∧ NotOffered db method bucket key query headers)) :
    Implemented (dispatch_object s db method bucket key query headers body) := by
  unfold dispatch_object
  split
  · exact implemented_refuse db (by decide)
  rename_i hbucket
  replace h : ¬ NotOffered db method bucket key query headers :=
    fun hoffered => h ⟨Bool.eq_true_of_not_eq_false hbucket, hoffered⟩
  split
  · rename_i upload_id hquery
    exact implemented_dispatch_upload s db hquery h
  rename_i hquery
  unfold NotOffered at h
  rw [hquery] at h
  split
  · split
    · exact implemented_copy_object _ _ _ _ _ _
    · exact implemented_put_object _ _ _ _ _ _
  split
  · exact implemented_create_multipart _ _ _ _ _
  split
  · exact implemented_multi_delete _ _ _ _
  split
  · rename_i huploads hdelete hpost
    refine absurd ⟨hpost, ?_, ?_⟩ h
    · exact Bool.eq_false_iff.mpr fun hquery => huploads ⟨hpost, hquery⟩
    · exact Bool.eq_false_iff.mpr fun hquery => hdelete ⟨hpost, hquery⟩
  split
  · exact implemented_get_object _ _ _ _ _ _
  split
  · exact implemented_delete_object _ _ _ _ _
  · exact implemented_refuse db (by decide)

/-- And what is not offered is refused, before anything is done: the other direction. -/
theorem dispatch_object_of_not_offered {method : Method} {bucket key : String}
    {query : List (String × String)} {headers : HeaderMap} {body : Body}
    (hbucket : bucket_exists db bucket = true)
    (h : NotOffered db method bucket key query headers) :
    dispatch_object s db method bucket key query headers body = refuse db .not_implemented := by
  unfold dispatch_object
  rw [hbucket, if_neg (by decide)]
  unfold NotOffered at h
  split at h
  · rename_i hquery
    obtain ⟨rfl, huploads, hdelete⟩ := h
    rw [hquery, huploads, hdelete]
    rfl
  · rename_i upload_id hquery
    obtain ⟨rfl, hcopy, upload, hupload, rfl, rfl⟩ := h
    rw [hquery]
    dsimp only
    unfold dispatch_upload
    rw [hupload]
    dsimp only
    rw [if_neg (not_or.mpr ⟨not_not.mpr rfl, not_not.mpr rfl⟩)]
    unfold upload_part
    rw [if_pos hcopy]

/-- **Which requests are answered with `NotImplemented`**, and these leave the tables alone. -/
theorem dispatch_not_implemented_iff (r : Request) :
    dispatch s db r = refuse db .not_implemented
      ↔ ∃ bucket key, Target.parse s.percent_decode r.uri r.headers s.public_host
          = .ok { bucket := some bucket, key := some key }
        ∧ bucket_exists db bucket = true
        ∧ NotOffered db r.method bucket key (r.query s) r.headers := by
  constructor
  · intro h
    have hresult : ¬ Implemented (dispatch s db r) := fun himplemented => himplemented (by rw [h]; rfl)
    by_contra hnone
    refine hresult ?_
    have hparse : Knows (Target.parse s.percent_decode r.uri r.headers s.public_host) :=
      knows_target _ _ _
    unfold dispatch
    cases htarget : Target.parse s.percent_decode r.uri r.headers s.public_host with
    | error e =>
        rw [htarget] at hparse
        exact implemented_refuse db fun heq => hparse (congrArg _ heq)
    | ok target =>
        obtain ⟨bucket, key⟩ := target
        change Implemented (if r.method = .OPTIONS then _ else _)
        split
        · exact implemented_ok _ _
        cases bucket with
        | none =>
            dsimp only
            split
            · exact implemented_read db (knows_ok _)
            · exact implemented_refuse db (by decide)
        | some bucket =>
            cases key with
            | none => exact implemented_dispatch_bucket s db _ _ _ _
            | some key =>
                refine implemented_dispatch_object s db fun hoffered => hnone ?_
                exact ⟨bucket, key, htarget, hoffered⟩
  · rintro ⟨bucket, key, htarget, hbucket, hoffered⟩
    have hmethod : r.method ≠ .OPTIONS := by
      intro heq
      unfold NotOffered at hoffered
      rw [heq] at hoffered
      split at hoffered
      · exact absurd hoffered.1 (by decide)
      · exact absurd hoffered.1 (by decide)
    unfold dispatch after_check
    rw [htarget]
    dsimp only
    rw [if_neg hmethod]
    exact dispatch_object_of_not_offered s db hbucket hoffered

end Handlers

/-! ## Features the server does not have -/

/-- The names in a query that stand for a feature the README calls intentionally unimplemented. -/
def unimplemented_names : List String :=
  ["acl", "tagging", "versioning", "versions", "lifecycle", "object-lock", "retention",
    "legal-hold", "notification", "replication", "website", "select"]

/-- The names in a query that stand for a feature the server has. -/
def supported_names : List String := ["uploadId", "uploads", "cors", "location", "delete"]

/-- The query asks for a feature the server does not have, and for none that it has. -/
structure Unsupported (query : List (String × String)) : Prop where
  unimplemented : ∃ name ∈ unimplemented_names, query_has query name = true
  not_supported : ∀ name ∈ supported_names, query_has query name = false

/-- **Such a request is refused as not implemented if and only if it is a POST on an object**
whose bucket exists. -/
theorem unsupported_refused_iff (s : Server) (db : Database) (r : Request)
    (h : Unsupported (r.query s)) :
    dispatch s db r = (db, .error (.s3 .not_implemented))
      ↔ r.method = .POST ∧ ∃ bucket key,
          Target.parse s.percent_decode r.uri r.headers s.public_host
            = .ok { bucket := some bucket, key := some key }
          ∧ bucket_exists db bucket = true := by
  have hno : query_value (r.query s) "uploadId" = none :=
    query_value_eq_none (h.not_supported "uploadId" (by decide))
  refine (dispatch_not_implemented_iff s db r).trans ?_
  unfold NotOffered
  rw [hno]
  constructor
  · rintro ⟨bucket, key, htarget, hbucket, hpost, -⟩
    exact ⟨hpost, bucket, key, htarget, hbucket⟩
  · rintro ⟨hpost, bucket, key, htarget, hbucket⟩
    refine ⟨bucket, key, htarget, hbucket, hpost, ?_, ?_⟩
    · exact h.not_supported "uploads" (by decide)
    · exact h.not_supported "delete" (by decide)

section Requests

open Tg2s3.Counts (put_first)

/-- A server with path-style addresses; its queries have names without values. -/
def path_server : Server where
  public_host := none
  region := "us-east-1"
  cors := server_default
  env := Transfer.sample_env
  telegram := Transfer.sample_telegram
  new_upload_id := "u"
  admission := .granted
  percent_decode := some
  form_urlencoded := fun query => if query = "" then [] else [(query, "")]
  base64_encode := sample_base64
  base64_decode := fun text => some (sample_base64 text)
  format_time := sample_time
  fmt_http_date := sample_time
  parse_http_date := fun _ => none
  parse_cors := fun _ => none
  parse_delete := fun _ => none
  parse_complete := fun _ => none

/-- A request for the object `k` of the bucket `b`. -/
def on_object (method : Method) (query : String) : Request where
  method := method
  uri := { path := "/b/k", query := some query }
  headers := {}
  body := []

/-- A POST of an ACL is refused, as the documentation has it. -/
theorem unsupported_refused_post :
    dispatch path_server (after put_first) (on_object .POST "acl")
      = (after put_first, .error (.s3 .not_implemented)) :=
  (unsupported_refused_iff path_server (after put_first) (on_object .POST "acl")
    ⟨⟨"acl", by decide, by decide⟩, by decide⟩).mpr ⟨rfl, "b", "k", by decide, by decide⟩

/-- **A request for a missing feature can delete the object**: DELETE with `?tagging`. -/
theorem unsupported_deletes :
    Unsupported ((on_object .DELETE "tagging").query path_server)
      ∧ get_object_row (after put_first) "b" "k" ≠ none
      ∧ get_object_row (dispatch path_server (after put_first) (on_object .DELETE "tagging")).1
          "b" "k" = none
      ∧ (dispatch path_server (after put_first) (on_object .DELETE "tagging")).2
          = .ok (empty_response 204) := by
  refine ⟨⟨⟨"tagging", by decide, by decide⟩, by decide⟩, by decide, by decide, rfl⟩

end Requests

end Tg2s3.S3.Dispatch
