/-
`src/s3.rs`, `src/s3/target.rs`: what the S3 layer reads off a request.

A header map is its list of entries, in the order in which iteration gives them,
the names in lower case as the `http` crate keeps them; a value is its bytes. Most
of the server reads a header through `text`: the first value of that name, if it is
visible ASCII, and as good as no header otherwise.

Percent-decoding and the parsing of a query string belong to other crates and are
parameters (`percent_decode`, with the check for UTF-8, and `form_urlencoded`).
-/
import Tg2s3.Db.Support

set_option autoImplicit false

namespace Tg2s3.S3

/-! ## Text -/

/-- `str::split_once` for a character. -/
def split_once (c : Char) (s : List Char) : Option (List Char × List Char) :=
  if c ∈ s then some (s.takeWhile (· ≠ c), (s.dropWhile (· ≠ c)).tail) else none

theorem split_once_cons (c x : Char) (s : List Char) :
    split_once c (x :: s)
      = if x = c then some ([], s) else (split_once c s).map fun p => (x :: p.1, p.2) := by
  unfold split_once
  by_cases hx : x = c
  · subst hx
    simp
  · by_cases hmem : c ∈ s
    · simp [hx, hmem]
    · simp [hx, hmem, Ne.symm hx]

theorem split_once_eq_some_iff {c : Char} {s a b : List Char} :
    split_once c s = some (a, b) ↔ s = a ++ c :: b ∧ c ∉ a := by
  induction s generalizing a with
  | nil => simp [split_once]
  | cons x s ih =>
      rw [split_once_cons]
      by_cases hx : x = c
      · rw [if_pos hx]
        subst hx
        cases a with
        | nil => simp
        | cons y a => simp +contextual [eq_comm]
      · rw [if_neg hx, Option.map_eq_some_iff]
        constructor
        · rintro ⟨⟨a', b'⟩, h, heq⟩
          obtain ⟨rfl, rfl⟩ := Prod.mk.inj heq
          obtain ⟨rfl, hno⟩ := ih.mp h
          refine ⟨rfl, ?_⟩
          rw [List.mem_cons, not_or]
          exact ⟨Ne.symm hx, hno⟩
        · rintro ⟨h, hno⟩
          cases a with
          | nil => exact absurd (List.cons.inj h).1 hx
          | cons y a' =>
              obtain ⟨rfl, rfl⟩ := List.cons.inj h
              exact ⟨(a', b), ih.mpr ⟨rfl, fun hmem => hno (List.mem_cons_of_mem _ hmem)⟩, rfl⟩

/-- `str::trim_start_matches('/')`. -/
def trim_slashes (s : List Char) : List Char := s.dropWhile (· = '/')

/-! ## Numbers -/

def is_digit (c : Char) : Bool := '0' ≤ c && c ≤ '9'

/-- The number that decimal digits spell. -/
def of_digits (digits : List Char) : ℕ :=
  digits.foldl (fun n c => 10 * n + (c.toNat - '0'.toNat)) 0

/-- A non-empty row of decimal digits, within bounds, with its sign. -/
def parse_digits (sign lo hi : Int) (digits : List Char) : Option Int :=
  if digits ≠ [] ∧ digits.all is_digit = true
      ∧ lo ≤ sign * of_digits digits ∧ sign * of_digits digits ≤ hi then
    some (sign * of_digits digits)
  else none

/-- `str::parse` for an integer type with these bounds: a sign may stand in front, a
minus only if the type has negative numbers. -/
def parse_int (lo hi : Int) : List Char → Option Int
  | '+' :: digits => parse_digits 1 lo hi digits
  | '-' :: digits => if lo < 0 then parse_digits (-1) lo hi digits else none
  | digits => parse_digits 1 lo hi digits

def parse_i64 (text : List Char) : Option Int := parse_int i64_min i64_max text

def parse_i32 (text : List Char) : Option Int := parse_int (-2147483648) 2147483647 text

def parse_usize (text : List Char) : Option ℕ :=
  (parse_int 0 18446744073709551615 text).map Int.toNat

/-! ## Requests -/

/-- `http::Method`. -/
inductive Method
  | OPTIONS
  | GET
  | POST
  | PUT
  | DELETE
  | HEAD
  | TRACE
  | CONNECT
  | PATCH
  | extension (token : String)
  deriving DecidableEq, Repr

/-- The bytes of a header value. -/
abbrev HeaderValue := List UInt8

/-- `HeaderValue::to_str(..).ok()`: visible ASCII, blanks and tabs. -/
def to_str (value : HeaderValue) : Option String :=
  if value.all (fun b => (32 ≤ b && b < 127) || b = 9) then
    some (String.ofList (value.map fun b => Char.ofNat b.toNat))
  else none

/-- The bytes of an ASCII text. -/
def ascii (text : String) : HeaderValue := text.toList.map fun c => UInt8.ofNat c.toNat

structure HeaderMap where
  entries : List (String × HeaderValue) := []
  deriving DecidableEq, Repr

namespace HeaderMap

variable (headers : HeaderMap)

/-- `get_all`: the values of a name, in order. -/
def get_all (name : String) : List HeaderValue :=
  (headers.entries.filter (·.1 = name)).map (·.2)

def get (name : String) : Option HeaderValue := (headers.get_all name).head?

def contains_key (name : String) : Bool := (headers.get name).isSome

/-- `headers.get(name).and_then(|value| value.to_str().ok())`. -/
def text (name : String) : Option String := (headers.get name).bind to_str

end HeaderMap

structure Uri where
  path : String
  query : Option String := none
  deriving DecidableEq, Repr

/-! ## Errors -/

/-- Errors of the S3 layer, and those of the layers below it. -/
inductive S3Error
  | engine (error : DbError)
  | precondition_failed
  | not_modified
  | invalid_request
  | invalid_argument
  | invalid_range
  | invalid_bucket_name
  | no_such_bucket
  | no_such_upload
  | bucket_not_empty
  | entity_too_large
  | malformed_xml
  | not_implemented
  | method_not_allowed
  deriving DecidableEq, Repr

def S3Error.message : S3Error → String
  | .engine error => error.message
  | .precondition_failed => "PreconditionFailed"
  | .not_modified => "NotModified"
  | .invalid_request => "InvalidRequest"
  | .invalid_argument => "InvalidArgument"
  | .invalid_range => "InvalidRange"
  | .invalid_bucket_name => "InvalidBucketName"
  | .no_such_bucket => "NoSuchBucket"
  | .no_such_upload => "NoSuchUpload"
  | .bucket_not_empty => "BucketNotEmpty"
  | .entity_too_large => "EntityTooLarge"
  | .malformed_xml => "MalformedXML"
  | .not_implemented => "NotImplemented"
  | .method_not_allowed => "MethodNotAllowed"

/-- `if !cond { bail!(error) }` in the S3 layer. -/
def ensure (cond : Prop) [Decidable cond] (error : S3Error) : Except S3Error Unit :=
  if cond then .ok () else .error error

@[simp] theorem ensure_ok {cond : Prop} [Decidable cond] {error : S3Error} {u : Unit} :
    ensure cond error = .ok u ↔ cond := by
  unfold ensure
  split_ifs with h <;> simp [h]

/-! ## Names -/

section Names

variable (percent_decode : String → Option String)

def decode_path (path : List Char) : Except S3Error String :=
  match percent_decode (String.ofList path) with
  | some text => .ok text
  | none => .error .invalid_request

structure Target where
  bucket : Option String
  key : Option String
  deriving DecidableEq, Repr

/-- The bucket that a virtual-hosted request names in its host. -/
def host_bucket (host public_host : List Char) : List Char :=
  ((public_host.isSuffixOf? host).bind (['.'].isSuffixOf? ·)).getD []

/-- `Target::parse` for a path, with the slashes at its start taken off. -/
def path_target (path : List Char) : Except S3Error Target :=
  if path = [] then .ok { bucket := none, key := none }
  else
    match split_once '/' path with
    | some (bucket, key) => do
        let bucket ← decode_path percent_decode bucket
        let key ← decode_path percent_decode key
        pure { bucket := some bucket, key := some key }
    | none => do
        let bucket ← decode_path percent_decode path
        pure { bucket := some bucket, key := none }

def Target.parse (uri : Uri) (headers : HeaderMap) (public_host : Option String) :
    Except S3Error Target :=
  let host := ((headers.text "host").getD "").toList
  let path := trim_slashes uri.path.toList
  match public_host with
  | none => path_target percent_decode path
  | some public_host =>
      let public_host := (public_host.toList.reverse.dropWhile (· = '/')).reverse
      if host ≠ public_host ∧ host_bucket host public_host ≠ [] then
        if path = [] then
          .ok { bucket := some (String.ofList (host_bucket host public_host)), key := none }
        else do
          let key ← decode_path percent_decode path
          pure { bucket := some (String.ofList (host_bucket host public_host)), key := some key }
      else path_target percent_decode path

/-- Bucket and key of `x-amz-copy-source`. -/
def parse_copy_source (source : String) : Except S3Error (String × String) := do
  let source := trim_slashes source.toList
  let (bucket, key) := (split_once '/' source).getD (source, [])
  let bucket ← decode_path percent_decode bucket
  let key ← decode_path percent_decode key
  ensure (bucket ≠ "" ∧ key ≠ "") .invalid_request
  pure (bucket, key)

end Names

/-! ## Queries -/

def query_has (query : List (String × String)) (name : String) : Bool := query.any (·.1 = name)

def query_value (query : List (String × String)) (name : String) : Option String :=
  (query.find? (·.1 = name)).map (·.2)

theorem query_value_eq_none {query : List (String × String)} {name : String}
    (h : query_has query name = false) : query_value query name = none := by
  unfold query_value
  rw [Option.map_eq_none_iff, List.find?_eq_none]
  intro p hp heq
  have hno := List.any_eq_false.mp h p hp
  exact hno heq

/-! ## Headers of an object -/

def quoted (value : String) : String := "\"" ++ value ++ "\""

/-- `BTreeMap::insert`. -/
def btree_insert (name value : String) : List (String × String) → List (String × String)
  | [] => [(name, value)]
  | (n, v) :: rest =>
      if name = n then (name, value) :: rest
      else if name < n then (name, value) :: (n, v) :: rest
      else (n, v) :: btree_insert name value rest

/-- The user metadata of the headers with the prefix `x-amz-meta-`; a later value of
a name takes the place of an earlier one. -/
def user_metadata (headers : HeaderMap) : List (String × String) :=
  headers.entries.foldl (fun user entry =>
    match "x-amz-meta-".toList.isPrefixOf? entry.1.toList, to_str entry.2 with
    | some name, some value => btree_insert (String.ofList name) value user
    | _, _ => user) []

def metadata_from_headers (headers : HeaderMap) : ObjectMetadata where
  content_type := headers.text "content-type"
  content_disposition := headers.text "content-disposition"
  content_encoding := headers.text "content-encoding"
  cache_control := headers.text "cache-control"
  expires := headers.text "expires"
  user := user_metadata headers

def object_condition (headers : HeaderMap) : ObjectCondition where
  if_match := headers.text "if-match"
  if_none_match := headers.text "if-none-match"

/-- Whether one of the candidates in a header is the ETag. -/
def lists_etag (value etag : String) : Bool :=
  (value.toList.splitOn ',').any fun candidate => normalize_etag (String.ofList candidate) = etag

def check_copy_source_conditions (etag : String) (headers : HeaderMap) : Except S3Error Unit := do
  match headers.text "x-amz-copy-source-if-match" with
  | some value => ensure (value = "*" ∨ lists_etag value etag = true) .precondition_failed
  | none => pure ()
  match headers.text "x-amz-copy-source-if-none-match" with
  | some value => ensure (¬ (value = "*" ∨ lists_etag value etag = true)) .precondition_failed
  | none => pure ()

def check_write_conditions (etag : Option String) (condition : ObjectCondition) :
    Except S3Error Unit :=
  ensure (condition.allows etag = true) .precondition_failed

end Tg2s3.S3
