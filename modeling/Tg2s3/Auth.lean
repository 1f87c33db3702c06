/-
`src/auth.rs`: the check of a SigV4 signature.

The signature covers a text that is built from the request, the canonical request: six
fields with newlines in between, of which the query and the headers are texts with
separators of their own, and of which the list of signed headers is whatever the client
wrote. It determines the request it was built from (`canonical_request_eq_iff`), but for the
path: an empty one is written as `/`.

The hash, the HMAC and the parser of a date belong to other crates and are parameters
(`Crypto`). A moment is in nanoseconds.
-/
import Mathlib
import Tg2s3.Lib.Fields
import Tg2s3.Lib.Hex
import Tg2s3.Lib.Sha256
import Tg2s3.S3.Cors
import Tg2s3.S3.Metadata

set_option autoImplicit false

namespace Tg2s3.Auth

open Tg2s3.S3
open Tg2s3.Download (Bytes)

/-! ## Errors -/

inductive AuthError
  | access_denied
  | request_time_too_skewed
  | signature_does_not_match
  | signed_header_missing
  | invalid_signed_header
  /-- the text of the date's parser -/
  | date
  deriving DecidableEq, Repr

def AuthError.message : AuthError → String
  | .access_denied => "AccessDenied"
  | .request_time_too_skewed => "RequestTimeTooSkewed"
  | .signature_does_not_match => "SignatureDoesNotMatch"
  | .signed_header_missing => "Signed header missing"
  | .invalid_signed_header => "Invalid signed header"
  | .date => "a date could not be parsed"

/-- `ok_or_else(|| anyhow!(..))?` -/
def ok_or {α : Type} (value : Option α) (error : AuthError) : Except AuthError α :=
  match value with
  | some a => .ok a
  | none => .error error

/-- `if !cond { bail!(..) }` -/
def ensure (cond : Prop) [Decidable cond] (error : AuthError) : Except AuthError Unit :=
  if cond then .ok () else .error error

/-! ## Texts -/

def trim (text : List Char) : List Char := trim_matches is_whitespace text

/-- `to_ascii_lowercase` -/
def to_ascii_lowercase (text : List Char) : List Char := text.map Char.toLower

/-- `str::split_whitespace` -/
def split_whitespace (text : List Char) : List (List Char) :=
  (text.splitOnP is_whitespace).filter (· ≠ [])

def collapse_spaces (value : String) : String :=
  String.ofList ([' '].intercalate (split_whitespace value.toList))

def is_unreserved (byte : UInt8) : Bool :=
  let c := Char.ofNat byte.toNat
  decide (byte.toNat < 128) && (c.isAlphanum || c = '-' || c = '_' || c = '.' || c = '~')

def hex_digit (n : ℕ) : Char := "0123456789ABCDEF".toList.getD n '0'

def encode_byte (byte : UInt8) : List Char :=
  if is_unreserved byte then [Char.ofNat byte.toNat]
  else ['%', hex_digit (byte.toNat / 16), hex_digit (byte.toNat % 16)]

def encode_bytes (bytes : Bytes) : List Char := bytes.flatMap encode_byte

def aws_encode (value : String) : List Char := encode_bytes (utf8 value)

/-- `http::Method::as_str` -/
def as_str : Method → String
  | .OPTIONS => "OPTIONS"
  | .GET => "GET"
  | .POST => "POST"
  | .PUT => "PUT"
  | .DELETE => "DELETE"
  | .HEAD => "HEAD"
  | .TRACE => "TRACE"
  | .CONNECT => "CONNECT"
  | .PATCH => "PATCH"
  | .extension token => token

/-! ## The canonical request -/

def canonical_uri (path : String) : String := if path = "" then "/" else path

/-- The parameter that holds the signature, in any case. -/
def is_signature (p : String × String) : Bool := eq_ignore_ascii_case p.1 "X-Amz-Signature"

def presigned (query : List (String × String)) : Bool := query.any is_signature

/-- The parameters that are signed. -/
def signed_parameters (query : List (String × String)) (omit_signature : Bool) :
    List (String × String) :=
  query.filter fun p => !(omit_signature && is_signature p)

/-- The order in which `sort` puts pairs of texts. -/
def pair_le (a b : List Char × List Char) : Prop := a.1 < b.1 ∨ a.1 = b.1 ∧ a.2 ≤ b.2

instance (a b : List Char × List Char) : Decidable (pair_le a b) :=
  inferInstanceAs (Decidable (_ ∨ _))

def canonical_query (query : List (String × String)) (omit_signature : Bool) : List Char :=
  let values := (signed_parameters query omit_signature).map fun p =>
    (aws_encode p.1, aws_encode p.2)
  ['&'].intercalate ((values.insertionSort pair_le).map fun p => p.1 ++ '=' :: p.2)

/-- The names in the list of signed headers. -/
def signed_names (signed_headers : String) : List (List Char) :=
  ((signed_headers.toList.splitOn ';').map fun name => to_ascii_lowercase (trim name)).filter
    (· ≠ [])

/-- The values of a signed header, joined. -/
def signed_value (headers : HeaderMap) (name : List Char) : Except AuthError (List Char) := do
  let values ← (headers.get_all (String.ofList name)).mapM fun value =>
    (ok_or (to_str value) .invalid_signed_header).map fun text => (collapse_spaces text).toList
  ensure (values ≠ []) .signed_header_missing
  pure ([','].intercalate values)

/-- Every signed header with its value. -/
def signed_values (headers : HeaderMap) (signed_headers : String) :
    Except AuthError (List (List Char × List Char)) :=
  (signed_names signed_headers).mapM fun name => do
    let value ← signed_value headers name
    pure (name, value)

def canonical_headers (headers : HeaderMap) (signed_headers : String) :
    Except AuthError (List Char) := do
  let values ← signed_values headers signed_headers
  pure (['\n'].intercalate (values.map fun p => p.1 ++ ':' :: p.2))

/-- The text that is hashed for the signature. -/
def canonical_request (method : Method) (path : String) (query : List (String × String))
    (headers : HeaderMap) (signed_headers payload_hash : String) :
    Except AuthError (List Char) := do
  let canonical ← canonical_headers headers signed_headers
  pure ((as_str method).toList ++ '\n' :: ((canonical_uri path).toList ++ '\n' ::
    (canonical_query query (presigned query) ++ '\n' :: (canonical ++ '\n' :: '\n' ::
      (signed_headers.toList ++ '\n' :: payload_hash.toList)))))

/-! ## The check -/

structure SigV4 where
  access_key : Option String
  secret_key : Option String
  region : String
  allow_anonymous : Bool
  deriving DecidableEq, Repr

structure Crypto where
  sha256 : Bytes → Bytes
  /-- key and message -/
  hmac : Bytes → Bytes → Bytes
  /-- `PrimitiveDateTime::parse` for `[year][month][day]T[hour][minute][second]`, in seconds -/
  parse_date_time : String → Option Int

/-- The days from the first of January 1970 to a date. -/
def days_from_civil (year month day : ℕ) : Int :=
  let y : ℕ := if month ≤ 2 then year - 1 else year
  let day_of_year := (153 * ((month + 9) % 12) + 2) / 5 + day - 1
  let day_of_era := y % 400 * 365 + y % 400 / 4 - y % 400 / 100 + day_of_year
  (y / 400 * 146097 + day_of_era : ℕ) - 719468

def days_in_month (year month : ℕ) : ℕ :=
  if month = 2 then
    if year % 4 = 0 ∧ (year % 100 ≠ 0 ∨ year % 400 = 0) then 29 else 28
  else if month ∈ [4, 6, 9, 11] then 30 else 31

def digits (text : List Char) : Option ℕ :=
  if text ≠ [] ∧ text.all Char.isDigit then some (text.foldl (fun n c => 10 * n + (c.toNat - 48)) 0)
  else none

def parse_date_time (text : String) : Option Int := do
  let chars := text.toList
  let year ← digits (chars.take 4)
  let month ← digits ((chars.drop 4).take 2)
  let day ← digits ((chars.drop 6).take 2)
  let hour ← digits ((chars.drop 9).take 2)
  let minute ← digits ((chars.drop 11).take 2)
  let second ← digits ((chars.drop 13).take 2)
  if chars.length = 15 ∧ (chars.drop 8).head? = some 'T' ∧ 1 ≤ month ∧ month ≤ 12 ∧ 1 ≤ day
      ∧ day ≤ days_in_month year month ∧ hour < 24 ∧ minute < 60 ∧ second < 60 then
    some (days_from_civil year month day * 86400 + (3600 * hour + 60 * minute + second : ℕ))
  else none

/-- The functions of the crates; a year has four digits and no sign here. -/
def crypto : Crypto where
  sha256 := Sha256.sha256
  hmac := Sha256.hmac
  parse_date_time := parse_date_time

example : parse_date_time "20240229T235959" = some 1709251199 := by decide

/-- What the client claims. -/
structure Authorization where
  credential : String
  signed_headers : String
  signature : String
  amz_date : String
  expires : Option Int
  deriving DecidableEq, Repr

/-- The first parameter of this name, in any case. -/
def parameter (query : List (String × String)) (name : String) : Option String :=
  (query.find? fun p => eq_ignore_ascii_case p.1 name).map (·.2)

def presigned_authorization (query : List (String × String)) : Except AuthError Authorization := do
  ensure (parameter query "X-Amz-Algorithm" = some "AWS4-HMAC-SHA256") .access_denied
  let credential ← ok_or (parameter query "X-Amz-Credential") .access_denied
  let signed_headers ← ok_or (parameter query "X-Amz-SignedHeaders") .access_denied
  let signature ← ok_or (parameter query "X-Amz-Signature") .access_denied
  let amz_date ← ok_or (parameter query "X-Amz-Date") .access_denied
  let expires ← ok_or ((parameter query "X-Amz-Expires").bind fun text => parse_i64 text.toList)
    .access_denied
  ensure (0 ≤ expires ∧ expires ≤ 604800) .access_denied
  pure { credential := credential, signed_headers := signed_headers, signature := signature
         amz_date := amz_date, expires := some expires }

/-- A field of the header; a later one takes the place of an earlier one. -/
def authorization_field (fields : List (List Char × List Char)) (name : String) :
    Except AuthError String :=
  ok_or ((fields.reverse.find? (·.1 = name.toList)).map fun p => String.ofList p.2) .access_denied

def header_authorization (headers : HeaderMap) : Except AuthError Authorization := do
  let authorization ← ok_or (headers.text "authorization") .access_denied
  let (algorithm, fields) ← ok_or (split_once ' ' authorization.toList) .access_denied
  ensure (algorithm = "AWS4-HMAC-SHA256".toList) .access_denied
  let fields ← (fields.splitOn ',').mapM fun field =>
    ok_or (split_once '=' (trim field)) .access_denied
  let credential ← authorization_field fields "Credential"
  let signed_headers ← authorization_field fields "SignedHeaders"
  let signature ← authorization_field fields "Signature"
  let amz_date ← ok_or (headers.text "x-amz-date") .access_denied
  pure { credential := credential, signed_headers := signed_headers, signature := signature
         amz_date := amz_date, expires := none }

def authorization (query : List (String × String)) (headers : HeaderMap) :
    Except AuthError Authorization :=
  if presigned query then presigned_authorization query else header_authorization headers

/-- The date in the credential, which has to be that of the request. -/
def credential_date (access_key region credential amz_date : String) : Except AuthError String :=
  match credential.toList.splitOn '/' with
  | [key, date, credential_region, service, request] => do
      ensure (key = access_key.toList ∧ credential_region = region.toList ∧ service = "s3".toList
        ∧ request = "aws4_request".toList) .access_denied
      ensure (date.length = 8 ∧ date.all is_digit = true
        ∧ amz_date.toList.all (·.toNat < 128) = true ∧ amz_date.toList.length = 16
        ∧ date <+: amz_date.toList) .access_denied
      pure (String.ofList date)
  | _ => .error .access_denied

/-- `parse_amz_date`, in nanoseconds. -/
def parse_amz_date (c : Crypto) (value : String) : Except AuthError Int :=
  ok_or ((c.parse_date_time (String.ofList (value.toList.reverse.dropWhile (· = 'Z')).reverse)).map
    (1000000000 * ·)) .date

/-- Whole seconds, towards zero. -/
def whole_seconds (duration : Int) : Int := duration.tdiv 1000000000

def check_time (now request_time : Int) (expires : Option Int) : Except AuthError Unit :=
  match expires with
  | some expires =>
      ensure (¬ (now < request_time ∨ expires < whole_seconds (now - request_time))) .access_denied
  | none =>
      ensure (¬ 900 < |whole_seconds (now - request_time)|) .request_time_too_skewed

/-- The payload hash that a request without one has. -/
def default_payload_hash (method : Method) (query : List (String × String)) : String :=
  if presigned query then "UNSIGNED-PAYLOAD"
  else if method = .GET ∨ method = .HEAD then
    "e3b0c44298fc1c149afbf4c8996fb92427ae41e4649b934ca495991b7852b855"
  else "UNSIGNED-PAYLOAD"

def payload_hash (method : Method) (query : List (String × String)) (headers : HeaderMap)
    (payload_hash_override : Option String) : String :=
  ((headers.text "x-amz-content-sha256").or payload_hash_override).getD
    (default_payload_hash method query)

/-- The payload hashes that are tried, one after the other. -/
def payload_hashes (method : Method) (query : List (String × String)) (headers : HeaderMap)
    (payload_hash_override : Option String) : List String :=
  payload_hash method query headers payload_hash_override ::
    if payload_hash_override.isSome && !headers.contains_key "x-amz-content-sha256" then
      ["UNSIGNED-PAYLOAD"]
    else []

def signing_key (c : Crypto) (secret date region service : String) : Bytes :=
  let date_key := c.hmac (utf8 ("AWS4" ++ secret)) (utf8 date)
  let region_key := c.hmac date_key (utf8 region)
  let service_key := c.hmac region_key (utf8 service)
  c.hmac service_key (utf8 "aws4_request")

/-- The signature of a canonical request. -/
def expected_signature (c : Crypto) (key : Bytes) (amz_date scope : String)
    (canonical : List Char) : String :=
  let string_to_sign := "AWS4-HMAC-SHA256\n" ++ amz_date ++ "\n" ++ scope ++ "\n"
    ++ String.ofList (Hex.encode (c.sha256 (utf8 (String.ofList canonical))))
  String.ofList (Hex.encode (c.hmac key (utf8 string_to_sign)))

/-- Whether one of the payload hashes gives the signature. -/
def any_matches (signature_matches : String → Except AuthError Bool) :
    List String → Except AuthError Bool
  | [] => .ok false
  | payload_hash :: rest => do
      if ← signature_matches payload_hash then pure true else any_matches signature_matches rest

/-- A match of the first hash ends the search. -/
theorem any_matches_of_first {signature_matches : String → Except AuthError Bool}
    {payload_hash : String} {rest : List String} (h : signature_matches payload_hash = .ok true) :
    any_matches signature_matches (payload_hash :: rest) = .ok true := by
  unfold any_matches
  rw [h]
  rfl

/-- `SigV4::verify_with_payload_hash` at this moment; `query` has been parsed. -/
def verify_with_payload_hash (auth : SigV4) (c : Crypto) (now : Int) (method : Method)
    (path : String) (query : List (String × String)) (headers : HeaderMap)
    (payload_hash_override : Option String) : Except AuthError Unit :=
  match auth.access_key with
  | none => if auth.allow_anonymous then .ok () else .error .access_denied
  | some access_key => do
      let secret_key ← ok_or auth.secret_key .access_denied
      let a ← authorization query headers
      let date ← credential_date access_key auth.region a.credential a.amz_date
      let request_time ← parse_amz_date c a.amz_date
      check_time now request_time a.expires
      let scope := date ++ "/" ++ auth.region ++ "/s3/aws4_request"
      let key := signing_key c secret_key date auth.region "s3"
      let found ← any_matches (fun payload_hash => do
        let canonical ← canonical_request method path query headers a.signed_headers payload_hash
        pure (decide (expected_signature c key a.amz_date scope canonical = a.signature)))
        (payload_hashes method query headers payload_hash_override)
      ensure (found = true) .signature_does_not_match

/-! ## The encoding of the query -/

/-- The byte that a word of the encoding stands for. -/
def decode_word : List Char → Option ℕ
  | [c] => some c.toNat
  | [_, high, low] => do
      let high ← Hex.value high
      let low ← Hex.value low
      pure (16 * high + low)
  | _ => none

/-- The characters that separate parameters, keys, and lines. -/
def is_separator (c : Char) : Bool := c = '&' || c = '=' || c = '\n'

/-- The words, one by one: none is empty, those of three characters are those with a percent
sign, no word has a separator in it, and every word can be read. -/
theorem encode_byte_table : ∀ n : Fin 256,
    (encode_byte (UInt8.ofNat n)).length = (if (encode_byte (UInt8.ofNat n)).head? = some '%' then 3
      else 1)
    ∧ (encode_byte (UInt8.ofNat n)).all (fun c => !is_separator c) = true
    ∧ decode_word (encode_byte (UInt8.ofNat n)) = some n.val := by
  decide +kernel

/-- A byte is written as a word of its own: one character, or a percent sign and two digits. From
the first character one sees how long it is, and none of them is a separator. -/
theorem encode_byte_word (byte : UInt8) :
    (encode_byte byte).length = (if (encode_byte byte).head? = some '%' then 3 else 1)
      ∧ (encode_byte byte).all (fun c => !is_separator c) = true
      ∧ decode_word (encode_byte byte) = some byte.toNat := by
  have h := encode_byte_table ⟨byte.toNat, byte.toNat_lt⟩
  rwa [UInt8.ofNat_toNat] at h

/-- No byte is written as nothing. -/
theorem encode_byte_ne_nil (byte : UInt8) : encode_byte byte ≠ [] := by
  intro h
  have hlength := (encode_byte_word byte).1
  rw [h] at hlength
  split at hlength
  · cases hlength
  · cases hlength

/-- The words can be told apart from the left: the first character says how long they are. -/
theorem encode_byte_append (a b : UInt8) (s t : List Char)
    (h : encode_byte a ++ s = encode_byte b ++ t) : a = b ∧ s = t := by
  have hhead : (encode_byte a).head? = (encode_byte b).head? := by
    have h := congrArg List.head? h
    rwa [List.head?_append_of_ne_nil _ (encode_byte_ne_nil a),
      List.head?_append_of_ne_nil _ (encode_byte_ne_nil b)] at h
  have hlength : (encode_byte a).length = (encode_byte b).length := by
    rw [(encode_byte_word a).1, (encode_byte_word b).1, hhead]
  obtain ⟨hword, hrest⟩ := List.append_inj h hlength
  refine ⟨?_, hrest⟩
  have hvalue := (encode_byte_word a).2.2
  rw [hword, (encode_byte_word b).2.2] at hvalue
  exact (UInt8.toNat_inj.mp (Option.some.inj hvalue)).symm

/-- **No two byte strings have the same encoding.** -/
theorem encode_bytes_injective : Function.Injective encode_bytes :=
  fun _ _ h => Fields.flatMap_inj encode_byte_ne_nil encode_byte_append h

/-- **No two values are encoded alike**: the words can be told apart one after the other, and
each gives back its byte. -/
theorem aws_encode_injective : Function.Injective aws_encode :=
  fun _ _ h => utf8_inj (encode_bytes_injective h)

/-- A separator in the text is never part of a value. -/
theorem not_separator_of_mem_aws_encode {value : String} {c : Char} (h : c ∈ aws_encode value) :
    is_separator c = false := by
  obtain ⟨byte, -, hc⟩ := List.mem_flatMap.mp h
  have hall := List.all_eq_true.mp (encode_byte_word byte).2.1 c hc
  rwa [Bool.not_eq_true'] at hall

/-! ## The query -/

/-- What `canonical_query` writes for a parameter. -/
def written (p : String × String) : List Char × List Char := (aws_encode p.1, aws_encode p.2)

/-- So a parameter is known from the pair that is written for it. -/
theorem written_injective : Function.Injective written := by
  rintro ⟨key, value⟩ ⟨key', value'⟩ h
  obtain ⟨hkey, hvalue⟩ := Prod.mk.inj h
  exact Prod.ext (aws_encode_injective hkey) (aws_encode_injective hvalue)

def sorted_parameters (query : List (String × String)) (omit_signature : Bool) :
    List (List Char × List Char) :=
  ((signed_parameters query omit_signature).map written).insertionSort pair_le

/-- The canonical query is the sorted parameters, joined by ampersands. -/
theorem canonical_query_eq (query : List (String × String)) (omit_signature : Bool) :
    canonical_query query omit_signature
      = ['&'].intercalate ((sorted_parameters query omit_signature).map fun p =>
          p.1 ++ '=' :: p.2) := rfl

/-- The order of the parameters is total, so that sorting them gives one list. -/
theorem pair_le_total (a b : List Char × List Char) : pair_le a b ∨ pair_le b a := by
  rcases lt_trichotomy a.1 b.1 with hlt | heq | hgt
  · exact Or.inl (Or.inl hlt)
  · rcases le_total a.2 b.2 with hle | hle
    · exact Or.inl (Or.inr ⟨heq, hle⟩)
    · exact Or.inr (Or.inr ⟨heq.symm, hle⟩)
  · exact Or.inr (Or.inl hgt)

/-- It is transitive. -/
theorem pair_le_trans {a b c : List Char × List Char} (hab : pair_le a b) (hbc : pair_le b c) :
    pair_le a c := by
  rcases hab with hab | ⟨hab, hle⟩
  · rcases hbc with hbc | ⟨hbc, -⟩
    · exact Or.inl (lt_trans hab hbc)
    · exact Or.inl (hbc ▸ hab)
  · rcases hbc with hbc | ⟨hbc, hle'⟩
    · exact Or.inl (hab ▸ hbc)
    · exact Or.inr ⟨hab.trans hbc, le_trans hle hle'⟩

/-- And two pairs that it does not tell apart are the same. Parameters that are equal may change
places in the sorted list without a trace. -/
theorem pair_le_antisymm {a b : List Char × List Char} (hab : pair_le a b) (hba : pair_le b a) :
    a = b := by
  rcases hab with hab | ⟨hab, hle⟩
  · rcases hba with hba | ⟨hba, -⟩
    · exact absurd (lt_trans hab hba) (lt_irrefl _)
    · exact absurd (hba ▸ hab) (lt_irrefl _)
  · rcases hba with hba | ⟨-, hle'⟩
    · exact absurd (hab ▸ hba) (lt_irrefl _)
    · exact Prod.ext hab (le_antisymm hle hle')

/-- **The order of the parameters does not count**: sorted, they are the same list. -/
theorem sorted_parameters_eq_iff {query query' : List (String × String)} {o o' : Bool} :
    sorted_parameters query o = sorted_parameters query' o'
      ↔ (signed_parameters query o).Perm (signed_parameters query' o') := by
  have : IsTrans _ pair_le := ⟨fun _ _ _ h₁ h₂ => pair_le_trans h₁ h₂⟩
  have : Std.Total pair_le := ⟨pair_le_total⟩
  have hperm : ∀ values, (List.insertionSort pair_le values).Perm values :=
    fun values => List.perm_insertionSort _ values
  unfold sorted_parameters
  constructor
  · intro h
    refine (List.map_perm_map_iff written_injective).mp ?_
    exact (hperm _).symm.trans (h ▸ hperm _)
  · intro h
    refine List.Perm.eq_of_pairwise (fun a b _ _ hab hba => pair_le_antisymm hab hba)
      (List.pairwise_insertionSort _ _) (List.pairwise_insertionSort _ _) ?_
    exact (hperm _).trans ((h.map written).trans (hperm _).symm)

/-- Each entry of the sorted list is a parameter, encoded. -/
theorem mem_sorted_parameters {query : List (String × String)} {omit_signature : Bool}
    {p : List Char × List Char} (h : p ∈ sorted_parameters query omit_signature) :
    ∃ q, p = written q := by
  have hmem := (List.mem_insertionSort _).mp h
  obtain ⟨q, -, rfl⟩ := List.mem_map.mp hmem
  exact ⟨q, rfl⟩

/-- The one separator in a parameter is the one after its key. -/
theorem of_mem_written {q : String × String} {c : Char}
    (h : c ∈ (written q).1 ++ '=' :: (written q).2) : c = '=' ∨ is_separator c = false := by
  rcases List.mem_append.mp h with hkey | hrest
  · exact Or.inr (not_separator_of_mem_aws_encode hkey)
  rcases List.mem_cons.mp hrest with heq | hvalue
  · exact Or.inl heq
  · exact Or.inr (not_separator_of_mem_aws_encode hvalue)

/-- No entry has an ampersand in it, so the joined text can be taken apart. -/
theorem separable_parameters (query : List (String × String)) (omit_signature : Bool) :
    Fields.Separable '&' ((sorted_parameters query omit_signature).map fun p =>
      p.1 ++ '=' :: p.2) := by
  intro field hfield
  obtain ⟨p, hp, rfl⟩ := List.mem_map.mp hfield
  obtain ⟨q, rfl⟩ := mem_sorted_parameters hp
  refine ⟨List.append_ne_nil_of_right_ne_nil _ (List.cons_ne_nil _ _), fun hmem => ?_⟩
  rcases of_mem_written hmem with heq | hno
  · exact absurd heq (by decide)
  · exact absurd hno (by decide)

/-- **The query is determined by its canonical text, up to the order.** -/
theorem canonical_query_eq_iff {query query' : List (String × String)} {o o' : Bool} :
    canonical_query query o = canonical_query query' o'
      ↔ (signed_parameters query o).Perm (signed_parameters query' o') := by
  rw [← sorted_parameters_eq_iff, canonical_query_eq, canonical_query_eq]
  refine ⟨fun h => ?_, fun h => by rw [h]⟩
  have hfields := Fields.intercalate_inj (separable_parameters query o)
    (separable_parameters query' o') h
  -- a key has no `=`, so the first one ends it
  have hkey : ∀ (query : List (String × String)) (o : Bool), ∀ p ∈ sorted_parameters query o,
      '=' ∉ p.1 := by
    intro query o p hp hmem
    obtain ⟨q, rfl⟩ := mem_sorted_parameters hp
    exact absurd (not_separator_of_mem_aws_encode hmem) (by decide)
  exact Fields.map_pair_inj (hkey query o) (hkey query' o') hfields

/-- Nor a line break: the query is one line of the text that is signed. -/
theorem newline_not_mem_canonical_query (query : List (String × String)) (omit_signature : Bool) :
    '\n' ∉ canonical_query query omit_signature := by
  rw [canonical_query_eq]
  intro hmem
  rcases Fields.mem_intercalate hmem with hsep | ⟨field, hfield, hmem⟩
  · exact absurd hsep (by decide)
  obtain ⟨p, hp, rfl⟩ := List.mem_map.mp hfield
  obtain ⟨q, rfl⟩ := mem_sorted_parameters hp
  rcases of_mem_written hmem with heq | hno
  · exact absurd heq (by decide)
  · exact absurd hno (by decide)

/-! ## The signed headers -/

/-- What a list has been mapped to comes from one of its members. -/
theorem mem_of_mapM_ok {α β ε : Type} {f : α → Except ε β} {xs : List α} {ys : List β}
    (h : xs.mapM f = .ok ys) {y : β} (hy : y ∈ ys) : ∃ x ∈ xs, f x = .ok y := by
  induction xs generalizing ys with
  | nil =>
      obtain rfl := Except.ok.inj h
      cases hy
  | cons x xs ih =>
      rw [List.mapM_cons] at h
      obtain ⟨first, hfirst, h⟩ := bind_ok.mp h
      obtain ⟨rest, hrest, h⟩ := bind_ok.mp h
      obtain rfl := Except.ok.inj h
      rcases List.mem_cons.mp hy with rfl | hy
      · exact ⟨x, List.mem_cons_self, hfirst⟩
      · obtain ⟨x', hx', hy⟩ := ih hrest hy
        exact ⟨x', List.mem_cons_of_mem _ hx', hy⟩

/-- Collapsing blanks brings no new character but a blank. -/
theorem mem_of_mem_collapse_spaces {value : String} {c : Char}
    (h : c ∈ (collapse_spaces value).toList) : c = ' ' ∨ c ∈ value.toList := by
  unfold collapse_spaces at h
  rw [String.toList_ofList] at h
  rcases Fields.mem_intercalate h with hsep | ⟨word, hword, hc⟩
  · exact Or.inl (List.mem_singleton.mp hsep)
  · exact Or.inr (Fields.mem_of_mem_splitOnP (List.mem_of_mem_filter hword) hc)

/-- A header value that is a text has no line break. -/
theorem newline_not_mem_to_str {value : HeaderValue} {text : String} (h : to_str value = some text) :
    '\n' ∉ text.toList := by
  unfold to_str at h
  split_ifs at h with hall
  rw [← Option.some.inj h, String.toList_ofList]
  intro hmem
  obtain ⟨b, hb, hc⟩ := List.mem_map.mp hmem
  have hbyte := List.all_eq_true.mp hall b hb
  have htable : ∀ n : Fin 256, Char.ofNat n.val = '\n' →
      ((32 ≤ UInt8.ofNat n && UInt8.ofNat n < 127) || UInt8.ofNat n = 9) = false := by
    decide +kernel
  have hno := htable ⟨b.toNat, b.toNat_lt⟩ hc
  rw [UInt8.ofNat_toNat] at hno
  exact Bool.eq_false_iff.mp hno hbyte

/-- A signed header is there, and its value has no line break. -/
theorem signed_value_ok {headers : HeaderMap} {name value : List Char}
    (h : signed_value headers name = .ok value) :
    headers.get_all (String.ofList name) ≠ [] ∧ '\n' ∉ value := by
  obtain ⟨values, hvalues, h⟩ := bind_ok.mp h
  obtain ⟨_, hensure, h⟩ := bind_ok.mp h
  obtain rfl := Except.ok.inj h
  unfold ensure at hensure
  split_ifs at hensure with hne
  constructor
  · intro hnil
    rw [hnil] at hvalues
    exact hne (Except.ok.inj hvalues).symm
  · intro hmem
    rcases Fields.mem_intercalate hmem with hsep | ⟨text, htext, hc⟩
    · exact absurd hsep (by decide)
    obtain ⟨line, -, hline⟩ := mem_of_mapM_ok hvalues htext
    cases hto : to_str line with
    | none =>
        rw [hto] at hline
        cases hline
    | some read =>
        rw [hto] at hline
        rw [← Except.ok.inj hline] at hc
        rcases mem_of_mem_collapse_spaces hc with hspace | hread
        · exact absurd hspace (by decide)
        · exact newline_not_mem_to_str hto hread

/-- A name that a header has is a token. -/
theorem token_of_get_all {headers : HeaderMap} (hnamed : Named headers) {name : String}
    (h : headers.get_all name ≠ []) : name.toList ≠ [] ∧ ∀ c ∈ name.toList, is_token c = true := by
  obtain ⟨value, hvalue⟩ := List.exists_mem_of_ne_nil _ h
  have hname := hnamed _ (mem_get_all.mp hvalue)
  unfold header_name at hname
  split_ifs at hname with htoken
  refine ⟨fun hnil => htoken.1 (String.toList_inj.mp hnil), ?_⟩
  exact List.all_eq_true.mp htoken.2

/-- What the signed headers are like: a name is a token, a value has no line break. -/
theorem signed_values_ok {headers : HeaderMap} (hnamed : Named headers) {signed_headers : String}
    {values : List (List Char × List Char)}
    (h : signed_values headers signed_headers = .ok values) :
    ∀ p ∈ values, p.1 ≠ [] ∧ ':' ∉ p.1 ∧ '\n' ∉ p.1 ∧ '\n' ∉ p.2 := by
  intro p hp
  obtain ⟨name, -, hname⟩ := mem_of_mapM_ok h hp
  obtain ⟨value, hvalue, hp⟩ := bind_ok.mp hname
  obtain rfl := Except.ok.inj hp
  obtain ⟨hthere, hvalue⟩ := signed_value_ok hvalue
  obtain ⟨hne, htoken⟩ := token_of_get_all hnamed hthere
  rw [String.toList_ofList] at hne htoken
  refine ⟨hne, fun hmem => ?_, fun hmem => ?_, hvalue⟩
  · exact absurd (htoken _ hmem) (by decide)
  · exact absurd (htoken _ hmem) (by decide)

/-- The lines of the headers, one for each. -/
def header_lines (values : List (List Char × List Char)) : List (List Char) :=
  values.map fun p => p.1 ++ ':' :: p.2

/-- The lines of the headers can be told apart, since no value of a header has a line break. -/
theorem separable_header_lines {headers : HeaderMap} (hnamed : Named headers)
    {signed_headers : String} {values : List (List Char × List Char)}
    (h : signed_values headers signed_headers = .ok values) :
    Fields.Separable '\n' (header_lines values) := by
  intro line hline
  obtain ⟨p, hp, rfl⟩ := List.mem_map.mp hline
  obtain ⟨-, -, hname, hvalue⟩ := signed_values_ok hnamed h p hp
  refine ⟨List.append_ne_nil_of_right_ne_nil _ (List.cons_ne_nil _ _), fun hmem => ?_⟩
  rcases List.mem_append.mp hmem with hmem | hmem
  · exact hname hmem
  rcases List.mem_cons.mp hmem with heq | hmem
  · exact absurd heq (by decide)
  · exact hvalue hmem

/-- The names and values are determined by the lines. -/
theorem header_lines_inj {headers headers' : HeaderMap} (hnamed : Named headers)
    (hnamed' : Named headers') {signed_headers signed_headers' : String}
    {values values' : List (List Char × List Char)}
    (h : signed_values headers signed_headers = .ok values)
    (h' : signed_values headers' signed_headers' = .ok values')
    (hlines : header_lines values = header_lines values') : values = values' :=
  Fields.map_pair_inj (fun p hp => (signed_values_ok hnamed h p hp).2.1)
    (fun p hp => (signed_values_ok hnamed' h' p hp).2.1) hlines

/-! ## The canonical request determines the request -/

/-- A request whose signature is checked; `digest` is that of a body that was read first. -/
structure Signed where
  method : Method
  path : String
  query : List (String × String)
  headers : HeaderMap
  signed_headers : String
  digest : Option Bytes

namespace Signed

/-- What the `http` crate guarantees. -/
structure Valid (r : Signed) : Prop where
  method : '\n' ∉ (as_str r.method).toList
  path : '\n' ∉ r.path.toList
  names : Named r.headers

/-- The payload hashes that are tried, as `handle` calls the check. -/
def hashes (r : Signed) : List String :=
  payload_hashes r.method r.query r.headers
    (r.digest.map fun digest => String.ofList (Hex.encode digest))

/-- The text that is hashed with one of them. -/
def text (r : Signed) (payload_hash : String) : Except AuthError (List Char) :=
  canonical_request r.method r.path r.query r.headers r.signed_headers payload_hash

/-- The parameters that are signed. -/
def parameters (r : Signed) : List (String × String) :=
  signed_parameters r.query (presigned r.query)

end Signed

/-- A hexadecimal hash is one line. -/
theorem newline_not_mem_encode (bytes : Bytes) : '\n' ∉ Hex.encode bytes :=
  fun hmem => absurd (Hex.isDigit_of_mem_encode _ hmem) (by decide)

/-- No payload hash has a line break. -/
theorem newline_not_mem_hashes (r : Signed) {payload_hash : String} (h : payload_hash ∈ r.hashes) :
    '\n' ∉ payload_hash.toList := by
  have hunsigned : '\n' ∉ "UNSIGNED-PAYLOAD".toList := by decide
  have hdefault : '\n' ∉ (default_payload_hash r.method r.query).toList := by
    unfold default_payload_hash
    split
    · exact hunsigned
    · split
      · decide
      · exact hunsigned
  rcases List.mem_cons.mp h with rfl | h
  · unfold Auth.payload_hash
    cases htext : r.headers.text "x-amz-content-sha256" with
    | some text =>
        obtain ⟨value, -, hto⟩ := Option.bind_eq_some_iff.mp htext
        exact newline_not_mem_to_str hto
    | none =>
        cases r.digest with
        | none => exact hdefault
        | some digest =>
            dsimp only [Option.map_some, Option.or_some, Option.none_or, Option.getD_some]
            rw [String.toList_ofList]
            exact newline_not_mem_encode digest
  · split at h
    · rw [List.mem_singleton.mp h]
      exact hunsigned
    · cases h

/-- And so is a path without a line break. -/
theorem newline_not_mem_canonical_uri {path : String} (h : '\n' ∉ path.toList) :
    '\n' ∉ (canonical_uri path).toList := by
  unfold canonical_uri
  split
  · decide
  · exact h

/-- The fields of the text, one by one. -/
theorem text_eq {r : Signed} {payload_hash : String} {values : List (List Char × List Char)}
    {text : List Char} (hvalues : signed_values r.headers r.signed_headers = .ok values)
    (htext : r.text payload_hash = .ok text) :
    text = (as_str r.method).toList ++ '\n' :: ((canonical_uri r.path).toList ++ '\n' ::
      (canonical_query r.query (presigned r.query) ++ '\n' ::
        (['\n'].intercalate (header_lines values) ++ '\n' :: '\n' ::
          (r.signed_headers.toList ++ '\n' :: payload_hash.toList)))) := by
  obtain ⟨canonical, hcanonical, h⟩ := bind_ok.mp htext
  obtain ⟨values', hvalues', hlines⟩ := bind_ok.mp hcanonical
  rw [hvalues] at hvalues'
  obtain rfl := Except.ok.inj hvalues'
  obtain rfl := Except.ok.inj hlines
  exact (Except.ok.inj h).symm

/-- **The text that is hashed determines what was signed**, but for an empty path, which counts
as `/`; and no two byte strings have the same encoding. -/
theorem canonical_request_eq_iff (r r' : Signed) (payload payload' : String)
    (values values' : List (List Char × List Char)) (text text' : List Char)
    (hvalid : r.Valid) (hvalid' : r'.Valid) (hpayload : payload ∈ r.hashes)
    (hpayload' : payload' ∈ r'.hashes)
    (hvalues : signed_values r.headers r.signed_headers = .ok values)
    (hvalues' : signed_values r'.headers r'.signed_headers = .ok values')
    (htext : r.text payload = .ok text) (htext' : r'.text payload' = .ok text') :
    Function.Injective encode_bytes
      ∧ (text = text' ↔
        as_str r.method = as_str r'.method ∧ canonical_uri r.path = canonical_uri r'.path
          ∧ r.parameters.Perm r'.parameters ∧ r.signed_headers = r'.signed_headers
          ∧ values = values' ∧ payload = payload') := by
  refine ⟨encode_bytes_injective, ?_⟩
  rw [text_eq hvalues htext, text_eq hvalues' htext']
  constructor
  · intro h
    -- the first three fields have no line break
    obtain ⟨hmethod, h⟩ := Fields.append_cons_inj hvalid.method hvalid'.method h
    obtain ⟨hpath, h⟩ := Fields.append_cons_inj (newline_not_mem_canonical_uri hvalid.path)
      (newline_not_mem_canonical_uri hvalid'.path) h
    obtain ⟨hquery, h⟩ := Fields.append_cons_inj (newline_not_mem_canonical_query _ _)
      (newline_not_mem_canonical_query _ _) h
    -- the headers end at the first empty line, the list of names at the last line break
    obtain ⟨hlines, h⟩ := Fields.block_inj (separable_header_lines hvalid.names hvalues)
      (separable_header_lines hvalid'.names hvalues') h
    obtain ⟨hnames, hhash⟩ := Fields.append_cons_inj_right (newline_not_mem_hashes r hpayload)
      (newline_not_mem_hashes r' hpayload') h
    refine ⟨String.toList_inj.mp hmethod, String.toList_inj.mp hpath,
      canonical_query_eq_iff.mp hquery, String.toList_inj.mp hnames, ?_,
      String.toList_inj.mp hhash⟩
    exact header_lines_inj hvalid.names hvalid'.names hvalues hvalues' hlines
  · rintro ⟨hmethod, hpath, hquery, hnames, rfl, rfl⟩
    rw [hmethod, hpath, hnames, canonical_query_eq_iff.mpr hquery]

/-! ## Two requests -/

/-- A GET of an object, with one signed header. -/
def sample_signed : Signed where
  method := .GET
  path := "/b/k"
  query := [("x", "1"), ("a", "&")]
  headers := { entries := [("host", ascii "s3.test")] }
  signed_headers := "host"
  digest := none

/-- The same request with its parameters the other way round. -/
def turned_signed : Signed := { sample_signed with query := [("a", "&"), ("x", "1")] }

def empty_hash : String := "e3b0c44298fc1c149afbf4c8996fb92427ae41e4649b934ca495991b7852b855"

def sample_values : List (List Char × List Char) := [("host".toList, "s3.test".toList)]

/-- Two requests that differ in the order of their parameters have one text. -/
theorem canonical_request_eq_turned :
    ∃ text, sample_signed.text empty_hash = .ok text ∧ turned_signed.text empty_hash = .ok text := by
  have hvalid : sample_signed.Valid := ⟨by decide, by decide, by decide⟩
  have hvalid' : turned_signed.Valid := ⟨by decide, by decide, by decide⟩
  have hok : (sample_signed.text empty_hash).isOk = true
      ∧ (turned_signed.text empty_hash).isOk = true := by decide
  cases htext : sample_signed.text empty_hash with
  | error e =>
      rw [htext] at hok
      cases hok.1
  | ok text =>
      cases htext' : turned_signed.text empty_hash with
      | error e =>
          rw [htext'] at hok
          cases hok.2
      | ok text' =>
          refine ⟨text, rfl, ?_⟩
          rw [(canonical_request_eq_iff sample_signed turned_signed empty_hash empty_hash
            sample_values sample_values text text' hvalid hvalid' (by decide) (by decide)
            (by decide) (by decide) htext htext').2.mpr
            ⟨rfl, rfl, by decide, rfl, rfl, rfl⟩]

/-- The request on another path. -/
def on_path (path : String) : Signed := { sample_signed with path := path }

/-- **An empty path is signed as `/`**: two paths with one text. -/
theorem empty_path_signed_as_slash :
    (on_path "").Valid ∧ (on_path "/").Valid
      ∧ signed_values (on_path "").headers (on_path "").signed_headers = .ok sample_values
      ∧ signed_values (on_path "/").headers (on_path "/").signed_headers = .ok sample_values
      ∧ empty_hash ∈ (on_path "").hashes ∧ empty_hash ∈ (on_path "/").hashes
      ∧ ((on_path "").text empty_hash).isOk = true
      ∧ (on_path "").text empty_hash = (on_path "/").text empty_hash
      ∧ (on_path "").path ≠ (on_path "/").path := by
  refine ⟨⟨by decide, by decide, by decide⟩, ⟨by decide, by decide, by decide⟩, by decide,
    by decide, by decide, by decide, by decide, by decide, by decide⟩

end Tg2s3.Auth
