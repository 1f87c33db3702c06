/-
`src/model.rs`: the records the layers of the server hand to each other, ETag
normalisation and the write conditions.

An `i64` column is an `Int`; where the program relies on the width of the
machine integer (`checked_add`, parsing, `saturating_sub`) the definition says
so. Text is `String`, and the functions that look inside it work on its list of
characters. `metadata_json` is kept as the record it encodes.
-/
import Mathlib.Data.List.Basic
import Mathlib.Tactic.Common
import Tg2s3.Lib.Prefixes

set_option autoImplicit false

namespace Tg2s3

/-! ## Records -/

inductive TelegramBackend
  | bot_api
  | grammers
  deriving DecidableEq, Repr

structure ObjectMetadata where
  content_type : Option String := none
  content_disposition : Option String := none
  content_encoding : Option String := none
  cache_control : Option String := none
  expires : Option String := none
  user : List (String × String) := []
  deriving DecidableEq, Repr

structure CorsConfiguration where
  allowed_origins : List String
  allowed_methods : List String
  allowed_headers : List String
  expose_headers : List String
  max_age_seconds : ℕ
  deriving DecidableEq, Repr

structure BlockRef where
  id : Int
  ordinal : Int
  offset : Int
  size : Int
  chat_id : Int
  message_id : Int
  backend : TelegramBackend
  document_id : Option Int
  file_id : String
  file_unique_id : String
  message_date : Int
  deriving DecidableEq, Repr

structure ObjectRecord where
  id : Int
  bucket : String
  key : String
  size : Int
  etag : String
  metadata : ObjectMetadata
  created_at : Int
  modified_at : Int
  blocks : List BlockRef
  deriving DecidableEq, Repr

/-- What created the upload row; the column is the text `put` or `multipart`. -/
inductive UploadKind
  | put
  | multipart
  deriving DecidableEq, Repr

structure UploadRecord where
  upload_id : String
  bucket : String
  key : String
  metadata : ObjectMetadata
  kind : UploadKind
  created_at : Int
  deriving DecidableEq, Repr

structure PartRecord where
  upload_id : String
  part_number : Int
  size : Int
  etag : String
  blocks : List BlockRef
  deriving DecidableEq, Repr

structure GarbageRecord where
  block_id : Int
  chat_id : Int
  message_id : Int
  backend : TelegramBackend
  document_id : Option Int
  file_id : String
  file_unique_id : String
  message_date : Int
  attempts : Int
  next_attempt : Int
  last_error : Option String
  deriving DecidableEq, Repr

def GarbageRecord.as_block_ref (g : GarbageRecord) : BlockRef where
  id := g.block_id
  ordinal := 0
  offset := 0
  size := 0
  chat_id := g.chat_id
  message_id := g.message_id
  backend := g.backend
  document_id := g.document_id
  file_id := g.file_id
  file_unique_id := g.file_unique_id
  message_date := g.message_date

structure ListingRecord where
  key : String
  size : Int
  etag : String
  modified_at : Int
  deriving DecidableEq, Repr

/-! ## Text -/

/-- `char::is_whitespace`: the Unicode `White_Space` property. -/
def is_whitespace (c : Char) : Bool :=
  let n := c.toNat
  (9 ≤ n && n ≤ 13) || n = 32 || n = 0x85 || n = 0xA0 || n = 0x1680
    || (0x2000 ≤ n && n ≤ 0x200A) || n = 0x2028 || n = 0x2029 || n = 0x202F || n = 0x205F
    || n = 0x3000

/-- `str::trim_matches` for a predicate on characters. -/
def trim_matches (p : Char → Bool) (s : List Char) : List Char :=
  ((s.dropWhile p).reverse.dropWhile p).reverse

def normalize_etag (value : String) : String :=
  String.ofList (trim_matches (· = '"') (trim_matches is_whitespace value.toList))

def from_u32 (n : ℕ) : Option Char := if n.isValidChar then some (Char.ofNat n) else none

/-- The code point after this one, over the gap of the surrogates. -/
def next_char (last : Char) : Option Char :=
  let next := last.toNat + 1
  from_u32 (if 0xD800 ≤ next ∧ next ≤ 0xDFFF then 0xE000 else next)

/-- The least string above every string that starts with this one. -/
def key_successor (value : String) : Option String :=
  (Prefixes.upper next_char value.toList).map String.ofList

example : key_successor "aaa/" = some "aaa0" := by decide

/-! ## Conditions -/

structure ObjectCondition where
  if_match : Option String := none
  if_none_match : Option String := none
  deriving DecidableEq, Repr

def etag_matches (value : String) : Option String → Bool
  | none => false
  | some etag =>
      value = "*"
        || (value.toList.splitOn ',').any (fun candidate =>
              normalize_etag (String.ofList candidate) = etag)

/-- Whether a write may go ahead on an object with this ETag (`none`: on no
object at all). -/
def ObjectCondition.allows (condition : ObjectCondition) (etag : Option String) : Bool :=
  (match condition.if_match with
    | some value => etag_matches value etag
    | none => true)
  && (match condition.if_none_match with
    | some value => !etag_matches value etag
    | none => true)

/-- `If-None-Match: *` holds exactly where there is no object. -/
theorem allows_create_only (etag : Option String) :
    ({ if_none_match := some "*" } : ObjectCondition).allows etag = etag.isNone := by
  cases etag <;> simp [ObjectCondition.allows, etag_matches]

@[simp] theorem allows_default (etag : Option String) :
    ({} : ObjectCondition).allows etag = true := rfl

example : ({ if_match := some "\"one\", \"two\"" } : ObjectCondition).allows (some "one") = true := by
  decide

example :
    ({ if_match := some "\"one\", \"two\"" } : ObjectCondition).allows (some "three") = false := by
  decide

end Tg2s3
