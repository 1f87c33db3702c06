/-
`src/s3/object.rs`, `src/s3.rs`: GET and HEAD of an object.

The interval comes from the Range header, and the response says it three times: in
Content-Length, in Content-Range, and in the bytes of the body. The headers are computed
from the pair of positions, the body is streamed from the blocks, so they agree when the
pair lies in the object. `RangePlain` says when it does, and when the header is taken for
what it says; a header that is not visible ASCII is taken for none.

HTTP dates belong to another crate and are parameters, in seconds; waiting for admission is
left out.
-/
import Mathlib
import Tg2s3.Download
import Tg2s3.S3.Range

set_option autoImplicit false

namespace Tg2s3.S3

open Slices Download

/-! ## Header values -/

/-- The bytes of a string. -/
def utf8 (s : String) : HeaderValue := s.toList.flatMap String.utf8EncodeChar

/-- `HeaderValue::from_str(..).ok()`. -/
def from_str (value : String) : Option HeaderValue :=
  if (utf8 value).all (fun b => (32 ≤ b && b ≠ 127) || b = 9) then some (utf8 value) else none

/-- `HeaderMap::insert`: the value takes the place of all values of this name. -/
def HeaderMap.insert (headers : HeaderMap) (name : String) (value : HeaderValue) : HeaderMap where
  entries := headers.entries.filter (·.1 ≠ name) ++ [(name, value)]

def insert_header (headers : HeaderMap) (name value : String) : HeaderMap :=
  match from_str value with
  | some value => headers.insert name value
  | none => headers

/-- A character of a token. -/
def is_token (c : Char) : Bool := c.isAlphanum || c ∈ "!#$%&'*+-.^_`|~".toList

/-- `HeaderName::from_bytes(..).ok()`. -/
def header_name (name : String) : Option String :=
  if name ≠ "" ∧ name.toList.all is_token = true then
    some (String.ofList (name.toList.map Char.toLower))
  else none

def insert_dynamic_header (headers : HeaderMap) (name value : String) : HeaderMap :=
  match header_name name, from_str value with
  | some name, some value => headers.insert name value
  | _, _ => headers

def insert_optional (headers : HeaderMap) (name : String) : Option String → HeaderMap
  | some value => insert_header headers name value
  | none => headers

/-! ## The handler -/

structure Response where
  status : ℕ
  headers : HeaderMap
  body : Download.Stream
  deriving DecidableEq

section Handler

variable (fmt_http_date : Int → String) (parse_http_date : String → Option Int)

def object_headers (object : ObjectRecord) (length start stop : Int) (partial_content : Bool) :
    HeaderMap :=
  let headers := insert_header {} "etag" (quoted object.etag)
  let headers := insert_header headers "last-modified" (fmt_http_date (max object.modified_at 0))
  let headers := insert_header headers "content-length" (toString length)
  let headers := insert_header headers "accept-ranges" "bytes"
  let headers := insert_header headers "content-type"
    (object.metadata.content_type.getD "application/octet-stream")
  let headers := insert_optional headers "content-disposition" object.metadata.content_disposition
  let headers := insert_optional headers "content-encoding" object.metadata.content_encoding
  let headers := insert_optional headers "cache-control" object.metadata.cache_control
  let headers := insert_optional headers "expires" object.metadata.expires
  let headers := object.metadata.user.foldl
    (fun headers entry => insert_dynamic_header headers ("x-amz-meta-" ++ entry.1) entry.2) headers
  if partial_content then
    insert_header headers "content-range"
      ("bytes " ++ toString start ++ "-" ++ toString stop ++ "/" ++ toString object.size)
  else headers

/-- The dates count only where the ETag condition of the same kind is absent. -/
def check_conditions (object : ObjectRecord) (headers : HeaderMap) : Except S3Error Unit := do
  match headers.text "if-match" with
  | some value =>
      ensure (value = "*" ∨ lists_etag value object.etag = true) .precondition_failed
  | none => pure ()
  match headers.text "if-none-match" with
  | some value =>
      ensure (¬ (value = "*" ∨ lists_etag value object.etag = true)) .not_modified
  | none => pure ()
  if headers.contains_key "if-match" = false then
    match (headers.text "if-unmodified-since").bind parse_http_date with
    | some timestamp => ensure (¬ timestamp < max object.modified_at 0) .precondition_failed
    | none => pure ()
  if headers.contains_key "if-none-match" = false then
    match (headers.text "if-modified-since").bind parse_http_date with
    | some timestamp => ensure (¬ max object.modified_at 0 ≤ timestamp) .not_modified
    | none => pure ()

/-- The handler, with what `Engine::get_object` returned. -/
def get_object (telegram : Telegram) (load : Except DbError ObjectRecord) (headers : HeaderMap)
    (head_only : Bool) : Except S3Error Response := do
  let object ← load.mapError S3Error.engine
  check_conditions parse_http_date object headers
  let (start, stop, partial_content) ← parse_range (headers.text "range") object.size
  let response_headers := object_headers fmt_http_date object
    (saturating_add (saturating_sub stop start) 1) start stop partial_content
  pure
    { status := if partial_content then 206 else 200
      headers :=
        if object.size = 0 then response_headers.insert "content-length" (ascii "0")
        else response_headers
      body :=
        if head_only ∨ object.size = 0 then []
        else range_stream telegram object.blocks start stop }

end Handler

/-! ## What the headers of the response are -/

/-- A header that was inserted is found under its name. -/
theorem get_insert (headers : HeaderMap) (name n : String) (value : HeaderValue) :
    (headers.insert name value).get n = if name = n then some value else headers.get n := by
  unfold HeaderMap.get HeaderMap.get_all HeaderMap.insert
  rw [List.filter_append, List.map_append, List.filter_filter]
  by_cases h : name = n
  · subst h
    simp
  · have hkept : headers.entries.filter (fun e => decide (e.1 = n) && decide (e.1 ≠ name))
        = headers.entries.filter fun e => decide (e.1 = n) := by
      refine List.filter_congr (fun e _ => ?_)
      by_cases he : e.1 = n
      · simp [he, Ne.symm h]
      · simp [he]
    rw [hkept]
    simp [h]

/-- Under another name nothing changes. -/
theorem get_insert_header (headers : HeaderMap) {name n : String} (value : String)
    (h : name ≠ n) : (insert_header headers name value).get n = headers.get n := by
  unfold insert_header
  cases from_str value with
  | none => rfl
  | some value =>
      dsimp only
      rw [get_insert, if_neg h]

/-- Nor if there is nothing to insert. -/
theorem get_insert_optional (headers : HeaderMap) {name n : String} (value : Option String)
    (h : name ≠ n) : (insert_optional headers name value).get n = headers.get n := by
  cases value with
  | none => rfl
  | some value => exact get_insert_header headers value h

/-- A header of user metadata is none of the headers of the object. -/
theorem get_insert_user (headers : HeaderMap) {n : String} (key value : String)
    (hn : n.toList.head? ≠ some 'x') :
    (insert_dynamic_header headers ("x-amz-meta-" ++ key) value).get n = headers.get n := by
  unfold insert_dynamic_header
  cases hname : header_name ("x-amz-meta-" ++ key) with
  | none => rfl
  | some name =>
      cases from_str value with
      | none => rfl
      | some value =>
          dsimp only
          rw [get_insert, if_neg ?_]
          rintro rfl
          unfold header_name at hname
          split_ifs at hname
          rw [← Option.some.inj hname, String.toList_ofList, String.toList_append] at hn
          exact hn rfl

/-- The headers of the user begin with an x, so that no other name is touched by them. -/
theorem get_user_headers (headers : HeaderMap) {n : String} (user : List (String × String))
    (hn : n.toList.head? ≠ some 'x') :
    (user.foldl (fun headers entry =>
      insert_dynamic_header headers ("x-amz-meta-" ++ entry.1) entry.2) headers).get n
      = headers.get n := by
  induction user generalizing headers with
  | nil => rfl
  | cons entry user ih => rw [List.foldl_cons, ih, get_insert_user headers _ _ hn]

/-- Visible ASCII and blanks. -/
def Printable (s : List Char) : Prop := ∀ c ∈ s, 32 ≤ c.toNat ∧ c.toNat < 127

/-- Printable is what has only visible ASCII characters, which can be decided. -/
theorem printable_of_all {s : List Char}
    (h : s.all (fun c => 32 ≤ c.toNat && c.toNat < 127) = true) : Printable s := by
  intro c hc
  simpa using List.all_eq_true.mp h c hc

/-- Two printable texts make one. -/
theorem Printable.append {s t : List Char} (hs : Printable s) (ht : Printable t) :
    Printable (s ++ t) := by
  intro c hc
  rcases List.mem_append.mp hc with hc | hc
  · exact hs c hc
  · exact ht c hc

/-- Printable texts have one byte for each character. -/
theorem utf8_of_printable {s : String} (h : Printable s.toList) : utf8 s = ascii s := by
  unfold utf8 ascii
  generalize s.toList = l at h
  induction l with
  | nil => rfl
  | cons c l ih =>
      have hc := h c List.mem_cons_self
      have hchar : String.utf8EncodeChar c = [UInt8.ofNat c.toNat] := by
        unfold String.utf8EncodeChar
        have : c.val.toNat = c.toNat := rfl
        dsimp only
        rw [this, if_pos (by omega)]
      rw [List.flatMap_cons, List.map_cons, hchar, ih fun c hc => h c (List.mem_cons_of_mem _ hc)]
      rfl

/-- And the byte has the number of the character. -/
theorem ofNat_printable {c : Char} (h : 32 ≤ c.toNat ∧ c.toNat < 127) :
    (UInt8.ofNat c.toNat).toNat = c.toNat := by
  rw [UInt8.toNat_ofNat']
  omega

/-- So they can be sent as a header. -/
theorem from_str_of_printable {s : String} (h : Printable s.toList) :
    from_str s = some (ascii s) := by
  unfold from_str
  rw [utf8_of_printable h, if_pos]
  rw [List.all_eq_true]
  intro b hb
  obtain ⟨c, hc, rfl⟩ := List.mem_map.mp hb
  have hrange := h c hc
  have hnat := ofNat_printable hrange
  have h₁ : (32 : UInt8) ≤ UInt8.ofNat c.toNat := by
    rw [UInt8.le_iff_toNat_le, hnat]
    exact hrange.1
  have h₂ : UInt8.ofNat c.toNat ≠ 127 := by
    intro heq
    have := congrArg UInt8.toNat heq
    rw [hnat] at this
    have h127 : (127 : UInt8).toNat = 127 := rfl
    omega
  simp [h₁, h₂]

/-- A number is printable. -/
theorem printable_nat (n : ℕ) : Printable n.repr.toList := by
  intro c hc
  rw [Nat.toList_repr] at hc
  have hdigit := Nat.isDigit_of_mem_toDigits (by decide) (by decide) hc
  rw [Char.isDigit_iff_toNat] at hdigit
  have hzero : '0'.toNat = 48 := rfl
  have hnine : '9'.toNat = 57 := rfl
  omega

/-- With its sign as well. -/
theorem printable_int (n : Int) : Printable (toString n).toList := by
  cases n with
  | ofNat m => exact printable_nat m
  | negSucc m =>
      have htext : toString (Int.negSucc m) = "-" ++ (m + 1).repr := rfl
      rw [htext, String.toList_append]
      exact (printable_of_all (by decide)).append (printable_nat _)

section ObjectHeaders

variable (fmt_http_date : Int → String) (object : ObjectRecord) (length start stop : Int)

/-- The length is the one that was computed from the range; no later header replaces it. -/
theorem content_length_object_headers (partial_content : Bool) :
    (object_headers fmt_http_date object length start stop partial_content).get "content-length"
      = some (ascii (toString length)) := by
  have hvalue := from_str_of_printable (printable_int length)
  have hinsert : ∀ headers : HeaderMap,
      (insert_header headers "content-length" (toString length)).get "content-length"
        = some (ascii (toString length)) := by
    intro headers
    unfold insert_header
    rw [hvalue]
    dsimp only
    rw [get_insert, if_pos rfl]
  unfold object_headers
  dsimp only
  split_ifs
  · rw [get_insert_header _ _ (by decide), get_user_headers _ _ (by decide),
      get_insert_optional _ _ (by decide), get_insert_optional _ _ (by decide),
      get_insert_optional _ _ (by decide), get_insert_optional _ _ (by decide),
      get_insert_header _ _ (by decide), get_insert_header _ _ (by decide), hinsert]
  · rw [get_user_headers _ _ (by decide),
      get_insert_optional _ _ (by decide), get_insert_optional _ _ (by decide),
      get_insert_optional _ _ (by decide), get_insert_optional _ _ (by decide),
      get_insert_header _ _ (by decide), get_insert_header _ _ (by decide), hinsert]

/-- The text of Content-Range. -/
def content_range (start stop size : Int) : String :=
  "bytes " ++ toString start ++ "-" ++ toString stop ++ "/" ++ toString size

/-- And a range that was asked for is named with the size of the whole. -/
theorem content_range_object_headers :
    (object_headers fmt_http_date object length start stop true).get "content-range"
      = some (ascii (content_range start stop object.size)) := by
  have hprintable : Printable (content_range start stop object.size).toList := by
    unfold content_range
    simp only [String.toList_append]
    exact (((((printable_of_all (by decide)).append (printable_int start)).append
      (printable_of_all (by decide))).append (printable_int stop)).append
      (printable_of_all (by decide))).append (printable_int object.size)
  unfold object_headers
  dsimp only
  rw [if_pos rfl]
  unfold insert_header
  change HeaderMap.get (match from_str (content_range start stop object.size) with
    | some value => HeaderMap.insert _ _ value | none => _) _ = _
  rw [from_str_of_printable hprintable]
  dsimp only
  rw [get_insert, if_pos rfl]

end ObjectHeaders

/-! ## Texts and bytes of a header -/

/-- What was sent as a header is read back as it was. -/
theorem to_str_ascii {s : String} (h : Printable s.toList) : to_str (ascii s) = some s := by
  have hall : (ascii s).all (fun b => (32 ≤ b && b < 127) || b = 9) = true := by
    rw [List.all_eq_true]
    intro b hb
    obtain ⟨c, hc, rfl⟩ := List.mem_map.mp hb
    have hrange := h c hc
    have hnat := ofNat_printable hrange
    have h₁ : (32 : UInt8) ≤ UInt8.ofNat c.toNat := by
      rw [UInt8.le_iff_toNat_le, hnat]
      exact hrange.1
    have h₂ : UInt8.ofNat c.toNat < 127 := by
      rw [UInt8.lt_iff_toNat_lt, hnat]
      exact hrange.2
    simp [h₁, h₂]
  have hback : (ascii s).map (fun b => Char.ofNat b.toNat) = s.toList := by
    unfold ascii
    rw [List.map_map]
    refine (List.map_congr_left (fun c hc => ?_)).trans (List.map_id _)
    dsimp only [Function.comp_apply, id_eq]
    rw [ofNat_printable (h c hc), Char.ofNat_toNat]
  unfold to_str
  rw [if_pos hall, hback, String.ofList_toList]

/-- A value that reads as a text is this text. -/
theorem eq_ascii_of_to_str {value : HeaderValue} {s : String} (h : to_str value = some s) :
    value = ascii s := by
  unfold to_str at h
  split_ifs at h with hall
  rw [← Option.some.inj h]
  unfold ascii
  rw [String.toList_ofList, List.map_map]
  refine ((List.map_id _).symm.trans (List.map_congr_left (fun b _ => ?_)))
  have hb : b.toNat < 256 := b.toNat_lt
  have hvalid : b.toNat.isValidChar := Or.inl (by omega)
  dsimp only [Function.comp_apply, id_eq]
  rw [Char.ofNat, dif_pos hvalid]
  exact UInt8.ofNat_toNat.symm

/-- With the same bytes. -/
theorem utf8_of_to_str {value : HeaderValue} {s : String} (h : to_str value = some s) :
    utf8 s = value := by
  unfold to_str at h
  split_ifs at h with hall
  have hlt : ∀ b ∈ value, b.toNat < 128 := by
    intro b hb
    have hbyte := List.all_eq_true.mp hall b hb
    simp only [Bool.or_eq_true, Bool.and_eq_true, decide_eq_true_eq] at hbyte
    rcases hbyte with ⟨-, hbyte⟩ | rfl
    · have hnat : b.toNat < 127 := UInt8.lt_iff_toNat_lt.mp hbyte
      omega
    · decide
  obtain rfl := Option.some.inj h
  unfold utf8
  rw [String.toList_ofList, List.flatMap_map]
  refine (List.flatMap_congr fun b hb => ?_).trans (List.flatMap_singleton' value)
  have hnat : (Char.ofNat b.toNat).val.toNat = b.toNat :=
    Char.toNat_ofNat b.toNat |>.trans (if_pos (Or.inl (by have := hlt b hb; omega)))
  unfold String.utf8EncodeChar
  dsimp only
  rw [hnat, if_pos (by have := hlt b hb; omega), UInt8.ofNat_toNat]

/-- The text of a request header is sent back as it came. -/
theorem from_str_of_to_str {value : HeaderValue} {s : String} (h : to_str value = some s) :
    from_str s = some value := by
  unfold from_str
  rw [utf8_of_to_str h, if_pos]
  unfold to_str at h
  split_ifs at h with hall
  rw [List.all_eq_true] at hall ⊢
  intro b hb
  have hbyte := hall b hb
  simp only [Bool.or_eq_true, Bool.and_eq_true, decide_eq_true_eq] at hbyte ⊢
  refine hbyte.imp (fun h => ⟨h.1, ?_⟩) id
  rintro rfl
  exact absurd h.2 (by decide)

/-- The texts of the grammar are printable. -/
theorem RangeForm.printable {size : Int} {value : List Char} {lo hi : Int}
    (h : RangeForm size value lo hi) : Printable value := by
  have hdigits : ∀ s : List Char, Digits s → Printable s := by
    intro s hs c hc
    have := List.all_eq_true.mp hs.2 c hc
    unfold is_digit at this
    rw [Bool.and_eq_true, decide_eq_true_eq, decide_eq_true_eq] at this
    have h₁ : '0'.toNat ≤ c.toNat := this.1
    have h₂ : c.toNat ≤ '9'.toNat := this.2
    have hzero : '0'.toNat = 48 := rfl
    have hnine : '9'.toNat = 57 := rfl
    omega
  have hstart : Printable "bytes=".toList := printable_of_all (by decide)
  have hhyphen : Printable ['-'] := printable_of_all (by decide)
  cases h with
  | closed ha hb => exact hstart.append ((hdigits _ ha).append (hhyphen.append (hdigits _ hb)))
  | from_start ha => exact hstart.append ((hdigits _ ha).append hhyphen)
  | suffix hn => exact hstart.append (hhyphen.append (hdigits _ hn))

/-! ## The claim on a request -/

/-- The bytes of a header that ask for `lo`, .., `hi`. -/
def AsksFor (size : Int) (value : HeaderValue) (lo hi : Int) : Prop :=
  ∃ text : String, value = ascii text ∧ RangeForm size text.toList lo hi

/-- The interval the handler computes. -/
def interval (object : ObjectRecord) (headers : HeaderMap) :
    Except S3Error (Int × Int × Bool) :=
  parse_range (headers.text "range") object.size

section Consistent

variable (fmt_http_date : Int → String) (parse_http_date : String → Option Int)

/-- **GET and HEAD are consistent**: the interval lies in the object and is the one the
header asks for, anything else is refused, and Content-Length, Content-Range and the body
have its length. -/
structure Consistent (telegram : Telegram) (object : ObjectRecord) (headers : HeaderMap) : Prop where
  bounds (lo hi : Int) (partial_content : Bool) :
    interval object headers = .ok (lo, hi, partial_content) →
      0 ≤ lo ∧ lo ≤ hi ∧ hi ≤ object.size - 1
  whole : headers.get "range" = none → interval object headers = .ok (0, object.size - 1, false)
  asked (value : HeaderValue) (lo hi : Int) : headers.get "range" = some value →
    AsksFor object.size value lo hi → interval object headers = .ok (lo, hi, true)
  rejected (value : HeaderValue) : headers.get "range" = some value →
    (¬ ∃ lo hi, AsksFor object.size value lo hi) →
      interval object headers = .error .invalid_range
        ∧ ∀ head_only, check_conditions parse_http_date object headers = .ok () →
          get_object fmt_http_date parse_http_date telegram (.ok object) headers head_only
            = .error .invalid_range
  lengths (head_only : Bool) (response : Response) :
    get_object fmt_http_date parse_http_date telegram (.ok object) headers head_only
      = .ok response →
      ∃ lo hi partial_content, interval object headers = .ok (lo, hi, partial_content)
        ∧ response.status = (if partial_content then 206 else 200)
        ∧ response.headers.get "content-length" = some (ascii (toString (hi - lo + 1)))
        ∧ (partial_content = true → response.headers.get "content-range"
            = some (ascii (content_range lo hi object.size)))
        ∧ (head_only = false → ∃ bytes, collect response.body = .ok bytes
            ∧ (bytes.length : Int) = hi - lo + 1)

end Consistent

/-- The Range header is absent, or it is visible ASCII and its ends are plain. -/
def RangePlain (size : Int) : Option HeaderValue → Prop
  | none => True
  | some value => ∃ text, to_str value = some text
      ∧ ∀ start stop, range_ends text.toList = some (start, stop) → Plain start stop size

/-! ## The exact condition -/

section Exact

variable {fmt_http_date : Int → String} {parse_http_date : String → Option Int}
  {telegram : Telegram} {object : ObjectRecord} {headers : HeaderMap}

/-- An answer has passed the conditions, and carries the interval. -/
theorem get_object_ok {head_only : Bool} {response : Response}
    (h : get_object fmt_http_date parse_http_date telegram (.ok object) headers head_only
      = .ok response) :
    ∃ start stop partial_content, interval object headers = .ok (start, stop, partial_content)
      ∧ response.status = (if partial_content then 206 else 200)
      ∧ response.headers = (if object.size = 0 then
          (object_headers fmt_http_date object (saturating_add (saturating_sub stop start) 1) start
            stop partial_content).insert "content-length" (ascii "0")
        else object_headers fmt_http_date object (saturating_add (saturating_sub stop start) 1)
          start stop partial_content)
      ∧ response.body = (if head_only ∨ object.size = 0 then []
        else range_stream telegram object.blocks start stop) := by
  unfold get_object at h
  obtain ⟨loaded, hload, h⟩ := bind_ok.mp h
  obtain rfl := Except.ok.inj hload
  obtain ⟨-, -, h⟩ := bind_ok.mp h
  obtain ⟨⟨start, stop, partial_content⟩, hrange, h⟩ := bind_ok.mp h
  obtain rfl := Except.ok.inj h
  exact ⟨start, stop, partial_content, hrange, rfl, rfl, rfl⟩

/-- If the conditions allow the request, a range that is refused is the answer. -/
theorem get_object_error {head_only : Bool} {e : S3Error}
    (hconditions : check_conditions parse_http_date object headers = .ok ())
    (hinterval : interval object headers = .error e) :
    get_object fmt_http_date parse_http_date telegram (.ok object) headers head_only
      = .error e := by
  unfold interval at hinterval
  unfold get_object
  simp only [Except.mapError, bind, Except.bind, hconditions, hinterval]

/-- An interval in the object has one length in all three places. -/
theorem lengths_of_bounds {content : Bytes} (hstored : Stored telegram 0 object.blocks content)
    (hlength : (content.length : Int) = object.size) (hmax : object.size ≤ i64_max)
    (hsize : 0 < object.size) {lo hi : Int} {partial_content head_only : Bool} {response : Response}
    (hinterval : interval object headers = .ok (lo, hi, partial_content))
    (hbounds : 0 ≤ lo ∧ lo ≤ hi ∧ hi ≤ object.size - 1)
    (h : get_object fmt_http_date parse_http_date telegram (.ok object) headers head_only
      = .ok response) :
    response.status = (if partial_content then 206 else 200)
      ∧ response.headers.get "content-length" = some (ascii (toString (hi - lo + 1)))
      ∧ (partial_content = true → response.headers.get "content-range"
          = some (ascii (content_range lo hi object.size)))
      ∧ (head_only = false → ∃ bytes, collect response.body = .ok bytes
          ∧ (bytes.length : Int) = hi - lo + 1) := by
  obtain ⟨start, stop, p, hagain, hstatus, hheaders, hbody⟩ := get_object_ok h
  obtain ⟨rfl, hrest⟩ := Prod.mk.inj (Except.ok.inj (hinterval.symm.trans hagain))
  obtain ⟨rfl, rfl⟩ := Prod.mk.inj hrest
  have hspan : saturating_add (saturating_sub hi lo) 1 = hi - lo + 1 := by
    unfold saturating_add saturating_sub i64_min
    unfold i64_max at *
    omega
  rw [if_neg hsize.ne', hspan] at hheaders
  refine ⟨hstatus, ?_, fun hpartial => ?_, fun hget => ?_⟩
  · rw [hheaders]
    exact content_length_object_headers _ _ _ _ _ _
  · rw [hheaders, hpartial]
    exact content_range_object_headers _ _ _ _ _
  · have hread : ¬ (head_only = true ∨ object.size = 0) := by
      rw [hget]
      simp [hsize.ne']
    rw [hbody, if_neg hread, collect_range_stream hstored hbounds.2.1]
    refine ⟨_, rfl, ?_⟩
    rw [length_window]
    omega

/-- On a visible header the claim is that the function agrees with the grammar. -/
theorem consistent_iff_agrees {value : HeaderValue} {text : String}
    (hrange : headers.get "range" = some value) (htext : to_str value = some text)
    {content : Bytes} (hstored : Stored telegram 0 object.blocks content)
    (hlength : (content.length : Int) = object.size) (hmax : object.size ≤ i64_max)
    (hsize : 0 < object.size) :
    Consistent fmt_http_date parse_http_date telegram object headers
      ↔ Agrees text.toList object.size (interval object headers) := by
  have hform : ∀ lo hi, AsksFor object.size value lo hi ↔ RangeForm object.size text.toList lo hi := by
    intro lo hi
    constructor
    · rintro ⟨text', hvalue, h⟩
      rw [hvalue, to_str_ascii h.printable] at htext
      rwa [← Option.some.inj htext]
    · exact fun h => ⟨text, eq_ascii_of_to_str htext, h⟩
  constructor
  · intro h
    refine ⟨h.bounds, fun lo hi hf => h.asked value lo hi hrange ((hform lo hi).mpr hf), fun hno => ?_⟩
    refine (h.rejected value hrange ?_).1
    rintro ⟨lo, hi, hasks⟩
    exact hno ⟨lo, hi, (hform lo hi).mp hasks⟩
  · intro h
    refine ⟨h.bounds, fun hnone => ?_, fun value' lo hi hvalue' hasks => ?_,
      fun value' hvalue' hno => ?_,
      fun head_only response hresponse => ?_⟩
    · rw [hrange] at hnone
      cases hnone
    · obtain rfl := Option.some.inj (hrange.symm.trans hvalue')
      exact h.forms lo hi ((hform lo hi).mp hasks)
    · obtain rfl := Option.some.inj (hrange.symm.trans hvalue')
      have herror : interval object headers = .error .invalid_range := by
        refine h.rejected ?_
        rintro ⟨lo, hi, hf⟩
        exact hno ⟨lo, hi, (hform lo hi).mpr hf⟩
      exact ⟨herror, fun _ hconditions => get_object_error hconditions herror⟩
    · obtain ⟨lo, hi, partial_content, hinterval, -⟩ := get_object_ok hresponse
      exact ⟨lo, hi, partial_content, hinterval,
        lengths_of_bounds hstored hlength hmax hsize hinterval
          (h.bounds lo hi partial_content hinterval) hresponse⟩

/-- Without a header the whole object is the interval. -/
theorem consistent_of_none (hrange : headers.get "range" = none)
    {content : Bytes} (hstored : Stored telegram 0 object.blocks content)
    (hlength : (content.length : Int) = object.size) (hmax : object.size ≤ i64_max)
    (hsize : 0 < object.size) :
    Consistent fmt_http_date parse_http_date telegram object headers := by
  have hinterval : interval object headers = .ok (0, object.size - 1, false) := by
    unfold interval HeaderMap.text parse_range
    rw [hrange, if_neg hsize.ne']
    rfl
  refine ⟨fun lo hi partial_content h => ?_, fun _ => hinterval, fun value lo hi hvalue _ => ?_,
    fun value hvalue _ => ?_, fun head_only response hresponse => ?_⟩
  · obtain ⟨rfl, hrest⟩ := Prod.mk.inj (Except.ok.inj (hinterval.symm.trans h))
    obtain ⟨rfl, -⟩ := Prod.mk.inj hrest
    omega
  · rw [hrange] at hvalue
    cases hvalue
  · rw [hrange] at hvalue
    cases hvalue
  · exact ⟨0, object.size - 1, false, hinterval, lengths_of_bounds hstored hlength hmax hsize
      hinterval (by omega) hresponse⟩

end Exact

/-- **Range GET and HEAD are consistent** if and only if the header is plain. -/
theorem range_consistent (fmt_http_date : Int → String) (parse_http_date : String → Option Int)
    (telegram : Telegram) (object : ObjectRecord) (headers : HeaderMap) (hsize : 0 < object.size)
    (hlayout : validate_object_layout object = .ok ())
    (hholds : ∀ block ∈ object.blocks, ∃ content : Bytes,
      (content.length : Int) = block.size ∧ Holds telegram block content) :
    Consistent fmt_http_date parse_http_date telegram object headers
      ↔ RangePlain object.size (headers.get "range") := by
  obtain ⟨content, hstored, hlength, hmax⟩ := stored_of_layout hlayout hholds
  cases hrange : headers.get "range" with
  | none =>
      exact iff_of_true (consistent_of_none hrange hstored hlength hmax hsize) trivial
  | some value =>
      cases htext : to_str value with
      | none =>
          -- the header is taken for none, and no form has such bytes
          refine iff_of_false (fun h => ?_) ?_
          · have herror := (h.rejected value hrange ?_).1
            · unfold interval HeaderMap.text parse_range at herror
              rw [hrange, Option.bind_some, htext, if_neg hsize.ne'] at herror
              cases herror
            · rintro ⟨lo, hi, text, hvalue, hform⟩
              rw [hvalue, to_str_ascii hform.printable] at htext
              cases htext
          · rintro ⟨text, h, -⟩
            rw [htext] at h
            cases h
      | some text =>
          rw [consistent_iff_agrees hrange htext hstored hlength hmax hsize]
          have hinterval : interval object headers = parse_range (some text) object.size := by
            unfold interval HeaderMap.text
            rw [hrange, Option.bind_some, htext]
          have hends_of : parse_range (some text) object.size
              = (range_ends text.toList).elim (.error .invalid_range)
                fun ends => range_of_ends ends.1 ends.2 object.size := by
            unfold parse_range
            rw [if_neg hsize.ne']
            dsimp only
            cases range_ends text.toList <;> rfl
          rw [hinterval, hends_of]
          cases hends : range_ends text.toList with
          | none =>
              refine iff_of_true ⟨fun _ _ _ h => (by cases h),
                fun lo hi h => absurd h (not_rangeForm_of_none hends lo hi), fun _ => rfl⟩ ?_
              refine ⟨text, htext, fun start stop h => ?_⟩
              rw [hends] at h
              cases h
          | some ends =>
              obtain ⟨start, stop⟩ := ends
              rw [Option.elim_some, agrees_iff hends hsize hmax]
              constructor
              · intro h
                refine ⟨text, htext, fun start' stop' h' => ?_⟩
                obtain ⟨rfl, rfl⟩ := Prod.mk.inj (Option.some.inj (hends.symm.trans h'))
                exact h
              · rintro ⟨text', htext', h⟩
                obtain rfl := Option.some.inj (htext.symm.trans htext')
                exact h start stop hends

/-! ## An object of five bytes -/

def hello : Bytes := [104, 101, 108, 108, 111]

def hello_block : BlockRef where
  id := 1
  ordinal := 0
  offset := 0
  size := 5
  chat_id := 7
  message_id := 3
  backend := .bot_api
  document_id := none
  file_id := "f"
  file_unique_id := "u"
  message_date := 1000

def hello_object : ObjectRecord where
  id := 1
  bucket := "b"
  key := "k"
  size := 5
  etag := "5d41402abc4b2a76b9719d911017c592"
  metadata := {}
  created_at := 1000
  modified_at := 1000
  blocks := [hello_block]

/-- A Bot API server with one file. -/
def hello_server : Telegram where
  file := fun _ start stop => .ok (.partial_content [.ok (window start (stop + 1) hello)])
  document := fun _ => .error (.telegram "no session")

/-- The document is there, and has the five bytes. -/
theorem hello_server_holds : Holds hello_server hello_block hello := by
  refine ⟨by decide, fun start stop _ _ _ => ⟨_, rfl, ?_⟩⟩
  dsimp only
  rw [collect_cons_ok, collect_nil]
  exact congrArg Except.ok (List.append_nil _)

def range_header (value : String) : HeaderMap where
  entries := [("range", ascii value)]

/-- Three bytes out of five. -/
theorem range_consistent_middle :
    Consistent (fun _ => "") (fun _ => none) hello_server hello_object (range_header "bytes=1-3") := by
  refine (range_consistent _ _ _ _ _ (by decide) (by decide) (fun block hblock => ?_)).mpr ?_
  · obtain rfl := List.mem_singleton.mp hblock
    exact ⟨hello, by decide, hello_server_holds⟩
  · refine ⟨"bytes=1-3", by decide, fun start stop hends => ?_⟩
    have hpair : range_ends "bytes=1-3".toList = some (['1'], ['3']) := by decide
    obtain ⟨rfl, rfl⟩ := Prod.mk.inj (Option.some.inj (hpair.symm.trans hends))
    exact
      { suffix := fun h => (by cases h)
        suffix_sign := fun _ h => (by cases h)
        last := fun _ _ _ _ => (by decide)
        sign := fun _ _ h => absurd ⟨by decide, Or.inr (by decide)⟩ h }

/-- The last ten bytes of five: the interval begins before the object, and the headers
promise ten. -/
theorem suffix_longer_than_object :
    ¬ Consistent (fun _ => "") (fun _ => none) hello_server hello_object
      (range_header "bytes=-10") := by
  intro h
  have hinterval : interval hello_object (range_header "bytes=-10") = .ok (-5, 4, true) := by decide
  exact absurd (h.bounds _ _ _ hinterval).1 (by decide)

end Tg2s3.S3
