/-
`src/s3.rs`, `src/s3/xml.rs`: the CORS rules of a bucket, from the document that is
put to the headers of later responses.

A document is a list of rules. What is stored is one configuration: the lists of all
rules one after the other, sorted and without repetitions, each list for itself. Which
method belonged to which origin is not in it. So an origin of one rule meets the methods
of all the others, and the response grants more than any rule did; the last section says
exactly when.

A response is read as a client reads it: the entries of a header are what stands between
its commas. What a rule lists is read in the same way. The document arrives as
`quick_xml` has parsed it.

The rules are read again for every response. When that read fails the response follows the
server's default configuration, whatever the bucket's rules say.
-/
import Mathlib
import Tg2s3.Buckets
import Tg2s3.S3.Copy
import Tg2s3.S3.GetObject
import Tg2s3.S3.Xml

set_option autoImplicit false

namespace Tg2s3.S3

open Relational Machine

/-! ## From the document to the configuration -/

def to_ascii_uppercase (s : String) : String := String.ofList (s.toList.map Char.toUpper)

/-- `Vec::dedup` -/
def dedup : List String → List String
  | [] => []
  | [x] => [x]
  | x :: y :: rest => if x = y then dedup (y :: rest) else x :: dedup (y :: rest)

/-- `sort_unstable` and `dedup`. -/
def sort_dedup (values : List String) : List String := dedup (values.insertionSort (· ≤ ·))

/-- The body of the loop over the rules. -/
def extend_by (configuration : CorsConfiguration) (rule : CorsRuleXml) : CorsConfiguration where
  allowed_origins := configuration.allowed_origins ++ rule.allowed_origins
  allowed_methods := configuration.allowed_methods ++ rule.allowed_methods.map to_ascii_uppercase
  allowed_headers := configuration.allowed_headers ++ rule.allowed_headers
  expose_headers := configuration.expose_headers ++ rule.expose_headers
  max_age_seconds := rule.max_age_seconds.getD configuration.max_age_seconds

/-- The lists of all rules, one after the other. -/
def merged (rules : List CorsRuleXml) : CorsConfiguration :=
  rules.foldl extend_by
    { allowed_origins := [], allowed_methods := [], allowed_headers := [], expose_headers := [],
      max_age_seconds := 3600 }

def into_configuration (xml : CorsConfigurationXml) : Except S3Error CorsConfiguration := do
  ensure (xml.rules ≠ []) .invalid_request
  let all := merged xml.rules
  let configuration : CorsConfiguration :=
    { allowed_origins := sort_dedup all.allowed_origins
      allowed_methods := sort_dedup all.allowed_methods
      allowed_headers := sort_dedup all.allowed_headers
      expose_headers := sort_dedup all.expose_headers
      max_age_seconds := all.max_age_seconds }
  ensure (¬ (configuration.allowed_origins = [] ∨ configuration.allowed_methods = []
    ∨ configuration.allowed_headers = [])) .invalid_request
  ensure (¬ ("*" ∈ configuration.allowed_origins ∧ 1 < configuration.allowed_origins.length))
    .invalid_request
  pure configuration

/-- PUT of the rules of a bucket; `body` is what the parser made of the body. -/
def put_bucket_cors (db : Database) (now : Int) (bucket : String)
    (body : Except S3Error CorsConfigurationXml) : Database × Except S3Error Unit :=
  if bucket_exists db bucket then
    match body.bind into_configuration with
    | .ok configuration => (set_bucket_cors db now bucket configuration, .ok ())
    | .error e => (db, .error e)
  else (db, .error .no_such_bucket)

/-! ## From the configuration to the headers -/

section Handler

variable (percent_decode : String → Option String)

def effective_cors (db : Database) (cors : CorsConfiguration) (fails : Bool)
    (public_host : Option String) (uri : Uri) (headers : HeaderMap) : CorsConfiguration :=
  match Target.parse percent_decode uri headers public_host with
  | .error _ => cors
  | .ok target =>
      match target.bucket with
      | none => cors
      | some bucket => Buckets.effective_bucket_cors db cors fails bucket

def allow_methods (cors : CorsConfiguration) : List String :=
  if cors.allowed_methods.any (eq_ignore_ascii_case · "OPTIONS") then cors.allowed_methods
  else cors.allowed_methods ++ ["OPTIONS"]

/-- The headers of a response after CORS; `cors` is the configured default, and `fails` says
whether the query of the bucket's rules fails. -/
def apply_cors (db : Database) (cors : CorsConfiguration) (fails : Bool)
    (public_host : Option String) (uri : Uri) (request_headers response : HeaderMap) : HeaderMap :=
  match request_headers.text "origin" with
  | none => response
  | some origin =>
      let cors := effective_cors percent_decode db cors fails public_host uri request_headers
      if cors.allowed_origins.any
          (fun allowed => allowed = "*" || eq_ignore_ascii_case allowed origin) then
        let allow_origin := if "*" ∈ cors.allowed_origins then "*" else origin
        let response := insert_header response "access-control-allow-origin" allow_origin
        let response := insert_header response "access-control-allow-methods"
          (", ".intercalate (allow_methods cors))
        let response := insert_header response "access-control-allow-headers"
          (", ".intercalate cors.allowed_headers)
        let response := insert_header response "access-control-expose-headers"
          (", ".intercalate cors.expose_headers)
        let response := insert_header response "access-control-max-age"
          (toString cors.max_age_seconds)
        insert_header response "vary" "Origin"
      else response

end Handler

/-! ## What a header says -/

def is_ows (b : UInt8) : Bool := b = 32 || b = 9

def trim_ows (value : HeaderValue) : HeaderValue :=
  ((value.dropWhile is_ows).reverse.dropWhile is_ows).reverse

/-- The entries of a header that is a list. -/
def list_entries (value : HeaderValue) : List HeaderValue :=
  ((value.splitOn 44).map trim_ows).filter (· ≠ [])

/-- One of the values has an entry of this kind. -/
def Lists (values : List String) (entry : HeaderValue → Prop) : Prop :=
  ∃ value ∈ values, ∃ e ∈ list_entries (utf8 value), entry e

/-- The response has an entry of this kind in the header. -/
def Advertises (headers : HeaderMap) (name : String) (entry : HeaderValue → Prop) : Prop :=
  ∃ value, headers.get name = some value ∧ ∃ e ∈ list_entries value, entry e

/-- The response lets the origin in. -/
def AllowsOrigin (headers : HeaderMap) (origin : String) : Prop :=
  headers.get "access-control-allow-origin" = some (utf8 "*")
    ∨ headers.get "access-control-allow-origin" = some (utf8 origin)

/-- The rule allows the origin: by `*`, or up to the case of its letters. -/
def CorsRuleXml.allows_origin (rule : CorsRuleXml) (origin : String) : Prop :=
  ∃ allowed ∈ rule.allowed_origins, allowed = "*" ∨ eq_ignore_ascii_case allowed origin = true

instance (rule : CorsRuleXml) (origin : String) : Decidable (rule.allows_origin origin) :=
  inferInstanceAs (Decidable (∃ allowed ∈ _, _))

instance (values : List String) (entry : HeaderValue → Prop) [DecidablePred entry] :
    Decidable (Lists values entry) :=
  inferInstanceAs (Decidable (∃ value ∈ values, ∃ e ∈ list_entries (utf8 value), entry e))

/-- A blank at the front is trimmed. -/
theorem trim_ows_cons (value : HeaderValue) : trim_ows (32 :: value) = trim_ows value := by
  unfold trim_ows
  rw [List.dropWhile_cons, if_pos (by decide)]

/-- So it does not matter for the entries of a list. -/
theorem list_entries_blank (value : HeaderValue) :
    list_entries (32 :: value) = list_entries value := by
  unfold list_entries
  rw [List.splitOn_cons_eq_if_modifyHead, if_neg (by decide)]
  cases hsplit : value.splitOn 44 with
  | nil => rfl
  | cons first rest => rw [List.modifyHead_cons, List.map_cons, List.map_cons, trim_ows_cons]

/-- A comma separates two lists. -/
theorem list_entries_comma (a b : HeaderValue) :
    list_entries (a ++ 44 :: b) = list_entries a ++ list_entries b := by
  unfold list_entries
  rw [List.splitOn_append_cons_self, List.map_append, List.filter_append]

/-- Texts are encoded character by character. -/
theorem utf8_append (s t : String) : utf8 (s ++ t) = utf8 s ++ utf8 t := by
  unfold utf8
  rw [String.toList_append, List.flatMap_append]

/-- No two texts have the same bytes. -/
theorem utf8_inj {s t : String} (h : utf8 s = utf8 t) : s = t := by
  have hbytes : ∀ s : String, (utf8 s).toByteArray = s.toByteArray :=
    fun s => String.utf8Encode_toList
  exact String.toByteArray_inj.mp (by rw [← hbytes, ← hbytes, h])

/-- The entries of a joined header are those of the values. -/
theorem list_entries_join (values : List String) :
    list_entries (utf8 (", ".intercalate values))
      = values.flatMap fun value => list_entries (utf8 value) := by
  induction values with
  | nil => decide
  | cons value values ih =>
      cases values with
      | nil => simp
      | cons next values =>
          have hjoin : utf8 (", ".intercalate (value :: next :: values))
              = utf8 value ++ 44 :: 32 :: utf8 (", ".intercalate (next :: values)) := by
            rw [String.intercalate_cons_cons, utf8_append, utf8_append, List.append_assoc]
            rfl
          rw [hjoin, list_entries_comma, list_entries_blank, ih]
          rfl

/-- **A joined list has the entries of its values**: since they are separated by a comma and a
blank, an entry of the whole is an entry of one of them. -/
theorem lists_iff_join {values : List String} {entry : HeaderValue → Prop} :
    (∃ e ∈ list_entries (utf8 (", ".intercalate values)), entry e) ↔ Lists values entry := by
  rw [list_entries_join]
  constructor
  · rintro ⟨e, he, hentry⟩
    obtain ⟨value, hvalue, he⟩ := List.mem_flatMap.mp he
    exact ⟨value, hvalue, e, he, hentry⟩
  · rintro ⟨value, hvalue, e, he, hentry⟩
    exact ⟨e, List.mem_flatMap.mpr ⟨value, hvalue, he⟩, hentry⟩

/-- The bytes that can stand in a header value. -/
def is_header_byte (b : UInt8) : Bool := (32 ≤ b && b ≠ 127) || b = 9

/-- A value that is sent is its own bytes; one with a control character is not sent at all. -/
theorem from_str_eq (value : String) :
    from_str value = if (utf8 value).all is_header_byte then some (utf8 value) else none := rfl

/-- A joined list can be sent exactly if each of its values can. -/
theorem all_join (values : List String) :
    (utf8 (", ".intercalate values)).all is_header_byte = true
      ↔ ∀ value ∈ values, (utf8 value).all is_header_byte = true := by
  induction values with
  | nil => simp [utf8]
  | cons value values ih =>
      cases values with
      | nil => simp
      | cons next values =>
          have hcomma : (utf8 ", ").all is_header_byte = true := by decide
          rw [String.intercalate_cons_cons, utf8_append, utf8_append, List.all_append,
            List.all_append, hcomma, List.forall_mem_cons, ← ih]
          simp

/-- The value can be sent in a header. -/
def Sendable (value : String) : Prop := (utf8 value).all is_header_byte = true

instance (value : String) : Decidable (Sendable value) := inferInstanceAs (Decidable (_ = true))

/-- What a joined header advertises: what the values list, when all of them can be sent; no
value comes through otherwise. -/
theorem advertises_insert {response : HeaderMap} {name : String} (hfresh : response.get name = none)
    (values : List String) (entry : HeaderValue → Prop) :
    Advertises (insert_header response name (", ".intercalate values)) name entry
      ↔ (∀ value ∈ values, Sendable value) ∧ Lists values entry := by
  unfold Advertises insert_header
  rw [from_str_eq]
  by_cases hall : (utf8 (", ".intercalate values)).all is_header_byte = true
  · have hvalues : ∀ value ∈ values, Sendable value := (all_join values).mp hall
    rw [if_pos hall, and_iff_right hvalues, ← lists_iff_join]
    dsimp only
    rw [get_insert, if_pos rfl]
    simp
  · have hvalues := mt (all_join values).mpr hall
    rw [if_neg hall]
    dsimp only
    rw [hfresh]
    refine iff_of_false ?_ fun h => hvalues h.1
    rintro ⟨value, heq, -⟩
    cases heq

/-- A header of another name does not change what is advertised. -/
theorem advertises_insert_header {headers : HeaderMap} {name n : String} (value : String)
    {entry : HeaderValue → Prop} (h : name ≠ n) :
    Advertises (insert_header headers name value) n entry ↔ Advertises headers n entry := by
  unfold Advertises
  rw [get_insert_header headers value h]

/-- The value of a request header can be sent back. -/
theorem sendable_of_to_str {value : HeaderValue} {text : String} (h : to_str value = some text) :
    Sendable text := by
  unfold to_str at h
  split_ifs at h with hall
  obtain rfl := Option.some.inj h
  unfold Sendable utf8
  rw [String.toList_ofList, List.all_eq_true]
  intro b hb
  obtain ⟨c, hc, hb⟩ := List.mem_flatMap.mp hb
  obtain ⟨b', hb', rfl⟩ := List.mem_map.mp hc
  have hrange : b' < 127 ∨ b' = 9 := by
    have hbyte := List.all_eq_true.mp hall b' hb'
    simp only [Bool.or_eq_true, Bool.and_eq_true, decide_eq_true_eq] at hbyte
    exact hbyte.imp And.right id
  have hlt : b'.toNat < 127 := by
    rcases hrange with hlt | rfl
    · exact UInt8.lt_iff_toNat_lt.mp hlt
    · decide
  have hchar : String.utf8EncodeChar (Char.ofNat b'.toNat) = [b'] := by
    have hnat : (Char.ofNat b'.toNat).val.toNat = b'.toNat :=
      Char.toNat_ofNat b'.toNat |>.trans (if_pos (by left; omega))
    unfold String.utf8EncodeChar
    dsimp only
    rw [hnat, if_pos (by omega), UInt8.ofNat_toNat]
  rw [hchar, List.mem_singleton] at hb
  subst hb
  have hbyte := List.all_eq_true.mp hall b hb'
  simp only [Bool.or_eq_true, Bool.and_eq_true, decide_eq_true_eq] at hbyte
  simp only [is_header_byte, Bool.or_eq_true, Bool.and_eq_true, decide_eq_true_eq]
  refine hbyte.imp (fun h => ⟨h.1, ?_⟩) id
  rintro rfl
  exact absurd hlt (by decide)

/-! ## What the configuration keeps of the rules -/

/-- Leaving out repetitions leaves no value out. -/
theorem mem_dedup {values : List String} {v : String} : v ∈ dedup values ↔ v ∈ values := by
  fun_induction dedup values with
  | case1 => rfl
  | case2 => rfl
  | case3 y rest ih =>
      rw [ih]
      simp
  | case4 x y rest hne ih => rw [List.mem_cons, ih, List.mem_cons (a := v) (b := x)]

/-- Nor does sorting. -/
theorem mem_sort_dedup {values : List String} {v : String} : v ∈ sort_dedup values ↔ v ∈ values := by
  rw [sort_dedup, mem_dedup, List.mem_insertionSort]

/-- The methods of a rule, as they are stored. -/
def CorsRuleXml.methods (rule : CorsRuleXml) : List String :=
  rule.allowed_methods.map to_ascii_uppercase

/-- The merged rules have the columns of all rules, one after the other. By induction from the
end, since a fold is built that way. -/
theorem merged_eq (rules : List CorsRuleXml) :
    (merged rules).allowed_origins = rules.flatMap (·.allowed_origins)
      ∧ (merged rules).allowed_methods = rules.flatMap (·.methods)
      ∧ (merged rules).allowed_headers = rules.flatMap (·.allowed_headers) := by
  have hfold : ∀ c : CorsConfiguration,
      (rules.foldl extend_by c).allowed_origins
          = c.allowed_origins ++ rules.flatMap (·.allowed_origins)
        ∧ (rules.foldl extend_by c).allowed_methods
          = c.allowed_methods ++ rules.flatMap (·.methods)
        ∧ (rules.foldl extend_by c).allowed_headers
          = c.allowed_headers ++ rules.flatMap (·.allowed_headers) := by
    induction rules with
    | nil => simp
    | cons rule rules ih =>
        intro c
        rw [List.foldl_cons, (ih _).1, (ih _).2.1, (ih _).2.2]
        simp [extend_by, CorsRuleXml.methods]
  simpa [merged] using hfold
    { allowed_origins := [], allowed_methods := [], allowed_headers := [], expose_headers := [],
      max_age_seconds := 3600 }

/-- **An accepted document** is kept list by list: a value is in a list of the configuration when
it is in that list of some rule. -/
theorem into_configuration_ok {xml : CorsConfigurationXml} {c : CorsConfiguration}
    (h : into_configuration xml = .ok c) :
    (∀ v, v ∈ c.allowed_origins ↔ ∃ rule ∈ xml.rules, v ∈ rule.allowed_origins)
      ∧ (∀ v, v ∈ c.allowed_methods ↔ ∃ rule ∈ xml.rules, v ∈ rule.methods)
      ∧ ∀ v, v ∈ c.allowed_headers ↔ ∃ rule ∈ xml.rules, v ∈ rule.allowed_headers := by
  obtain ⟨_, -, h⟩ := bind_ok.mp h
  obtain ⟨_, -, h⟩ := bind_ok.mp h
  obtain ⟨_, -, h⟩ := bind_ok.mp h
  obtain rfl := Except.ok.inj h
  obtain ⟨horigins, hmethods, hheaders⟩ := merged_eq xml.rules
  refine ⟨fun v => ?_, fun v => ?_, fun v => ?_⟩
  · rw [mem_sort_dedup, horigins, List.mem_flatMap]
  · rw [mem_sort_dedup, hmethods, List.mem_flatMap]
  · rw [mem_sort_dedup, hheaders, List.mem_flatMap]

/-! ## The stored configuration -/

/-- The operations after which other rules apply to the bucket. -/
def ReplacesCors (bucket : String) : Op → Prop
  | .set_bucket_cors _ name _ => name = bucket
  | .delete_bucket_cors name => name = bucket
  | .delete_bucket name => name = bucket
  | _ => False

instance (bucket : String) (op : Op) : Decidable (ReplacesCors bucket op) := by
  unfold ReplacesCors
  split <;> infer_instance

/-- Rules that were stored are the ones that are read. -/
theorem get_bucket_cors_set (db : Database) (now : Int) (bucket : String) (c : CorsConfiguration) :
    get_bucket_cors (set_bucket_cors db now bucket c) bucket = some c := by
  unfold set_bucket_cors get_bucket_cors
  split_ifs with hin
  · obtain ⟨row, hrow⟩ := lookup_isSome.mpr hin
    have hbucket := (lookup_mem hrow).2
    dsimp only
    rw [lookup_updateWhere (f := fun r : BucketCorsRow =>
      { r with configuration := c, updated_at := now }) (fun _ => rfl), hrow]
    simp [hbucket]
  · dsimp only
    rw [lookup_append_singleton hin, if_pos rfl]
    rfl

/-- The rules of another bucket do not matter. -/
theorem get_bucket_cors_set_of_ne (db : Database) (now : Int) {bucket name : String}
    (c : CorsConfiguration) (h : name ≠ bucket) :
    get_bucket_cors (set_bucket_cors db now name c) bucket = get_bucket_cors db bucket := by
  unfold set_bucket_cors get_bucket_cors
  split_ifs with hin
  · dsimp only
    rw [lookup_updateWhere (f := fun r : BucketCorsRow =>
      { r with configuration := c, updated_at := now }) (fun _ => rfl)]
    cases hrow : lookup (fun r : BucketCorsRow => r.bucket) bucket db.bucket_cors with
    | none => rfl
    | some row =>
        have hne : row.bucket ≠ name := fun heq => h (heq.symm.trans (lookup_mem hrow).2)
        rw [Option.map_some, if_neg hne]
  · dsimp only
    rw [lookup_append_singleton hin, if_neg (Ne.symm h)]

/-- Nor does their deletion. -/
theorem get_bucket_cors_delete_of_ne {db db' : Database} {bucket name : String} (h : name ≠ bucket)
    (hrows : db'.bucket_cors = deleteWhere (·.bucket = name) db.bucket_cors) :
    get_bucket_cors db' bucket = get_bucket_cors db bucket := by
  unfold get_bucket_cors
  rw [hrows, lookup_delete_key, if_neg (Ne.symm h)]

/-- What leaves the table of the rules leaves the rules of each bucket. -/
theorem get_bucket_cors_of_rows {db db' : Database} {bucket : String}
    (h : db'.bucket_cors = db.bucket_cors) :
    get_bucket_cors db' bucket = get_bucket_cors db bucket := by
  unfold get_bucket_cors
  rw [h]

/-- Objects have nothing to do with them. -/
theorem bucket_cors_without_object (db : Database) (bucket key : String) :
    (without_object db bucket key).bucket_cors = db.bucket_cors := by
  unfold without_object
  cases db.object? bucket key <;> rfl

/-- Nor do uploads. -/
theorem bucket_cors_abort_upload (db : Database) (now : Int) (upload_id : String) :
    (abort_upload_with_blocks db now upload_id).1.bucket_cors = db.bucket_cors := by
  rcases abort_upload_with_blocks_eq db now upload_id with heq | heq
  · rw [heq]
  · rw [heq]
    exact (books_decrement_blocks _ now _).bucket_cors

/-- **An operation leaves the rules of a bucket** alone unless it puts them, deletes them or
deletes the bucket. -/
theorem get_bucket_cors_apply (db : Database) {bucket : String} {op : Op}
    (hop : ¬ ReplacesCors bucket op) :
    get_bucket_cors (op.apply db) bucket = get_bucket_cors db bucket := by
  cases op with
  | create_bucket now name => exact get_bucket_cors_of_rows rfl
  | delete_bucket name =>
      change get_bucket_cors (delete_bucket db name).1 bucket = get_bucket_cors db bucket
      unfold delete_bucket
      split
      · rfl
      · split
        · rfl
        · exact get_bucket_cors_delete_of_ne hop rfl
  | set_bucket_cors now name configuration =>
      exact get_bucket_cors_set_of_ne db now configuration hop
  | delete_bucket_cors name => exact get_bucket_cors_delete_of_ne hop rfl
  | create_upload upload =>
      refine transaction_cases (P := fun d => get_bucket_cors d bucket = _) rfl (fun db' u hok => ?_)
      obtain ⟨_, -, hok⟩ := bind_ok.mp hok
      obtain ⟨db₁, hins, hok⟩ := bind_ok.mp hok
      obtain ⟨rfl, -⟩ := Prod.mk.inj (Except.ok.inj hok)
      obtain ⟨rfl, -⟩ := insert_upload_ok hins
      exact get_bucket_cors_of_rows rfl
  | add_staged_block now block =>
      refine transaction_cases (P := fun d => get_bucket_cors d bucket = _) rfl (fun db' id hok => ?_)
      obtain ⟨hr, -⟩ := insert_block_ok hok
      obtain ⟨rfl, -⟩ := Prod.mk.inj hr
      exact get_bucket_cors_of_rows rfl
  | replace_part now upload_id part_number size etag block_ids =>
      refine transaction_cases (P := fun d => get_bucket_cors d bucket = _) rfl
        (fun db' released hok => ?_)
      exact get_bucket_cors_of_rows (replace_part_tx_ok hok).books.bucket_cors
  | commit_upload now upload_id size etag parts condition =>
      refine transaction_cases (P := fun d => get_bucket_cors d bucket = _) rfl
        (fun db' result hok => ?_)
      cases result with
      | none => rw [commit_upload_tx_none hok]
      | some r =>
          refine get_bucket_cors_of_rows ((commit_upload_tx_ok hok).books.bucket_cors.trans ?_)
          exact bucket_cors_without_object db r.1.bucket r.1.key
  | abort_upload_with_blocks now upload_id =>
      exact get_bucket_cors_of_rows (bucket_cors_abort_upload db now upload_id)
  | expire_uploads now before =>
      exact expire_uploads_induction (P := fun d => get_bucket_cors d bucket = _) now before rfl
        (fun d id hd => (get_bucket_cors_of_rows (bucket_cors_abort_upload d now id)).trans hd)
  | delete_object now name key condition =>
      refine transaction_cases (P := fun d => get_bucket_cors d bucket = _) rfl
        (fun db' deleted hok => ?_)
      obtain ⟨-, rfl, -⟩ := delete_object_tx_ok hok
      exact get_bucket_cors_of_rows ((books_decrement_blocks _ now _).bucket_cors.trans
        (bucket_cors_without_object db name key))
  | copy_object now source name key metadata condition =>
      refine transaction_cases (P := fun d => get_bucket_cors d bucket = _) rfl
        (fun db' released hok => ?_)
      exact get_bucket_cors_of_rows ((copy_object_tx_ok hok).books.bucket_cors.trans
        (bucket_cors_without_object db name key))
  | queue_stale_block now block_id =>
      exact get_bucket_cors_of_rows (books_queue_stale_block db now block_id).bucket_cors
  | gc_success block_id =>
      change get_bucket_cors (gc_success db block_id) bucket = get_bucket_cors db bucket
      unfold gc_success
      split
      · split_ifs
        · exact get_bucket_cors_of_rows rfl
        · rfl
      · rfl
  | gc_failure block_id error next_attempt =>
      exact get_bucket_cors_of_rows (books_update_queue db block_id _).bucket_cors
  | gc_orphan block_id error =>
      exact get_bucket_cors_of_rows (books_update_queue db block_id _).bucket_cors

/-- **Rules are kept** by every history that neither stores nor deletes rules of this bucket, nor
the bucket itself. -/
theorem get_bucket_cors_exec (db : Database) {bucket : String} {ops : List Op}
    (hops : ∀ op ∈ ops, ¬ ReplacesCors bucket op) :
    get_bucket_cors (exec Op.apply db ops) bucket = get_bucket_cors db bucket := by
  induction ops generalizing db with
  | nil => rfl
  | cons op ops ih =>
      rw [exec_cons, ih _ fun o ho => hops o (List.mem_cons_of_mem _ ho),
        get_bucket_cors_apply db (hops op List.mem_cons_self)]

/-- Rules that were accepted are stored, merged into one configuration. -/
theorem put_bucket_cors_ok {db db' : Database} {now : Int} {bucket : String}
    {body : Except S3Error CorsConfigurationXml}
    (h : put_bucket_cors db now bucket body = (db', .ok ())) :
    ∃ xml c, body = .ok xml ∧ into_configuration xml = .ok c
      ∧ get_bucket_cors db' bucket = some c := by
  unfold put_bucket_cors at h
  split_ifs at h
  · split at h
    · rename_i c hconfiguration
      obtain ⟨rfl, -⟩ := Prod.mk.inj h
      obtain ⟨xml, hxml, hc⟩ := bind_ok.mp hconfiguration
      exact ⟨xml, c, hxml, hc, get_bucket_cors_set db now bucket c⟩
    · obtain ⟨-, h⟩ := Prod.mk.inj h
      cases h
  · obtain ⟨-, h⟩ := Prod.mk.inj h
    cases h

/-! ## The response -/

section Response

variable {percent_decode : String → Option String} {db : Database} {cors c : CorsConfiguration}
  {fails : Bool} {public_host : Option String} {uri : Uri}
  {request_headers response : HeaderMap} {origin : String}

/-- The configuration lets the origin in. -/
def CorsAdmits (c : CorsConfiguration) (origin : String) : Prop :=
  ∃ allowed ∈ c.allowed_origins, allowed = "*" ∨ eq_ignore_ascii_case allowed origin = true

/-- The configuration lets the origin in, and an entry of this kind is among these values of it,
all of which can be sent. -/
def Grants (c : CorsConfiguration) (values : List String) (origin : String)
    (entry : HeaderValue → Prop) : Prop :=
  CorsAdmits c origin ∧ (∀ value ∈ values, Sendable value) ∧ Lists values entry

/-- A response no handler has put CORS headers on. -/
structure Fresh (response : HeaderMap) : Prop where
  allow_origin : response.get "access-control-allow-origin" = none
  allow_methods : response.get "access-control-allow-methods" = none
  allow_headers : response.get "access-control-allow-headers" = none

variable (horigin : request_headers.text "origin" = some origin)
  (hcors : effective_cors percent_decode db cors fails public_host uri request_headers = c)
  (hfresh : Fresh response)

include horigin hcors in
/-- The headers of an origin that is let in: six of them, in the order of the source. -/
theorem apply_cors_of_admits (h : CorsAdmits c origin) :
    apply_cors percent_decode db cors fails public_host uri request_headers response
      = insert_header (insert_header (insert_header (insert_header (insert_header (insert_header
          response "access-control-allow-origin"
            (if "*" ∈ c.allowed_origins then "*" else origin))
          "access-control-allow-methods" (", ".intercalate (allow_methods c)))
          "access-control-allow-headers" (", ".intercalate c.allowed_headers))
          "access-control-expose-headers" (", ".intercalate c.expose_headers))
          "access-control-max-age" (toString c.max_age_seconds)) "vary" "Origin" := by
  unfold apply_cors
  rw [horigin]
  dsimp only
  rw [hcors, if_pos]
  obtain ⟨allowed, hmem, hallowed⟩ := h
  refine List.any_eq_true.mpr ⟨allowed, hmem, ?_⟩
  simpa using hallowed

include horigin hcors in
/-- An origin that is not let in gets no header. -/
theorem apply_cors_of_not_admits (h : ¬ CorsAdmits c origin) :
    apply_cors percent_decode db cors fails public_host uri request_headers response = response := by
  unfold apply_cors
  rw [horigin]
  dsimp only
  rw [hcors, if_neg]
  intro hany
  obtain ⟨allowed, hmem, hallowed⟩ := List.any_eq_true.mp hany
  exact h ⟨allowed, hmem, by simpa using hallowed⟩

include horigin hcors hfresh in
/-- The response lets in the origins that the configuration lets in. -/
theorem allows_origin_iff :
    AllowsOrigin
        (apply_cors percent_decode db cors fails public_host uri request_headers response) origin
      ↔ CorsAdmits c origin := by
  by_cases h : CorsAdmits c origin
  · refine iff_of_true ?_ h
    rw [apply_cors_of_admits horigin hcors h]
    unfold AllowsOrigin
    rw [get_insert_header _ _ (by decide), get_insert_header _ _ (by decide),
      get_insert_header _ _ (by decide), get_insert_header _ _ (by decide),
      get_insert_header _ _ (by decide), insert_header]
    obtain ⟨value, -, htext⟩ := Option.bind_eq_some_iff.mp horigin
    by_cases hstar : "*" ∈ c.allowed_origins
    · rw [if_pos hstar, from_str_eq, if_pos (by decide)]
      dsimp only
      rw [get_insert, if_pos rfl]
      exact .inl rfl
    · have hsendable : (utf8 origin).all is_header_byte = true := sendable_of_to_str htext
      rw [if_neg hstar, from_str_eq, if_pos hsendable]
      dsimp only
      rw [get_insert, if_pos rfl]
      exact .inr rfl
  · refine iff_of_false ?_ h
    rw [apply_cors_of_not_admits horigin hcors h]
    rintro (hget | hget) <;> rw [hfresh.allow_origin] at hget <;> cases hget

include horigin hcors hfresh in
/-- What a response says about the origin and a kind of method. -/
theorem grants_methods_iff (entry : HeaderValue → Prop) :
    (AllowsOrigin (apply_cors percent_decode db cors fails public_host uri request_headers response)
          origin
        ∧ Advertises (apply_cors percent_decode db cors fails public_host uri request_headers response)
          "access-control-allow-methods" entry)
      ↔ Grants c (allow_methods c) origin entry := by
  rw [allows_origin_iff horigin hcors hfresh]
  refine and_congr_right fun h => ?_
  rw [apply_cors_of_admits horigin hcors h, advertises_insert_header _ (by decide),
    advertises_insert_header _ (by decide), advertises_insert_header _ (by decide),
    advertises_insert_header _ (by decide)]
  refine advertises_insert ?_ _ entry
  rw [get_insert_header _ _ (by decide)]
  exact hfresh.allow_methods

include horigin hcors hfresh in
/-- What a response says about the origin and a kind of header. -/
theorem grants_headers_iff (entry : HeaderValue → Prop) :
    (AllowsOrigin (apply_cors percent_decode db cors fails public_host uri request_headers response)
          origin
        ∧ Advertises (apply_cors percent_decode db cors fails public_host uri request_headers response)
          "access-control-allow-headers" entry)
      ↔ Grants c c.allowed_headers origin entry := by
  rw [allows_origin_iff horigin hcors hfresh]
  refine and_congr_right fun h => ?_
  rw [apply_cors_of_admits horigin hcors h, advertises_insert_header _ (by decide),
    advertises_insert_header _ (by decide), advertises_insert_header _ (by decide)]
  refine advertises_insert ?_ _ entry
  rw [get_insert_header _ _ (by decide), get_insert_header _ _ (by decide)]
  exact hfresh.allow_headers

end Response

/-! ## The rules and the response -/

/-- An entry that admits a request header: its name in any case, or `*`. -/
def admits_header (name : String) (e : HeaderValue) : Prop :=
  e = utf8 "*" ∨ e.map (fun b => if 65 ≤ b ∧ b ≤ 90 then b + 32 else b)
    = (utf8 name).map fun b => if 65 ≤ b ∧ b ≤ 90 then b + 32 else b

instance (name : String) : DecidablePred (admits_header name) :=
  fun _ => inferInstanceAs (Decidable (_ ∨ _))

/-- One rule allows both the origin and an entry of this kind in a column. -/
def AllowedTogether (rules : List CorsRuleXml) (column : CorsRuleXml → List String)
    (origin : String) (entry : HeaderValue → Prop) : Prop :=
  ∃ rule ∈ rules, rule.allows_origin origin ∧ Lists (column rule) entry

/-- Every value of the column can be sent. -/
def AllSendable (rules : List CorsRuleXml) (column : CorsRuleXml → List String) : Prop :=
  ∀ rule ∈ rules, ∀ value ∈ column rule, Sendable value

/-- Where one rule allows the origin and one has the entry, one has both, if the values of the
column can be sent at all; and they can be if one rule has both. -/
structure Covered (rules : List CorsRuleXml) (column : CorsRuleXml → List String)
    (origin : String) (entry : HeaderValue → Prop) : Prop where
  together : (∃ rule ∈ rules, rule.allows_origin origin) →
    (∃ rule ∈ rules, Lists (column rule) entry) → AllSendable rules column →
    AllowedTogether rules column origin entry
  sendable : AllowedTogether rules column origin entry → AllSendable rules column

/-- A merge of independent columns grants a pair when a rule does, exactly for the pairs that
are covered. -/
theorem covered_iff {rules : List CorsRuleXml} {column : CorsRuleXml → List String}
    {origin : String} {entry : HeaderValue → Prop} :
    (((∃ rule ∈ rules, rule.allows_origin origin) ∧ AllSendable rules column
          ∧ ∃ rule ∈ rules, Lists (column rule) entry)
        ↔ AllowedTogether rules column origin entry)
      ↔ Covered rules column origin entry := by
  constructor
  · intro h
    exact ⟨fun horigin hentry hsendable => h.mp ⟨horigin, hsendable, hentry⟩,
      fun htogether => (h.mpr htogether).2.1⟩
  · intro h
    constructor
    · rintro ⟨horigin, hsendable, hentry⟩
      exact h.together horigin hentry hsendable
    · intro htogether
      obtain ⟨rule, hrule, horigin, hentry⟩ := htogether
      exact ⟨⟨rule, hrule, horigin⟩, h.sendable ⟨rule, hrule, horigin, hentry⟩, rule, hrule, hentry⟩

/-- A merged column lists what the columns of the rules list. -/
theorem lists_column {values : List String} {rules : List CorsRuleXml}
    {column : CorsRuleXml → List String} {entry : HeaderValue → Prop}
    (h : ∀ v, v ∈ values ↔ ∃ rule ∈ rules, v ∈ column rule) :
    Lists values entry ↔ ∃ rule ∈ rules, Lists (column rule) entry := by
  constructor
  · rintro ⟨v, hv, hentry⟩
    obtain ⟨rule, hrule, hv⟩ := (h v).mp hv
    exact ⟨rule, hrule, v, hv, hentry⟩
  · rintro ⟨rule, hrule, v, hv, hentry⟩
    exact ⟨v, (h v).mpr ⟨rule, hrule, hv⟩, hentry⟩

/-- And it can be sent if all of them can. -/
theorem sendable_column {values : List String} {rules : List CorsRuleXml}
    {column : CorsRuleXml → List String}
    (h : ∀ v, v ∈ values ↔ ∃ rule ∈ rules, v ∈ column rule) :
    (∀ v ∈ values, Sendable v) ↔ AllSendable rules column := by
  constructor
  · intro hall rule hrule v hv
    exact hall v ((h v).mpr ⟨rule, hrule, hv⟩)
  · intro hall v hv
    obtain ⟨rule, hrule, hv⟩ := (h v).mp hv
    exact hall rule hrule v hv

/-- The merged configuration lets in the origins that some rule allows. -/
theorem admits_iff {c : CorsConfiguration} {rules : List CorsRuleXml} {origin : String}
    (h : ∀ v, v ∈ c.allowed_origins ↔ ∃ rule ∈ rules, v ∈ rule.allowed_origins) :
    CorsAdmits c origin ↔ ∃ rule ∈ rules, rule.allows_origin origin := by
  constructor
  · rintro ⟨v, hv, hallowed⟩
    obtain ⟨rule, hrule, hv⟩ := (h v).mp hv
    exact ⟨rule, hrule, v, hv, hallowed⟩
  · rintro ⟨rule, hrule, v, hv, hallowed⟩
    exact ⟨v, (h v).mpr ⟨rule, hrule, hv⟩, hallowed⟩

/-- `OPTIONS` is added to the methods and can be sent. -/
theorem allow_methods_spec (c : CorsConfiguration) :
    ((∀ v ∈ allow_methods c, Sendable v) ↔ ∀ v ∈ c.allowed_methods, Sendable v)
      ∧ ∀ entry : HeaderValue → Prop, ¬ entry (utf8 "OPTIONS") →
        (Lists (allow_methods c) entry ↔ Lists c.allowed_methods entry) := by
  unfold allow_methods
  split_ifs
  · exact ⟨Iff.rfl, fun _ _ => Iff.rfl⟩
  · constructor
    · rw [List.forall_mem_append, List.forall_mem_singleton]
      exact and_iff_left (by decide)
    · intro entry hoptions
      constructor
      · rintro ⟨v, hv, e, he, hentry⟩
        rcases List.mem_append.mp hv with hv | hv
        · exact ⟨v, hv, e, he, hentry⟩
        · rw [List.mem_singleton.mp hv, show list_entries (utf8 "OPTIONS") = [utf8 "OPTIONS"]
            by decide, List.mem_singleton] at he
          exact absurd (he ▸ hentry) hoptions
      · rintro ⟨v, hv, hentry⟩
        exact ⟨v, List.mem_append_left _ hv, hentry⟩

/-- The method that is always added grants no other one. -/
theorem grants_allow_methods {c : CorsConfiguration} {origin : String} {entry : HeaderValue → Prop}
    (hoptions : ¬ entry (utf8 "OPTIONS")) :
    Grants c (allow_methods c) origin entry ↔ Grants c c.allowed_methods origin entry := by
  unfold Grants
  rw [(allow_methods_spec c).1, (allow_methods_spec c).2 _ hoptions]

/-- What the configuration of a document grants is what its rules grant together. -/
theorem grants_column {c : CorsConfiguration} {values : List String} {rules : List CorsRuleXml}
    {column : CorsRuleXml → List String} {origin : String} {entry : HeaderValue → Prop}
    (horigins : ∀ v, v ∈ c.allowed_origins ↔ ∃ rule ∈ rules, v ∈ rule.allowed_origins)
    (hvalues : ∀ v, v ∈ values ↔ ∃ rule ∈ rules, v ∈ column rule) :
    Grants c values origin entry
      ↔ (∃ rule ∈ rules, rule.allows_origin origin) ∧ AllSendable rules column
        ∧ ∃ rule ∈ rules, Lists (column rule) entry := by
  unfold Grants
  rw [admits_iff horigins, sendable_column hvalues, lists_column hvalues]

/-- The condition for a pair of origin and entry. If the rules can be read, the pair is covered by
them; if that read fails, the server's default `cors`, with these values in the column, grants
the pair just when a rule does. -/
structure CorsKept (fails : Bool) (cors : CorsConfiguration) (values : List String)
    (rules : List CorsRuleXml) (column : CorsRuleXml → List String) (origin : String)
    (entry : HeaderValue → Prop) : Prop where
  covered : fails = false → Covered rules column origin entry
  default_agrees : fails = true →
    (Grants cors values origin entry ↔ AllowedTogether rules column origin entry)

/-- If the rules are read, the condition speaks of them alone. -/
theorem kept_of_read {cors : CorsConfiguration} {values : List String} {rules : List CorsRuleXml}
    {column : CorsRuleXml → List String} {origin : String} {entry : HeaderValue → Prop} :
    CorsKept false cors values rules column origin entry ↔ Covered rules column origin entry :=
  ⟨fun h => h.covered rfl, fun h => ⟨fun _ => h, fun hfails => (by cases hfails)⟩⟩

/-- If they are not, the server's own configuration is in their place, and has to grant the same.
-/
theorem kept_of_fails {cors : CorsConfiguration} {values : List String} {rules : List CorsRuleXml}
    {column : CorsRuleXml → List String} {origin : String} {entry : HeaderValue → Prop} :
    CorsKept true cors values rules column origin entry
      ↔ (Grants cors values origin entry ↔ AllowedTogether rules column origin entry) :=
  ⟨fun h => h.default_agrees rfl, fun h => ⟨fun hread => (by cases hread), fun _ => h⟩⟩

/-- **Stored CORS rules grant a pair when a rule does**, exactly under the condition: for every
accepted document, whatever happens to the database afterwards short of other rules for the
bucket, and every response to a request with an origin that names the bucket, whether or not
the rules can be read for it. -/
theorem cors_rules_kept {percent_decode : String → Option String} {db db' : Database} {now : Int}
    {bucket origin : String} {xml : CorsConfigurationXml} {ops : List Op}
    {cors : CorsConfiguration} {fails : Bool} {public_host key : Option String} {uri : Uri}
    {request_headers response : HeaderMap}
    (hput : put_bucket_cors db now bucket (.ok xml) = (db', .ok ()))
    (hops : ∀ op ∈ ops, ¬ ReplacesCors bucket op)
    (htarget : Target.parse percent_decode uri request_headers public_host
      = .ok { bucket := some bucket, key })
    (horigin : request_headers.text "origin" = some origin) (hfresh : Fresh response) :
    (∀ method, method ≠ "OPTIONS" →
      (((AllowsOrigin (apply_cors percent_decode (exec Op.apply db' ops) cors fails public_host uri
              request_headers response) origin
            ∧ Advertises (apply_cors percent_decode (exec Op.apply db' ops) cors fails public_host uri
              request_headers response) "access-control-allow-methods" (· = utf8 method))
          ↔ AllowedTogether xml.rules (·.methods) origin (· = utf8 method))
        ↔ CorsKept fails cors cors.allowed_methods xml.rules (·.methods) origin (· = utf8 method)))
      ∧ ∀ name,
        ((AllowsOrigin (apply_cors percent_decode (exec Op.apply db' ops) cors fails public_host uri
              request_headers response) origin
            ∧ Advertises (apply_cors percent_decode (exec Op.apply db' ops) cors fails public_host uri
              request_headers response) "access-control-allow-headers" (admits_header name))
          ↔ AllowedTogether xml.rules (·.allowed_headers) origin (admits_header name))
        ↔ CorsKept fails cors cors.allowed_headers xml.rules (·.allowed_headers) origin
          (admits_header name) := by
  obtain ⟨xml', c, heq, hc, hstored⟩ := put_bucket_cors_ok hput
  obtain rfl := Except.ok.inj heq
  obtain ⟨horigins, hmethods, hheaders⟩ := into_configuration_ok hc
  have hcors : effective_cors percent_decode (exec Op.apply db' ops) cors fails public_host uri
      request_headers = if fails then cors else c := by
    unfold effective_cors
    rw [htarget]
    dsimp only
    rw [Buckets.effective_bucket_cors_eq, get_bucket_cors_exec db' hops, hstored]
    rfl
  have hoptions (method : String) (hmethod : method ≠ "OPTIONS") :
      ¬ utf8 "OPTIONS" = utf8 method := fun h => hmethod (utf8_inj h).symm
  -- the response follows the stored rules or the default
  cases fails with
  | false =>
      rw [if_neg Bool.false_ne_true] at hcors
      refine ⟨fun method hmethod => ?_, fun name => ?_⟩
      · rw [grants_methods_iff horigin hcors hfresh, grants_allow_methods (hoptions method hmethod),
          grants_column horigins hmethods, kept_of_read]
        exact covered_iff
      · rw [grants_headers_iff horigin hcors hfresh, grants_column horigins hheaders, kept_of_read]
        exact covered_iff
  | true =>
      rw [if_pos rfl] at hcors
      refine ⟨fun method hmethod => ?_, fun name => ?_⟩
      · rw [grants_methods_iff horigin hcors hfresh, grants_allow_methods (hoptions method hmethod),
          kept_of_fails]
      · rw [grants_headers_iff horigin hcors hfresh, kept_of_fails]

/-- A site that may read, and one that may delete. -/
def two_sites : CorsConfigurationXml where
  rules :=
    [{ allowed_origins := ["https://read"], allowed_methods := ["get"], allowed_headers := ["x-a"],
       expose_headers := [], max_age_seconds := none },
     { allowed_origins := ["https://admin"], allowed_methods := ["delete"],
       allowed_headers := ["x-b"], expose_headers := [], max_age_seconds := none }]

/-- One rule alone. -/
def one_site : CorsConfigurationXml where
  rules :=
    [{ allowed_origins := ["https://read"], allowed_methods := ["get"], allowed_headers := ["x-a"],
       expose_headers := [], max_age_seconds := none }]

def one_bucket : Database := { buckets := [{ name := "b", created_at := 0 }] }

/-- A request from the site that may read. -/
def from_read : HeaderMap := { entries := [("origin", ascii "https://read")] }

/-- A request from a site that no rule of `one_site` names. -/
def from_admin : HeaderMap := { entries := [("origin", ascii "https://admin")] }

/-- The default configuration of a server that is started without CORS options. -/
def server_default : CorsConfiguration where
  allowed_origins := ["*"]
  allowed_methods := ["GET", "POST", "PUT", "DELETE", "HEAD"]
  allowed_headers := ["*"]
  expose_headers := ["ETag"]
  max_age_seconds := 3600

/-- A document with one rule of plain tokens, after other things have happened. -/
theorem cors_rules_kept_one_site :
    (AllowsOrigin (apply_cors some
          (exec Op.apply (put_bucket_cors one_bucket 1 "b" (.ok one_site)).1 [.create_bucket 2 "c"])
          server_default false none { path := "/b/k" } from_read {}) "https://read"
        ∧ Advertises (apply_cors some
          (exec Op.apply (put_bucket_cors one_bucket 1 "b" (.ok one_site)).1 [.create_bucket 2 "c"])
          server_default false none { path := "/b/k" } from_read {}) "access-control-allow-methods"
          (· = utf8 "GET"))
      ↔ AllowedTogether one_site.rules (·.methods) "https://read" (· = utf8 "GET") := by
  have hput : put_bucket_cors one_bucket 1 "b" (.ok one_site)
      = ((put_bucket_cors one_bucket 1 "b" (.ok one_site)).1, .ok ()) := by decide
  have htarget : Target.parse some { path := "/b/k" } from_read none
      = .ok { bucket := some "b", key := some "k" } := by decide
  have hops : ∀ op ∈ [Op.create_bucket 2 "c"], ¬ ReplacesCors "b" op := by decide
  have hcovered : Covered one_site.rules (·.methods) "https://read" (· = utf8 "GET") := by
    refine ⟨fun _ _ _ => ⟨_, List.mem_singleton.mpr rfl, by decide, by decide⟩, ?_⟩
    rintro - rule hrule
    rw [List.mem_singleton.mp hrule]
    decide
  exact ((cors_rules_kept hput hops htarget (by decide)
    ⟨by decide, by decide, by decide⟩).1 "GET" (by decide)).mpr (kept_of_read.mpr hcovered)

/-- **Failing input**: with the two rules stored, the site that may read is told that it may
delete, and may send the other site's header; no rule allows either. -/
theorem two_sites_cross :
    (put_bucket_cors one_bucket 1 "b" (.ok two_sites)).2 = .ok ()
      ∧ AllowsOrigin (apply_cors some (put_bucket_cors one_bucket 1 "b" (.ok two_sites)).1
          server_default false none { path := "/b/k" } from_read {}) "https://read"
      ∧ Advertises (apply_cors some (put_bucket_cors one_bucket 1 "b" (.ok two_sites)).1
          server_default false none { path := "/b/k" } from_read {}) "access-control-allow-methods"
          (· = utf8 "DELETE")
      ∧ Advertises (apply_cors some (put_bucket_cors one_bucket 1 "b" (.ok two_sites)).1
          server_default false none { path := "/b/k" } from_read {}) "access-control-allow-headers"
          (· = utf8 "x-b")
      ∧ ¬ AllowedTogether two_sites.rules (·.methods) "https://read" (· = utf8 "DELETE")
      ∧ ¬ AllowedTogether two_sites.rules (·.allowed_headers) "https://read" (· = utf8 "x-b") := by
  refine ⟨by decide, .inr (by decide), ⟨utf8 "DELETE, GET, OPTIONS", by decide, by decide⟩,
    ⟨utf8 "x-a, x-b", by decide, by decide⟩, ?_, ?_⟩
  · rintro ⟨rule, hrule, h⟩
    revert rule
    decide
  · rintro ⟨rule, hrule, h⟩
    revert rule
    decide

/-- **A failing read widens too**: one site has rules, and the query for them fails. A site that
no rule names is told that it may delete. -/
theorem failing_read_widens :
    (put_bucket_cors one_bucket 1 "b" (.ok one_site)).2 = .ok ()
      ∧ AllowsOrigin (apply_cors some (put_bucket_cors one_bucket 1 "b" (.ok one_site)).1
          server_default true none { path := "/b/k" } from_admin {}) "https://admin"
      ∧ Advertises (apply_cors some (put_bucket_cors one_bucket 1 "b" (.ok one_site)).1
          server_default true none { path := "/b/k" } from_admin {}) "access-control-allow-methods"
          (· = utf8 "DELETE")
      ∧ ¬ ∃ rule ∈ one_site.rules, rule.allows_origin "https://admin" := by
  refine ⟨by decide, .inl (by decide), ⟨utf8 "GET, POST, PUT, DELETE, HEAD, OPTIONS", by decide,
    by decide⟩, by decide⟩

end Tg2s3.S3
