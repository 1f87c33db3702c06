/-
`src/s3/list.rs`: ListObjects and ListObjectsV2, and what a client reads that follows
the marker from page to page.

Each answer is a page of the listing (`Paging.IsPage`), and its marker leads to the next
one. So the pages end, and together they hold whatever comes after the first marker. A
request without a marker starts after the empty text, as if that were a key of the page
before: an object with the empty key, which `PUT /bucket/` creates, is in no listing
without a prefix. (With a prefix the query starts at the prefix itself, inclusively.)

Base64 and the format of a time belong to other crates and are parameters.
-/
import Mathlib
import Tg2s3.Counts
import Tg2s3.S3.Scan

set_option autoImplicit false

namespace Tg2s3.S3

open Relational
open Tg2s3.Counts (put_first snapshot)

/-! ## The request -/

def list_max_keys (query : List (String × String)) : Except S3Error ℕ :=
  match query_value query "max-keys" with
  | none => .ok 1000
  | some value =>
      match parse_usize value.toList with
      | some n => .ok (min n 1000)
      | none => .error .invalid_argument

def is_v2 (query : List (String × String)) : Bool := query_value query "list-type" = some "2"

/-- The marker a request carries. -/
def list_after (base64_decode : String → Option String) (query : List (String × String)) :
    Except S3Error String :=
  if is_v2 query then
    match query_value query "continuation-token" with
    | some token =>
        match base64_decode token with
        | some text => .ok text
        | none => .error .invalid_argument
    | none => .ok ((query_value query "start-after").getD "")
  else .ok ((query_value query "marker").getD "")

def list_request (base64_decode : String → Option String) (db : Database) (bucket : String)
    (query : List (String × String)) : Except S3Error ListRequest := do
  ensure (bucket_exists db bucket = true) .no_such_bucket
  let max_keys ← list_max_keys query
  let after ← list_after base64_decode query
  pure
    { bucket := bucket, start := (query_value query "prefix").getD "",
      delimiter := (query_value query "delimiter").getD "", max_keys := max_keys,
      is_v2 := is_v2 query,
      start_after := if is_v2 query then query_value query "start-after" else none,
      marker := if is_v2 query then none else query_value query "marker",
      continuation_token := query_value query "continuation-token", after := after }

/-! ## The answer -/

structure ObjectXml where
  key : String
  last_modified : String
  etag : String
  size : Int
  storage_class : String
  deriving DecidableEq, Repr

structure ListBucketResult where
  name : String
  start : String
  delimiter : Option String
  max_keys : ℕ
  key_count : ℕ
  is_truncated : Bool
  marker : Option String
  start_after : Option String
  continuation_token : Option String
  next_marker : Option String
  next_continuation_token : Option String
  contents : List ObjectXml
  common_prefixes : List String
  deriving DecidableEq, Repr

section Answer

variable (format_time : Int → String) (base64_encode : String → String)
  (base64_decode : String → Option String)

def object_xml (entry : ListingRecord) : ObjectXml where
  key := entry.key
  last_modified := format_time entry.modified_at
  etag := quoted entry.etag
  size := entry.size
  storage_class := "STANDARD"

def list_result (r : ListRequest) (s : Scan) : ListBucketResult where
  name := r.bucket
  start := r.start
  delimiter := if r.delimiter = "" then none else some r.delimiter
  max_keys := r.max_keys
  key_count := s.contents.length + s.common_prefixes.length
  is_truncated := s.truncated
  marker := r.marker
  start_after := r.start_after
  continuation_token := r.continuation_token
  next_marker := if s.truncated && !r.is_v2 then s.next_cursor else none
  next_continuation_token := if r.is_v2 then s.next_cursor.map base64_encode else none
  contents := s.contents.map (object_xml format_time)
  common_prefixes := s.common_prefixes

def list_objects (db : Database) (bucket : String) (query : List (String × String)) :
    Except S3Error ListBucketResult := do
  let r ← list_request base64_decode db bucket query
  pure (list_result format_time base64_encode r (scanned db r))

end Answer

/-! ## A client that follows the marker -/

section Client

variable (format_time : Int → String) (base64_encode : String → String)
  (base64_decode : String → Option String) (db : Database) (bucket : String)
  (query : List (String × String))

/-- The parameter in which the next request carries the marker. -/
def marker_name : String := if is_v2 query then "continuation-token" else "marker"

/-- The marker that a page hands to the client. -/
def next_marker (page : ListBucketResult) : Option String :=
  if is_v2 query then page.next_continuation_token else page.next_marker

/-- The same request, with a marker. -/
def marked (marker : Option String) : List (String × String) :=
  query ++ (marker.map fun marker => (marker_name query, marker)).toList

/-- All pages, from a marker on, if no more than so many requests are needed. -/
def follow : ℕ → Option String → Option (List ListBucketResult)
  | 0, _ => none
  | fuel + 1, marker =>
      match list_objects format_time base64_encode base64_decode db bucket (marked query marker) with
      | .error _ => none
      | .ok page =>
          if page.is_truncated then
            match next_marker query page with
            | some marker => (follow fuel (some marker)).map (page :: ·)
            | none => none
          else some [page]

/-- The request has no marker of its own. -/
def Unmarked : Prop :=
  if is_v2 query then
    query_has query "continuation-token" = false ∧ query_has query "start-after" = false
  else query_has query "marker" = false

instance : Decidable (Unmarked query) := by
  unfold Unmarked
  split <;> infer_instance

end Client

/-! ## What the pages hold -/

/-- A delimiter stands somewhere after the prefix. -/
def Delimited (key start delimiter : String) : Prop :=
  delimiter ≠ "" ∧ ∃ x y, key.toList = start.toList ++ x ++ delimiter.toList ++ y

/-- The two columns of a page in one order. -/
def ListBucketResult.merged (page : ListBucketResult) : List String :=
  (page.contents.map (·.key) ++ page.common_prefixes).insertionSort (· ≤ ·)

/-- **The pages are complete and exact**: every key with the prefix and no delimiter after
it, and every common prefix, comes once, nothing else does, and the merged columns go up
from page to page. -/
structure Exact (db : Database) (bucket start delimiter : String)
    (pages : List ListBucketResult) : Prop where
  keys (key : String) : key ∈ pages.flatMap (·.contents.map (·.key))
    ↔ key ∈ matching db bucket start ∧ ¬ Delimited key start delimiter
  common_prefixes (common : String) : common ∈ pages.flatMap (·.common_prefixes)
    ↔ ∃ key ∈ matching db bucket start, IsCommonPrefix key start delimiter common
  keys_once : (pages.flatMap (·.contents.map (·.key))).Nodup
  common_prefixes_once : (pages.flatMap (·.common_prefixes)).Nodup
  increasing : (pages.flatMap (·.merged)).Pairwise (· < ·)

/-- A key is in no group exactly if the delimiter does not come after the prefix. -/
theorem common_prefix_of_eq_none_iff {key start delimiter : String}
    (hstart : start.toList <+: key.toList) :
    common_prefix_of key start delimiter = none ↔ ¬ Delimited key start delimiter := by
  obtain ⟨rest, hrest⟩ := hstart
  unfold common_prefix_of Delimited
  by_cases hdel : delimiter = ""
  · simp [hdel]
  have hstrip : (start.toList.isPrefixOf? key.toList).getD key.toList = rest := by
    rw [List.isPrefixOf?_eq_some_iff_append_eq.mpr hrest, Option.getD_some]
  rw [if_neg hdel, hstrip, Option.map_eq_none_iff, Prefixes.find_eq_none_iff]
  refine not_congr ?_
  simp only [ne_eq, hdel, not_false_eq_true, true_and, ← hrest, List.append_assoc,
    List.append_cancel_left_eq]
  constructor
  · rintro ⟨x, y, h⟩
    exact ⟨x, y, by rw [← h, List.append_assoc]⟩
  · rintro ⟨x, y, h⟩
    exact ⟨x, y, by rw [h, List.append_assoc]⟩

section Texts

variable {db : Database} {bucket start delimiter : String}

/-- The texts outside the column of the common prefixes are the keys themselves. -/
theorem key_mem_texts {key : String} :
    key ∈ (all_texts db bucket start delimiter).filter (fun t => !is_common start delimiter t)
      ↔ key ∈ matching db bucket start ∧ ¬ Delimited key start delimiter := by
  unfold is_common
  rw [List.mem_filter, mem_all_texts, Bool.not_eq_true', Option.isSome_eq_false_iff,
    Option.isNone_iff_eq_none]
  constructor
  · rintro ⟨⟨key', hkey', rfl⟩, hnone⟩
    cases hcommon : common_prefix_of key' start delimiter with
    | none =>
        have htext : text_of start delimiter key' = key' := text_of_none hcommon
        rw [htext]
        exact ⟨hkey', (common_prefix_of_eq_none_iff hkey'.2).mp hcommon⟩
    | some common =>
        have htext : text_of start delimiter key' = common :=
          text_of_some hcommon
        rw [htext, (grouping start delimiter).group_name hkey'.2 hcommon] at hnone
        cases hnone
  · rintro ⟨hkey, hplain⟩
    have hnone := (common_prefix_of_eq_none_iff hkey.2).mpr hplain
    exact ⟨⟨key, hkey, text_of_none hnone⟩, hnone⟩

/-- The common prefixes are the texts of the keys that have one. -/
theorem common_mem_texts {common : String} :
    common ∈ (all_texts db bucket start delimiter).filter (is_common start delimiter)
      ↔ ∃ key ∈ matching db bucket start, IsCommonPrefix key start delimiter common := by
  unfold is_common
  rw [List.mem_filter, mem_all_texts]
  constructor
  · rintro ⟨⟨key, hkey, rfl⟩, hsome⟩
    cases hcommon : common_prefix_of key start delimiter with
    | none =>
        have htext : text_of start delimiter key = key := text_of_none hcommon
        rw [htext, hcommon] at hsome
        cases hsome
    | some common =>
        have htext : text_of start delimiter key = common :=
          text_of_some hcommon
        rw [htext]
        exact ⟨key, hkey, (common_prefix_of_eq_some_iff hkey.2).mp hcommon⟩
  · rintro ⟨key, hkey, hspec⟩
    have hcommon := (common_prefix_of_eq_some_iff hkey.2).mpr hspec
    refine ⟨⟨key, hkey, text_of_some hcommon⟩, ?_⟩
    rw [(grouping start delimiter).group_name hkey.2 hcommon]
    rfl

/-- Pages whose columns are those of the whole listing are exact. -/
theorem exact_of_columns {pages : List ListBucketResult}
    (hkeys : pages.flatMap (·.contents.map (·.key))
      = (all_texts db bucket start delimiter).filter (fun t => !is_common start delimiter t))
    (hcommon : pages.flatMap (·.common_prefixes)
      = (all_texts db bucket start delimiter).filter (is_common start delimiter))
    (hmerged : pages.flatMap (·.merged) = all_texts db bucket start delimiter) :
    Exact db bucket start delimiter pages where
  keys key := by rw [hkeys]; exact key_mem_texts
  common_prefixes common := by rw [hcommon]; exact common_mem_texts
  keys_once := by
    rw [hkeys]
    exact ((all_texts_pairwise _ _ _ _).filter _).imp fun h => h.ne
  common_prefixes_once := by
    rw [hcommon]
    exact ((all_texts_pairwise _ _ _ _).filter _).imp fun h => h.ne
  increasing := by rw [hmerged]; exact all_texts_pairwise _ _ _ _

end Texts

/-! ## One request of the client -/

/-- The first value of a name counts. -/
theorem query_value_append (query rest : List (String × String)) (name : String) :
    query_value (query ++ rest) name = (query_value query name).or (query_value rest name) := by
  unfold query_value
  rw [List.find?_append]
  cases query.find? (·.1 = name) <;> rfl

/-- The marker does not hide another parameter. -/
theorem query_value_marked_of_ne {query : List (String × String)} {marker : Option String}
    {name : String} (hne : name ≠ marker_name query) :
    query_value (marked query marker) name = query_value query name := by
  unfold marked
  rw [query_value_append]
  cases marker with
  | none => simp [query_value]
  | some marker => simp [query_value, hne.symm]

/-- And it is found under its own name. -/
theorem query_value_marked {query : List (String × String)} {marker : Option String}
    (hno : query_has query (marker_name query) = false) :
    query_value (marked query marker) (marker_name query) = marker := by
  unfold marked
  rw [query_value_append, query_value_eq_none hno]
  cases marker <;> simp [query_value]

/-- Other parameters have other names, in both versions. -/
theorem ne_marker_name {query : List (String × String)} {name : String}
    (hne : name ≠ "continuation-token") (hne' : name ≠ "marker") : name ≠ marker_name query := by
  unfold marker_name
  split_ifs
  · exact hne
  · exact hne'

/-- The version of the request stays. -/
theorem is_v2_marked (query : List (String × String)) (marker : Option String) :
    is_v2 (marked query marker) = is_v2 query := by
  unfold is_v2
  rw [query_value_marked_of_ne (ne_marker_name (by decide) (by decide))]

section Request

variable {base64_encode : String → String} {base64_decode : String → Option String}
  {query : List (String × String)}

/-- How a marker is written into a request: base64 in version 2. -/
def Carries (base64_encode : String → String) (query : List (String × String)) (after : String) :
    Option String → Prop
  | none => after = ""
  | some marker => marker = if is_v2 query then base64_encode after else after

/-- **The marker carries the position**: what the next request starts after is where the last
page has ended, through the encoding of the token. -/
theorem list_after_marked (hround : ∀ text, base64_decode (base64_encode text) = some text)
    (hunmarked : Unmarked query) {after : String} {marker : Option String}
    (hcarries : Carries base64_encode query after marker) :
    list_after base64_decode (marked query marker) = .ok after := by
  unfold list_after
  rw [is_v2_marked]
  unfold Unmarked at hunmarked
  by_cases hv2 : is_v2 query = true
  · rw [if_pos hv2] at hunmarked ⊢
    have hname : marker_name query = "continuation-token" := if_pos hv2
    have hmarker : query_value (marked query marker) (marker_name query) = marker :=
      query_value_marked (hname ▸ hunmarked.1)
    rw [hname] at hmarker
    rw [hmarker]
    cases marker with
    | none =>
        have hne : "start-after" ≠ marker_name query := by rw [hname]; decide
        dsimp only
        rw [query_value_marked_of_ne hne, query_value_eq_none hunmarked.2, hcarries]
        rfl
    | some marker =>
        have hmarker : marker = base64_encode after := hcarries.trans (if_pos hv2)
        dsimp only
        rw [hmarker, hround]
  · rw [if_neg hv2] at hunmarked ⊢
    have hname : marker_name query = "marker" := if_neg hv2
    have hmarker : query_value (marked query marker) (marker_name query) = marker :=
      query_value_marked (hname ▸ hunmarked)
    rw [hname] at hmarker
    rw [hmarker]
    cases marker with
    | none => rw [hcarries]; rfl
    | some marker => rw [hcarries, if_neg hv2]; rfl

/-- So the next request is the last one with its start moved on. -/
theorem list_request_marked (hround : ∀ text, base64_decode (base64_encode text) = some text)
    {db : Database} {bucket : String} {n : ℕ} (hbucket : bucket_exists db bucket = true)
    (hmax : list_max_keys query = .ok n) (hunmarked : Unmarked query) {after : String}
    {marker : Option String} (hcarries : Carries base64_encode query after marker) :
    ∃ r, list_request base64_decode db bucket (marked query marker) = .ok r
      ∧ r.bucket = bucket ∧ r.start = (query_value query "prefix").getD ""
      ∧ r.delimiter = (query_value query "delimiter").getD "" ∧ r.max_keys = n
      ∧ r.is_v2 = is_v2 query ∧ r.after = after := by
  have hkept : ∀ name : String, name ≠ "continuation-token" → name ≠ "marker" →
      query_value (marked query marker) name = query_value query name :=
    fun name hne hne' => query_value_marked_of_ne (ne_marker_name hne hne')
  have hmax' : list_max_keys (marked query marker) = .ok n := by
    unfold list_max_keys
    rw [hkept "max-keys" (by decide) (by decide)]
    exact hmax
  unfold list_request
  rw [(ensure_ok (u := ())).mpr hbucket, hmax', list_after_marked hround hunmarked hcarries]
  refine ⟨_, rfl, rfl, ?_, ?_, rfl, is_v2_marked _ _, rfl⟩
  · exact congrArg (·.getD "") (hkept "prefix" (by decide) (by decide))
  · exact congrArg (·.getD "") (hkept "delimiter" (by decide) (by decide))

end Request

section Pages

variable {format_time : Int → String} {base64_encode : String → String}
  {base64_decode : String → Option String} {db : Database} {bucket : String}
  {query : List (String × String)} {n : ℕ}

/-- The texts of the listing that the query asks for. -/
def query_texts (db : Database) (bucket : String) (query : List (String × String)) : List String :=
  all_texts db bucket ((query_value query "prefix").getD "")
    ((query_value query "delimiter").getD "")

/-- The texts of a query are in order. -/
theorem query_texts_pairwise : (query_texts db bucket query).Pairwise (· < ·) :=
  all_texts_pairwise _ _ _ _

/-- A text of this listing that stands for a group. -/
def query_common (query : List (String × String)) (t : String) : Bool :=
  is_common ((query_value query "prefix").getD "") ((query_value query "delimiter").getD "") t

/-- The columns of some pages hold these texts. -/
structure Holds (query : List (String × String)) (pages : List ListBucketResult)
    (texts : List String) : Prop where
  keys : pages.flatMap (·.contents.map (·.key)) = texts.filter fun t => !query_common query t
  common_prefixes : pages.flatMap (·.common_prefixes) = texts.filter (query_common query)
  merged : pages.flatMap (·.merged) = texts

/-- Pages that hold two parts of the texts hold both. -/
theorem Holds.append {pages pages' : List ListBucketResult} {texts texts' : List String}
    (h : Holds query pages texts) (h' : Holds query pages' texts') :
    Holds query (pages ++ pages') (texts ++ texts') where
  keys := by rw [List.flatMap_append, List.filter_append, h.keys, h'.keys]
  common_prefixes := by
    rw [List.flatMap_append, List.filter_append, h.common_prefixes, h'.common_prefixes]
  merged := by rw [List.flatMap_append, h.merged, h'.merged]

/-- **One answer**: the next texts after the marker, and how to go on. -/
theorem list_objects_page (hround : ∀ text, base64_decode (base64_encode text) = some text)
    (hwf : WellFormed db) (hbucket : bucket_exists db bucket = true)
    (hmax : list_max_keys query = .ok n) (hn : 0 < n) (hunmarked : Unmarked query)
    {after : String} {marker : Option String}
    (hcarries : Carries base64_encode query after marker) :
    ∃ page shown next, list_objects format_time base64_encode base64_decode db bucket
        (marked query marker) = .ok page
      ∧ Paging.IsPage (query_texts db bucket query) n after shown next
      ∧ Holds query [page] shown ∧ page.is_truncated = next.isSome
      ∧ ∀ after', next = some after' →
          ∃ token, next_marker query page = some token
            ∧ Carries base64_encode query after' (some token) := by
  obtain ⟨r, hrequest, hr₁, hr₂, hr₃, hr₄, hr₅, hr₆⟩ :=
    list_request_marked hround hbucket hmax hunmarked hcarries
  obtain ⟨shown, hpage, hcolumns, htruncated⟩ :=
    scanned_complete (r := r) hwf (by rw [hr₄]; exact hn)
  have htexts : r.texts db = query_texts db bucket query := by
    unfold ListRequest.texts query_texts
    rw [hr₁, hr₂, hr₃]
  have hcommon : r.is_common = query_common query := by
    funext t
    unfold ListRequest.is_common query_common
    rw [hr₂, hr₃]
  have hsorted : shown.Pairwise (· < ·) := by
    rw [hpage.taken]
    exact ((ListRequest.remaining_pairwise db).sublist (List.take_sublist _ _))
  rw [htexts, hr₄, hr₆] at hpage
  refine ⟨list_result format_time base64_encode r (scanned db r), shown, _, ?_, hpage, ?_,
    htruncated, fun after' hnext => ?_⟩
  · unfold list_objects
    rw [hrequest]
    rfl
  · have hkeys : (list_result format_time base64_encode r (scanned db r)).contents.map (·.key)
        = shown.filter fun t => !query_common query t := by
      rw [← hcommon, ← hcolumns.contents]
      exact List.map_map
    have hcommon' : (list_result format_time base64_encode r (scanned db r)).common_prefixes
        = shown.filter (query_common query) := by
      rw [← hcommon]
      exact hcolumns.common_prefixes
    refine ⟨by simp [hkeys], by simp [hcommon'], ?_⟩
    rw [List.flatMap_singleton, ListBucketResult.merged, hkeys, hcommon']
    exact Paging.insertionSort_columns hsorted _
  · unfold next_marker Carries
    by_cases hv2 : is_v2 query = true
    · rw [if_pos hv2]
      refine ⟨base64_encode after', ?_, (if_pos hv2).symm⟩
      simp [list_result, hr₅, hv2, hnext]
    · rw [if_neg hv2]
      refine ⟨after', ?_, (if_neg hv2).symm⟩
      simp [list_result, hr₅, hv2, hnext, htruncated]

section Following

variable (hround : ∀ text, base64_decode (base64_encode text) = some text)
  (hwf : WellFormed db) (hbucket : bucket_exists db bucket = true)
  (hmax : list_max_keys query = .ok n) (hn : 0 < n) (hunmarked : Unmarked query)

include hround hwf hbucket hmax hn hunmarked

/-- What the client has read when it stops: everything after the marker it started
from. -/
theorem follow_holds (fuel : ℕ) {after : String} {marker : Option String}
    {pages : List ListBucketResult} (hcarries : Carries base64_encode query after marker)
    (hfollow : follow format_time base64_encode base64_decode db bucket query fuel marker
      = some pages) :
    Holds query pages (Paging.remaining (query_texts db bucket query) after) := by
  induction fuel generalizing after marker pages with
  | zero => cases hfollow
  | succ fuel ih =>
      obtain ⟨page, shown, next, hpage, hispage, hholds, htruncated, hnext⟩ :
          ∃ page shown next, list_objects format_time base64_encode base64_decode db bucket
            (marked query marker) = .ok page ∧ _ :=
        list_objects_page hround hwf hbucket hmax hn hunmarked hcarries
      unfold follow at hfollow
      rw [hpage] at hfollow
      dsimp only at hfollow
      cases next with
      | none =>
          rw [htruncated, Option.isSome_none, if_neg (by decide)] at hfollow
          obtain rfl := Option.some.inj hfollow
          rw [← hispage.complete rfl]
          exact hholds
      | some after' =>
          obtain ⟨token, htoken, hcarries'⟩ := hnext after' rfl
          rw [htruncated, Option.isSome_some, if_pos rfl, htoken] at hfollow
          obtain ⟨rest, hrest, rfl⟩ := Option.map_eq_some_iff.mp hfollow
          rw [hispage.remaining_eq query_texts_pairwise]
          exact hholds.append (ih hcarries' hrest)

/-- Every page but the last leaves fewer texts for the next ones. -/
theorem follow_finishes (fuel : ℕ) {after : String} {marker : Option String}
    (hcarries : Carries base64_encode query after marker)
    (hfuel : (Paging.remaining (query_texts db bucket query) after).length < fuel) :
    ∃ pages, follow format_time base64_encode base64_decode db bucket query fuel marker
      = some pages := by
  induction fuel generalizing after marker with
  | zero => exact absurd hfuel (Nat.not_lt_zero _)
  | succ fuel ih =>
      obtain ⟨page, shown, next, hpage, hispage, hholds, htruncated, hnext⟩ :
          ∃ page shown next, list_objects format_time base64_encode base64_decode db bucket
            (marked query marker) = .ok page ∧ _ :=
        list_objects_page hround hwf hbucket hmax hn hunmarked hcarries
      unfold follow
      rw [hpage]
      dsimp only
      cases next with
      | none => exact ⟨[page], by rw [htruncated, Option.isSome_none, if_neg (by decide)]⟩
      | some after' =>
          obtain ⟨token, htoken, hcarries'⟩ := hnext after' rfl
          have hshown : 0 < shown.length := by
            rw [List.length_pos_iff]
            rintro rfl
            cases hispage.cursor rfl
          rw [hispage.remaining_eq query_texts_pairwise, List.length_append] at hfuel
          obtain ⟨rest, hrest⟩ := ih hcarries' (by omega)
          refine ⟨page :: rest, ?_⟩
          rw [htruncated, Option.isSome_some, if_pos rfl, htoken]
          dsimp only
          rw [hrest, Option.map_some]

end Following

end Pages

/-! ## The empty key -/

/-- A key has no object if no row has its name. -/
theorem object?_eq_none_iff {db : Database} {bucket key : String} :
    db.object? bucket key = none
      ↔ ¬ ∃ row ∈ db.objects, row.bucket = bucket ∧ row.object_key = key := by
  unfold Database.object?
  rw [lookup_eq_none, List.mem_map]
  refine not_congr (exists_congr fun row => and_congr_right fun _ => ?_)
  exact Prod.mk_inj

/-- No key is before the empty one. -/
theorem empty_le (s : String) : "" ≤ s := ((starts_with_iff "" s).mp List.nil_prefix).1

/-- Only the empty key shows the empty text. -/
theorem text_of_eq_empty {start delimiter key : String} (hstart : start.toList <+: key.toList)
    (h : text_of start delimiter key = "") : key = "" := by
  unfold text_of Paging.text at h
  dsimp only at h
  cases hcommon : common_prefix_of key start delimiter with
  | none => rwa [hcommon] at h
  | some common =>
      rw [hcommon, Option.getD_some] at h
      obtain ⟨hdel, x, y, -, htext, -⟩ := (common_prefix_of_eq_some_iff hstart).mp hcommon
      rw [h] at htext
      have hnil := List.append_eq_nil_iff.mp htext.symm
      exact absurd (String.toList_inj.mp (hnil.2.trans rfl)) hdel

/-- A request without a marker asks for what comes after the empty text. -/
theorem remaining_empty_eq_iff {db : Database} {bucket start delimiter : String} :
    Paging.remaining (all_texts db bucket start delimiter) "" = all_texts db bucket start delimiter
      ↔ start ≠ "" ∨ db.object? bucket "" = none := by
  unfold Paging.remaining
  rw [List.filter_eq_self, object?_eq_none_iff]
  constructor
  · intro hall
    by_contra hempty
    rw [not_or, not_not, not_not] at hempty
    obtain ⟨rfl, hrow⟩ := hempty
    have hstart : "".toList <+: "".toList := List.prefix_rfl
    have hle : text_of "" delimiter "" ≤ "" := (grouping "" delimiter).text_le hstart
    have hmem : "" ∈ all_texts db bucket "" delimiter :=
      mem_all_texts.mpr ⟨"", ⟨hrow, hstart⟩, le_antisymm hle (empty_le _)⟩
    have := hall "" hmem
    exact absurd (of_decide_eq_true this) (lt_irrefl _)
  · intro hcond t ht
    obtain ⟨key, hkey, rfl⟩ := mem_all_texts.mp ht
    rw [decide_eq_true_eq]
    refine lt_of_le_of_ne (empty_le _) (fun heq => ?_)
    obtain rfl := text_of_eq_empty hkey.2 heq.symm
    rcases hcond with hstart | hrow
    · exact hstart (le_antisymm ((starts_with_iff start "").mp hkey.2).1 (empty_le _))
    · exact hrow hkey.1

/-- **Paging is complete and exact** if and only if the listing has a prefix or the
bucket has no object with the empty key. The pages always end. -/
theorem pages_exact (format_time : Int → String) (base64_encode : String → String)
    (base64_decode : String → Option String)
    (hround : ∀ text, base64_decode (base64_encode text) = some text) (past : List Op)
    (bucket : String) (query : List (String × String)) (n : ℕ)
    (hbucket : bucket_exists (after past) bucket = true) (hmax : list_max_keys query = .ok n)
    (hn : 0 < n) (hunmarked : Unmarked query) :
    (∃ fuel pages,
        follow format_time base64_encode base64_decode (after past) bucket query fuel none
          = some pages
        ∧ Exact (after past) bucket ((query_value query "prefix").getD "")
            ((query_value query "delimiter").getD "") pages)
      ↔ (query_value query "prefix").getD "" ≠ ""
        ∨ (after past).object? bucket "" = none := by
  have hwf := wellFormed_after past
  have hcarries : Carries base64_encode query "" none := rfl
  constructor
  · rintro ⟨fuel, pages, hfollow, hexact⟩
    have hholds := follow_holds hround hwf hbucket hmax hn hunmarked fuel hcarries hfollow
    by_contra hempty
    rw [not_or, not_not, object?_eq_none_iff, not_not] at hempty
    have hmissing : "" ∉ pages.flatMap (·.contents.map (·.key)) := by
      rw [hholds.keys]
      intro hmem
      exact lt_irrefl _ (Paging.mem_remaining.mp (List.mem_filter.mp hmem).1).2
    refine hmissing ((hexact.keys "").mpr ⟨⟨hempty.2, ?_⟩, ?_⟩)
    · rw [hempty.1]
    · rintro ⟨hdel, x, y, h⟩
      have hnil := (List.append_eq_nil_iff.mp (List.append_eq_nil_iff.mp h.symm).1).2
      exact hdel (String.toList_inj.mp hnil)
  · intro hcond
    obtain ⟨pages, hfollow⟩ : ∃ pages, follow format_time base64_encode base64_decode (after past)
        bucket query _ _ = some pages :=
      follow_finishes hround hwf hbucket hmax hn hunmarked _ hcarries (Nat.lt_succ_self _)
    refine ⟨_, pages, hfollow, ?_⟩
    have hholds := follow_holds hround hwf hbucket hmax hn hunmarked _ hcarries hfollow
    unfold query_texts at hholds
    rw [remaining_empty_eq_iff.mpr hcond] at hholds
    exact exact_of_columns hholds.keys hholds.common_prefixes hholds.merged

/-! ## A bucket with groups, and one with the empty key -/

/-- Base64 on the text `a/` and its token. -/
def sample_base64 (text : String) : String :=
  if text = "a/" then "YS8=" else if text = "YS8=" then "a/" else text

/-- The sample encoding is its own inverse. -/
theorem sample_base64_sample_base64 (text : String) :
    sample_base64 (sample_base64 text) = text := by
  unfold sample_base64
  by_cases h₁ : text = "a/"
  · subst h₁
    decide
  by_cases h₂ : text = "YS8="
  · subst h₂
    decide
  simp [h₁, h₂]

/-- RFC 3339 on the first two seconds. -/
def sample_time (t : Int) : String :=
  if t = 1 then "1970-01-01T00:00:01Z" else "1970-01-01T00:00:00Z"

/-- The keys `a/x`, `a/y` and `k`. -/
def with_group : List Op :=
  put_first ++ [.copy_object 1 snapshot "b" "a/x" {} {}, .copy_object 1 snapshot "b" "a/y" {} {}]

def grouped_query : List (String × String) :=
  [("list-type", "2"), ("delimiter", "/"), ("max-keys", "1")]

/-- A listing with groups, page by page. -/
theorem pages_exact_of_groups :
    ∃ fuel pages, follow sample_time sample_base64 (fun token => some (sample_base64 token))
        (after with_group) "b" grouped_query fuel none = some pages
      ∧ Exact (after with_group) "b" "" "/" pages :=
  (pages_exact sample_time sample_base64 (fun token => some (sample_base64 token))
    (fun text => congrArg some (sample_base64_sample_base64 text)) with_group "b" grouped_query 1
    (by decide) (by decide) (by decide) (by decide)).mpr (Or.inr (by decide))

/-- The empty key next to `k`: it is what a request for the path `/b/` names. -/
def with_empty_key : List Op := put_first ++ [.copy_object 1 snapshot "b" "" {} {}]

/-- **A key that no listing shows**: the bucket has an object with the empty key, and a
listing without a prefix ends without it. -/
theorem empty_key_not_listed :
    Target.parse some { path := "/b/" } {} none = .ok { bucket := some "b", key := some "" }
      ∧ (Tg2s3.get_object (after with_empty_key) "b" "").isSome = true
      ∧ (follow sample_time sample_base64 (fun token => some (sample_base64 token))
          (after with_empty_key) "b" [] 1 none).map (·.map fun page => page.contents.map (·.key))
        = some [["k"]]
      ∧ ¬ ∃ fuel pages, follow sample_time sample_base64 (fun token => some (sample_base64 token))
          (after with_empty_key) "b" [] fuel none = some pages
        ∧ Exact (after with_empty_key) "b" "" "" pages := by
  refine ⟨by decide, by decide, by decide, ?_⟩
  rintro ⟨fuel, pages, hfollow, hexact⟩
  have hanswer : (list_objects sample_time sample_base64 (fun token => some (sample_base64 token))
      (after with_empty_key) "b" (marked [] none)).toOption.map
        (fun page => (page.is_truncated, page.contents.map (·.key))) = some (false, ["k"]) := by
    decide
  have hlisted : "" ∈ pages.flatMap (·.contents.map (·.key)) := by
    refine (hexact.keys "").mpr ⟨⟨by decide, List.prefix_rfl⟩, ?_⟩
    rintro ⟨hdel, -⟩
    exact hdel rfl
  cases fuel with
  | zero => cases hfollow
  | succ fuel =>
      unfold follow at hfollow
      cases hpage : list_objects sample_time sample_base64 (fun token => some (sample_base64 token))
          (after with_empty_key) "b" (marked [] none) with
      | error e => rw [hpage] at hanswer; cases hanswer
      | ok page =>
          rw [hpage] at hanswer hfollow
          obtain ⟨hlast, hkeys⟩ := Prod.mk.inj (Option.some.inj hanswer)
          dsimp only at hfollow
          rw [hlast, if_neg (by decide)] at hfollow
          obtain rfl := Option.some.inj hfollow
          rw [List.flatMap_singleton, hkeys] at hlisted
          exact absurd hlisted (by decide)

end Tg2s3.S3
