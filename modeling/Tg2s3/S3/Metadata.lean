/-
`metadata_from_headers` and `object_headers` of `src/s3.rs`: the metadata of an object,
from the request that stores it to the response that gives it back.

Five headers and everything under `x-amz-meta-` are stored. On the way in, a value that
is not visible ASCII is passed over without a word; of several lines with one name the
five headers keep the first and the user metadata keep the last. On the way out every
stored value is there again, under the same name. So what a request carried comes back
exactly if none of its lines had a value that could not be stored, and no two lines of
one name had different values (`Storable`). The signature check of the same server does
otherwise: there the lines of a header are joined, and a value that is no text is an
error.

The metadata lie in the row of the object: a PUT and a completed upload take them from the
row of their upload, a copy with `REPLACE` from its own headers (`Accepted`). The column
holds them as JSON; they are texts and a map of texts, and JSON gives them back as they
were.
-/
import Tg2s3.Staging
import Tg2s3.RoundTrip
import Tg2s3.Completion
import Tg2s3.S3.Copy
import Tg2s3.S3.GetObject

set_option autoImplicit false

namespace Tg2s3.S3

open Relational Machine

/-! ## Headers that are stored -/

/-- The headers with a field of their own. -/
def field_names : List String :=
  ["content-type", "content-disposition", "content-encoding", "cache-control", "expires"]

/-- A header that belongs to the object. -/
def Kept (name : String) : Prop :=
  name ∈ field_names ∨ "x-amz-meta-".toList <+: name.toList

instance (name : String) : Decidable (Kept name) := inferInstanceAs (Decidable (_ ∨ _))

/-- Every name is a token in lower case, as the `http` crate has it. -/
def Named (headers : HeaderMap) : Prop :=
  ∀ line ∈ headers.entries, header_name line.1 = some line.1

instance (headers : HeaderMap) : Decidable (Named headers) :=
  inferInstanceAs (Decidable (∀ line ∈ headers.entries, _))

/-- The response has the values of every stored header of the request, and no others. -/
def Returned (request response : HeaderMap) : Prop :=
  ∀ line ∈ request.entries, Kept line.1 →
    ∀ value, value ∈ response.get_all line.1 ↔ value ∈ request.get_all line.1

/-- Every line of a stored header is visible ASCII, and the lines of one name agree. -/
def Storable (headers : HeaderMap) : Prop :=
  ∀ line ∈ headers.entries, Kept line.1 → (to_str line.2).isSome = true
    ∧ ∀ other ∈ headers.entries, other.1 = line.1 → other.2 = line.2

instance (headers : HeaderMap) : Decidable (Storable headers) :=
  inferInstanceAs (Decidable (∀ line ∈ headers.entries, _))

/-- The values of a name are those of its lines. -/
theorem mem_get_all {headers : HeaderMap} {name : String} {value : HeaderValue} :
    value ∈ headers.get_all name ↔ (name, value) ∈ headers.entries := by
  unfold HeaderMap.get_all
  rw [List.mem_map]
  constructor
  · rintro ⟨line, hline, rfl⟩
    obtain ⟨hmem, hname⟩ := List.mem_filter.mp hline
    rw [← of_decide_eq_true hname]
    exact hmem
  · intro hmem
    exact ⟨(name, value), List.mem_filter.mpr ⟨hmem, decide_eq_true rfl⟩, rfl⟩

/-! ## What the request gives -/

/-- An insertion adds one entry and may replace another, but brings no third one. -/
theorem mem_btree_insert {name value : String} {user : List (String × String)}
    {entry : String × String} (h : entry ∈ btree_insert name value user) :
    entry = (name, value) ∨ entry ∈ user := by
  induction user with
  | nil => exact Or.inl (List.mem_singleton.mp h)
  | cons first user ih =>
      unfold btree_insert at h
      split_ifs at h
      · rcases List.mem_cons.mp h with h | h
        · exact Or.inl h
        · exact Or.inr (List.mem_cons_of_mem _ h)
      · rcases List.mem_cons.mp h with h | h
        · exact Or.inl h
        · exact Or.inr h
      · rcases List.mem_cons.mp h with h | h
        · exact Or.inr (List.mem_cons.mpr (Or.inl h))
        · exact (ih h).imp_right (List.mem_cons_of_mem _)

/-- The name is there afterwards, and no other one has gone. -/
theorem name_mem_btree_insert (name value : String) (user : List (String × String)) (n : String) :
    n ∈ (btree_insert name value user).map Prod.fst ↔ n = name ∨ n ∈ user.map Prod.fst := by
  induction user with
  | nil => exact List.mem_cons
  | cons first user ih =>
      unfold btree_insert
      split_ifs with heq hlt
      · rw [List.map_cons, List.map_cons, List.mem_cons, List.mem_cons, heq]
        exact ⟨fun h => h.imp_right Or.inr, fun h => h.elim Or.inl id⟩
      · rw [List.map_cons, List.mem_cons]
      · rw [List.map_cons, List.mem_cons, ih, List.map_cons, List.mem_cons, or_left_comm]

/-- The line gives this entry. -/
def Gives (line : String × HeaderValue) (entry : String × String) : Prop :=
  "x-amz-meta-" ++ entry.1 = line.1 ∧ to_str line.2 = some entry.2

/-- What it means for a line to give an entry: its name has the prefix, and its value is visible
ASCII. -/
theorem gives_iff {line : String × HeaderValue} {name : List Char} {value : String} :
    Gives line (String.ofList name, value)
      ↔ "x-amz-meta-".toList.isPrefixOf? line.1.toList = some name
        ∧ to_str line.2 = some value := by
  unfold Gives
  rw [List.isPrefixOf?_eq_some_iff_append_eq, ← String.toList_inj, String.toList_append]
  rw [String.toList_ofList (l := name)]

/-- One turn of the loop over the headers. -/
def keep_line (user : List (String × String)) (line : String × HeaderValue) :
    List (String × String) :=
  match "x-amz-meta-".toList.isPrefixOf? line.1.toList, to_str line.2 with
  | some name, some value => btree_insert (String.ofList name) value user
  | _, _ => user

/-- A line gives one entry or none. -/
theorem keep_line_cases (user : List (String × String)) (line : String × HeaderValue) :
    (∃ entry, Gives line entry ∧ keep_line user line = btree_insert entry.1 entry.2 user)
      ∨ (∀ entry, ¬ Gives line entry) ∧ keep_line user line = user := by
  cases hname : "x-amz-meta-".toList.isPrefixOf? line.1.toList with
  | none =>
      refine Or.inr ⟨fun entry hgives => ?_, by unfold keep_line; rw [hname]⟩
      obtain ⟨n, value⟩ := entry
      rw [← String.ofList_toList (s := n)] at hgives
      have h := (gives_iff.mp hgives).1
      rw [hname] at h
      cases h
  | some name =>
      cases hvalue : to_str line.2 with
      | none =>
          refine Or.inr ⟨fun entry hgives => ?_, by unfold keep_line; rw [hname, hvalue]⟩
          have h := hgives.2
          rw [hvalue] at h
          cases h
      | some value =>
          refine Or.inl ⟨(String.ofList name, value), gives_iff.mpr ⟨hname, hvalue⟩, ?_⟩
          unfold keep_line
          rw [hname, hvalue]

/-- A line gives one entry at most. -/
theorem Gives.unique {line : String × HeaderValue} {entry entry' : String × String}
    (h : Gives line entry) (h' : Gives line entry') : entry = entry' := by
  have hname : entry.1 = entry'.1 := by
    have heq := congrArg String.toList (h.1.trans h'.1.symm)
    rw [String.toList_append, String.toList_append] at heq
    exact String.toList_inj.mp (List.append_cancel_left heq)
  exact Prod.ext hname (Option.some.inj (h.2.symm.trans h'.2))

/-- An entry comes from the map the loop starts with or from a line. -/
theorem mem_keep_lines {lines : List (String × HeaderValue)} {user : List (String × String)}
    {entry : String × String} (h : entry ∈ lines.foldl keep_line user) :
    entry ∈ user ∨ ∃ line ∈ lines, Gives line entry := by
  induction lines generalizing user with
  | nil => exact Or.inl h
  | cons line lines ih =>
      rcases ih h with hmem | ⟨line', hline', hgives⟩
      · rcases keep_line_cases user line with ⟨given, hgives, heq⟩ | ⟨-, heq⟩
        · rw [heq] at hmem
          rcases mem_btree_insert hmem with rfl | hmem
          · exact Or.inr ⟨line, List.mem_cons_self, hgives⟩
          · exact Or.inl hmem
        · rw [heq] at hmem
          exact Or.inl hmem
      · exact Or.inr ⟨line', List.mem_cons_of_mem _ hline', hgives⟩

/-- What a line gives has an entry, if perhaps with the value of a later line. -/
theorem name_mem_keep_lines {lines : List (String × HeaderValue)} {user : List (String × String)}
    {n : String}
    (h : n ∈ user.map Prod.fst ∨ ∃ line ∈ lines, ∃ value, Gives line (n, value)) :
    n ∈ (lines.foldl keep_line user).map Prod.fst := by
  induction lines generalizing user with
  | nil =>
      rcases h with h | ⟨line, hline, -⟩
      · exact h
      · cases hline
  | cons line lines ih =>
      refine ih ?_
      have hstep : n ∈ user.map Prod.fst ∨ (∃ value, Gives line (n, value)) →
          n ∈ (keep_line user line).map Prod.fst := by
        intro hn
        rcases keep_line_cases user line with ⟨given, hgives, heq⟩ | ⟨hno, heq⟩
        · rw [heq, name_mem_btree_insert]
          rcases hn with hn | ⟨value, hvalue⟩
          · exact Or.inr hn
          · exact Or.inl (congrArg Prod.fst (hvalue.unique hgives))
        · rw [heq]
          exact hn.elim id fun ⟨value, hvalue⟩ => absurd hvalue (hno _)
      rcases h with h | ⟨line', hline', hvalue⟩
      · exact Or.inl (hstep (Or.inl h))
      · rcases List.mem_cons.mp hline' with rfl | hline'
        · exact Or.inl (hstep (Or.inr hvalue))
        · exact Or.inr ⟨line', hline', hvalue⟩

/-! ## What the response has -/

/-- An insertion replaces all values of its name, and no others. -/
theorem get_all_insert (headers : HeaderMap) (name n : String) (value : HeaderValue) :
    (headers.insert name value).get_all n = if name = n then [value] else headers.get_all n := by
  unfold HeaderMap.get_all HeaderMap.insert
  rw [List.filter_append, List.map_append, List.filter_filter]
  by_cases h : name = n
  · subst h
    simp
  · have hkept : headers.entries.filter (fun e => decide (e.1 = n) && decide (e.1 ≠ name))
        = headers.entries.filter fun e => decide (e.1 = n) := by
      refine List.filter_congr (fun e _ => ?_)
      by_cases he : e.1 = n
      · simp [he, Ne.symm h]
      · simp [he]
    rw [hkept]
    simp [h]

/-- No name has two values. -/
def Single (headers : HeaderMap) : Prop := ∀ n, headers.get_all n = (headers.get n).toList

/-- So the names stay single. -/
theorem Single.insert {headers : HeaderMap} (h : Single headers) (name : String)
    (value : HeaderValue) : Single (headers.insert name value) := by
  intro n
  rw [get_all_insert, get_insert]
  split_ifs
  · rfl
  · exact h n

/-- As they do if the value cannot be sent, and nothing is inserted. -/
theorem Single.insert_header {headers : HeaderMap} (h : Single headers) (name value : String) :
    Single (insert_header headers name value) := by
  unfold S3.insert_header
  cases from_str value with
  | none => exact h
  | some value => exact h.insert name value

/-- Or if there is no value. -/
theorem Single.insert_optional {headers : HeaderMap} (h : Single headers) (name : String)
    (value : Option String) : Single (insert_optional headers name value) := by
  cases value with
  | none => exact h
  | some value => exact h.insert_header name value

/-- A header of user metadata is inserted, or its name or its value is none. -/
theorem insert_dynamic_cases (headers : HeaderMap) (name value : String) :
    (∃ n v, header_name name = some n ∧ from_str value = some v
        ∧ insert_dynamic_header headers name value = headers.insert n v)
      ∨ (header_name name = none ∨ from_str value = none)
        ∧ insert_dynamic_header headers name value = headers := by
  unfold insert_dynamic_header
  cases hname : header_name name with
  | none => exact Or.inr ⟨Or.inl rfl, rfl⟩
  | some n =>
      cases hvalue : from_str value with
      | none => exact Or.inr ⟨Or.inr rfl, rfl⟩
      | some v => exact Or.inl ⟨n, v, rfl, rfl, rfl⟩

/-- Or if the name is no token. -/
theorem Single.insert_dynamic {headers : HeaderMap} (h : Single headers) (name value : String) :
    Single (insert_dynamic_header headers name value) := by
  rcases insert_dynamic_cases headers name value with ⟨n, v, -, -, heq⟩ | ⟨-, heq⟩
  · rw [heq]
    exact h.insert n v
  · rw [heq]
    exact h

/-- The user metadata over the headers that are there. -/
def user_headers (headers : HeaderMap) (user : List (String × String)) : HeaderMap :=
  user.foldl (fun headers entry =>
    insert_dynamic_header headers ("x-amz-meta-" ++ entry.1) entry.2) headers

/-- And therefore when the headers of the user go in one by one. -/
theorem Single.user_headers {headers : HeaderMap} (h : Single headers)
    (user : List (String × String)) : Single (user_headers headers user) := by
  induction user generalizing headers with
  | nil => exact h
  | cons entry user ih => exact ih (h.insert_dynamic _ _)

/-- A value of the response was there before, or is that of an entry. -/
theorem get_user_some {headers : HeaderMap} {user : List (String × String)} {n : String}
    {value : HeaderValue} (h : (user_headers headers user).get n = some value) :
    headers.get n = some value ∨ ∃ entry ∈ user,
      header_name ("x-amz-meta-" ++ entry.1) = some n ∧ from_str entry.2 = some value := by
  induction user generalizing headers with
  | nil => exact Or.inl h
  | cons entry user ih =>
      rcases ih h with hget | ⟨entry', hmem, hentry'⟩
      · dsimp only at hget
        rcases insert_dynamic_cases headers ("x-amz-meta-" ++ entry.1) entry.2 with
          ⟨name, v, hname, hv, heq⟩ | ⟨-, heq⟩
        · rw [heq, get_insert] at hget
          by_cases hn : name = n
          · rw [if_pos hn] at hget
            rw [hn] at hname
            exact Or.inr ⟨entry, List.mem_cons_self, hname, hv.trans hget⟩
          · rw [if_neg hn] at hget
            exact Or.inl hget
        · rw [heq] at hget
          exact Or.inl hget
      · exact Or.inr ⟨entry', List.mem_cons_of_mem _ hmem, hentry'⟩

/-- An entry that can be sent gives its header some value. -/
theorem get_user_isSome {headers : HeaderMap} {user : List (String × String)} {n : String}
    (h : (headers.get n).isSome = true ∨ ∃ entry ∈ user,
      header_name ("x-amz-meta-" ++ entry.1) = some n ∧ (from_str entry.2).isSome = true) :
    ((user_headers headers user).get n).isSome = true := by
  induction user generalizing headers with
  | nil =>
      rcases h with h | ⟨entry, hmem, -⟩
      · exact h
      · cases hmem
  | cons entry user ih =>
      refine ih ?_
      have hstep : (headers.get n).isSome = true
            ∨ header_name ("x-amz-meta-" ++ entry.1) = some n
              ∧ (from_str entry.2).isSome = true →
          ((insert_dynamic_header headers ("x-amz-meta-" ++ entry.1) entry.2).get n).isSome
            = true := by
        intro hn
        rcases insert_dynamic_cases headers ("x-amz-meta-" ++ entry.1) entry.2 with
          ⟨name, v, hname, -, heq⟩ | ⟨hno, heq⟩
        · rw [heq, get_insert]
          by_cases hsame : name = n
          · rw [if_pos hsame]
            rfl
          · rw [if_neg hsame]
            refine hn.resolve_right fun hentry => hsame ?_
            exact Option.some.inj (hname.symm.trans hentry.1)
        · rw [heq]
          refine hn.resolve_right fun hentry => ?_
          rcases hno with hno | hno
          · rw [hno] at hentry
            cases hentry.1
          · rw [hno] at hentry
            cases hentry.2
      rcases h with h | ⟨entry', hmem, hentry'⟩
      · exact Or.inl (hstep (Or.inl h))
      · rcases List.mem_cons.mp hmem with rfl | hmem
        · exact Or.inl (hstep (Or.inr hentry'))
        · exact Or.inr ⟨entry', hmem, hentry'⟩

/-- A header that was not there has the value that is inserted. -/
theorem get_insert_header_self {headers : HeaderMap} {name : String} (value : String)
    (h : headers.get name = none) : (insert_header headers name value).get name = from_str value := by
  unfold insert_header
  cases from_str value with
  | none => exact h
  | some value =>
      dsimp only
      rw [get_insert, if_pos rfl]

/-- If there is a value. -/
theorem get_insert_optional_self {headers : HeaderMap} {name : String} (value : Option String)
    (h : headers.get name = none) :
    (insert_optional headers name value).get name = value.bind from_str := by
  cases value with
  | none => exact h
  | some value => exact get_insert_header_self value h

/-- What the record has for a header with a field of its own. -/
def field_text (metadata : ObjectMetadata) (name : String) : Option String :=
  if name = "content-type" then
    some (metadata.content_type.getD "application/octet-stream")
  else if name = "content-disposition" then metadata.content_disposition
  else if name = "content-encoding" then metadata.content_encoding
  else if name = "cache-control" then metadata.cache_control
  else if name = "expires" then metadata.expires
  else none

section Object

variable (fmt_http_date : Int → String) (object : ObjectRecord) (length start stop : Int)

/-- The headers of the response in front of the user metadata. -/
def field_headers : HeaderMap :=
  let headers := insert_header {} "etag" (quoted object.etag)
  let headers := insert_header headers "last-modified" (fmt_http_date (max object.modified_at 0))
  let headers := insert_header headers "content-length" (toString length)
  let headers := insert_header headers "accept-ranges" "bytes"
  let headers := insert_header headers "content-type"
    (object.metadata.content_type.getD "application/octet-stream")
  let headers := insert_optional headers "content-disposition" object.metadata.content_disposition
  let headers := insert_optional headers "content-encoding" object.metadata.content_encoding
  let headers := insert_optional headers "cache-control" object.metadata.cache_control
  insert_optional headers "expires" object.metadata.expires

/-- The headers of an object are those of its fields and those of the user; the range adds one
name, and no stored header has it. -/
theorem get_object_headers {n : String} (hn : "content-range" ≠ n) (partial_content : Bool) :
    (object_headers fmt_http_date object length start stop partial_content).get n
      = (user_headers (field_headers fmt_http_date object length) object.metadata.user).get n := by
  cases partial_content with
  | false => rfl
  | true => exact get_insert_header _ _ hn

/-- Each name stands once in the headers of an object, since all of them are inserted and none
appended. -/
theorem single_object_headers (partial_content : Bool) :
    Single (object_headers fmt_http_date object length start stop partial_content) := by
  have hempty : Single {} := fun _ => rfl
  have hfields : Single (field_headers fmt_http_date object length) :=
    ((((((((hempty.insert_header _ _).insert_header _ _).insert_header _ _).insert_header _ _
      ).insert_header _ _).insert_optional _ _).insert_optional _ _).insert_optional _ _
      ).insert_optional _ _
  have huser := hfields.user_headers object.metadata.user
  cases partial_content with
  | false => exact huser
  | true => exact huser.insert_header _ _

/-- A field that was stored is sent under its own name, if its text can be. -/
theorem get_field_headers {name : String} (hname : name ∈ field_names) :
    (field_headers fmt_http_date object length).get name
      = (field_text object.metadata name).bind from_str := by
  unfold field_headers
  simp only [field_names, List.mem_cons, List.not_mem_nil, or_false] at hname
  rcases hname with rfl | rfl | rfl | rfl | rfl
  · simp (disch := decide) only [get_insert_optional]
    exact get_insert_header_self _ (by simp (disch := decide) only [get_insert_header]; rfl)
  · simp (disch := decide) only [get_insert_optional]
    exact get_insert_optional_self _ (by simp (disch := decide) only [get_insert_header]; rfl)
  · simp (disch := decide) only [get_insert_optional]
    exact get_insert_optional_self _ (by
      simp (disch := decide) only [get_insert_optional, get_insert_header]; rfl)
  · simp (disch := decide) only [get_insert_optional]
    exact get_insert_optional_self _ (by
      simp (disch := decide) only [get_insert_optional, get_insert_header]; rfl)
  · exact get_insert_optional_self _ (by
      simp (disch := decide) only [get_insert_optional, get_insert_header]; rfl)

/-- Nothing else of the response looks like user metadata. -/
theorem get_field_headers_user {n : String} (hn : n.toList.head? = some 'x') :
    (field_headers fmt_http_date object length).get n = none := by
  have hne : ∀ name : String, name.toList.head? ≠ some 'x' → name ≠ n := by
    rintro name hname rfl
    exact hname hn
  unfold field_headers
  dsimp only
  rw [get_insert_optional _ _ (hne _ (by decide)), get_insert_optional _ _ (hne _ (by decide)),
    get_insert_optional _ _ (hne _ (by decide)), get_insert_optional _ _ (hne _ (by decide)),
    get_insert_header _ _ (hne _ (by decide)), get_insert_header _ _ (hne _ (by decide)),
    get_insert_header _ _ (hne _ (by decide)), get_insert_header _ _ (hne _ (by decide)),
    get_insert_header _ _ (hne _ (by decide))]
  rfl

end Object

/-! ## There and back -/

/-- A field has the text of its header, if it has one. -/
theorem field_text_of_headers (request : HeaderMap) {name : String} (hname : name ∈ field_names) :
    field_text (metadata_from_headers request) name = request.text name
      ∨ request.text name = none
        ∧ field_text (metadata_from_headers request) name = some "application/octet-stream" := by
  simp only [field_names, List.mem_cons, List.not_mem_nil, or_false] at hname
  rcases hname with rfl | rfl | rfl | rfl | rfl
  · cases htext : request.text "content-type" with
    | none =>
        refine Or.inr ⟨rfl, ?_⟩
        unfold field_text metadata_from_headers
        rw [if_pos rfl, htext]
        rfl
    | some text =>
        refine Or.inl ?_
        unfold field_text metadata_from_headers
        rw [if_pos rfl, htext]
        rfl
  · exact Or.inl rfl
  · exact Or.inl rfl
  · exact Or.inl rfl
  · exact Or.inl rfl

/-- A name that has a line has a first one. -/
theorem exists_get {headers : HeaderMap} {line : String × HeaderValue}
    (h : line ∈ headers.entries) :
    ∃ value, headers.get line.1 = some value ∧ (line.1, value) ∈ headers.entries := by
  have hmem : line.2 ∈ headers.get_all line.1 := mem_get_all.mpr h
  cases hall : headers.get_all line.1 with
  | nil =>
      rw [hall] at hmem
      cases hmem
  | cons value values =>
      refine ⟨value, ?_, mem_get_all.mp ?_⟩
      · unfold HeaderMap.get
        rw [hall]
        rfl
      · rw [hall]
        exact List.mem_cons_self

/-- A stored name is that of a field, or begins with an x. So it is none of those that the server
sets itself. -/
theorem Kept.head {name : String} (h : Kept name) :
    name ∈ field_names ∨ name.toList.head? = some 'x' := by
  refine h.imp_right ?_
  rintro ⟨rest, hrest⟩
  rw [← hrest]
  rfl

section Returned

variable {fmt_http_date : Int → String} {object : ObjectRecord} {request : HeaderMap}
  (hmetadata : object.metadata = metadata_from_headers request)
  (length start stop : Int)
include hmetadata

/-- What a stored header of the response has is visible ASCII: it was read off a request, or it
is the default. -/
theorem isSome_of_get_object_headers {name : String} (hname : Kept name) {value : HeaderValue}
    {partial_content : Bool}
    (h : (object_headers fmt_http_date object length start stop partial_content).get name
      = some value) : (to_str value).isSome = true := by
  rcases hname.head with hfield | hhead
  · have hrange : "content-range" ≠ name := by
      rintro rfl
      exact absurd hfield (by decide)
    have hnot : name.toList.head? ≠ some 'x' := by
      have hall : ∀ n ∈ field_names, n.toList.head? ≠ some 'x' := by decide
      exact hall name hfield
    rw [get_object_headers _ _ _ _ _ hrange] at h
    unfold user_headers at h
    rw [get_user_headers _ _ hnot, get_field_headers _ _ _ hfield, hmetadata] at h
    rcases field_text_of_headers request hfield with htext | ⟨-, hdefault⟩
    · rw [htext] at h
      obtain ⟨text, hsome, hvalue⟩ := Option.bind_eq_some_iff.mp h
      obtain ⟨value', -, hto⟩ := Option.bind_eq_some_iff.mp hsome
      rw [from_str_of_to_str hto] at hvalue
      rw [← Option.some.inj hvalue, hto]
      rfl
    · rw [hdefault, Option.bind_some, from_str_of_printable (printable_of_all (by decide))] at h
      rw [← Option.some.inj h, to_str_ascii (printable_of_all (by decide))]
      rfl
  · have hrange : "content-range" ≠ name := by
      rintro rfl
      exact absurd hhead (by decide)
    rw [get_object_headers _ _ _ _ _ hrange] at h
    rcases get_user_some h with hnone | ⟨entry, hentry, -, hvalue⟩
    · rw [get_field_headers_user _ _ _ hhead] at hnone
      cases hnone
    · rw [hmetadata] at hentry
      rcases mem_keep_lines hentry with hnil | ⟨line, -, -, hto⟩
      · cases hnil
      · rw [from_str_of_to_str hto] at hvalue
        rw [← Option.some.inj hvalue, hto]
        rfl

/-- A stored header of the request is in the response, with the value of its lines. -/
theorem get_object_headers_line (hnamed : Named request) (hstorable : Storable request)
    {line : String × HeaderValue} (hline : line ∈ request.entries) (hname : Kept line.1)
    (partial_content : Bool) :
    (object_headers fmt_http_date object length start stop partial_content).get line.1
      = some line.2 := by
  obtain ⟨hsome, hsame⟩ := hstorable line hline hname
  obtain ⟨text, htext⟩ := Option.isSome_iff_exists.mp hsome
  rcases hname with hfield | ⟨rest, hrest⟩
  · have hrange : "content-range" ≠ line.1 := by
      intro heq
      rw [← heq] at hfield
      exact absurd hfield (by decide)
    have hnot : line.1.toList.head? ≠ some 'x' := by
      have hall : ∀ n ∈ field_names, n.toList.head? ≠ some 'x' := by decide
      exact hall line.1 hfield
    obtain ⟨value, hget, hvalue⟩ := exists_get hline
    have hrequest : request.text line.1 = some text := by
      have hsame' : value = line.2 := hsame (line.1, value) hvalue rfl
      unfold HeaderMap.text
      rw [hget, hsame']
      exact htext
    rw [get_object_headers _ _ _ _ _ hrange]
    unfold user_headers
    rw [get_user_headers _ _ hnot, get_field_headers _ _ _ hfield, hmetadata]
    rcases field_text_of_headers request hfield with hfound | ⟨hnone, -⟩
    · rw [hfound, hrequest]
      exact from_str_of_to_str htext
    · rw [hrequest] at hnone
      cases hnone
  · have hhead : line.1.toList.head? = some 'x' := by
      rw [← hrest]
      rfl
    have hrange : "content-range" ≠ line.1 := by
      intro heq
      rw [← heq] at hhead
      exact absurd hhead (by decide)
    -- the line gives an entry of its name, with the value of some line of the name
    have hgives : Gives line (String.ofList rest, text) :=
      gives_iff.mpr ⟨List.isPrefixOf?_eq_some_iff_append_eq.mpr hrest, htext⟩
    have hkept : String.ofList rest ∈ (user_metadata request).map Prod.fst :=
      name_mem_keep_lines (Or.inr ⟨line, hline, text, hgives⟩)
    obtain ⟨entry, hentry, hkey⟩ := List.mem_map.mp hkept
    have hheader : header_name ("x-amz-meta-" ++ entry.1) = some line.1 := by
      rw [hkey, hgives.1]
      exact hnamed line hline
    have hsent : (from_str entry.2).isSome = true := by
      rcases mem_keep_lines hentry with hnil | ⟨line', -, -, hto⟩
      · cases hnil
      · rw [from_str_of_to_str hto]
        rfl
    have hthere : ((user_headers (field_headers fmt_http_date object length)
        (user_metadata request)).get line.1).isSome = true :=
      get_user_isSome (Or.inr ⟨entry, hentry, hheader, hsent⟩)
    obtain ⟨value, hvalue⟩ := Option.isSome_iff_exists.mp hthere
    rw [get_object_headers _ _ _ _ _ hrange, hmetadata]
    refine hvalue.trans (congrArg some ?_)
    rcases get_user_some hvalue with hnone | ⟨entry', hentry', hheader', hfrom⟩
    · rw [get_field_headers_user _ _ _ hhead] at hnone
      cases hnone
    · rcases mem_keep_lines hentry' with hnil | ⟨line', hline', hgives'⟩
      · cases hnil
      · rw [hgives'.1, hnamed line' hline'] at hheader'
        rw [from_str_of_to_str hgives'.2] at hfrom
        rw [← Option.some.inj hfrom]
        exact hsame line' hline' (Option.some.inj hheader')

/-- **What a request carried comes back if and only if it could be stored.** -/
theorem returned_iff (hnamed : Named request) {response : HeaderMap} {partial_content : Bool}
    (hresponse : ∀ name, Kept name → response.get_all name
      = (object_headers fmt_http_date object length start stop partial_content).get_all name) :
    Returned request response ↔ Storable request := by
  have hsingle := single_object_headers fmt_http_date object length start stop partial_content
  constructor
  · intro hreturned line hline hname
    have hmem : ∀ other ∈ request.entries, other.1 = line.1 →
        (object_headers fmt_http_date object length start stop partial_content).get line.1
          = some other.2 := by
      intro other hother heq
      have hvalue : other.2 ∈ request.get_all line.1 := by
        rw [← heq]
        exact mem_get_all.mpr hother
      have hthere := (hreturned line hline hname other.2).mpr hvalue
      rw [hresponse _ hname, hsingle] at hthere
      exact Option.mem_toList.mp hthere
    have hget := hmem line hline rfl
    refine ⟨isSome_of_get_object_headers hmetadata length start stop hname hget, ?_⟩
    intro other hother heq
    exact Option.some.inj ((hmem other hother heq).symm.trans hget)
  · intro hstorable line hline hname value
    rw [hresponse _ hname, hsingle,
      get_object_headers_line hmetadata length start stop hnamed hstorable hline hname,
      Option.mem_toList, Option.some.injEq, mem_get_all]
    constructor
    · rintro rfl
      exact hline
    · intro hmem
      exact ((hstorable line hline hname).2 (line.1, value) hmem rfl).symm

end Returned

/-! ## Requests that store metadata -/

/-- The upload of a commit gives the object its metadata. -/
theorem metadata_committed {db db' : Database} {r : Answers.Reread} {now : Int}
    {upload_id : String} {size : Int} {etag : String} {parts : List PartRecord}
    {condition : ObjectCondition} {object : ObjectRecord} {released : List BlockRef}
    (hwf : WellFormed db)
    (h : Answers.commit_upload db r now upload_id size etag parts condition
      = (db', .ok (some (object, released)))) :
    ∃ upload row, db.upload? upload_id = some upload
      ∧ db'.object? upload.bucket upload.key = some row ∧ row.metadata = upload.metadata := by
  unfold Answers.commit_upload at h
  cases htx : commit_upload_tx db now upload_id size etag parts condition with
  | error e =>
      rw [htx] at h
      cases (Prod.mk.inj h).2
  | ok result =>
      obtain ⟨db₁, answer⟩ := result
      rw [htx] at h
      cases answer with
      | none => cases (Prod.mk.inj h).2
      | some pair =>
          obtain ⟨upload, freed⟩ := pair
          have hcommitted := commit_upload_tx_ok htx
          rw [← (Prod.mk.inj h).1]
          exact ⟨upload, _, hcommitted.upload_row, (hcommitted.object hwf).1, rfl⟩

/-- An upload keeps its row as long as it has one, when no other upload is given its id. -/
theorem upload_kept {db : Database} {upload found : UploadRecord} {ops : List Op}
    (hother : ∀ op ∈ ops, ∀ u, op = .create_upload u → u.upload_id ≠ upload.upload_id)
    (hrow : ∀ u ∈ db.multipart_uploads, u.upload_id = upload.upload_id → u = upload)
    (hfound : (exec Op.apply db ops).upload? upload.upload_id = some found) : found = upload := by
  induction ops generalizing db with
  | nil =>
      obtain ⟨hmem, hid⟩ := lookup_mem hfound
      exact hrow found hmem hid
  | cons op ops ih =>
      refine ih (fun op' hop' => hother op' (List.mem_cons_of_mem _ hop')) ?_ hfound
      intro u hu hid
      by_cases hcreate : ∃ created, op = .create_upload created
      · obtain ⟨created, rfl⟩ := hcreate
        rcases Staging.uploads_create_upload db created u hu with hu | rfl
        · exact hrow u hu hid
        · exact absurd hid (hother _ List.mem_cons_self u rfl)
      · refine hrow u (uploads_apply db op ?_ hu) hid
        intro created heq
        exact hcreate ⟨created, heq⟩

/-- After an upload was created no other has its id. -/
theorem created_alone {db : Database} {upload : UploadRecord}
    (h : (create_upload db upload).2 = .ok ()) :
    ∀ u ∈ (Op.apply db (.create_upload upload)).multipart_uploads,
      u.upload_id = upload.upload_id → u = upload := by
  intro u hu hid
  change u ∈ (create_upload db upload).1.multipart_uploads at hu
  unfold create_upload at h hu
  -- an id that is in use is refused, and then nothing was created
  cases hbody : (do
      require (upload.bucket ∈ db.buckets.map (·.name)) .no_such_bucket
      let db ← db.insert_upload upload
      pure (db, ()) : Except DbError (Database × Unit)) with
  | error e =>
      rw [hbody] at h
      cases h
  | ok result =>
      rw [hbody] at hu
      obtain ⟨_, -, hrest⟩ := bind_ok.mp hbody
      obtain ⟨db₁, hinsert, hresult⟩ := bind_ok.mp hrest
      obtain rfl := Except.ok.inj hresult
      obtain ⟨rfl, hnew⟩ := insert_upload_ok hinsert
      rcases List.mem_append.mp hu with hu | hu
      · exact absurd (List.mem_map.mpr ⟨u, hu, hid⟩) hnew
      · exact List.mem_singleton.mp hu

/-- The upload that a request with these headers makes; `upload_id` is the fresh UUID. -/
def new_upload (kind : UploadKind) (upload_id bucket key : String) (now : Int)
    (headers : HeaderMap) : UploadRecord where
  upload_id := upload_id
  bucket := bucket
  key := key
  metadata := metadata_from_headers headers
  kind := kind
  created_at := now

section Accepted

variable (percent_decode : String → Option String)

/-- A request with these headers was accepted and has left its object in this state: a PUT, a
multipart upload that was initiated and, whatever was done in between, completed, or a copy that
replaces the metadata. -/
inductive Accepted (headers : HeaderMap) : Database → String → String → Prop
  | put {past : List Op} {env : Transfer.Env} {upload_id bucket key : String}
      {body : Transfer.Body} {expected_length : Option Int} {condition : ObjectCondition}
      {db' : Database} {object : ObjectRecord} :
      Transfer.put_object env (after past) upload_id bucket key body
        (metadata_from_headers headers) expected_length condition = (db', .ok object) →
      Accepted headers db' bucket key
  | multipart {past between : List Op} {upload_id bucket key : String} {created : Int}
      {md5 : List UInt8 → List UInt8} {max_object_size : Int}
      {upload_state rows_state blocks_state : Database} {r : Answers.Reread} {now : Int}
      {requested : List (Int × String)} {db' : Database} {object : ObjectRecord} :
      (create_upload (after past)
        (new_upload .multipart upload_id bucket key created headers)).2 = .ok () →
      (∀ op ∈ between, ∀ u, op = .create_upload u → u.upload_id ≠ upload_id) →
      Completion.complete_multipart md5 max_object_size upload_state rows_state blocks_state
        (after (past ++ .create_upload (new_upload .multipart upload_id bucket key created headers)
          :: between)) r now upload_id requested = (db', .ok object) →
      Accepted headers db' bucket key
  | copy {past : List Op} {r : CopyRun} {now : Int} {bucket key source : String}
      {condition : ObjectCondition} {db' : Database} {object : ObjectRecord} :
      replaces_metadata headers = true →
      copy_object percent_decode (after past) r now bucket key source headers condition
        = (db', .ok object) →
      Accepted headers db' bucket key

variable {percent_decode}

/-- The row of the object has what the record of the headers says. -/
theorem Accepted.metadata {headers : HeaderMap} {db' : Database} {bucket key : String}
    (h : Accepted percent_decode headers db' bucket key) :
    ∃ row, get_object_row db' bucket key = some row
      ∧ row.metadata = metadata_from_headers headers := by
  cases h with
  | @put past env upload_id _ _ body expected_length condition _ object hput =>
      obtain ⟨db₁, hwf₁, hupload, -, hbody⟩ :=
        Transfer.put_object_creates hput (wellFormed_after past)
      change Transfer.put_body env db₁
        (new_upload .put upload_id bucket key env.now headers).upload_id _ _ _ = _ at hbody
      obtain ⟨-, db₂, -, part, size, -, -, -, hwf₂, hrow, -, -, freed, hanswer⟩ :=
        Transfer.put_body_commits hbody hwf₁ hupload
      obtain ⟨upload, row, hfound, hobject, hmetadata⟩ := metadata_committed hwf₂ hanswer
      obtain rfl := Option.some.inj (hfound.symm.trans hrow)
      exact ⟨row, hobject, hmetadata⟩
  | @multipart past between upload_id _ _ created md5 max_object_size upload_state rows_state
      blocks_state r now requested _ object hcreate hother hcomplete =>
      have hwf := wellFormed_after (past
        ++ .create_upload (new_upload .multipart upload_id bucket key created headers) :: between)
      unfold Completion.complete_multipart at hcomplete
      split at hcomplete
      · cases (Prod.mk.inj hcomplete).2
      · split at hcomplete
        · rename_i hanswer
          obtain ⟨rfl, -⟩ := Prod.mk.inj hcomplete
          obtain ⟨upload, row, hfound, hobject, hmetadata⟩ := metadata_committed hwf hanswer
          -- the upload that is completed is the one that was initiated
          rw [after, exec_append, exec_cons] at hfound
          obtain rfl : upload = new_upload .multipart upload_id bucket key created headers :=
            upload_kept hother (created_alone hcreate) hfound
          exact ⟨row, hobject, hmetadata⟩
        · cases (Prod.mk.inj hcomplete).2
        · cases (Prod.mk.inj hcomplete).2
  | @copy past r now _ _ source condition _ object hreplaces hcopy =>
      obtain ⟨source_bucket, source_key, before, v, hanswered⟩ := copy_object_ok hcopy
      obtain ⟨released, htx⟩ := hanswered.committed
      have hwf : WellFormed (r.commit_state (after past)) :=
        r.wellFormed_commit (wellFormed_after past)
      have hobject := ((copy_object_tx_ok htx).object hwf).1
      rw [if_pos hreplaces] at hobject
      exact ⟨_, hobject, rfl⟩

/-- What `get_object` adds for an empty object is none of the stored headers. -/
theorem stored_headers_of_get_object {fmt_http_date : Int → String}
    {parse_http_date : String → Option Int} {telegram : Download.Telegram} {object : ObjectRecord}
    {request : HeaderMap} {head_only : Bool} {response : Response}
    (h : get_object fmt_http_date parse_http_date telegram (.ok object) request head_only
      = .ok response) :
    ∃ length start stop partial_content, ∀ name, Kept name → response.headers.get_all name
      = (object_headers fmt_http_date object length start stop partial_content).get_all name := by
  unfold get_object at h
  obtain ⟨object', hobject, h⟩ := bind_ok.mp h
  obtain rfl := Except.ok.inj hobject
  obtain ⟨_, -, h⟩ := bind_ok.mp h
  obtain ⟨⟨start, stop, partial_content⟩, -, h⟩ := bind_ok.mp h
  rw [← Except.ok.inj h]
  refine ⟨saturating_add (saturating_sub stop start) 1, start, stop, partial_content,
    fun name hname => ?_⟩
  dsimp only
  split_ifs with hempty
  · have hlength : "content-length" ≠ name := by
      rintro rfl
      exact absurd hname (by decide)
    rw [get_all_insert, if_neg hlength]
  · rfl

/-- **What a request carried comes back if and only if it could be stored**: every line of
a stored header is visible ASCII, and the lines of one name agree. The object is read as
long as it is the one that the request left. -/
theorem metadata_survives (percent_decode : String → Option String)
    (fmt_http_date : Int → String) (parse_http_date : String → Option Int)
    (telegram : Download.Telegram) (headers : HeaderMap) (db' : Database) (bucket key : String)
    (l : Load)
    (request : HeaderMap) (head_only : Bool) (response : Response) (hnamed : Named headers)
    (haccepted : Accepted percent_decode headers db' bucket key)
    (hsame : get_object_row (l.row_state db') bucket key = get_object_row db' bucket key)
    (hget : get_object fmt_http_date parse_http_date telegram (l.get_object db' bucket key)
      request head_only = .ok response) :
    Returned headers response.headers ↔ Storable headers := by
  obtain ⟨row, hrow, hmetadata⟩ := haccepted.metadata
  cases hload : l.get_object db' bucket key with
  | error e =>
      rw [hload] at hget
      cases hget
  | ok object =>
      rw [hload] at hget
      obtain ⟨row', hrow', rfl, -⟩ := Load.get_object_ok hload
      rw [hsame, hrow] at hrow'
      obtain rfl := Option.some.inj hrow'
      obtain ⟨length, start, stop, partial_content, hheaders⟩ := stored_headers_of_get_object hget
      exact returned_iff hmetadata length start stop hnamed hheaders

end Accepted

/-! ## Two copies -/

section Copies

open Tg2s3.Counts (put_first)

def no_telegram : Download.Telegram where
  file := fun _ _ _ => .error (.telegram "")
  document := fun _ => .error (.telegram "")

/-- The object is copied to another key with the metadata of this request, and read there. -/
def copied (headers : HeaderMap) : Database × Except S3Error ObjectRecord :=
  copy_object some (after put_first) {} 3 "b" "c" "/b/k" headers {}

def read_copy (db : Database) : Except S3Error Response :=
  get_object (fun _ => "") (fun _ => none) no_telegram (({} : Load).get_object db "b" "c") {} true

def one_value : HeaderMap where
  entries := [("x-amz-metadata-directive", ascii "REPLACE"), ("expires", ascii "0"),
    ("x-amz-meta-a", ascii "1")]

/-- An object with a header of the user is stored, copied and read. -/
theorem metadata_survives_copy :
    ∃ db' object response, copied one_value = (db', .ok object)
      ∧ read_copy db' = .ok response ∧ Returned one_value response.headers := by
  have hanswer : (copied one_value).2.isOk = true
      ∧ (read_copy (copied one_value).1).isOk = true := by decide
  have hsame : get_object_row (({} : Load).row_state (copied one_value).1) "b" "c"
      = get_object_row (copied one_value).1 "b" "c" := rfl
  cases hcopy : copied one_value with
  | mk db' result =>
      rw [hcopy] at hanswer hsame
      cases result with
      | error e => cases hanswer.1
      | ok object =>
          cases hread : read_copy db' with
          | error e =>
              rw [hread] at hanswer
              cases hanswer.2
          | ok response =>
              refine ⟨db', object, response, rfl, hread, ?_⟩
              exact (metadata_survives some (fun _ => "") (fun _ => none) no_telegram one_value db'
                "b" "c" {} {} true response (by decide) (.copy (by decide) hcopy) hsame
                hread).mpr (by decide)

/-- Two values of one name, and one that is not ASCII. -/
def three_values : HeaderMap where
  entries := [("x-amz-metadata-directive", ascii "REPLACE"), ("x-amz-meta-a", ascii "1"),
    ("x-amz-meta-a", ascii "2"), ("x-amz-meta-b", utf8 "é")]

/-- **Metadata of an accepted request gets lost**: the first value of the name that came twice,
and the whole header whose value is not ASCII. -/
theorem metadata_lost :
    ∃ db' object response, copied three_values = (db', .ok object)
      ∧ read_copy db' = .ok response
      ∧ Accepted some three_values db' "b" "c" ∧ Named three_values
      ∧ response.headers.get_all "x-amz-meta-a" = [ascii "2"]
      ∧ response.headers.get_all "x-amz-meta-b" = []
      ∧ ¬ Returned three_values response.headers := by
  have hanswer : (copied three_values).2.isOk = true
      ∧ (read_copy (copied three_values).1).toOption.map (fun response =>
          (response.headers.get_all "x-amz-meta-a", response.headers.get_all "x-amz-meta-b"))
        = some ([ascii "2"], []) := by
    decide
  cases hcopy : copied three_values with
  | mk db' result =>
      rw [hcopy] at hanswer
      cases result with
      | error e => cases hanswer.1
      | ok object =>
          cases hread : read_copy db' with
          | error e =>
              rw [hread] at hanswer
              cases hanswer.2
          | ok response =>
              rw [hread] at hanswer
              obtain ⟨hrepeated, hnot_ascii⟩ := Prod.mk.inj (Option.some.inj hanswer.2)
              refine ⟨db', object, response, rfl, hread, .copy (by decide) hcopy, by decide,
                hrepeated, hnot_ascii, fun hreturned => ?_⟩
              have hfirst := (hreturned ("x-amz-meta-a", ascii "1") (by decide) (by decide)
                (ascii "1")).mpr (by decide)
              rw [hrepeated] at hfirst
              exact absurd hfirst (by decide)

end Copies

end Tg2s3.S3
