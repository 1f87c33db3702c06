/-
`src/s3/xml.rs`: the values the server answers with, how serde lays them out as
elements, and `with_namespace`, which puts the S3 namespace into the text afterwards.

The serializer is `quick_xml`'s and not part of the repository. It is the compact
writer of the library: an element without content is one empty tag. How it escapes a
character is a parameter, with `Escapes` as all that is known of it. An empty list
leaves no element behind, an option that is skipped when absent neither, and an empty string an empty
element, or nothing at all where it is the text of its parent (`$text`). An option
without the attribute that skips it is an empty element when absent.

`with_namespace` searches the first `>`. In an empty tag that `>` is the second half
of `/>`, and the attribute ends up behind the slash.
-/
import Tg2s3.Lib.Xml
import Tg2s3.S3.List

set_option autoImplicit false

namespace Tg2s3.S3

open Xml

def XMLNS : String := "http://s3.amazonaws.com/doc/2006-03-01/"

/-! ## Layout of fields -/

/-- The text of an element. -/
def text_content (value : String) : Content := if value = "" then .nil else .text value .nil

/-- A field that is a string, or is printed as one. -/
def field (name value : String) (rest : Content) : Content := .element name [] (text_content value) rest

/-- `skip_serializing_if = "Option::is_none"` -/
def optional (name : String) (value : Option String) (rest : Content) : Content :=
  match value with
  | some value => field name value rest
  | none => rest

/-- A field that is a list: one element for each entry. -/
def each {α : Type} (name : String) (entry : α → Content) (values : List α) (rest : Content) :
    Content :=
  values.foldr (fun value rest => .element name [] (entry value) rest) rest

def bool_text (b : Bool) : String := if b then "true" else "false"

/-! ## The values -/

structure BucketXml where
  name : String
  creation_date : String

structure ListAllMyBuckets where
  buckets : List BucketXml

structure BucketLocation where
  location : String

structure CorsRuleXml where
  allowed_origins : List String
  allowed_methods : List String
  allowed_headers : List String
  expose_headers : List String
  max_age_seconds : Option ℕ
deriving DecidableEq, Repr

structure CorsConfigurationXml where
  rules : List CorsRuleXml
deriving DecidableEq, Repr

structure InitiateMultipartUpload where
  bucket : String
  key : String
  upload_id : String

structure CompleteMultipartResult where
  location : String
  bucket : String
  key : String
  etag : String

structure CopyObjectResult where
  etag : String
  last_modified : String

structure PartXml where
  part_number : Int
  last_modified : String
  etag : String
  size : Int

structure ListPartsResult where
  bucket : String
  key : String
  upload_id : String
  parts : List PartXml

structure UploadXml where
  key : String
  upload_id : String
  initiated : String

structure ListMultipartUploadsResult where
  bucket : String
  uploads : List UploadXml

structure DeleteErrorXml where
  key : String
  code : String
  message : String

/-- `deleted` is absent in quiet mode. -/
structure DeleteResult where
  deleted : Option (List String)
  errors : List DeleteErrorXml

structure ErrorXml where
  code : String
  message : String
  resource : String
  request_id : String

/-- What `xml_response` and `error_response` are called with. -/
inductive Answer where
  | buckets (value : ListAllMyBuckets)
  | objects (value : ListBucketResult)
  | location (value : BucketLocation)
  | cors (value : CorsConfigurationXml)
  | initiated (value : InitiateMultipartUpload)
  | completed (value : CompleteMultipartResult)
  | copied (value : CopyObjectResult)
  | parts (value : ListPartsResult)
  | uploads (value : ListMultipartUploadsResult)
  | deleted (value : DeleteResult)
  | error (value : ErrorXml)

/-- The name serde gives the root: the `rename` of the type, or the type's own name. -/
def Answer.root : Answer → String
  | .buckets _ => "ListAllMyBucketsResult"
  | .objects _ => "ListBucketResult"
  | .location _ => "LocationConstraint"
  | .cors _ => "CORSConfiguration"
  | .initiated _ => "InitiateMultipartUploadResult"
  | .completed _ => "CompleteMultipartUploadResult"
  | .copied _ => "CopyObjectResult"
  | .parts _ => "ListPartsResult"
  | .uploads _ => "ListMultipartUploadsResult"
  | .deleted _ => "DeleteResult"
  | .error _ => "Error"

def BucketXml.fields (bucket : BucketXml) : Content :=
  field "Name" bucket.name (field "CreationDate" bucket.creation_date .nil)

def ObjectXml.fields (object : ObjectXml) : Content :=
  field "Key" object.key (field "LastModified" object.last_modified (field "ETag" object.etag
    (field "Size" (toString object.size) (field "StorageClass" object.storage_class .nil))))

def CorsRuleXml.fields (rule : CorsRuleXml) : Content :=
  each "AllowedOrigin" text_content rule.allowed_origins (each "AllowedMethod" text_content
    rule.allowed_methods (each "AllowedHeader" text_content rule.allowed_headers
      (each "ExposeHeader" text_content rule.expose_headers
        (field "MaxAgeSeconds" ((rule.max_age_seconds.map toString).getD "") .nil))))

def PartXml.fields (part : PartXml) : Content :=
  field "PartNumber" (toString part.part_number) (field "LastModified" part.last_modified
    (field "ETag" part.etag (field "Size" (toString part.size) .nil)))

def UploadXml.fields (upload : UploadXml) : Content :=
  field "Key" upload.key (field "UploadId" upload.upload_id
    (field "Initiated" upload.initiated .nil))

def DeleteErrorXml.fields (error : DeleteErrorXml) : Content :=
  field "Key" error.key (field "Code" error.code (field "Message" error.message .nil))

/-- The children of the root. The list of buckets has an element of its own, under the field's
name. -/
def Answer.fields : Answer → Content
  | .buckets value =>
      .element "buckets" [] (each "Bucket" BucketXml.fields value.buckets .nil) .nil
  | .objects value =>
      field "Name" value.name (field "Prefix" value.start (optional "Delimiter" value.delimiter
        (field "MaxKeys" (toString value.max_keys) (field "KeyCount" (toString value.key_count)
          (field "IsTruncated" (bool_text value.is_truncated) (optional "Marker" value.marker
            (optional "StartAfter" value.start_after
              (optional "ContinuationToken" value.continuation_token
                (optional "NextMarker" value.next_marker
                  (optional "NextContinuationToken" value.next_continuation_token
                    (each "Contents" ObjectXml.fields value.contents
                      (each "CommonPrefixes" (field "Prefix" · .nil)
                        value.common_prefixes .nil))))))))))))
  | .location value => text_content value.location
  | .cors value => each "CORSRule" CorsRuleXml.fields value.rules .nil
  | .initiated value =>
      field "Bucket" value.bucket (field "Key" value.key (field "UploadId" value.upload_id .nil))
  | .completed value =>
      field "Location" value.location (field "Bucket" value.bucket (field "Key" value.key
        (field "ETag" value.etag .nil)))
  | .copied value => field "ETag" value.etag (field "LastModified" value.last_modified .nil)
  | .parts value =>
      field "Bucket" value.bucket (field "Key" value.key (field "UploadId" value.upload_id
        (each "Part" PartXml.fields value.parts .nil)))
  | .uploads value =>
      field "Bucket" value.bucket (each "Upload" UploadXml.fields value.uploads .nil)
  | .deleted value =>
      each "Deleted" (field "Key" · .nil) (value.deleted.getD [])
        (each "Error" DeleteErrorXml.fields value.errors .nil)
  | .error value =>
      field "Code" value.code (field "Message" value.message (field "Resource" value.resource
        (field "RequestId" value.request_id .nil)))

/-! ## Serialization -/

/-- `quick_xml::se::to_string` -/
def to_string (escape : Char → List Char) (value : Answer) : List Char :=
  write escape (.element value.root [] value.fields .nil)

def with_namespace (xml : List Char) : List Char :=
  match xml.findIdx? (· = '>') with
  | some index =>
      xml.take index ++ " xmlns=\"".toList ++ XMLNS.toList ++ "\"".toList ++ xml.drop index
  | none => xml

/-- The body of `xml_response`, and of `error_response`. -/
def xml_response (escape : Char → List Char) (value : Answer) : List Char :=
  declaration ++ with_namespace (to_string escape value)

/-- The answer to `GET /bucket?location`. -/
def bucket_location (region : String) : Answer :=
  .location { location := if region = "us-east-1" then "" else region }

/-- The answer of `multi_delete`, after it went through the requested keys. -/
def delete_result (quiet : Bool) (deleted : List String) (errors : List DeleteErrorXml) : Answer :=
  .deleted { deleted := if quiet then none else some deleted, errors }

/-! ## What is serialized can be written -/

/-- A text can be written. -/
theorem writable_text_content (value : String) : (text_content value).Writable := by
  unfold text_content
  by_cases h : value = ""
  · rw [if_pos h]
    trivial
  · rw [if_neg h]
    refine ⟨?_, rfl, trivial⟩
    intro hnil
    exact h (String.toList_eq_nil_iff.mp hnil)

/-- So can a field, if its name is one. -/
theorem writable_field {name : String} (hname : is_name name.toList = true) (value : String)
    {rest : Content} (h : rest.Writable) : (field name value rest).Writable :=
  ⟨hname, ⟨by simp, List.nodup_nil⟩, writable_text_content value, h⟩

/-- And a field that may be missing. -/
theorem writable_optional {name : String} (hname : is_name name.toList = true)
    (value : Option String) {rest : Content} (h : rest.Writable) :
    (optional name value rest).Writable := by
  cases value with
  | none => exact h
  | some value => exact writable_field hname value h

/-- And one for each value of a list. -/
theorem writable_each {α : Type} {name : String} (hname : is_name name.toList = true)
    {entry : α → Content} (hentry : ∀ value, (entry value).Writable) (values : List α)
    {rest : Content} (h : rest.Writable) : (each name entry values rest).Writable := by
  induction values with
  | nil => exact h
  | cons value values ih => exact ⟨hname, ⟨by simp, List.nodup_nil⟩, hentry value, ih⟩

/-- So the fields of each answer can be written: their names are written down in the source, and
are names. -/
theorem writable_fields (value : Answer) : value.fields.Writable := by
  cases value with
  | buckets value =>
      refine ⟨by decide, ⟨by simp, List.nodup_nil⟩, ?_, trivial⟩
      refine writable_each (by decide) (fun bucket => ?_) _ trivial
      exact writable_field (by decide) _ (writable_field (by decide) _ trivial)
  | objects value =>
      refine writable_field (by decide) _ (writable_field (by decide) _
        (writable_optional (by decide) _ (writable_field (by decide) _ (writable_field (by decide) _
        (writable_field (by decide) _ (writable_optional (by decide) _
        (writable_optional (by decide) _ (writable_optional (by decide) _
        (writable_optional (by decide) _ (writable_optional (by decide) _
        (writable_each (by decide) (fun object => ?_) _
        (writable_each (by decide) (fun common_prefix => ?_) _ trivial))))))))))))
      · exact writable_field (by decide) _ (writable_field (by decide) _
          (writable_field (by decide) _ (writable_field (by decide) _
          (writable_field (by decide) _ trivial))))
      · exact writable_field (by decide) _ trivial
  | location value => exact writable_text_content value.location
  | cors value =>
      refine writable_each (by decide) (fun rule => ?_) _ trivial
      exact writable_each (by decide) writable_text_content _ (writable_each (by decide)
        writable_text_content _ (writable_each (by decide) writable_text_content _
        (writable_each (by decide) writable_text_content _ (writable_field (by decide) _ trivial))))
  | initiated value =>
      exact writable_field (by decide) _ (writable_field (by decide) _
        (writable_field (by decide) _ trivial))
  | completed value =>
      exact writable_field (by decide) _ (writable_field (by decide) _
        (writable_field (by decide) _ (writable_field (by decide) _ trivial)))
  | copied value => exact writable_field (by decide) _ (writable_field (by decide) _ trivial)
  | parts value =>
      refine writable_field (by decide) _ (writable_field (by decide) _
        (writable_field (by decide) _ (writable_each (by decide) (fun part => ?_) _ trivial)))
      exact writable_field (by decide) _ (writable_field (by decide) _
        (writable_field (by decide) _ (writable_field (by decide) _ trivial)))
  | uploads value =>
      refine writable_field (by decide) _ (writable_each (by decide) (fun upload => ?_) _ trivial)
      exact writable_field (by decide) _ (writable_field (by decide) _
        (writable_field (by decide) _ trivial))
  | deleted value =>
      refine writable_each (by decide) (fun key => ?_) _
        (writable_each (by decide) (fun error => ?_) _ trivial)
      · exact writable_field (by decide) _ trivial
      · exact writable_field (by decide) _ (writable_field (by decide) _
          (writable_field (by decide) _ trivial))
  | error value =>
      exact writable_field (by decide) _ (writable_field (by decide) _
        (writable_field (by decide) _ (writable_field (by decide) _ trivial)))

/-- And so is the name of its root. -/
theorem is_name_root (value : Answer) : is_name value.root.toList = true := by
  cases value <;> simp only [Answer.root] <;> decide

/-- The values whose root element has something in it. -/
def Answer.HasContent : Answer → Prop
  | .location value => value.location ≠ ""
  | .cors value => value.rules ≠ []
  | .deleted value => value.deleted.getD [] ≠ [] ∨ value.errors ≠ []
  | _ => True

/-- A list without entries leaves the rest. -/
theorem each_eq_nil {α : Type} {name : String} {entry : α → Content} {values : List α}
    {rest : Content} : each name entry values rest = .nil ↔ values = [] ∧ rest = .nil := by
  cases values with
  | nil => simp [each]
  | cons => simp [each]

/-- **An answer without content** is one without a single field: a location, rules or a bulk
deletion may be empty, and nothing else. -/
theorem fields_eq_nil (value : Answer) : value.fields = .nil ↔ ¬ value.HasContent := by
  cases value with
  | location value =>
      by_cases h : value.location = "" <;> simp [Answer.fields, Answer.HasContent, text_content, h]
  | cors value => simp [Answer.fields, Answer.HasContent, each_eq_nil]
  | deleted value =>
      simp [Answer.fields, Answer.HasContent, each_eq_nil]
  | _ => simp [Answer.fields, Answer.HasContent, field]

/-! ## The namespace -/

/-- The splice, at the first `>`. -/
theorem with_namespace_append {a b : List Char} (ha : '>' ∉ a) :
    with_namespace (a ++ '>' :: b)
      = a ++ " xmlns=\"".toList ++ XMLNS.toList ++ "\"".toList ++ '>' :: b := by
  have hindex : (a ++ '>' :: b).findIdx? (· = '>') = some a.length := by
    rw [List.findIdx?_append, List.findIdx?_eq_none_iff.mpr]
    · simp [List.findIdx?_cons]
    · intro x hx
      exact decide_eq_false (ne_of_mem_of_not_mem hx ha)
  rw [with_namespace, hindex]
  simp

/-- Nothing in the namespace is escaped: none of its characters has an entity. -/
theorem escaped_xmlns {escape : Char → List Char} (hescape : Escapes escape) :
    XMLNS.toList.flatMap escape = XMLNS.toList := by
  have hplain : XMLNS.toList.all (fun c => c ∉ ['&', '<', '>', '"', '\'']) = true := by
    decide
  have hself : ∀ c ∈ XMLNS.toList, escape c = [c] := by
    intro c hc
    rcases hescape c with ⟨heq, -⟩ | ⟨name, hentity, -⟩
    · exact heq
    · have hmarkup := of_decide_eq_true (List.all_eq_true.mp hplain c hc)
      exact absurd (entity_eq_some hentity).1 hmarkup
  rw [List.flatMap_congr hself, List.flatMap_singleton']

/-- A tag ends at its first closing bracket, since the name has none. -/
theorem gt_not_mem_tag (value : Answer) : '>' ∉ '<' :: value.root.toList := by
  intro h
  rcases List.mem_cons.mp h with h | h
  · exact absurd h (by decide)
  · exact not_mem_name (is_name_root value) (by decide) h

/-- An answer with content leaves `with_namespace` as the same element with the attribute. -/
theorem with_namespace_of_content {escape : Char → List Char} (hescape : Escapes escape)
    {value : Answer} (h : value.HasContent) :
    with_namespace (to_string escape value)
      = write escape (.element value.root [("xmlns", XMLNS)] value.fields .nil) := by
  have hsome : write escape value.fields ≠ [] := by
    rw [Ne, write_eq_nil hescape (writable_fields value), fields_eq_nil, not_not]
    exact h
  have htext : to_string escape value = ('<' :: value.root.toList) ++ '>' ::
      (write escape value.fields ++ '<' :: '/' :: (value.root.toList ++ ['>'])) := by
    rw [to_string, write]
    simp only [if_neg hsome, write_attributes, List.flatMap_nil, List.nil_append, write,
      List.cons_append]
  rw [htext, with_namespace_append (gt_not_mem_tag value), write]
  simp only [if_neg hsome, write_attributes, List.flatMap_cons, List.flatMap_nil,
    escaped_xmlns hescape, write]
  simp

/-- An answer without content: the attribute stands behind the slash of the empty tag. -/
theorem with_namespace_of_empty {escape : Char → List Char} {value : Answer}
    (h : ¬ value.HasContent) :
    with_namespace (to_string escape value)
      = '<' :: (value.root.toList ++ '/' :: ' ' ::
        ("xmlns=\"".toList ++ XMLNS.toList ++ "\"".toList ++ ['>'])) := by
  have htext : to_string escape value = ('<' :: (value.root.toList ++ ['/'])) ++ '>' :: [] := by
    rw [to_string, write, (fields_eq_nil value).mpr h]
    simp [write, write_attributes]
  have hgt : '>' ∉ '<' :: (value.root.toList ++ ['/']) := by
    rw [← List.cons_append, List.mem_append, not_or]
    exact ⟨gt_not_mem_tag value, by decide⟩
  rw [htext, with_namespace_append hgt]
  simp

/-- Without content there is no document, whatever one looks for in it. -/
theorem not_document_of_empty {escape : Char → List Char} {value : Answer}
    (h : ¬ value.HasContent) (name : String) (attributes : List (String × String))
    (content : Content) :
    ¬ Document (with_namespace (to_string escape value)) name attributes content := by
  rw [with_namespace_of_empty h, document_iff_of_name (is_name_root value)]
  rintro ⟨-, hreads⟩
  exact not_reads_slash (is_name_root value) (by decide) hreads

/-- The namespace is one attribute. -/
theorem named_xmlns : Named [("xmlns", XMLNS)] := by
  refine ⟨fun entry h => ?_, by simp⟩
  rw [List.mem_singleton.mp h]
  exact ⟨by decide, by decide⟩

/-- Before the splice an answer is well-formed with or without content. -/
theorem document_to_string {escape : Char → List Char} (hescape : Escapes escape)
    (value : Answer) :
    Document (to_string escape value) value.root [] value.fields ↔ value.fields.Legal := by
  have hwritable : (Content.element value.root [] value.fields .nil).Writable :=
    ⟨is_name_root value, ⟨by simp, List.nodup_nil⟩, writable_fields value, trivial⟩
  have hlegal : (Content.element value.root [] value.fields .nil).Legal ↔ value.fields.Legal := by
    simp [Content.Legal]
  rw [to_string, ← hlegal, ← legal_write hescape hwritable]
  exact ⟨fun hdocument => hdocument.chars,
    fun hchars => ⟨hchars, _, .inl rfl, reads_write hescape hwritable⟩⟩

/-- **What the server answers is well-formed**, with the name, the children and the namespace at
the root, exactly when the root has content and the texts hold characters of XML only; with the
declaration in front as well as without. -/
theorem answer_well_formed (escape : Char → List Char) (value : Answer) (hescape : Escapes escape) :
    (Document (with_namespace (to_string escape value)) value.root [("xmlns", XMLNS)] value.fields
        ↔ value.HasContent ∧ value.fields.Legal)
      ∧ (Document (xml_response escape value) value.root [("xmlns", XMLNS)] value.fields
        ↔ value.HasContent ∧ value.fields.Legal) := by
  by_cases h : value.HasContent
  · have hwritable :
        (Content.element value.root [("xmlns", XMLNS)] value.fields .nil).Writable :=
      ⟨is_name_root value, named_xmlns, writable_fields value, trivial⟩
    have hlegal :
        (Content.element value.root [("xmlns", XMLNS)] value.fields .nil).Legal
          ↔ value.fields.Legal := by
      have hxmlns : ∀ c ∈ XMLNS.toList, is_char c = true :=
        List.all_eq_true.mp (by decide)
      simp only [Content.Legal, List.mem_singleton, forall_eq, and_true]
      exact and_iff_right hxmlns
    have hiff : Document (with_namespace (to_string escape value)) value.root
        [("xmlns", XMLNS)] value.fields ↔ value.fields.Legal := by
      rw [with_namespace_of_content hescape h, ← hlegal, ← legal_write hescape hwritable]
      exact ⟨fun hdocument => hdocument.chars,
        fun hchars => ⟨hchars, _, .inl rfl, reads_write hescape hwritable⟩⟩
    have hdeclared : Document (xml_response escape value) value.root
        [("xmlns", XMLNS)] value.fields ↔ value.fields.Legal := by
      rw [← hiff, xml_response, with_namespace_of_content hescape h, write]
      exact document_declaration (is_name_root value)
    exact ⟨by rw [hiff, and_iff_right h], by rw [hdeclared, and_iff_right h]⟩
  · have hno := @not_document_of_empty escape value h value.root [("xmlns", XMLNS)] value.fields
    have hdeclared : ¬ Document (xml_response escape value) value.root
        [("xmlns", XMLNS)] value.fields := by
      rw [with_namespace_of_empty h] at hno
      rw [xml_response, with_namespace_of_empty h, document_declaration (is_name_root value)]
      exact hno
    exact ⟨iff_of_false hno fun hand => h hand.1, iff_of_false hdeclared fun hand => h hand.1⟩

/-- What `quick_xml` does by default. -/
def escape_partial (c : Char) : List Char :=
  if c = '&' then "&amp;".toList
  else if c = '<' then "&lt;".toList
  else if c = '>' then "&gt;".toList
  else [c]

/-- The escaping of the sample is one: the three characters that matter in a text are written as
references. -/
theorem escapes_partial : Escapes escape_partial := by
  intro c
  unfold escape_partial
  split_ifs with hamp hlt hgt
  · exact .inr ⟨"amp".toList, by rw [hamp]; decide, by decide⟩
  · exact .inr ⟨"lt".toList, by rw [hlt]; decide, by decide⟩
  · exact .inr ⟨"gt".toList, by rw [hgt]; decide, by decide⟩
  · exact .inl ⟨rfl, hlt, hgt, hamp⟩

/-- The location of a bucket, with its namespace. -/
theorem answer_well_formed_location :
    Document (with_namespace (to_string escape_partial (bucket_location "eu-west-1")))
        "LocationConstraint" [("xmlns", XMLNS)] (.text "eu-west-1" .nil)
      ∧ Document (xml_response escape_partial (bucket_location "eu-west-1"))
        "LocationConstraint" [("xmlns", XMLNS)] (.text "eu-west-1" .nil) := by
  have hcontent : (bucket_location "eu-west-1").HasContent
      ∧ (bucket_location "eu-west-1").fields.Legal :=
    ⟨by simp [bucket_location, Answer.HasContent], List.all_eq_true.mp (by decide), trivial⟩
  exact ⟨(answer_well_formed _ (bucket_location "eu-west-1") escapes_partial).1.mpr hcontent,
    (answer_well_formed _ (bucket_location "eu-west-1") escapes_partial).2.mpr hcontent⟩

/-- The location of a bucket in `us-east-1`, and a quiet deletion without errors: neither answer
is a document. -/
theorem empty_answers_malformed :
    with_namespace (to_string escape_partial (bucket_location "us-east-1"))
        = "<LocationConstraint/ xmlns=\"http://s3.amazonaws.com/doc/2006-03-01/\">".toList
      ∧ (∀ name attributes content,
        ¬ Document (with_namespace (to_string escape_partial (bucket_location "us-east-1")))
          name attributes content)
      ∧ ∀ name attributes content,
        ¬ Document (with_namespace (to_string escape_partial (delete_result true ["k"] [])))
          name attributes content := by
  refine ⟨by decide, not_document_of_empty ?_, not_document_of_empty ?_⟩
  · simp [bucket_location, Answer.HasContent]
  · simp [delete_result, Answer.HasContent]

end Tg2s3.S3
