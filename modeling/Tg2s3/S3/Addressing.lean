/-
`src/s3/target.rs`, `src/config.rs`: the two ways to address an object, and whether
they name the same one.

A virtual-hosted request has its bucket in the host and its key in the path; a
path-style request has both in the path. `Target::parse` takes all slashes off the
start of the path before it knows which of the two it has. For a path-style request
that is the slash before the bucket; for a virtual-hosted one it is the slash before
the key and with it every slash the key itself begins with. At the other end, a
path-style path that stops after the slash behind the bucket has an empty key, where
the virtual-hosted one has none.

`Url::parse` and percent-decoding belong to other crates. Of the first, hosts without
slashes are used; of the second, that it undoes an encoding and leaves a text without
`%` alone.
-/
import Mathlib
import Tg2s3.S3.Request

set_option autoImplicit false

namespace Tg2s3.S3

/-! ## Names and hosts -/

/-- `validate_bucket` -/
def validate_bucket (bucket : String) : Except S3Error Unit :=
  ensure (¬ (bucket = "" ∨ 63 < bucket.utf8ByteSize
      ∨ bucket.toList.all (fun c => c.isAlphanum || c = '-' || c = '.') = false
      ∨ (bucket.toList.head?.any Char.isAlphanum) = false
      ∨ (bucket.toList.getLast?.any Char.isAlphanum) = false))
    .invalid_bucket_name

/-- What `normalize_public_host` reads of a URL. -/
structure Url where
  host_str : Option String
  port : Option ℕ
  path : String
  query : Option String
  fragment : Option String

def normalize_public_host (parse_url : String → Option Url) (value : Option String) :
    Except String (Option String) :=
  match value with
  | none => .ok none
  | some value =>
      let trimmed :=
        ((trim_matches is_whitespace value.toList).reverse.dropWhile (· = '/')).reverse
      let url_value := if "://".toList <:+: trimmed then trimmed else "http://".toList ++ trimmed
      match parse_url (String.ofList url_value) with
      | none => .error "parse TG2S3_PUBLIC_HOST"
      | some url =>
          if url.path ≠ "/" ∨ url.query.isSome ∨ url.fragment.isSome then
            .error "TG2S3_PUBLIC_HOST must be a host or URL without a path"
          else
            match url.host_str with
            | none => .error "TG2S3_PUBLIC_HOST has no host"
            | some host =>
                .ok (some (match url.port with
                  | some port => host ++ ":" ++ toString port
                  | none => host))

/-- A configured host has no slash in it. -/
theorem slash_not_mem_host {parse_url : String → Option Url} {value : Option String} {host : String}
    (hhosts : ∀ text url name, parse_url text = some url → url.host_str = some name →
      '/' ∉ name.toList)
    (h : normalize_public_host parse_url value = .ok (some host)) : '/' ∉ host.toList := by
  unfold normalize_public_host at h
  cases value with
  | none => cases h
  | some value =>
      dsimp only at h
      split at h
      · cases h
      · rename_i url hurl
        split_ifs at h
        all_goals
          cases hname : url.host_str with
          | none =>
              rw [hname] at h
              cases h
          | some name =>
              rw [hname] at h
              have hhost := hhosts _ url name hurl hname
              cases hport : url.port with
              | none =>
                  rw [hport] at h
                  obtain rfl := Option.some.inj (Except.ok.inj h)
                  exact hhost
              | some port =>
                  rw [hport] at h
                  obtain rfl := Option.some.inj (Except.ok.inj h)
                  rw [String.toList_append, String.toList_append, List.mem_append, List.mem_append]
                  rintro ((hmem | hmem) | hmem)
                  · exact hhost hmem
                  · exact absurd hmem (by decide)
                  · have hdigit : ('/').isDigit = true :=
                      Nat.isDigit_of_mem_toDigits (b := 10) (n := port) (by decide) (by decide)
                        (by simpa using hmem)
                    exact absurd hdigit (by decide)

/-- A valid name has neither a slash nor a percent sign, so it is decoded to itself. -/
theorem validate_bucket_ok {bucket : String} (h : validate_bucket bucket = .ok ()) :
    bucket ≠ "" ∧ ∀ c ∈ bucket.toList, c ≠ '/' ∧ c ≠ '%' := by
  have hvalid := ensure_ok.mp h
  simp only [not_or, Bool.not_eq_false] at hvalid
  obtain ⟨hne, -, hall, -⟩ := hvalid
  refine ⟨hne, fun c hc => ?_⟩
  have hchar := List.all_eq_true.mp hall c hc
  constructor <;> rintro rfl <;> exact absurd hchar (by decide)

/-! ## Encoded keys -/

/-- An encoding that leaves slashes as they are, with the decoding that undoes it. -/
structure Encodes (percent_decode : String → Option String) (encode : Char → List Char) : Prop where
  slash : encode '/' = ['/']
  other : ∀ c, c ≠ '/' → encode c ≠ [] ∧ '/' ∉ encode c
  decode : ∀ key : List Char,
    percent_decode (String.ofList (key.flatMap encode)) = some (String.ofList key)
  plain : ∀ text : String, '%' ∉ text.toList → percent_decode text = some text

/-- The path a key is encoded into. -/
def encoded (encode : Char → List Char) (key : String) : List Char := key.toList.flatMap encode

section Encoding

variable {percent_decode : String → Option String} {encode : Char → List Char}
  (h : Encodes percent_decode encode)

include h

/-- What was encoded is decoded again, character by character. -/
theorem decode_encoded (key : List Char) :
    decode_path percent_decode (key.flatMap encode) = .ok (String.ofList key) := by
  unfold decode_path
  rw [h.decode]

/-- No character is encoded as nothing. -/
theorem encode_ne_nil (c : Char) : encode c ≠ [] := by
  by_cases hc : c = '/'
  · rw [hc, h.slash]
    decide
  · exact (h.other c hc).1

/-- So only the empty key is. -/
theorem flatMap_encode_eq_nil {key : List Char} : key.flatMap encode = [] ↔ key = [] := by
  rw [List.flatMap_eq_nil_iff]
  constructor
  · intro hnil
    cases key with
    | nil => rfl
    | cons c key => exact absurd (hnil c List.mem_cons_self) (encode_ne_nil h c)
  · rintro rfl
    simp

/-- The slashes a path loses at its start are those of the key. -/
theorem trim_slashes_encoded (key : List Char) :
    trim_slashes (key.flatMap encode) = (trim_slashes key).flatMap encode := by
  unfold trim_slashes
  induction key with
  | nil => rfl
  | cons c key ih =>
      by_cases hc : c = '/'
      · rw [hc, List.flatMap_cons, h.slash, List.singleton_append]
        simpa using ih
      · obtain ⟨hne, hslash⟩ := h.other c hc
        rw [List.flatMap_cons, List.dropWhile_cons_of_neg (by simpa using hc), List.flatMap_cons]
        cases hencode : encode c with
        | nil => exact absurd hencode hne
        | cons x rest =>
            rw [hencode, List.mem_cons, not_or] at hslash
            rw [List.cons_append, List.dropWhile_cons_of_neg (by simpa using Ne.symm hslash.1)]

/-- A bucket in the path is read as it stands. -/
theorem decode_bucket {bucket : String} (hbucket : validate_bucket bucket = .ok ()) :
    decode_path percent_decode bucket.toList = .ok bucket := by
  unfold decode_path
  rw [String.ofList_toList,
    h.plain bucket fun hmem => ((validate_bucket_ok hbucket).2 '%' hmem).2 rfl]

end Encoding

/-! ## The two requests -/

section Requests

variable {percent_decode : String → Option String} {encode : Char → List Char}
  (hencode : Encodes percent_decode encode)
  {bucket host key : String} (hbucket : validate_bucket bucket = .ok ())
  (hhost : '/' ∉ host.toList) {headers : HeaderMap}

/-- The path of a virtual-hosted request. -/
def virtual_hosted_uri (encode : Char → List Char) (key : String) : Uri where
  path := String.ofList ('/' :: encoded encode key)

/-- The path of a path-style request. -/
def path_style_uri (encode : Char → List Char) (bucket key : String) : Uri where
  path := String.ofList ('/' :: (bucket.toList ++ '/' :: encoded encode key))

/-- A host without slashes keeps all of itself. -/
theorem trim_host (h : '/' ∉ host.toList) :
    (host.toList.reverse.dropWhile (· = '/')).reverse = host.toList := by
  have hhead : host.toList.reverse.dropWhile (· = '/') = host.toList.reverse := by
    cases hreverse : host.toList.reverse with
    | nil => rfl
    | cons c rest =>
        refine List.dropWhile_cons_of_neg ?_
        have hmem : c ∈ host.toList := by
          rw [← List.mem_reverse, hreverse]
          exact List.mem_cons_self
        simpa using ne_of_mem_of_not_mem hmem h
  rw [hhead, List.reverse_reverse]

include hencode hbucket hhost in
/-- **Virtual-hosted**: the key without the slashes it begins with, and no key when nothing is
left. -/
theorem virtual_hosted_target (htext : headers.text "host" = some (bucket ++ "." ++ host)) :
    Target.parse percent_decode (virtual_hosted_uri encode key) headers (some host)
      = .ok { bucket := some bucket,
              key := if trim_slashes key.toList = [] then none
                else some (String.ofList (trim_slashes key.toList)) } := by
  have hne : bucket ≠ "" := (validate_bucket_ok hbucket).1
  have hlist : (bucket ++ "." ++ host).toList = bucket.toList ++ '.' :: host.toList := by
    rw [String.toList_append, String.toList_append, List.append_assoc]
    rfl
  have hstrip : host_bucket (bucket ++ "." ++ host).toList host.toList = bucket.toList := by
    have hdot : (bucket.toList ++ ['.']) ++ host.toList = bucket.toList ++ '.' :: host.toList := by
      rw [List.append_assoc]
      rfl
    unfold host_bucket
    rw [hlist, List.isSuffixOf?_eq_some_iff_append_eq.mpr hdot, Option.bind_some,
      List.isSuffixOf?_eq_some_iff_append_eq.mpr rfl, Option.getD_some]
  have hother : (bucket ++ "." ++ host).toList ≠ host.toList := by
    intro heq
    have hlength := congrArg List.length heq
    rw [hlist, List.length_append, List.length_cons] at hlength
    omega
  have hpath : trim_slashes (virtual_hosted_uri encode key).path.toList
      = (trim_slashes key.toList).flatMap encode := by
    rw [← trim_slashes_encoded hencode, virtual_hosted_uri, String.toList_ofList, encoded]
    unfold trim_slashes
    rw [List.dropWhile_cons_of_pos (by decide)]
  have hsome : host_bucket (bucket ++ "." ++ host).toList host.toList ≠ [] := by
    rw [hstrip]
    exact fun hnil => hne (String.toList_eq_nil_iff.mp hnil)
  unfold Target.parse
  rw [htext, Option.getD_some, hpath]
  dsimp only
  rw [trim_host hhost, if_pos ⟨hother, hsome⟩, hstrip, String.ofList_toList]
  by_cases hnil : trim_slashes key.toList = []
  · rw [if_pos ((flatMap_encode_eq_nil hencode).mpr hnil), if_pos hnil]
  · rw [if_neg (mt (flatMap_encode_eq_nil hencode).mp hnil), if_neg hnil,
      decode_encoded hencode]
    rfl

include hencode hbucket hhost in
/-- **Path-style**: the key as it is, an empty one too. -/
theorem path_style_target (htext : headers.text "host" = some host) :
    Target.parse percent_decode (path_style_uri encode bucket key) headers (some host)
      = .ok { bucket := some bucket, key := some key } := by
  obtain ⟨hne, hchars⟩ := validate_bucket_ok hbucket
  have hslash : '/' ∉ bucket.toList := fun hmem => (hchars '/' hmem).1 rfl
  have hpath : trim_slashes (path_style_uri encode bucket key).path.toList
      = bucket.toList ++ '/' :: encoded encode key := by
    rw [path_style_uri, String.toList_ofList]
    unfold trim_slashes
    rw [List.dropWhile_cons_of_pos (by decide)]
    cases hlist : bucket.toList with
    | nil => exact absurd (String.toList_eq_nil_iff.mp hlist) hne
    | cons c rest =>
        rw [hlist, List.mem_cons, not_or] at hslash
        rw [List.cons_append, List.dropWhile_cons_of_neg (by simpa using Ne.symm hslash.1)]
  have hsplit : split_once '/' (bucket.toList ++ '/' :: encoded encode key)
      = some (bucket.toList, encoded encode key) :=
    split_once_eq_some_iff.mpr ⟨rfl, hslash⟩
  unfold Target.parse
  rw [htext, Option.getD_some, hpath]
  dsimp only
  rw [trim_host hhost, if_neg fun h => h.1 rfl]
  unfold path_target
  rw [if_neg (by simp), hsplit]
  dsimp only
  rw [decode_bucket hencode hbucket, encoded, decode_encoded hencode, String.ofList_toList]
  rfl

end Requests

/-- **The two ways name the same target**, the key itself or the bucket when there is no key,
exactly for keys that are not empty and do not begin with a slash. -/
theorem addressing_agrees {percent_decode : String → Option String} {encode : Char → List Char}
    {parse_url : String → Option Url} {value : Option String} {bucket host key : String}
    {host_headers bucket_headers : HeaderMap} (hencode : Encodes percent_decode encode)
    (hhosts : ∀ text url name, parse_url text = some url → url.host_str = some name →
      '/' ∉ name.toList)
    (hconfig : normalize_public_host parse_url value = .ok (some host))
    (hbucket : validate_bucket bucket = .ok ())
    (hvirtual : bucket_headers.text "host" = some (bucket ++ "." ++ host))
    (hpath : host_headers.text "host" = some host) :
    (Target.parse percent_decode (virtual_hosted_uri encode key) bucket_headers (some host)
          = Target.parse percent_decode (path_style_uri encode bucket key) host_headers (some host)
        ∧ Target.parse percent_decode (path_style_uri encode bucket key) host_headers (some host)
          = .ok { bucket := some bucket, key := if key = "" then none else some key })
      ↔ key ≠ "" ∧ key.toList.head? ≠ some '/' := by
  have hhost := slash_not_mem_host hhosts hconfig
  rw [virtual_hosted_target hencode hbucket hhost hvirtual,
    path_style_target hencode hbucket hhost hpath]
  by_cases hempty : key = ""
  · refine iff_of_false ?_ fun h => h.1 hempty
    rintro ⟨-, h⟩
    rw [if_pos hempty] at h
    cases h
  · rw [if_neg hempty, and_iff_left rfl, and_iff_right hempty]
    obtain ⟨c, rest, hkey⟩ := List.exists_cons_of_ne_nil (mt String.toList_eq_nil_iff.mp hempty)
    rw [hkey, List.head?_cons]
    by_cases hc : c = '/'
    · refine iff_of_false ?_ fun h => h (by rw [hc])
      intro h
      -- what is left of the key is shorter by a slash at least
      have hlt : (trim_slashes (c :: rest)).length < (c :: rest).length := by
        unfold trim_slashes
        rw [List.dropWhile_cons_of_pos (by simpa using hc), List.length_cons]
        exact Nat.lt_succ_of_le (List.dropWhile_suffix _).length_le
      split_ifs at h
      · cases h
      · have hsame : String.ofList (trim_slashes (c :: rest)) = key := by
          simpa using h
        have hlist := congrArg String.toList hsame
        rw [String.toList_ofList, hkey] at hlist
        rw [hlist] at hlt
        exact absurd hlt (lt_irrefl _)
    · refine iff_of_true ?_ fun h => hc (Option.some.inj h)
      have htrim : trim_slashes (c :: rest) = c :: rest :=
        List.dropWhile_cons_of_neg (by simpa using hc)
      rw [htrim, if_neg (List.cons_ne_nil _ _), ← hkey, String.ofList_toList]

/-! ## A server at `s3.example:9000` -/

/-- An encoding of `%` alone. -/
def encode_percent (c : Char) : List Char := if c = '%' then ['%', '2', '5'] else [c]

def decode_percent : List Char → List Char
  | '%' :: '2' :: '5' :: rest => '%' :: decode_percent rest
  | c :: rest => c :: decode_percent rest
  | [] => []

/-- Characters other than the percent sign stand for themselves. -/
theorem decode_percent_cons {c : Char} (hc : c ≠ '%') (rest : List Char) :
    decode_percent (c :: rest) = c :: decode_percent rest := by
  rw [decode_percent]
  rintro r rfl
  exact absurd rfl hc

/-- The sample encoding writes the percent sign as a triplet. -/
theorem encodes_percent :
    Encodes (fun text => some (String.ofList (decode_percent text.toList))) encode_percent where
  slash := by decide
  other := by
    intro c hc
    unfold encode_percent
    split_ifs
    · decide
    · simp [Ne.symm hc]
  decode := by
    intro key
    rw [String.toList_ofList]
    congr 2
    induction key with
    | nil => rfl
    | cons c key ih =>
        rw [List.flatMap_cons]
        by_cases hc : c = '%'
        · rw [hc]
          change '%' :: decode_percent (key.flatMap encode_percent) = _
          rw [ih]
        · rw [encode_percent, if_neg hc, List.singleton_append, decode_percent_cons hc, ih]
  plain := by
    intro text htext
    congr 1
    rw [← String.toList_inj, String.toList_ofList]
    generalize text.toList = l at htext
    induction l with
    | nil => rfl
    | cons c l ih =>
        rw [List.mem_cons, not_or] at htext
        rw [decode_percent_cons (Ne.symm htext.1), ih htext.2]

/-- The URL the host is configured with, parsed. -/
def sample_url (text : String) : Option Url :=
  if text = "http://s3.example:9000" then
    some { host_str := some "s3.example", port := some 9000, path := "/", query := none,
           fragment := none }
  else none

def host_header (host : String) : HeaderMap := { entries := [("host", ascii host)] }

/-- A key with a percent sign, in both styles. -/
theorem addressing_agrees_sample :
    Target.parse (fun text => some (String.ofList (decode_percent text.toList)))
        (virtual_hosted_uri encode_percent "50%/a") (host_header "b.s3.example:9000")
        (some "s3.example:9000")
      = Target.parse (fun text => some (String.ofList (decode_percent text.toList)))
        (path_style_uri encode_percent "b" "50%/a") (host_header "s3.example:9000")
        (some "s3.example:9000") := by
  have hhosts : ∀ text url name, sample_url text = some url → url.host_str = some name →
      '/' ∉ name.toList := by
    intro text url name hurl hname
    unfold sample_url at hurl
    split_ifs at hurl
    obtain rfl := Option.some.inj hurl
    obtain rfl := Option.some.inj hname
    decide
  have hconfig : normalize_public_host sample_url (some " http://s3.example:9000/ ")
      = .ok (some "s3.example:9000") := by decide
  have hvirtual : (host_header "b.s3.example:9000").text "host"
      = some ("b" ++ "." ++ "s3.example:9000") := by decide
  exact ((addressing_agrees encodes_percent hhosts hconfig (by decide) hvirtual (by decide)).mpr
    (by decide)).1

/-- **Failing inputs**: the empty key, which path-style makes an object with an empty name, and a
key with a slash in front, which virtual-hosted loses. -/
theorem addressing_disagrees :
    Target.parse some (virtual_hosted_uri encode_percent "") (host_header "b.s3.example")
          (some "s3.example") = .ok { bucket := some "b", key := none }
      ∧ Target.parse some (path_style_uri encode_percent "b" "") (host_header "s3.example")
          (some "s3.example") = .ok { bucket := some "b", key := some "" }
      ∧ Target.parse some (virtual_hosted_uri encode_percent "/a") (host_header "b.s3.example")
          (some "s3.example") = .ok { bucket := some "b", key := some "a" }
      ∧ Target.parse some (path_style_uri encode_percent "b" "/a") (host_header "s3.example")
          (some "s3.example") = .ok { bucket := some "b", key := some "/a" } := by
  decide

end Tg2s3.S3
