/-
Who changes the tables.

What `verify` accepts is said once without its steps: with credentials, a request has to carry
the signature of its canonical text under the secret, the region and the day, within the time
window (`Signed`); the window is a second longer than its bounds say, since they are compared in
whole seconds. The check is exactly this (`verify_ok_iff`).

The rest of the way to the tables adds the method and the bucket: GET, HEAD and all methods that
S3 does not write with leave the tables alone, whatever the query. So a request that lacks one of
these can be left out of any run (`unauthorized_leave_no_trace`).
-/
import Tg2s3.Service

set_option autoImplicit false

namespace Tg2s3.Authority

open Tg2s3 Machine
open Tg2s3.Auth (SigV4 Crypto AuthError Authorization check_time any_matches payload_hashes
  canonical_request canonical_headers expected_signature signing_key authorization)
open Tg2s3.S3 (Method HeaderMap S3Error)
open Tg2s3.S3.Dispatch
open Tg2s3.Serving (target_bucket dispatch_no_bucket)
open Tg2s3.Service

/-! ## The time window -/

/-- A presigned URL counts from its date on; the date of any other request may be off in both
directions. In nanoseconds. -/
def InTime (now request_time : Int) : Option Int → Prop
  | some expires => request_time ≤ now ∧ now - request_time < (expires + 1) * 1000000000
  | none => |now - request_time| < 901 * 1000000000

/-- Rounding towards zero is rounding down where nothing is negative. -/
theorem tdiv_of_nonneg {d : Int} (h : 0 ≤ d) : d.tdiv 1000000000 = d / 1000000000 :=
  Int.tdiv_eq_ediv_of_nonneg h

/-- A check passes exactly if its condition holds. -/
theorem ensure_ok {cond : Prop} [Decidable cond] {error : AuthError} {u : Unit} :
    Auth.ensure cond error = .ok u ↔ cond := by
  unfold Auth.ensure
  split_ifs with h <;> simp [h]

/-- A value that has to be there is the one that is there. -/
theorem ok_or_ok {α : Type} {value : Option α} {error : AuthError} {a : α} :
    Auth.ok_or value error = .ok a ↔ value = some a := by
  unfold Auth.ok_or
  cases value <;> simp

/-- **The window** is a second longer than the bound that is compared. -/
theorem check_time_ok_iff {now request_time : Int} {expires : Option Int} {u : Unit} :
    check_time now request_time expires = .ok u ↔ InTime now request_time expires := by
  cases expires with
  | some expires =>
      change Auth.ensure (¬ (now < request_time
        ∨ expires < (now - request_time).tdiv 1000000000)) _ = .ok u ↔ _
      rw [ensure_ok]
      change _ ↔ request_time ≤ now ∧ now - request_time < (expires + 1) * 1000000000
      by_cases hearly : now < request_time
      · refine iff_of_false (not_not.mpr (Or.inl hearly)) ?_
        rintro ⟨hle, -⟩
        omega
      · rw [tdiv_of_nonneg (by omega : 0 ≤ now - request_time)]
        omega
  | none =>
      change Auth.ensure (¬ 900 < |(now - request_time).tdiv 1000000000|) _ = .ok u ↔ _
      rw [ensure_ok]
      change _ ↔ |now - request_time| < 901 * 1000000000
      -- the quotient is rounded towards zero, so its absolute value is that of the distance
      have habs : |(now - request_time).tdiv 1000000000| = |now - request_time| / 1000000000 := by
        rcases le_total 0 (now - request_time) with hpos | hneg
        · rw [tdiv_of_nonneg hpos, abs_of_nonneg hpos, abs_of_nonneg (by omega)]
        · have hflip : (now - request_time).tdiv 1000000000
              = -((-(now - request_time)).tdiv 1000000000) := by
            rw [Int.neg_tdiv, neg_neg]
          rw [hflip, abs_neg, tdiv_of_nonneg (by omega), abs_of_nonpos hneg,
            abs_of_nonneg (by omega)]
      have hdistance : 0 ≤ |now - request_time| := abs_nonneg _
      rw [habs]
      omega

/-! ## The signature -/

/-- Everything that a request has to carry for this pair of keys. -/
structure Signed (auth : SigV4) (c : Crypto) (now : Int) (method : Method) (path : String)
    (query : List (String × String)) (headers : HeaderMap) (payload_hash : Option String)
    (access_key secret_key : String) (a : Authorization) (date : List Char) : Prop where
  claimed : authorization query headers = .ok a
  scope : a.credential.toList.splitOn '/'
    = [access_key.toList, date, auth.region.toList, "s3".toList, "aws4_request".toList]
  day : date.length = 8 ∧ date.all S3.is_digit = true
  moment : a.amz_date.toList.all (·.toNat < 128) = true ∧ a.amz_date.toList.length = 16
    ∧ date <+: a.amz_date.toList
  in_time : ∃ request_time, Auth.parse_amz_date c a.amz_date = .ok request_time
    ∧ InTime now request_time a.expires
  /-- over one of the payload hashes that are tried -/
  signature : ∃ hash ∈ payload_hashes method query headers payload_hash, ∃ text,
    canonical_request method path query headers a.signed_headers hash = .ok text
      ∧ a.signature = expected_signature c
          (signing_key c secret_key (String.ofList date) auth.region "s3") a.amz_date
          (String.ofList date ++ "/" ++ auth.region ++ "/s3/aws4_request") text

/-- **The scope of the credential** is read from its five fields: the key, the day, the region,
the service and the end. The day has eight digits and begins the time of the request. -/
theorem credential_date_ok {access_key region credential amz_date date : String} :
    Auth.credential_date access_key region credential amz_date = .ok date ↔
      credential.toList.splitOn '/'
          = [access_key.toList, date.toList, region.toList, "s3".toList, "aws4_request".toList]
        ∧ (date.toList.length = 8 ∧ date.toList.all S3.is_digit = true)
        ∧ amz_date.toList.all (·.toNat < 128) = true ∧ amz_date.toList.length = 16
        ∧ date.toList <+: amz_date.toList := by
  unfold Auth.credential_date
  constructor
  · intro h
    split at h
    · rename_i key day name service request hparts
      obtain ⟨_, hscope, h⟩ := bind_ok.mp h
      obtain ⟨_, hday, h⟩ := bind_ok.mp h
      obtain ⟨hkey, hregion, hservice, hrequest⟩ := ensure_ok.mp hscope
      obtain ⟨hlength, hdigits, hascii, hsixteen, hprefix⟩ := ensure_ok.mp hday
      obtain rfl := Except.ok.inj h
      rw [String.toList_ofList, hparts, hkey, hregion, hservice, hrequest]
      exact ⟨rfl, ⟨hlength, hdigits⟩, hascii, hsixteen, hprefix⟩
    · cases h
  · rintro ⟨hparts, ⟨hlength, hdigits⟩, hascii, hsixteen, hprefix⟩
    rw [hparts]
    dsimp only
    refine bind_ok.mpr ⟨(), ensure_ok.mpr ⟨rfl, rfl, rfl, rfl⟩, bind_ok.mpr ⟨(), ensure_ok.mpr
      ⟨hlength, hdigits, hascii, hsixteen, hprefix⟩, ?_⟩⟩
    rw [String.ofList_toList]
    rfl

/-- Whether there is a canonical text does not depend on the payload hash. -/
theorem canonical_request_ok {method : Method} {path : String} {query : List (String × String)}
    {headers : HeaderMap} {signed_headers hash : String} {text : List Char}
    (h : canonical_request method path query headers signed_headers hash = .ok text)
    (other : String) :
    ∃ text', canonical_request method path query headers signed_headers other = .ok text' := by
  obtain ⟨canonical, hcanonical, -⟩ := bind_ok.mp h
  exact ⟨_, bind_ok.mpr ⟨canonical, hcanonical, rfl⟩⟩

/-- The hashes are tried one after the other, and an error ends the search. Since a match
anywhere rules out errors everywhere, the order does not matter. -/
theorem any_matches_true {matches_hash : String → Except AuthError Bool} {hashes : List String}
    (hall : ∀ hash ∈ hashes, matches_hash hash = .ok true →
      ∀ other ∈ hashes, ∃ b, matches_hash other = .ok b) :
    any_matches matches_hash hashes = .ok true ↔ ∃ hash ∈ hashes, matches_hash hash = .ok true := by
  induction hashes with
  | nil =>
      refine iff_of_false (fun h => (by cases Except.ok.inj h)) ?_
      rintro ⟨_, hmem, -⟩
      cases hmem
  | cons first rest ih =>
      have hrest := ih fun hash hhash heq other hother =>
        hall hash (List.mem_cons_of_mem _ hhash) heq other (List.mem_cons_of_mem _ hother)
      unfold any_matches
      constructor
      · intro h
        obtain ⟨b, hb, h⟩ := bind_ok.mp h
        cases b with
        | true => exact ⟨first, List.mem_cons_self, hb⟩
        | false =>
            obtain ⟨hash, hmem, heq⟩ := hrest.mp h
            exact ⟨hash, List.mem_cons_of_mem _ hmem, heq⟩
      · rintro ⟨hash, hmem, heq⟩
        obtain ⟨b, hb⟩ := hall hash hmem heq first List.mem_cons_self
        refine bind_ok.mpr ⟨b, hb, ?_⟩
        cases b with
        | true => rfl
        | false =>
            refine hrest.mpr ⟨hash, (List.mem_cons.mp hmem).resolve_left ?_, heq⟩
            rintro rfl
            cases Except.ok.inj (heq.symm.trans hb)

/-- The requests that are let in: everybody's, or the signed ones. -/
def Admitted (auth : SigV4) (c : Crypto) (now : Int) (method : Method) (path : String)
    (query : List (String × String)) (headers : HeaderMap) (payload_hash : Option String) : Prop :=
  (auth.access_key = none ∧ auth.allow_anonymous = true)
    ∨ ∃ access_key secret_key a date, auth.access_key = some access_key
        ∧ auth.secret_key = some secret_key
        ∧ Signed auth c now method path query headers payload_hash access_key secret_key a date

section Verify

variable {auth : SigV4} {c : Crypto} {now : Int} {method : Method} {path : String}
  {query : List (String × String)} {headers : HeaderMap} {payload_hash : Option String}

/-- What the check does with one payload hash. -/
def compares (c : Crypto) (method : Method) (path : String) (query : List (String × String))
    (headers : HeaderMap) (a : Authorization) (key : Download.Bytes) (scope hash : String) :
    Except AuthError Bool := do
  let canonical ← canonical_request method path query headers a.signed_headers hash
  pure (decide (expected_signature c key a.amz_date scope canonical = a.signature))

/-- One hash matches if the signature is that of the text made with it. -/
theorem compares_true {a : Authorization} {key : Download.Bytes} {scope hash : String} :
    compares c method path query headers a key scope hash = .ok true
      ↔ ∃ text, canonical_request method path query headers a.signed_headers hash = .ok text
          ∧ a.signature = expected_signature c key a.amz_date scope text := by
  unfold compares
  rw [bind_ok]
  refine exists_congr fun text => and_congr_right fun _ => ?_
  constructor
  · intro h
    exact (of_decide_eq_true (Except.ok.inj h)).symm
  · intro h
    exact congrArg Except.ok (decide_eq_true h.symm)

/-- Where one hash can be compared, every hash can. -/
theorem any_compares {a : Authorization} {key : Download.Bytes} {scope : String}
    {hashes : List String} :
    any_matches (compares c method path query headers a key scope) hashes = .ok true
      ↔ ∃ hash ∈ hashes, compares c method path query headers a key scope hash = .ok true := by
  refine any_matches_true fun hash _ heq other _ => ?_
  obtain ⟨text, htext, -⟩ := bind_ok.mp heq
  obtain ⟨text', htext'⟩ := canonical_request_ok htext other
  exact ⟨_, bind_ok.mpr ⟨text', htext', rfl⟩⟩

/-- **What is let in** is everybody's, or signed. -/
theorem admitted_of_verify
    (h : Auth.verify_with_payload_hash auth c now method path query headers payload_hash = .ok ()) :
    Admitted auth c now method path query headers payload_hash := by
  unfold Auth.verify_with_payload_hash at h
  cases hkey : auth.access_key with
  | none =>
      rw [hkey] at h
      dsimp only at h
      split_ifs at h with hanonymous
      exact Or.inl ⟨hkey, hanonymous⟩
  | some access_key =>
      rw [hkey] at h
      obtain ⟨secret_key, hsecret, h⟩ := bind_ok.mp h
      obtain ⟨a, hclaimed, h⟩ := bind_ok.mp h
      obtain ⟨date, hdate, h⟩ := bind_ok.mp h
      obtain ⟨request_time, htime, h⟩ := bind_ok.mp h
      obtain ⟨_, hwindow, h⟩ := bind_ok.mp h
      obtain ⟨found, hfound, h⟩ := bind_ok.mp h
      obtain rfl := ensure_ok.mp h
      obtain ⟨hscope, hday, hmoment⟩ := credential_date_ok.mp hdate
      obtain ⟨hash, hmem, hsame⟩ := any_compares.mp hfound
      refine Or.inr ⟨access_key, secret_key, a, date.toList, hkey, ok_or_ok.mp hsecret, hclaimed,
        hscope, hday, hmoment, ⟨request_time, htime, check_time_ok_iff.mp hwindow⟩, hash, hmem, ?_⟩
      rw [String.ofList_toList]
      exact compares_true.mp hsame

/-- What is everybody's or signed is let in. -/
theorem verify_of_admitted (h : Admitted auth c now method path query headers payload_hash) :
    Auth.verify_with_payload_hash auth c now method path query headers payload_hash = .ok () := by
  unfold Auth.verify_with_payload_hash
  rcases h with ⟨hkey, hanonymous⟩ | ⟨access_key, secret_key, a, date, hkey, hsecret, hsigned⟩
  · rw [hkey]
    dsimp only
    rw [if_pos hanonymous]
  · rw [hkey]
    obtain ⟨request_time, htime, hwindow⟩ := hsigned.in_time
    obtain ⟨hash, hmem, hsame⟩ := hsigned.signature
    have hdate : Auth.credential_date access_key auth.region a.credential a.amz_date
        = .ok (String.ofList date) := by
      refine credential_date_ok.mpr ?_
      rw [String.toList_ofList]
      exact ⟨hsigned.scope, hsigned.day, hsigned.moment⟩
    refine bind_ok.mpr ⟨secret_key, ok_or_ok.mpr hsecret, bind_ok.mpr ⟨a, hsigned.claimed,
      bind_ok.mpr ⟨_, hdate, bind_ok.mpr ⟨request_time, htime,
      bind_ok.mpr ⟨(), check_time_ok_iff.mpr hwindow, bind_ok.mpr ⟨true, ?_, rfl⟩⟩⟩⟩⟩⟩
    exact any_compares.mpr ⟨hash, hmem, compares_true.mpr hsame⟩

end Verify

/-- **The check is exactly this**: a request is let in if and only if nobody has to sign, or it
carries the signature of its own text, in time. -/
theorem verify_ok_iff (auth : SigV4) (c : Crypto) (now : Int) (method : Method) (path : String)
    (query : List (String × String)) (headers : HeaderMap) (payload_hash : Option String) :
    Auth.verify_with_payload_hash auth c now method path query headers payload_hash = .ok ()
      ↔ Admitted auth c now method path query headers payload_hash :=
  ⟨admitted_of_verify, verify_of_admitted⟩

/-! ## Methods that only look -/

/-- The methods that S3 writes with. -/
def Writing (method : Method) : Prop := method = .PUT ∨ method = .POST ∨ method = .DELETE

section Reading

variable {s : Server} {db : Database}

/-- A check that fails leaves the tables, like the rest if that does. -/
theorem after_check_same {α : Type} {check : Except S3Error α} {next : α → Outcome}
    (h : ∀ a, (next a).1 = db) : (after_check db check next).1 = db := by
  unfold after_check
  split
  · rfl
  · exact h _

/-- An answer that is only read leaves the tables. -/
theorem read_same (reply : Except S3Error Reply) : (read db reply).1 = db :=
  after_check_same fun _ => rfl

/-- The list of parts is read. -/
theorem list_parts_same (upload_id : String) : (list_parts s db upload_id).1 = db := by
  unfold list_parts
  split
  · rfl
  · exact read_same _

/-- An object is read. -/
theorem get_object_same (bucket key : String) (headers : HeaderMap) (head_only : Bool) :
    (S3.Dispatch.get_object s db bucket key headers head_only).1 = db := by
  refine after_check_same fun response => ?_
  split
  · rfl
  split
  · rfl
  split <;> rfl

/-- The methods that only look have no handler of a bucket that writes, whatever the query says.
-/
theorem dispatch_bucket_same {method : Method} (hmethod : ¬ Writing method) (bucket : String)
    (query : List (String × String)) (body : Transfer.Body) :
    (dispatch_bucket s db method bucket query body).1 = db := by
  obtain ⟨hput, hrest⟩ := not_or.mp hmethod
  obtain ⟨hpost, hdelete⟩ := not_or.mp hrest
  unfold dispatch_bucket
  split
  · split
    · exact after_check_same fun _ => read_same _
    · exact absurd rfl hput
    · exact absurd rfl hdelete
    · rfl
  split
  · split
    · exact after_check_same fun _ => read_same _
    · rfl
  split
  · split
    · exact read_same _
    · rfl
  split
  · -- only a POST deletes in bulk
    rfl
  split
  · split
    · exact read_same _
    · rfl
  split
  · exact absurd rfl hput
  · exact after_check_same fun _ => rfl
  · exact absurd rfl hdelete
  · exact read_same _
  · rfl

/-- Nor has a key one, with the query of an upload or without. -/
theorem dispatch_object_same {method : Method} (hmethod : ¬ Writing method) (bucket key : String)
    (query : List (String × String)) (headers : HeaderMap) (body : Transfer.Body) :
    (dispatch_object s db method bucket key query headers body).1 = db := by
  obtain ⟨hput, hrest⟩ := not_or.mp hmethod
  obtain ⟨hpost, hdelete⟩ := not_or.mp hrest
  unfold dispatch_object
  split
  · rfl
  split
  · -- a request for an upload
    unfold dispatch_upload
    split
    · rfl
    split
    · rfl
    split
    · exact list_parts_same _
    · exact absurd rfl hput
    · exact absurd rfl hpost
    · exact absurd rfl hdelete
    · rfl
  · simp only [hpost, false_and, if_false]
    split
    · exact get_object_same _ _ _ _
    · rfl

/-- **Methods that S3 does not write with** leave the tables alone, whatever the query says. -/
theorem dispatch_same {r : Request} (hmethod : ¬ Writing r.method) : (dispatch s db r).1 = db := by
  refine after_check_same fun target => ?_
  split
  · rfl
  split
  · split
    · exact read_same _
    · rfl
  split
  · exact dispatch_bucket_same hmethod _ _ _
  · exact dispatch_object_same hmethod _ _ _ _ _

end Reading

/-! ## Requests that may change the tables -/

/-- The hash of the body that the server computes itself: for a PUT of CORS rules whose client
has not hashed it. -/
def Hashed (c : Crypto) (s : Server) (r : Request) (payload_hash : Option String) : Prop :=
  ∃ r', S3.Handle.hashed_body c s r = .ok (r', payload_hash)

/-- The request writes, to a bucket, with a plain payload, and has been let in. -/
structure Authorized (auth : SigV4) (c : Crypto) (now : Int) (s : Server) (r : Request) : Prop where
  method : Writing r.method
  bucket : ∃ bucket, target_bucket s r = some bucket
  payload : S3.Handle.is_streaming_payload r.headers = false
  admitted : ∃ payload_hash, Hashed c s r payload_hash
    ∧ Admitted auth c now r.method r.uri.path (r.query s) r.headers payload_hash

/-- Everything but a request is done by the server itself. -/
def Event.Authorized : Event → Prop
  | .request auth c now s _ r => Authority.Authorized auth c now s r
  | _ => True

/-- A request that changes something is authorized. -/
theorem authorized_of_changed {auth : SigV4} {c : Crypto} {now : Int} {s : Server} {db : Database}
    {request_id : String} {r : Request}
    (h : (S3.Handle.handle auth c now s db request_id r).1 ≠ db) : Authorized auth c now s r := by
  change (S3.Handle.answer auth c now s db request_id r).1 ≠ db at h
  unfold S3.Handle.answer at h
  split at h
  · exact absurd rfl h
  rename_i r' payload_hash hhashed
  -- hashing replaces the body and nothing else
  have hsame : r'.method = r.method ∧ r'.uri = r.uri ∧ r'.headers = r.headers := by
    unfold S3.Handle.hashed_body at hhashed
    split at hhashed
    · split at hhashed
      · cases hhashed
      · obtain ⟨rfl, -⟩ := Prod.mk.inj (Except.ok.inj hhashed)
        exact ⟨rfl, rfl, rfl⟩
    · obtain ⟨rfl, -⟩ := Prod.mk.inj (Except.ok.inj hhashed)
      exact ⟨rfl, rfl, rfl⟩
  split at h
  · exact absurd rfl h
  rename_i hverified
  split at h
  · exact absurd rfl h
  rename_i hplain
  -- past the verification, only the dispatch can have changed something
  have hchanged : (dispatch s db r').1 ≠ db := by
    intro hdispatch
    refine h ?_
    split
    all_goals
      rename_i hresult
      rw [hresult] at hdispatch
      exact hdispatch
  have hwriting : Writing r'.method := by
    by_contra hreading
    exact hchanged (dispatch_same hreading)
  -- OPTIONS skips the verification, and it only reads
  have hoptions : r'.method ≠ .OPTIONS := by
    rintro heq
    rw [heq] at hwriting
    rcases hwriting with hput | hpost | hdelete
    · cases hput
    · cases hpost
    · cases hdelete
  rw [if_neg hoptions] at hverified
  -- what was verified is the request as it came
  have hadmitted := admitted_of_verify hverified
  have hquery : r'.query s = r.query s := by
    unfold Request.query
    rw [hsame.2.1]
  rw [hquery, hsame.1, hsame.2.1, hsame.2.2] at hadmitted
  refine ⟨hsame.1 ▸ hwriting, ?_, ?_, payload_hash, ⟨r', hhashed⟩, hadmitted⟩
  · cases hbucket : target_bucket s r with
    | some bucket => exact ⟨bucket, rfl⟩
    | none =>
        have hbucket' : target_bucket s r' = none := by
          unfold target_bucket at hbucket ⊢
          rwa [hsame.2.1, hsame.2.2]
        exact absurd (dispatch_no_bucket hbucket') hchanged
  · rw [← hsame.2.2]
    by_contra hstreaming
    exact hplain ⟨hoptions, (Bool.not_eq_false _).mp hstreaming⟩

/-- **A request that is not authorized changes nothing**: had it changed something, it would be
authorized. -/
theorem serve_of_unauthorized {db : Database} {event : Event} (h : ¬ Event.Authorized event) :
    serve db event = db := by
  cases event with
  | request auth c now s request_id r =>
      by_contra hchanged
      exact h (authorized_of_changed hchanged)
  | _ => exact absurd trivial h

open Classical in
/-- **Whoever is not authorized leaves no trace**: the tables are what they are without all those
requests, at every point of every run. -/
theorem unauthorized_leave_no_trace (events : List Event) :
    served events = served (events.filter fun event => Event.Authorized event) := by
  unfold served
  generalize ({} : Database) = db
  induction events generalizing db with
  | nil => rfl
  | cons event rest ih =>
      by_cases hauthorized : Event.Authorized event
      · have hkeeps : (event :: rest).filter (fun event => Event.Authorized event)
            = event :: rest.filter fun event => Event.Authorized event :=
          List.filter_cons_of_pos (decide_eq_true hauthorized)
        rw [hkeeps]
        exact ih (serve db event)
      · have hdrops : (event :: rest).filter (fun event => Event.Authorized event)
            = rest.filter fun event => Event.Authorized event :=
          List.filter_cons_of_neg (mt of_decide_eq_true hauthorized)
        rw [hdrops]
        change exec serve (serve db event) rest = _
        rw [serve_of_unauthorized hauthorized]
        exact ih db

end Tg2s3.Authority
