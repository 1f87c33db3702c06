/-
Rows of buckets that are gone.

No table refers to `buckets`. That the objects, the uploads and the CORS rules
name buckets that exist (`Housed`) is the work of the requests, and they go about
it in three ways. An upload is inserted where its bucket exists, in one statement.
A commit takes the bucket of its upload, whose row keeps `delete_bucket` away for
as long as it is there. And a copy or a CORS update looks the bucket up first, in
a query of its own.

The last way leaves a gap. So those two are two steps here, and every other
request is the operation its transaction is; their earlier checks do not matter,
since the transactions look again.
-/
import Tg2s3.Counts

set_option autoImplicit false

namespace Tg2s3.Buckets

open Tg2s3 Relational Machine
open Tg2s3.Counts (CopyPasses put_first snapshot)

/-- The bucket is in the table. -/
def Stands (db : Database) (bucket : String) : Prop := bucket ∈ db.buckets.map (·.name)

instance (db : Database) (bucket : String) : Decidable (Stands db bucket) :=
  inferInstanceAs (Decidable (_ ∈ _))

/-- Every row that names a bucket names one that stands. -/
structure Housed (db : Database) : Prop where
  objects : ∀ o ∈ db.objects, Stands db o.bucket
  uploads : ∀ u ∈ db.multipart_uploads, Stands db u.bucket
  cors : ∀ r ∈ db.bucket_cors, Stands db r.bucket

instance (db : Database) : Decidable (Housed db) :=
  decidable_of_iff
    ((∀ o ∈ db.objects, Stands db o.bucket) ∧ (∀ u ∈ db.multipart_uploads, Stands db u.bucket)
      ∧ ∀ r ∈ db.bucket_cors, Stands db r.bucket)
    ⟨fun h => ⟨h.1, h.2.1, h.2.2⟩, fun h => ⟨h.objects, h.uploads, h.cors⟩⟩

/-- `Db::get_bucket_cors` with its error: the query or the decoding of its answer can fail. -/
def read_bucket_cors (db : Database) (fails : Bool) (bucket : String) :
    Except DbError (Option CorsConfiguration) := do
  require (fails = false) .query_failed
  pure (get_bucket_cors db bucket)

/-- The CORS rules that are applied; `cors` is the configured default. A read that fails counts
as a bucket without rules: `.ok().flatten().unwrap_or_else(..)`. -/
def effective_bucket_cors (db : Database) (cors : CorsConfiguration) (fails : Bool)
    (bucket : String) : CorsConfiguration :=
  (read_bucket_cors db fails bucket).toOption.join.getD cors

/-- Both cases of that read. -/
theorem effective_bucket_cors_eq (db : Database) (cors : CorsConfiguration) (fails : Bool)
    (bucket : String) :
    effective_bucket_cors db cors fails bucket
      = if fails then cors else (get_bucket_cors db bucket).getD cors := by
  cases fails <;> rfl

/-! ## Requests -/

structure Server where
  db : Database := {}
  /-- CORS updates that have found their bucket -/
  cors_checked : List String := []
  /-- copies that have found the bucket of their destination -/
  copy_checked : List String := []
  deriving DecidableEq, Repr

inductive Action
  | write (op : Op)
  | check_cors (bucket : String)
  | set_bucket_cors (now : Int) (bucket : String) (configuration : CorsConfiguration)
  | check_copy (bucket : String)
  | copy_object (now : Int) (source : ObjectRecord) (bucket key : String)
      (metadata : ObjectMetadata) (condition : ObjectCondition)
  deriving DecidableEq, Repr

/-- The two operations that rely on an earlier check. -/
def relies_on_check : Op → Bool
  | .set_bucket_cors .. | .copy_object .. => true
  | _ => false

def step (s : Server) : Action → Option Server
  | .write op => if relies_on_check op then none else some { s with db := op.apply s.db }
  | .check_cors bucket =>
      if bucket_exists s.db bucket then some { s with cors_checked := bucket :: s.cors_checked }
      else none
  | .set_bucket_cors now bucket configuration =>
      if bucket ∈ s.cors_checked then
        some { s with
          db := (Op.set_bucket_cors now bucket configuration).apply s.db
          cors_checked := s.cors_checked.erase bucket }
      else none
  | .check_copy bucket =>
      if bucket_exists s.db bucket then some { s with copy_checked := bucket :: s.copy_checked }
      else none
  | .copy_object now source bucket key metadata condition =>
      if bucket ∈ s.copy_checked then
        some { s with
          db := (Op.copy_object now source bucket key metadata condition).apply s.db
          copy_checked := s.copy_checked.erase bucket }
      else none

/-- The bucket that was looked up still stands when the row is written. -/
def StillStands (s : Server) : Action → Prop
  | .set_bucket_cors _ bucket _ => Stands s.db bucket
  | .copy_object _ source bucket key _ condition =>
      CopyPasses s.db source bucket key condition → Stands s.db bucket
  | _ => True

instance (s : Server) (a : Action) : Decidable (StillStands s a) := by
  unfold StillStands
  split <;> infer_instance

/-! ## The operations -/

section Operations

variable {db db' : Database}

/-- Rows go, buckets stay. -/
theorem Housed.of_subset (h : Housed db) (hbuckets : ∀ b, Stands db b → Stands db' b)
    (hobjects : db'.objects ⊆ db.objects) (huploads : db'.multipart_uploads ⊆ db.multipart_uploads)
    (hcors : db'.bucket_cors ⊆ db.bucket_cors) : Housed db' where
  objects := fun o ho => hbuckets _ (h.objects o (hobjects ho))
  uploads := fun u hu => hbuckets _ (h.uploads u (huploads hu))
  cors := fun r hr => hbuckets _ (h.cors r (hcors hr))

/-- Bookkeeping touches none of the tables. -/
theorem Housed.books (h : Housed db) (hbooks : Books db db') : Housed db' := by
  refine h.of_subset (fun b hb => ?_) ?_ ?_ ?_
  · unfold Stands
    rw [hbooks.buckets]
    exact hb
  · rw [hbooks.objects]
    exact fun _ h => h
  · rw [hbooks.multipart_uploads]
    exact fun _ h => h
  · rw [hbooks.bucket_cors]
    exact fun _ h => h

theorem buckets_without_object (db : Database) (bucket key : String) :
    (without_object db bucket key).buckets = db.buckets := by
  unfold without_object
  cases db.object? bucket key <;> rfl

theorem Housed.without_object (h : Housed db) (bucket key : String) :
    Housed (without_object db bucket key) := by
  unfold Tg2s3.without_object
  cases db.object? bucket key with
  | none => exact h
  | some row =>
      exact h.of_subset (fun _ hb => hb) (fun o ho => (mem_deleteWhere.mp ho).1) (fun _ h => h)
        (fun _ h => h)

/-- A new object in a bucket that stands. -/
theorem Housed.append_object (h : Housed db) {o : ObjectRow} (ho : Stands db o.bucket)
    (rows : List ObjectBlockRow) :
    Housed { db with objects := db.objects ++ [o], object_blocks := rows } where
  objects := by
    intro o' ho'
    rcases List.mem_append.mp ho' with ho' | ho'
    · exact h.objects o' ho'
    · rw [List.mem_singleton.mp ho']
      exact ho
  uploads := h.uploads
  cors := h.cors

theorem Housed.delete_upload (h : Housed db) (upload_id : String) :
    Housed (db.delete_upload upload_id) :=
  h.of_subset (fun _ hb => hb) (fun _ h => h) (fun _ hu => (mem_deleteWhere.mp hu).1) (fun _ h => h)

/-- **Deleting a bucket** that nothing occupies takes its CORS rules along. -/
theorem housed_delete_bucket (h : Housed db) (name : String) : Housed (delete_bucket db name).1 := by
  unfold delete_bucket
  split
  · exact h
  · split
    · exact h
    · rename_i hoccupied
      rw [not_or] at hoccupied
      have hkeep : ∀ b, Stands db b → b ≠ name →
          b ∈ (deleteWhere (fun r : BucketRow => r.name = name) db.buckets).map (·.name) := by
        intro b hb hne
        obtain ⟨r, hr, rfl⟩ := List.mem_map.mp hb
        exact List.mem_map_of_mem (mem_deleteWhere.mpr ⟨hr, hne⟩)
      constructor
      · intro o ho
        refine hkeep _ (h.objects o ho) (fun heq => hoccupied.1 ?_)
        exact heq ▸ List.mem_map_of_mem ho
      · intro u hu
        refine hkeep _ (h.uploads u hu) (fun heq => hoccupied.2 ?_)
        exact heq ▸ List.mem_map_of_mem hu
      · intro r hr
        obtain ⟨hmem, hne⟩ := mem_deleteWhere.mp hr
        exact hkeep _ (h.cors r hmem) hne

theorem housed_set_bucket_cors (h : Housed db) (now : Int) {bucket : String}
    (configuration : CorsConfiguration) (hbucket : Stands db bucket) :
    Housed (set_bucket_cors db now bucket configuration) := by
  unfold set_bucket_cors
  split_ifs with hin
  · refine ⟨h.objects, h.uploads, fun r hr => ?_⟩
    have hnames := map_updateWhere (p := fun r : BucketCorsRow => r.bucket = bucket)
      (f := fun r => { r with configuration := configuration, updated_at := now })
      (g := fun r : BucketCorsRow => r.bucket) (fun _ => rfl) db.bucket_cors
    have hname : r.bucket ∈ db.bucket_cors.map (·.bucket) := hnames ▸ List.mem_map_of_mem hr
    obtain ⟨r', hr', heq⟩ := List.mem_map.mp hname
    rw [← heq]
    exact h.cors r' hr'
  · refine ⟨h.objects, h.uploads, fun r hr => ?_⟩
    rcases List.mem_append.mp hr with hr | hr
    · exact h.cors r hr
    · rw [List.mem_singleton.mp hr]
      exact hbucket

theorem housed_abort (h : Housed db) (now : Int) (upload_id : String) :
    Housed (abort_upload_with_blocks db now upload_id).1 := by
  rcases abort_upload_with_blocks_eq db now upload_id with heq | heq
  · rw [heq]
    exact h
  · rw [heq]
    exact (h.delete_upload upload_id).books (books_decrement_blocks _ now _)

/-- **Every operation keeps the rows housed** that does not rely on an earlier
check. -/
theorem housed_apply (h : Housed db) (op : Op) (hop : relies_on_check op = false) :
    Housed (op.apply db) := by
  cases op with
  | create_bucket now name =>
      refine h.of_subset (fun b hb => ?_) (fun _ h => h) (fun _ h => h) (fun _ h => h)
      exact (key_mem_insertOrIgnore (fun r : BucketRow => r.name) _ db.buckets b).mpr (Or.inr hb)
  | delete_bucket name => exact housed_delete_bucket h name
  | set_bucket_cors now bucket configuration => cases hop
  | delete_bucket_cors bucket =>
      exact h.of_subset (fun _ hb => hb) (fun _ h => h) (fun _ h => h)
        (fun r hr => (mem_deleteWhere.mp hr).1)
  | create_upload upload =>
      refine transaction_cases h (fun db' u hok => ?_)
      obtain ⟨_, hbucket, hok⟩ := bind_ok.mp hok
      obtain ⟨db₁, hins, hok⟩ := bind_ok.mp hok
      obtain ⟨rfl, -⟩ := Prod.mk.inj (Except.ok.inj hok)
      obtain ⟨rfl, -⟩ := insert_upload_ok hins
      refine ⟨h.objects, fun u hu => ?_, h.cors⟩
      rcases List.mem_append.mp hu with hu | hu
      · exact h.uploads u hu
      · rw [List.mem_singleton.mp hu]
        exact require_ok.mp hbucket
  | add_staged_block now block =>
      refine transaction_cases h (fun db' id hok => ?_)
      obtain ⟨hr, -⟩ := insert_block_ok hok
      obtain ⟨rfl, -⟩ := Prod.mk.inj hr
      exact h.of_subset (fun _ hb => hb) (fun _ h => h) (fun _ h => h) (fun _ h => h)
  | replace_part now upload_id part_number size etag block_ids =>
      refine transaction_cases h (fun db' released hok => ?_)
      refine Housed.books ?_ (replace_part_tx_ok hok).books
      exact h.of_subset (fun _ hb => hb) (fun _ h => h) (fun _ h => h) (fun _ h => h)
  | commit_upload now upload_id size etag parts condition =>
      refine transaction_cases h (fun db' result hok => ?_)
      cases result with
      | none => exact commit_upload_tx_none hok ▸ h
      | some r =>
          have hc := commit_upload_tx_ok hok
          refine Housed.books ?_ hc.books
          -- the row of the upload has kept its bucket
          have hbucket : Stands (without_object db r.1.bucket r.1.key) r.1.bucket := by
            unfold Stands
            rw [buckets_without_object]
            exact h.uploads r.1 (lookup_mem hc.upload_row).1
          have hnew := (h.without_object r.1.bucket r.1.key).append_object hbucket
            (o := committed_object db now r.1 size etag)
          exact (hnew _).delete_upload r.1.upload_id
  | abort_upload_with_blocks now upload_id => exact housed_abort h now upload_id
  | expire_uploads now before =>
      exact expire_uploads_induction now before h (fun d id hd => housed_abort hd now id)
  | delete_object now bucket key condition =>
      refine transaction_cases h (fun db' deleted hok => ?_)
      obtain ⟨-, rfl, -⟩ := delete_object_tx_ok hok
      exact (h.without_object bucket key).books (books_decrement_blocks _ now _)
  | copy_object now source bucket key metadata condition => cases hop
  | queue_stale_block now block_id => exact h.books (books_queue_stale_block db now block_id)
  | gc_success block_id =>
      change Housed (gc_success db block_id)
      unfold gc_success
      split
      · split_ifs
        · exact h.of_subset (fun _ hb => hb) (fun _ h => h) (fun _ h => h) (fun _ h => h)
        · exact h
      · exact h
  | gc_failure block_id error next_attempt => exact h.books (books_update_queue db block_id _)
  | gc_orphan block_id error => exact h.books (books_update_queue db block_id _)

/-- **A copy** puts its object where it was told to. -/
theorem housed_copy_object (h : Housed db) (now : Int) (source : ObjectRecord)
    {bucket : String} (key : String) (metadata : ObjectMetadata) (condition : ObjectCondition)
    (hbucket : CopyPasses db source bucket key condition → Stands db bucket) :
    Housed ((Op.copy_object now source bucket key metadata condition).apply db) := by
  refine transaction_cases h (fun db' released hok => ?_)
  have hc := copy_object_tx_ok hok
  refine Housed.books ?_ hc.books
  have hpasses : CopyPasses db source bucket key condition :=
    ⟨hc.source_row, fun id hid => ⟨hc.unqueued id hid, hc.present id hid⟩, hc.allowed⟩
  have hstands : Stands (without_object db bucket key) bucket := by
    unfold Stands
    rw [buckets_without_object]
    exact hbucket hpasses
  exact (h.without_object bucket key).append_object hstands
    (o := copied_object db now source bucket key metadata) _

end Operations

/-! ## Runs -/

theorem housed_step {s s' : Server} {a : Action} (h : Housed s.db) (hstands : StillStands s a)
    (hstep : step s a = some s') : Housed s'.db := by
  cases a with
  | write op =>
      simp only [step] at hstep
      split_ifs at hstep with hop
      obtain rfl := Option.some.inj hstep
      exact housed_apply h op (Bool.eq_false_iff.mpr hop)
  | check_cors bucket =>
      simp only [step] at hstep
      split_ifs at hstep
      obtain rfl := Option.some.inj hstep
      exact h
  | set_bucket_cors now bucket configuration =>
      simp only [step] at hstep
      split_ifs at hstep
      obtain rfl := Option.some.inj hstep
      exact housed_set_bucket_cors h now configuration hstands
  | check_copy bucket =>
      simp only [step] at hstep
      split_ifs at hstep
      obtain rfl := Option.some.inj hstep
      exact h
  | copy_object now source bucket key metadata condition =>
      simp only [step] at hstep
      split_ifs at hstep
      obtain rfl := Option.some.inj hstep
      exact housed_copy_object h now source key metadata condition hstands

/-- A bucket that is created where none stands is empty, and the default CORS rules
apply to it, whether or not the query for its rules fails. -/
theorem new_bucket_empty {db : Database} (h : Housed db) (now : Int) {name : String}
    (hnew : ¬ Stands db name) (cors : CorsConfiguration) (fails : Bool) :
    (∀ o ∈ (create_bucket db now name).1.objects, o.bucket ≠ name)
      ∧ (∀ u ∈ (create_bucket db now name).1.multipart_uploads, u.bucket ≠ name)
      ∧ effective_bucket_cors (create_bucket db now name).1 cors fails name = cors := by
  refine ⟨fun o ho heq => hnew (heq ▸ h.objects o ho), fun u hu heq => hnew (heq ▸ h.uploads u hu), ?_⟩
  have hnone : get_bucket_cors (create_bucket db now name).1 name = none := by
    unfold get_bucket_cors
    rw [Option.map_eq_none_iff, lookup_eq_none]
    intro hin
    obtain ⟨r, hr, heq⟩ := List.mem_map.mp hin
    exact hnew (heq ▸ h.cors r hr)
  rw [effective_bucket_cors_eq, hnone, Option.getD_none, ite_self]

/-- **No row of a bucket that is gone** in a run where the bucket of a copy and of a
CORS update still stands when the row is written; and a bucket that is created
anew is empty and has the default CORS rules. -/
theorem no_orphaned_rows (as : List Action) (s : Server) (hrun : run step {} as = some s)
    (hstands : Meets step StillStands {} as) :
    Housed s.db ∧ ∀ (now : Int) (name : String) (cors : CorsConfiguration) (fails : Bool),
      ¬ Stands s.db name →
      (∀ o ∈ (create_bucket s.db now name).1.objects, o.bucket ≠ name)
        ∧ (∀ u ∈ (create_bucket s.db now name).1.multipart_uploads, u.bucket ≠ name)
        ∧ effective_bucket_cors (create_bucket s.db now name).1 cors fails name = cors := by
  have hhoused : Housed s.db := by
    refine run_inv (C := StillStands) (I := fun s => Housed s.db)
      (fun _ _ _ hI hC hstep => housed_step hI hC hstep) ?_ hstands hrun
    exact ⟨by simp, by simp, by simp⟩
  exact ⟨hhoused, fun now name cors fails hnew => new_bucket_empty hhoused now hnew cors fails⟩

/-! ## Two runs -/

def configuration : CorsConfiguration :=
  { allowed_origins := ["*"], allowed_methods := ["GET"], allowed_headers := ["range"]
    expose_headers := [], max_age_seconds := 60 }

/-- Bucket `b` has an object, bucket `c` is to get a copy of it and CORS rules. -/
def checked : List Action :=
  put_first.map Action.write ++ [.write (.create_bucket 1 "c"), .check_copy "c", .check_cors "c"]

def copy_into_c : Action := .copy_object 2 snapshot "c" "copy" {} {}

/-- The requests go through while `c` stands, and `c` cannot be deleted then. -/
theorem no_orphaned_rows_standing :
    ∃ s, run step {} (checked ++ [copy_into_c, .set_bucket_cors 2 "c" configuration,
        .write (.delete_bucket "c")]) = some s
      ∧ s.db.objects.map (·.bucket) = ["b", "c"] ∧ Housed s.db := by
  have hrun : (run step {} (checked ++ [copy_into_c, .set_bucket_cors 2 "c" configuration,
      .write (.delete_bucket "c")])).map (fun s => s.db.objects.map (·.bucket))
        = some ["b", "c"] := by
    decide
  obtain ⟨s, hs, hobjects⟩ := Option.map_eq_some_iff.mp hrun
  exact ⟨s, hs, hobjects, (no_orphaned_rows _ s hs (by decide)).1⟩

/-- **Rows can be orphaned.** Bucket `c` is deleted after the checks; the copy and
the CORS update go through. When `c` is created again it has an object in it and
rules nobody gave it. -/
theorem orphaned_rows :
    ∃ s s', run step {} (checked ++ [.write (.delete_bucket "c"), copy_into_c,
        .set_bucket_cors 2 "c" configuration]) = some s
      ∧ ¬ Stands s.db "c" ∧ (∃ o ∈ s.db.objects, o.bucket = "c")
      ∧ (∃ r ∈ s.db.bucket_cors, r.bucket = "c")
      ∧ step s (.write (.create_bucket 3 "c")) = some s'
      ∧ (s'.db.object? "c" "copy").isSome ∧ get_bucket_cors s'.db "c" = some configuration := by
  have hrun : (run step {} (checked ++ [.write (.delete_bucket "c"), copy_into_c,
      .set_bucket_cors 2 "c" configuration])).bind (fun s =>
        (step s (.write (.create_bucket 3 "c"))).map fun s' =>
          decide ((¬ Stands s.db "c" ∧ (∃ o ∈ s.db.objects, o.bucket = "c")
              ∧ ∃ r ∈ s.db.bucket_cors, r.bucket = "c")
            ∧ (s'.db.object? "c" "copy").isSome ∧ get_bucket_cors s'.db "c" = some configuration))
        = some true := by
    decide
  obtain ⟨s, hs, hrest⟩ := Option.bind_eq_some_iff.mp hrun
  obtain ⟨s', hs', hd⟩ := Option.map_eq_some_iff.mp hrest
  obtain ⟨⟨hgone, hobject, hcors⟩, hcopy, hrules⟩ := of_decide_eq_true hd
  exact ⟨s, s', hs, hgone, hobject, hcors, hs', hcopy, hrules⟩

end Tg2s3.Buckets
