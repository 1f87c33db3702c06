/-
Runs of the server.

What happens to the tables is a list of events: a request is handled, the collector makes a
pass, blocks that a request has released are reclaimed, the program starts. Each is a trace of
operations that are called properly, so the invariants of the tables hold after every run,
without a condition: the counts are exact, no row is left without its bucket, and every object
can be read (`served_sound`). The conditions that these invariants need where requests
interleave are met by requests that are served one after the other.

The other half is what a run leaves alone. An object that no event is about reads the same
afterwards, down to the documents of its blocks, whatever else is uploaded, copied, deleted
and collected (`untouched_object_kept`).
-/
import Tg2s3.Serving

set_option autoImplicit false

namespace Tg2s3.Service

open Tg2s3 Relational Machine
open Tg2s3.Collection
open Tg2s3.Counts (Exact)
open Tg2s3.Buckets (Housed housed_apply housed_set_bucket_cors housed_copy_object relies_on_check)
open Tg2s3.Readable (Objects Layout Intact columns objects_apply layout_of_parts)
open Tg2s3.Conditional (writes_objects same_objects_apply object?_of_objects object?_append
  object?_without_object_ne)
open Tg2s3.Serving

/-! ## Events -/

/-- `Engine::reclaim_blocks_now`, the task for the blocks that a transaction has released. -/
def reclaim_blocks_now (telegram : Collection.Telegram) (timestamp : Int) (db : Database)
    (blocks : List BlockRef) : Database :=
  (process_gc_candidates telegram timestamp db
    (blocks.filterMap fun block => gc_candidate db block.id timestamp)).1

/-- The loop of `prepare` over the configured buckets. -/
def create_init_buckets (now : Int) (db : Database) (init_buckets : List String) : Database :=
  init_buckets.foldl (fun db bucket => (create_bucket db now bucket).1) db

inductive Event
  | request (auth : Auth.SigV4) (crypto : Auth.Crypto) (now : Int) (s : S3.Dispatch.Server)
      (request_id : String) (r : S3.Dispatch.Request)
  | collect (pass : Pass)
  | reclaim (telegram : Collection.Telegram) (timestamp : Int) (blocks : List BlockRef)
  | start (now : Int) (init_buckets : List String)

def serve (db : Database) : Event → Database
  | .request auth crypto now s request_id r =>
      (S3.Handle.handle auth crypto now s db request_id r).1
  | .collect pass => collect db pass
  | .reclaim telegram timestamp blocks => reclaim_blocks_now telegram timestamp db blocks
  | .start now init_buckets => create_init_buckets now db init_buckets

/-- The tables after these events, from empty ones. -/
def served (events : List Event) : Database := exec serve {} events

/-! ## What the collector does -/

/-- An operation of the collector. -/
def Sweeps : Op → Prop
  | .expire_uploads .. | .queue_stale_block .. | .gc_success .. | .gc_failure .. | .gc_orphan .. =>
      True
  | _ => False

/-- What the collector does needs nothing of its caller. -/
theorem proper_of_sweeps {db : Database} {op : Op} (h : Sweeps op) : Proper db op := by
  cases op <;> first | exact False.elim h | exact ⟨trivial, trivial, trivial⟩

/-- Operations of the collector lead from one database to the other. -/
abbrev Swept : Database → Database → Prop := Leads Op.apply fun _ op => Sweeps op

/-- One operation of the collector is a trace of them. -/
theorem swept_step {db : Database} (op : Op) (h : Sweeps op) : Swept db (op.apply db) :=
  Leads.single h

/-- A loop whose body is such a trace. -/
theorem swept_foldl {α : Type*} {f : Database → α → Database} (hf : ∀ db x, Swept db (f db x))
    (db : Database) (xs : List α) : Swept db (xs.foldl f db) := by
  induction xs generalizing db with
  | nil => exact .refl db
  | cons x xs ih => exact (hf db x).trans (ih (f db x))

section Collector

variable (telegram : Collection.Telegram) (timestamp : Int)

/-- One candidate: its message is deleted, and then the row goes, or the failure is written to
its place in the queue. -/
theorem swept_process_gc_candidate (db : Database) (candidate : GarbageRecord) :
    Swept db (process_gc_candidate telegram timestamp db candidate) := by
  unfold process_gc_candidate
  split
  · exact swept_step (.gc_success candidate.block_id) trivial
  · split_ifs
    · exact swept_step (.gc_success candidate.block_id) trivial
    · exact swept_step (.gc_failure candidate.block_id _ _) trivial

/-- A group of candidates, whose messages are deleted by one call to Telegram and whose rows go
together if that call goes well. -/
theorem swept_delete_candidate_group (db : Database) (backend : TelegramBackend)
    (group : List GarbageRecord) :
    Swept db (delete_candidate_group telegram timestamp db backend group).1 := by
  have hsuccess : ∀ (d : Database) (candidate : GarbageRecord),
      Swept d (gc_success d candidate.block_id) :=
    fun _ candidate => swept_step (.gc_success candidate.block_id) trivial
  have hone := swept_foldl (swept_process_gc_candidate telegram timestamp) db group
  unfold delete_candidate_group
  split_ifs
  · split
    · exact swept_foldl hsuccess db group
    · exact hone
  · exact hone

/-- Group by group, in the order in which they were formed. -/
theorem swept_delete_groups (db : Database) (processed : ℕ)
    (groups : List (TelegramBackend × List GarbageRecord)) :
    Swept db (delete_groups telegram timestamp db processed groups).1 := by
  induction groups generalizing db processed with
  | nil => exact .refl db
  | cons entry rest ih =>
      obtain ⟨backend, group⟩ := entry
      exact (swept_delete_candidate_group telegram timestamp db backend group).trans (ih _ _)

/-- All candidates of a pass. What a single one could not do is tried again candidate by
candidate, which is the same kind of trace. -/
theorem swept_process_gc_candidates (db : Database) (candidates : List GarbageRecord) :
    Swept db (process_gc_candidates telegram timestamp db candidates).1 := by
  have horphan : ∀ (d : Database) (candidate : GarbageRecord), Swept d
      (gc_orphan d candidate.block_id "Telegram deleteMessage 48 hour limit") :=
    fun _ candidate => swept_step (.gc_orphan candidate.block_id _) trivial
  unfold process_gc_candidates
  have hmarked := swept_foldl horphan db (candidates.filter fun c =>
    bot_api_delete_window_expired c.backend c.message_date timestamp)
  rw [← group_candidates_fst timestamp db 0 [] candidates] at hmarked
  exact hmarked.trans (swept_delete_groups telegram timestamp _ _ _)

end Collector

/-- The claims of a pass, one for each stale block that was listed. -/
theorem swept_queue_stale_blocks (queued_at : Int → Int) (db : Database) (processed : ℕ)
    (records : List GarbageRecord) :
    Swept db (queue_stale_blocks queued_at db processed records).1 := by
  rw [queue_stale_blocks_fst]
  exact swept_foldl (fun _ record => swept_step (.queue_stale_block _ record.block_id) trivial) db
    records

/-- **A pass of the collector** is a trace of its operations. -/
theorem swept_collect (db : Database) (pass : Pass) : Swept db (collect db pass) := by
  have hexpire : Swept db (expire db pass) := swept_step (.expire_uploads _ _) trivial
  have hclaim := swept_queue_stale_blocks pass.queued_at (expire db pass) 0
    (stale (expire db pass) pass)
  unfold collect run_gc
  split_ifs
  · exact .refl db
  · dsimp only
    split_ifs
    · exact hexpire.trans hclaim
    · exact (hexpire.trans hclaim).trans (swept_process_gc_candidates _ _ _ _)

/-! ## Every event is a trace -/

/-- A request is answered before `dispatch`, and leaves the tables, or it is dispatched, at
most with a body that was read before. -/
theorem handle_cases (auth : Auth.SigV4) (crypto : Auth.Crypto) (now : Int) (s : S3.Dispatch.Server)
    (db : Database) (request_id : String) (r : S3.Dispatch.Request) :
    (S3.Handle.handle auth crypto now s db request_id r).1 = db
      ∨ ∃ r', r'.method = r.method ∧ r'.uri = r.uri ∧ r'.headers = r.headers
          ∧ (r.method ≠ .PUT → r'.body = r.body)
          ∧ (S3.Handle.handle auth crypto now s db request_id r).1
              = (S3.Dispatch.dispatch s db r').1 := by
  change (S3.Handle.answer auth crypto now s db request_id r).1 = db ∨ ∃ r', _ ∧ _ ∧ _ ∧ _
    ∧ (S3.Handle.answer auth crypto now s db request_id r).1 = _
  unfold S3.Handle.answer
  split
  · exact Or.inl rfl
  · rename_i r' payload_hash hhashed
    have hsame : r'.method = r.method ∧ r'.uri = r.uri ∧ r'.headers = r.headers
        ∧ (r.method ≠ .PUT → r'.body = r.body) := by
      unfold S3.Handle.hashed_body at hhashed
      split at hhashed
      · rename_i hcors
        -- only the body of a PUT is read here
        have hput : r.method = .PUT := by
          unfold S3.Handle.is_cors_put at hcors
          simp only [Bool.and_eq_true, decide_eq_true_eq] at hcors
          exact hcors.1.1
        split at hhashed
        · cases hhashed
        · obtain ⟨rfl, -⟩ := Prod.mk.inj (Except.ok.inj hhashed)
          exact ⟨rfl, rfl, rfl, fun hne => absurd hput hne⟩
      · obtain ⟨rfl, -⟩ := Prod.mk.inj (Except.ok.inj hhashed)
        exact ⟨rfl, rfl, rfl, fun _ => rfl⟩
    split
    · exact Or.inl rfl
    · split
      · exact Or.inl rfl
      · refine Or.inr ⟨r', hsame.1, hsame.2.1, hsame.2.2.1, hsame.2.2.2, ?_⟩
        split
        all_goals
          rename_i hdispatch
          rw [hdispatch]

/-- The request is about this key: it is in the name of the request, or on its list of keys
to delete. -/
def RequestTouches (s : S3.Dispatch.Server) (r : S3.Dispatch.Request) (bucket key : String) : Prop :=
  target_bucket s r = some bucket ∧ Names s r key

/-- Only requests are about a key. -/
def Event.Touches (bucket key : String) : Event → Prop
  | .request _ _ _ s _ r => RequestTouches s r bucket key
  | _ => False

/-- The request sends this part. -/
def Event.Sends (upload_id : String) (part_number : Int) : Event → Prop
  | .request _ _ _ s _ r => NamesPart s r upload_id part_number
  | _ => False

/-- The operation does not replace this part. -/
def Spares (upload_id : String) (part_number : Int) (op : Op) : Prop :=
  ∀ now size etag blocks, op ≠ .replace_part now upload_id part_number size etag blocks

/-- The collector replaces no part. -/
theorem spares_of_sweeps {upload_id : String} {part_number : Int} {op : Op} (h : Sweeps op) :
    Spares upload_id part_number op := by
  rintro now size etag blocks rfl
  exact h

/-- An operation in a scope without this part does not replace it. The number zero is out, since
each PUT has a part of that number for itself. -/
theorem spares_of_within {scope : Scope} {upload_id : String} {part_number : Int} {db : Database}
    {op : Op} (h : Within scope db op) (hpart : part_number ≠ 0)
    (hother : ¬ scope.parts upload_id part_number) : Spares upload_id part_number op := by
  rintro now size etag blocks rfl
  exact h.elim (fun hzero => hpart hzero.1) (fun hnamed => hother hnamed.2)

/-- The operation writes no object at this key. -/
def Elsewhere (bucket key : String) (db : Database) (op : Op) : Prop :=
  CopySource.written_at db op ≠ some (bucket, key)
    ∧ ∀ now condition, op ≠ .delete_object now bucket key condition

/-- The key at which an operation deletes. -/
def deleted_at : Op → Option (String × String)
  | .delete_object _ bucket key _ => some (bucket, key)
  | _ => none

instance (bucket key : String) (db : Database) (op : Op) : Decidable (Elsewhere bucket key db op) :=
  decidable_of_iff
    (CopySource.written_at db op ≠ some (bucket, key) ∧ deleted_at op ≠ some (bucket, key)) <|
    and_congr_right fun _ => by
      cases op with
      | delete_object now bucket' key' condition =>
          constructor
          · rintro hne now' condition' heq
            cases heq
            exact hne rfl
          · rintro hne heq
            obtain ⟨rfl, rfl⟩ := Prod.mk.inj (Option.some.inj heq)
            exact hne now condition rfl
      | _ => exact ⟨fun _ _ _ heq => (by cases heq), fun _ heq => (by cases heq)⟩

/-- The collector is elsewhere, whichever key is meant: it only takes blocks without a reference.
-/
theorem elsewhere_of_sweeps {bucket key : String} {db : Database} {op : Op} (h : Sweeps op) :
    Elsewhere bucket key db op := by
  cases op <;> first
    | exact False.elim h
    | exact ⟨fun heq => (by cases heq), fun _ _ heq => (by cases heq)⟩

/-- An operation on another key is elsewhere. -/
theorem elsewhere_of_within {scope : Scope} {bucket key : String} {db : Database} {op : Op}
    (h : Within scope db op) (hother : ¬ (scope.bucket = bucket ∧ scope.keys key)) :
    Elsewhere bucket key db op := by
  cases op with
  | commit_upload now upload_id size etag parts condition =>
      refine ⟨fun heq => ?_, fun _ _ heq => (by cases heq)⟩
      obtain ⟨upload, hupload, rfl, rfl⟩ := CopySource.upload_of_written_at heq
      obtain ⟨hbucket, hkey⟩ := h upload hupload
      exact hother ⟨hbucket.symm, hkey⟩
  | copy_object now source bucket' key' metadata condition =>
      refine ⟨fun heq => ?_, fun _ _ heq => (by cases heq)⟩
      obtain ⟨rfl, rfl⟩ := Prod.mk.inj (CopySource.target_of_written_at heq)
      exact hother ⟨h.1.symm, h.2⟩
  | delete_object now bucket' key' condition =>
      refine ⟨fun heq => (by cases heq), fun now' condition' heq => ?_⟩
      cases heq
      exact hother ⟨h.1.symm, h.2⟩
  | _ => exact ⟨fun heq => (by cases heq), fun _ _ heq => (by cases heq)⟩

/-- An operation on the way of an event: it is proper, and leaves the objects and the parts that the
event is not about. -/
structure Event.Does (event : Event) (db : Database) (op : Op) : Prop where
  proper : Proper db op
  elsewhere : ∀ bucket key, ¬ event.Touches bucket key → Elsewhere bucket key db op
  spares : ∀ upload_id part_number, part_number ≠ 0 → ¬ event.Sends upload_id part_number →
    Spares upload_id part_number op

/-- A start makes its buckets one by one, and does nothing else to the tables. -/
theorem created_init_buckets (now : Int) (db : Database) (init_buckets : List String) :
    Leads Op.apply (fun _ op => ∃ bucket, op = .create_bucket now bucket) db
      (create_init_buckets now db init_buckets) := by
  unfold create_init_buckets
  induction init_buckets generalizing db with
  | nil => exact .refl db
  | cons bucket rest ih => exact (Leads.single ⟨bucket, rfl⟩).trans (ih _)

/-- **Every event is a trace** of such operations. -/
theorem serve_leads {db : Database} (hwf : WellFormed db) (event : Event) :
    Leads Op.apply event.Does db (serve db event) := by
  have hsweeps {d d' : Database} (h : Swept d d') : Leads Op.apply event.Does d d' :=
    h.mono fun _ _ hop =>
      ⟨proper_of_sweeps hop, fun _ _ _ => elsewhere_of_sweeps hop, fun _ _ _ _ => spares_of_sweeps hop⟩
  cases event with
  | request auth crypto now s request_id r =>
      change Leads _ _ _ (S3.Handle.handle auth crypto now s db request_id r).1
      rcases handle_cases auth crypto now s db request_id r with hsame | hdispatched
      · rw [hsame]
        exact .refl db
      · -- what is dispatched names the same bucket, keys and parts as what came
        obtain ⟨r', hmethod, huri, hheaders, hbody, hdispatch⟩ := hdispatched
        rw [hdispatch]
        have htarget : target_bucket s r' = target_bucket s r := by
          unfold target_bucket
          rw [huri, hheaders]
        have hnames : ∀ key, Names s r' key → Names s r key := by
          rintro key (⟨target, hparse, hkey⟩ | ⟨hpost, hquery, hlisted⟩)
          · exact Or.inl ⟨target, by rw [← hparse, huri, hheaders], hkey⟩
          · have hmethod' : r.method = .POST := hmethod.symm.trans hpost
            refine Or.inr ⟨hmethod', ?_, ?_⟩
            · unfold S3.Dispatch.Request.query at hquery ⊢
              rwa [← huri]
            · rwa [← hbody (by rw [hmethod']; decide)]
        cases hbucket : target_bucket s r' with
        | none =>
            rw [dispatch_no_bucket hbucket]
            exact .refl db
        | some name =>
            have hwrites : Writes (request_scope s r' name) db (S3.Dispatch.dispatch s db r').1 :=
              (calls_writes hwf).dispatch hbucket
            have hsent : ∀ upload_id part_number, NamesPart s r' upload_id part_number →
                NamesPart s r upload_id part_number := by
              rintro upload_id part_number ⟨hput, hpart⟩
              refine ⟨hmethod.symm.trans hput, ?_⟩
              unfold S3.Dispatch.Request.query at hpart ⊢
              rwa [← huri]
            -- each operation stays within what the request names
            refine Leads.mono (fun d op hop => ?_) hwrites
            refine ⟨hop.1, fun bucket key hnot => elsewhere_of_within hop.2 ?_,
              fun upload_id part_number hpart hnot => spares_of_within hop.2 hpart ?_⟩
            · rintro ⟨rfl, hkey⟩
              exact hnot ⟨htarget.symm.trans hbucket, hnames key hkey⟩
            · exact fun hnamed => hnot (hsent upload_id part_number hnamed)
  | collect pass => exact hsweeps (swept_collect db pass)
  | reclaim telegram timestamp blocks => exact hsweeps (swept_process_gc_candidates _ _ _ _)
  | start now init_buckets =>
      refine Leads.mono (fun d op hop => ?_) (created_init_buckets now db init_buckets)
      -- the start creates buckets only
      obtain ⟨bucket, rfl⟩ := hop
      refine ⟨⟨trivial, trivial, trivial⟩, ?_, ?_⟩
      · exact fun _ _ _ => ⟨fun heq => (by cases heq), fun _ _ heq => (by cases heq)⟩
      · exact fun _ _ _ _ _ _ _ _ heq => (by cases heq)

/-- The rule for runs: what every proper operation keeps, every run of the server keeps. -/
theorem served_inv {I : Database → Prop} (hwf : ∀ db, I db → WellFormed db)
    (hstep : ∀ db op, I db → Proper db op → I (op.apply db)) {db : Database} (h : I db)
    (events : List Event) : I (exec serve db events) :=
  exec_inv (C := fun _ _ => True)
    (fun d event hd _ =>
      (serve_leads (hwf d hd) event).inv (fun d op hd hop => hstep d op hd hop.proper) hd)
    h (ExecMeets.of_forall (fun _ _ => trivial) db events)

/-! ## What holds after every run -/

/-- The counts are kept, the rows are housed, and the objects are laid out. -/
structure Sound (db : Database) : Prop where
  counts : Counts.Inv db
  housed : Housed db
  objects : Objects (fun row => Layout row.size) db

/-- There is nothing yet that could be wrong. -/
theorem sound_empty : Sound {} where
  counts := Counts.inv_empty
  housed := ⟨fun _ h => (by cases h), fun _ h => (by cases h), fun _ h => (by cases h)⟩
  objects := fun _ h => (by cases h)

/-- What a copy is given has a layout that the reader's check accepts. -/
theorem accepted_of_read {db : Database} (h : Sound db) {source : ObjectRecord}
    (hread : get_object db source.bucket source.key = some source) : Readable.Accepted source := by
  obtain ⟨row, hrow, rfl⟩ := Option.map_eq_some_iff.mp hread
  exact (h.objects row (lookup_mem hrow).1).accepted h.counts.wellFormed

/-- **One operation** that is called on what its caller has seen. -/
theorem Sound.apply {db : Database} {op : Op} (h : Sound db) (hop : Proper db op) :
    Sound (op.apply db) where
  counts := Counts.inv_apply db op h.counts ⟨hop.provided, hop.held h.counts.wellFormed⟩
  housed := by
    cases hrelies : relies_on_check op with
    | false => exact housed_apply h.housed op hrelies
    | true =>
        cases op with
        | set_bucket_cors now bucket configuration =>
            exact housed_set_bucket_cors h.housed now configuration hop.stood
        | copy_object now source bucket key metadata condition =>
            exact housed_copy_object h.housed now source key metadata condition hop.stood
        | _ => cases hrelies
  objects := by
    refine objects_apply h.counts.wellFormed h.objects ?_ ?_
    · intro _ _ _ _ _ _ _ _ _ _ hok
      exact layout_of_parts (commit_upload_tx_ok hok).layout
    · rintro now source bucket key metadata condition - - rfl -
      exact (accepted_of_read h hop.read.1).layout

/-- **Every run keeps the tables sound.** Each event is a trace of proper operations, and each
proper operation keeps them sound, so nothing has to be known about the order of the events. -/
theorem sound_served (events : List Event) : Sound (served events) :=
  served_inv (fun _ h => h.counts.wellFormed) (fun _ _ h hop => h.apply hop) sound_empty events

/-- **After every run of the server** the counts agree with the references, no row is left
without its bucket, and every object can be read: its blocks are there and tile it. -/
theorem served_sound (events : List Event) :
    Exact (served events) ∧ Housed (served events)
      ∧ ∀ row ∈ (served events).objects, Intact (served events) row := by
  have h := sound_served events
  have hwf := h.counts.wellFormed
  refine ⟨Counts.exact_of_balanced hwf h.counts.balanced, h.housed, fun row hrow => ?_⟩
  have hlayout := h.objects row hrow
  refine ⟨hlayout, (hlayout.accepted hwf).1, fun r hr => ?_, hwf.load_object_blocks row.id⟩
  have hmem := (List.mem_filter.mp ((List.mem_insertionSort _).mp hr)).1
  exact List.mem_map.mp (hwf.object_block_block r hmem)

/-! ## What an event leaves alone -/

/-- An operation elsewhere leaves the row of an object. -/
theorem object?_apply {db : Database} {op : Op} {bucket key : String} (hwf : WellFormed db)
    (hop : Elsewhere bucket key db op) : (op.apply db).object? bucket key = db.object? bucket key := by
  by_cases hwrites : writes_objects op = false
  · exact object?_of_objects (same_objects_apply db hwrites).1 bucket key
  cases op with
  | commit_upload now upload_id size etag parts condition =>
      refine transaction_cases (P := fun d => d.object? bucket key = _) rfl (fun db' result hok => ?_)
      cases result with
      | none => rw [commit_upload_tx_none hok]
      | some r =>
          have hdone := commit_upload_tx_ok hok
          have hne : (bucket, key) ≠ (r.1.bucket, r.1.key) := by
            intro heq
            refine hop.1 ?_
            rw [CopySource.written_at_commit hok, heq]
          rw [object?_append hdone.books.objects (hwf.object?_without_object r.1.bucket r.1.key) hne,
            object?_without_object_ne hwf hne]
  | copy_object now source bucket' key' metadata condition =>
      refine transaction_cases (P := fun d => d.object? bucket key = _) rfl (fun db' released hok => ?_)
      have hdone := copy_object_tx_ok hok
      have hne : (bucket, key) ≠ (bucket', key') := fun heq =>
        hop.1 ((CopySource.written_at_copy hok).trans (congrArg some heq.symm))
      rw [object?_append hdone.books.objects (hwf.object?_without_object bucket' key') hne,
        object?_without_object_ne hwf hne]
  | delete_object now bucket' key' condition =>
      refine transaction_cases (P := fun d => d.object? bucket key = _) rfl (fun db' deleted hok => ?_)
      obtain ⟨-, rfl, -⟩ := delete_object_tx_ok hok
      have hne : (bucket, key) ≠ (bucket', key') := by
        intro heq
        obtain ⟨rfl, rfl⟩ := Prod.mk.inj heq
        exact hop.2 now condition rfl
      have hobjects := (books_decrement_blocks (without_object db bucket' key') now
        (held_by_object db bucket' key')).objects
      rw [object?_of_objects hobjects, object?_without_object_ne hwf hne]
  | _ => exact absurd rfl hwrites

/-- **An operation elsewhere leaves the object**: its row, its blocks and their documents. -/
theorem get_object_apply {db : Database} {op : Op} {bucket key : String} (hwf : WellFormed db)
    (hop : Elsewhere bucket key db op) :
    get_object (op.apply db) bucket key = get_object db bucket key := by
  have hrow := object?_apply hwf hop
  have hget : ∀ d : Database, get_object d bucket key
      = (d.object? bucket key).map fun row => object_from_row row (load_object_blocks d row.id) :=
    fun _ => rfl
  rw [hget, hget, hrow]
  cases hobject : db.object? bucket key with
  | none => rfl
  | some row =>
      -- the row is there afterwards, so what is stored under it is what was stored before
      obtain ⟨hmem, hname⟩ := lookup_mem (hrow.trans hobject : lookup _ _ (op.apply db).objects = _)
      obtain ⟨rfl, rfl⟩ := Prod.mk.inj hname
      have hnot : CopySource.NotReused row.id row.bucket row.object_key db op :=
        fun hwritten => absurd hwritten hop.1
      obtain ⟨-, hstored⟩ := CopySource.matched_apply hwf hnot hmem
      rw [Option.map_some, Option.map_some, Reads.load_object_blocks_eq, hstored,
        ← Reads.load_object_blocks_eq]

/-- One event that is not about the object. -/
theorem get_object_serve {db : Database} {event : Event} {bucket key : String} (hwf : WellFormed db)
    (hnot : ¬ event.Touches bucket key) :
    WellFormed (serve db event) ∧ get_object (serve db event) bucket key = get_object db bucket key :=
  (serve_leads hwf event).inv
    (I := fun d => WellFormed d ∧ get_object d bucket key = get_object db bucket key)
    (fun d op hd hop => ⟨wellFormed_apply d op hd.1,
      (get_object_apply hd.1 (hop.elsewhere bucket key hnot)).trans hd.2⟩)
    ⟨hwf, rfl⟩

/-- A run that is not about the object, event by event. Well-formedness goes along, because the
next event starts from tables that the last one has left. -/
theorem get_object_exec {db : Database} {events : List Event} {bucket key : String}
    (hwf : WellFormed db) (hnot : ∀ event ∈ events, ¬ event.Touches bucket key) :
    get_object (exec serve db events) bucket key = get_object db bucket key := by
  induction events generalizing db with
  | nil => rfl
  | cons event rest ih =>
      obtain ⟨hwf', hkept⟩ := get_object_serve hwf (hnot event List.mem_cons_self)
      exact (ih hwf' fun e he => hnot e (List.mem_cons_of_mem _ he)).trans hkept

/-- **An object that no event is about reads the same** after any run, from any state the
server can reach: size, ETag, metadata, and the documents of its blocks. -/
theorem untouched_object_kept (past events : List Event) (bucket key : String)
    (hnot : ∀ event ∈ events, ¬ event.Touches bucket key) :
    get_object (exec serve (served past) events) bucket key = get_object (served past) bucket key :=
  get_object_exec (sound_served past).counts.wellFormed hnot

section Sample

/-- A request by anybody, to a server that lets everybody in. -/
def visit (method : S3.Method) (path : String) : Event :=
  .request { access_key := none, secret_key := none, region := "us-east-1", allow_anonymous := true }
    Auth.crypto 0 S3.Dispatch.path_server "r"
    { method := method, uri := { path := path, query := none }, headers := {}, body := [] }

/-- The object `k` is stored; then `j` is stored and deleted, and a bucket comes. -/
def two_objects : List Event × List Event :=
  ([.start 1 ["b"], visit .PUT "/b/k"], [visit .PUT "/b/j", visit .DELETE "/b/j", .start 2 ["c"]])

/-- The object `k` keeps its row and its documents while `j` comes and goes. -/
theorem untouched_object_kept_sample :
    get_object (served two_objects.1) "b" "k" ≠ none
      ∧ get_object (exec serve (served two_objects.1) two_objects.2) "b" "k"
          = get_object (served two_objects.1) "b" "k" := by
  refine ⟨by decide +kernel, untouched_object_kept two_objects.1 two_objects.2 "b" "k" ?_⟩
  have hother (method : S3.Method) (hmethod : method ≠ .POST) :
      ¬ (visit method "/b/j").Touches "b" "k" := by
    rintro ⟨-, ⟨target, htarget, hkey⟩ | ⟨hpost, -⟩⟩
    · have hj : S3.Target.parse some { path := "/b/j", query := none } {} none
          = .ok { bucket := some "b", key := some "j" } := by decide
      obtain rfl := Except.ok.inj (hj.symm.trans htarget)
      exact absurd hkey (by decide)
    · exact hmethod hpost
  intro event hevent
  fin_cases hevent
  · exact hother .PUT (by decide)
  · exact hother .DELETE (by decide)
  · exact id

end Sample

end Tg2s3.Service
