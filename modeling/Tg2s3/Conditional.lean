/-
Conditional writes are compare-and-swap.

A write is checked three times against its `If-Match` and `If-None-Match`. The check
of the HTTP layer is no part of a transaction and only turns requests away early: a
request it rejects takes no step here. The check that counts is the one in the
transaction. `commit_upload` and `copy_object` begin with an update, so SQLite takes
the write lock before the ETag is read, and the whole transaction is one step.
`delete_object` begins with the read: it works on a snapshot, and its first write
is refused (`SQLITE_BUSY_SNAPSHOT`) if another transaction has committed since.

So the operations that commit on a key form a chain of compare-and-swaps on its
ETag, in commit order. What does not follow is that of two writers with the same
`If-Match` only one commits: an operation between them may put the ETag back
(`restored_in_between`), and an ETag is all a condition compares.
-/
import Tg2s3.Counts
import Tg2s3.Lib.Cas

set_option autoImplicit false

namespace Tg2s3.Conditional

open Tg2s3 Relational Machine Cas
open Tg2s3.Counts (sent put_first upload_record)

/-! ## The system -/

/-- An operation that committed on the object at a key. -/
structure Commit where
  bucket : String
  key : String
  condition : ObjectCondition
  /-- the ETag of the object before it and after it, if there is one -/
  before : Option String
  after : Option String
  deriving DecidableEq, Repr

/-- A `delete_object` that has done its reads. -/
structure Delete where
  bucket : String
  key : String
  condition : ObjectCondition
  snapshot : Versioned Database
  deriving DecidableEq

structure Store where
  db : Versioned Database
  deletes : List Delete := []
  commits : List Commit := []
  deriving DecidableEq

inductive Action
  /-- a transaction of another method of `Db` -/
  | request (op : Op)
  | commit_upload (now : Int) (upload_id : String) (size : Int) (etag : String)
      (parts : List PartRecord) (condition : ObjectCondition)
  | copy_object (now : Int) (source : ObjectRecord) (bucket key : String)
      (metadata : ObjectMetadata) (condition : ObjectCondition)
  | delete_read (bucket key : String) (condition : ObjectCondition)
  | delete_write (delete : Delete) (now : Int)
  /-- the transaction ends without a commit, for whatever reason -/
  | delete_rollback (delete : Delete)

/-- The transactions that write a row of `objects`. -/
def writes_objects : Op → Bool
  | .commit_upload .. | .copy_object .. | .delete_object .. => true
  | _ => false

/-- The ETag of the object at a key. -/
def etag_at (db : Database) (bucket key : String) : Option String :=
  (db.object? bucket key).map (·.etag)

namespace Store

variable (s : Store)

/-- A transaction on the object at a key commits. -/
def commit (db' : Database) (bucket key : String) (condition : ObjectCondition) : Store :=
  { s with
    db := s.db.commit db'
    commits := s.commits ++ [
      { bucket := bucket, key := key, condition := condition
        before := etag_at s.db.value bucket key, after := etag_at db' bucket key }] }

end Store

def step (s : Store) : Action → Option Store
  | .request op =>
      if writes_objects op then none else some { s with db := s.db.commit (op.apply s.db.value) }
  | .commit_upload now upload_id size etag parts condition =>
      match commit_upload_tx s.db.value now upload_id size etag parts condition with
      | .ok (db', some (upload, _)) => some (s.commit db' upload.bucket upload.key condition)
      | _ => some s
  | .copy_object now source bucket key metadata condition =>
      match copy_object_tx s.db.value now source bucket key metadata condition with
      | .ok (db', _) => some (s.commit db' bucket key condition)
      | .error _ => some s
  | .delete_read bucket key condition =>
      -- `PreconditionFailed`, and no object to delete, end the transaction here
      if condition.allows (etag_at s.db.value bucket key) ∧ etag_at s.db.value bucket key ≠ none then
        some { s with deletes := ⟨bucket, key, condition, s.db⟩ :: s.deletes }
      else some s
  | .delete_write delete now =>
      if delete ∈ s.deletes then
        if delete.snapshot.commits = s.db.commits then
          match delete_object_tx delete.snapshot.value now delete.bucket delete.key
              delete.condition with
          | .ok (db', some _) => some
              ({ s with deletes := s.deletes.erase delete }.commit db' delete.bucket delete.key
                delete.condition)
          | _ => some { s with deletes := s.deletes.erase delete }
        else some { s with deletes := s.deletes.erase delete }
      else none
  | .delete_rollback delete =>
      if delete ∈ s.deletes then some { s with deletes := s.deletes.erase delete } else none

/-- The store after a history, with no request running. -/
def Store.init (past : List Op) : Store := { db := ⟨after past, 0⟩ }

/-- The object a writer is about and the condition it was called with. -/
def target (s : Store) : Action → Option (String × String × ObjectCondition)
  | .commit_upload _ upload_id _ _ _ condition =>
      (s.db.value.upload? upload_id).map fun upload => (upload.bucket, upload.key, condition)
  | .copy_object _ _ bucket key _ condition => some (bucket, key, condition)
  | .delete_read bucket key condition => some (bucket, key, condition)
  | .delete_write delete _ => some (delete.bucket, delete.key, delete.condition)
  | _ => none

/-- The operation as a compare-and-swap. -/
def Commit.effect (c : Commit) : Effect (Option String) where
  allows := c.condition.allows
  before := c.before
  after := c.after

/-- The operations that committed on a key, in commit order. -/
def Store.commits_on (s : Store) (bucket key : String) : List Commit :=
  s.commits.filter fun c => c.bucket = bucket ∧ c.key = key

/-! ## Which operations touch the object at a key -/

/-- Taking one object away leaves the others. -/
theorem object?_without_object_ne {db : Database} (hwf : WellFormed db)
    {bucket key bucket' key' : String} (hne : (bucket', key') ≠ (bucket, key)) :
    (without_object db bucket key).object? bucket' key' = db.object? bucket' key' := by
  unfold without_object
  cases hobject : db.object? bucket key with
  | none => rfl
  | some row =>
      obtain ⟨hrow, hname⟩ := lookup_mem (hobject : lookup _ _ db.objects = some row)
      have hdelete : (db.delete_object_row row.id).object? bucket' key'
          = (db.object? bucket' key').filter (fun r => ¬ r.id = row.id) :=
        lookup_deleteWhere hwf.object_names (·.id = row.id)
      rw [hdelete]
      cases hother : db.object? bucket' key' with
      | none => rfl
      | some r =>
          obtain ⟨hr, hname'⟩ := lookup_mem (hother : lookup _ _ db.objects = some r)
          have hid : r.id ≠ row.id := by
            intro heq
            obtain rfl := eq_of_key_eq hwf.object_ids hr hrow heq
            exact hne (hname'.symm.trans hname)
          simp [Option.filter_some, hid]

/-- Putting a row at one name leaves the others. -/
theorem object?_append {db db' : Database} {row : ObjectRow} {bucket key : String}
    (hobjects : db'.objects = db.objects ++ [row]) (hnew : db.object? row.bucket row.object_key = none)
    (hne : (bucket, key) ≠ (row.bucket, row.object_key)) :
    db'.object? bucket key = db.object? bucket key := by
  have hfresh : row.name ∉ db.objects.map (·.name) := lookup_eq_none.mp hnew
  unfold Database.object?
  rw [hobjects]
  exact (lookup_append_singleton hfresh).trans (if_neg hne)

theorem object?_of_objects {db db' : Database} (h : db'.objects = db.objects)
    (bucket key : String) : db'.object? bucket key = db.object? bucket key := by
  unfold Database.object?
  rw [h]

/-- The two tables that hold the objects. -/
def SameObjects (db db' : Database) : Prop :=
  db'.objects = db.objects ∧ db'.object_blocks = db.object_blocks

theorem same_objects_of_books {db₀ db db' : Database} (h : SameObjects db db₀)
    (hbooks : Books db₀ db') :
    SameObjects db db' :=
  ⟨hbooks.objects.trans h.1, hbooks.object_blocks.trans h.2⟩

theorem same_objects_abort_upload (db : Database) (now : Int) (upload_id : String) :
    SameObjects db (abort_upload_with_blocks db now upload_id).1 := by
  rcases abort_upload_with_blocks_eq db now upload_id with heq | heq
  · rw [heq]
    exact ⟨rfl, rfl⟩
  · rw [heq]
    have hrest : SameObjects db (db.delete_upload upload_id) := ⟨rfl, rfl⟩
    exact same_objects_of_books hrest (books_decrement_blocks _ now _)

/-- No other transaction touches an object or its block rows. -/
theorem same_objects_apply (db : Database) {op : Op} (hop : writes_objects op = false) :
    SameObjects db (op.apply db) := by
  cases op with
  | create_bucket now name => exact ⟨rfl, rfl⟩
  | delete_bucket name =>
      change SameObjects db (delete_bucket db name).1
      unfold delete_bucket
      split_ifs <;> exact ⟨rfl, rfl⟩
  | set_bucket_cors now bucket configuration =>
      change SameObjects db (set_bucket_cors db now bucket configuration)
      unfold set_bucket_cors
      split_ifs <;> exact ⟨rfl, rfl⟩
  | delete_bucket_cors bucket => exact ⟨rfl, rfl⟩
  | create_upload upload =>
      refine transaction_cases (P := SameObjects db) ⟨rfl, rfl⟩ (fun db' u hok => ?_)
      obtain ⟨_, -, hok⟩ := bind_ok.mp hok
      obtain ⟨db₁, hins, hok⟩ := bind_ok.mp hok
      obtain ⟨rfl, -⟩ := Prod.mk.inj (Except.ok.inj hok)
      obtain ⟨rfl, -⟩ := insert_upload_ok hins
      exact ⟨rfl, rfl⟩
  | add_staged_block now block =>
      refine transaction_cases (P := SameObjects db) ⟨rfl, rfl⟩ (fun db' id hok => ?_)
      obtain ⟨hr, -⟩ := insert_block_ok hok
      obtain ⟨rfl, -⟩ := Prod.mk.inj hr
      exact ⟨rfl, rfl⟩
  | replace_part now upload_id part_number size etag block_ids =>
      refine transaction_cases (P := SameObjects db) ⟨rfl, rfl⟩ (fun db' released hok => ?_)
      have hrest : SameObjects db
          (replace_target db upload_id part_number size etag block_ids) := ⟨rfl, rfl⟩
      exact same_objects_of_books hrest (replace_part_tx_ok hok).books
  | commit_upload | copy_object | delete_object => cases hop
  | abort_upload_with_blocks now upload_id => exact same_objects_abort_upload db now upload_id
  | expire_uploads now before =>
      refine expire_uploads_induction (P := SameObjects db) now before ⟨rfl, rfl⟩ ?_
      intro d upload_id hd
      have habort := same_objects_abort_upload d now upload_id
      exact ⟨habort.1.trans hd.1, habort.2.trans hd.2⟩
  | queue_stale_block now block_id =>
      exact same_objects_of_books ⟨rfl, rfl⟩ (books_queue_stale_block db now block_id)
  | gc_success block_id =>
      change SameObjects db (gc_success db block_id)
      unfold gc_success
      split
      · split_ifs <;> exact ⟨rfl, rfl⟩
      · exact ⟨rfl, rfl⟩
  | gc_failure block_id error next_attempt => exact ⟨rfl, rfl⟩
  | gc_orphan block_id error => exact ⟨rfl, rfl⟩

theorem objects_apply (db : Database) {op : Op} (hop : writes_objects op = false) :
    (op.apply db).objects = db.objects := (same_objects_apply db hop).1

/-! ## What the writers do to the ETags -/

/-- A commit: its guard held, it leaves an object, and the other keys keep theirs. -/
theorem etag_commit_upload {db db' : Database} {now : Int} {upload_id : String} {size : Int}
    {etag : String} {parts : List PartRecord} {condition : ObjectCondition}
    {upload : UploadRecord} {released : List BlockRef} (hwf : WellFormed db)
    (h : commit_upload_tx db now upload_id size etag parts condition
      = .ok (db', some (upload, released))) :
    condition.allows (etag_at db upload.bucket upload.key) = true
      ∧ etag_at db' upload.bucket upload.key = some etag
      ∧ ∀ bucket key, (bucket, key) ≠ (upload.bucket, upload.key) →
          etag_at db' bucket key = etag_at db bucket key := by
  have hcommitted := commit_upload_tx_ok h
  refine ⟨hcommitted.allowed, ?_, fun bucket key hne => ?_⟩
  · unfold etag_at
    rw [(hcommitted.object hwf).1]
    rfl
  · unfold etag_at
    rw [object?_append hcommitted.books.objects
      (hwf.object?_without_object upload.bucket upload.key) hne]
    rw [object?_without_object_ne hwf hne]

theorem etag_copy_object {db db' : Database} {now : Int} {source : ObjectRecord}
    {bucket key : String} {metadata : ObjectMetadata} {condition : ObjectCondition}
    {released : List BlockRef} (hwf : WellFormed db)
    (h : copy_object_tx db now source bucket key metadata condition = .ok (db', released)) :
    condition.allows (etag_at db bucket key) = true
      ∧ etag_at db' bucket key = some source.etag
      ∧ ∀ bucket' key', (bucket', key') ≠ (bucket, key) →
          etag_at db' bucket' key' = etag_at db bucket' key' := by
  have hcopied := copy_object_tx_ok h
  refine ⟨hcopied.allowed, ?_, fun bucket' key' hne => ?_⟩
  · unfold etag_at
    rw [(hcopied.object hwf).1]
    rfl
  · unfold etag_at
    rw [object?_append hcopied.books.objects (hwf.object?_without_object bucket key) hne,
      object?_without_object_ne hwf hne]

/-- A deletion: there was an object, and now there is none. -/
theorem etag_delete_object {db db' : Database} {now : Int} {bucket key : String}
    {condition : ObjectCondition} {deleted : ObjectRecord} (hwf : WellFormed db)
    (h : delete_object_tx db now bucket key condition = .ok (db', some deleted)) :
    condition.allows (etag_at db bucket key) = true
      ∧ etag_at db' bucket key = none
      ∧ ∀ bucket' key', (bucket', key') ≠ (bucket, key) →
          etag_at db' bucket' key' = etag_at db bucket' key' := by
  obtain ⟨hallowed, rfl, -⟩ := delete_object_tx_ok h
  have hobjects := (books_decrement_blocks (without_object db bucket key) now
    (held_by_object db bucket key)).objects
  refine ⟨hallowed, ?_, fun bucket' key' hne => ?_⟩
  · unfold etag_at
    rw [object?_of_objects hobjects, hwf.object?_without_object]
    rfl
  · unfold etag_at
    rw [object?_of_objects hobjects, object?_without_object_ne hwf hne]

theorem wellFormed_delete_object_tx {db db' : Database} {now : Int} {bucket key : String}
    {condition : ObjectCondition} {deleted : Option ObjectRecord} (hwf : WellFormed db)
    (h : delete_object_tx db now bucket key condition = .ok (db', deleted)) : WellFormed db' := by
  obtain ⟨-, rfl, -⟩ := delete_object_tx_ok h
  exact wellFormed_decrement_blocks (hwf.without_object bucket key) now _

/-- A deletion that reports an object has found one. -/
theorem etag_of_deleted {db db' : Database} {now : Int} {bucket key : String}
    {condition : ObjectCondition} {deleted : ObjectRecord}
    (h : delete_object_tx db now bucket key condition = .ok (db', some deleted)) :
    etag_at db bucket key ≠ none := by
  obtain ⟨⟨db₁, removed⟩, hremove, hrest⟩ := bind_ok.mp h
  obtain ⟨-, -, -, hid⟩ := remove_existing_object_ok hremove
  unfold etag_at
  cases hobject : db.object? bucket key with
  | some row => simp
  | none =>
      rw [hobject] at hid
      cases removed with
      | none => cases (Prod.mk.inj (Except.ok.inj hrest)).2
      | some removed => cases hid

/-! ## The invariant -/

/-- Up to here the commits on every key are a chain, and a snapshot that is current
shows the current state. -/
structure Sound (start : Database) (s : Store) : Prop where
  wellFormed : WellFormed s.db.value
  chain : ∀ bucket key, Chain (etag_at start bucket key)
    ((s.commits_on bucket key).map (·.effect)) (etag_at s.db.value bucket key)
  deletions : ∀ c ∈ s.commits, c.after = none → c.before ≠ none
  snapshots : ∀ d ∈ s.deletes, Consistent d.snapshot s.db

theorem sound_init (past : List Op) : Sound (after past) (Store.init past) where
  wellFormed := wellFormed_after past
  chain := fun _ _ => rfl
  deletions := by simp [Store.init]
  snapshots := by simp [Store.init]

/-- A request ends; nothing is committed. -/
theorem Sound.forget {start : Database} {s : Store} (h : Sound start s) {deletes : List Delete}
    (hdeletes : deletes ⊆ s.deletes) : Sound start { s with deletes := deletes } where
  wellFormed := h.wellFormed
  chain := h.chain
  deletions := h.deletions
  snapshots := fun d hd => h.snapshots d (hdeletes hd)

/-- A transaction that touches no object. -/
theorem Sound.request {start : Database} {s : Store} (h : Sound start s) {db' : Database}
    (hwf : WellFormed db') (hobjects : db'.objects = s.db.value.objects) :
    Sound start { s with db := s.db.commit db' } where
  wellFormed := by simpa using hwf
  chain := by
    intro bucket key
    have hetag : etag_at (s.db.commit db').value bucket key = etag_at s.db.value bucket key := by
      unfold etag_at
      rw [Versioned.value_commit, object?_of_objects hobjects]
    exact hetag ▸ h.chain bucket key
  deletions := h.deletions
  snapshots := fun d hd => (h.snapshots d hd).commit db'

/-- What a commit adds to the commits on a key. -/
theorem commits_on_commit (s : Store) (db' : Database) (bucket key bucket' key' : String)
    (condition : ObjectCondition) :
    (s.commit db' bucket key condition).commits_on bucket' key'
      = if (bucket', key') = (bucket, key) then
          s.commits_on bucket' key' ++ [⟨bucket, key, condition, etag_at s.db.value bucket key,
            etag_at db' bucket key⟩]
        else s.commits_on bucket' key' := by
  unfold Store.commits_on Store.commit
  rw [List.filter_append]
  split_ifs with hname
  · obtain ⟨rfl, rfl⟩ := Prod.mk.inj hname
    simp
  · have hnot : ¬ (bucket = bucket' ∧ key = key') := by
      rintro ⟨rfl, rfl⟩
      exact hname rfl
    rw [List.filter_cons_of_neg (by simpa using hnot)]
    simp

/-- A writer commits: its guard held on what it found, and the other keys keep their
object. -/
theorem Sound.commit {start : Database} {s : Store} (h : Sound start s) {db' : Database}
    {bucket key : String} {condition : ObjectCondition} (hwf : WellFormed db')
    (hallowed : condition.allows (etag_at s.db.value bucket key) = true)
    (hdeletion : etag_at db' bucket key = none → etag_at s.db.value bucket key ≠ none)
    (hothers : ∀ bucket' key', (bucket', key') ≠ (bucket, key) →
      etag_at db' bucket' key' = etag_at s.db.value bucket' key') :
    Sound start (s.commit db' bucket key condition) where
  wellFormed := by simpa [Store.commit] using hwf
  chain := by
    intro bucket' key'
    have hvalue : etag_at (s.commit db' bucket key condition).db.value bucket' key'
        = etag_at db' bucket' key' := by simp [Store.commit]
    rw [commits_on_commit, hvalue]
    by_cases hname : (bucket', key') = (bucket, key)
    · obtain ⟨rfl, rfl⟩ := Prod.mk.inj hname
      rw [if_pos rfl, List.map_append]
      exact (h.chain bucket' key').snoc
        (e := Commit.effect ⟨bucket', key', condition, etag_at s.db.value bucket' key',
          etag_at db' bucket' key'⟩) rfl hallowed
    · rw [if_neg hname, hothers bucket' key' hname]
      exact h.chain bucket' key'
  deletions := by
    intro c hc hafter
    rcases List.mem_append.mp hc with hc | hc
    · exact h.deletions c hc hafter
    · obtain rfl := List.mem_singleton.mp hc
      exact hdeletion hafter
  snapshots := fun d hd => (h.snapshots d hd).commit db'

/-- **Every step keeps the chains.** -/
theorem sound_step {start : Database} {s s' : Store} {a : Action} (h : Sound start s)
    (hstep : step s a = some s') : Sound start s' := by
  cases a with
  | request op =>
      simp only [step] at hstep
      split_ifs at hstep with hop
      obtain rfl := Option.some.inj hstep
      exact h.request (wellFormed_apply _ op h.wellFormed) (objects_apply _ (by simpa using hop))
  | commit_upload now upload_id size etag parts condition =>
      simp only [step] at hstep
      split at hstep
      · rename_i db' upload released htx
        obtain rfl := Option.some.inj hstep
        obtain ⟨hallowed, hetag, hothers⟩ := etag_commit_upload h.wellFormed htx
        refine h.commit ((commit_upload_tx_ok htx).wellFormed h.wellFormed) hallowed ?_ hothers
        rw [hetag]
        exact fun hnone => by cases hnone
      · obtain rfl := Option.some.inj hstep
        exact h
  | copy_object now source bucket key metadata condition =>
      simp only [step] at hstep
      split at hstep
      · rename_i db' released htx
        obtain rfl := Option.some.inj hstep
        obtain ⟨hallowed, hetag, hothers⟩ := etag_copy_object h.wellFormed htx
        refine h.commit ((copy_object_tx_ok htx).wellFormed h.wellFormed) hallowed ?_ hothers
        rw [hetag]
        exact fun hnone => by cases hnone
      · obtain rfl := Option.some.inj hstep
        exact h
  | delete_read bucket key condition =>
      simp only [step] at hstep
      split_ifs at hstep
      · obtain rfl := Option.some.inj hstep
        refine ⟨h.wellFormed, h.chain, h.deletions, fun d hd => ?_⟩
        rcases List.mem_cons.mp hd with rfl | hd
        · exact consistent_refl s.db
        · exact h.snapshots d hd
      · obtain rfl := Option.some.inj hstep
        exact h
  | delete_write delete now =>
      simp only [step] at hstep
      split_ifs at hstep with hmem hcurrent
      · have hforget := h.forget (List.erase_subset (a := delete) (l := s.deletes))
        -- the snapshot is current, so what was read there is what is there now
        have hvalue := (h.snapshots delete hmem).2 hcurrent
        rw [hvalue] at hstep
        split at hstep
        · rename_i db' deleted htx
          obtain rfl := Option.some.inj hstep
          obtain ⟨hallowed, hetag, hothers⟩ := etag_delete_object h.wellFormed htx
          exact hforget.commit (wellFormed_delete_object_tx h.wellFormed htx) hallowed
            (fun _ => etag_of_deleted htx) hothers
        · obtain rfl := Option.some.inj hstep
          exact hforget
      · obtain rfl := Option.some.inj hstep
        exact h.forget List.erase_subset
  | delete_rollback delete =>
      simp only [step] at hstep
      split_ifs at hstep
      obtain rfl := Option.some.inj hstep
      exact h.forget List.erase_subset

/-! ## The result -/

/-- A create finds no object. -/
theorem forces_create {condition : ObjectCondition} (h : condition.if_none_match = some "*") :
    Forces condition.allows none := by
  intro etag hallows
  unfold ObjectCondition.allows at hallows
  rw [h] at hallows
  cases etag with
  | none => rfl
  | some etag => simp [etag_matches] at hallows

/-- `If-Match` with one ETag finds that ETag. -/
theorem forces_if_match {condition : ObjectCondition} {value : String}
    (h : condition.if_match = some value) (hall : value ≠ "*") (hone : ',' ∉ value.toList) :
    Forces condition.allows (some (normalize_etag value)) := by
  intro etag hallows
  unfold ObjectCondition.allows at hallows
  rw [h, Bool.and_eq_true] at hallows
  cases etag with
  | none => cases hallows.1
  | some etag =>
      have hsplit : value.toList.splitOn ',' = [value.toList] :=
        List.splitOnP_eq_singleton (fun c hc => beq_eq_false_iff_ne.mpr (fun heq => hone (heq ▸ hc)))
      have hmatch := hallows.1
      simp only [etag_matches, hall, decide_false, Bool.false_or, hsplit, List.any_cons,
        List.any_nil, Bool.or_false, decide_eq_true_eq, String.ofList_toList] at hmatch
      rw [hmatch]

/-- A writer whose condition does not hold when it takes its step changes nothing. -/
theorem step_refused {start : Database} {s s' : Store} {a : Action} (h : Sound start s)
    (hstep : step s a = some s') {bucket key : String} {condition : ObjectCondition}
    (htarget : target s a = some (bucket, key, condition))
    (hrefused : condition.allows (etag_at s.db.value bucket key) = false) :
    s'.db = s.db ∧ s'.commits = s.commits := by
  cases a with
  | request op => cases htarget
  | delete_rollback delete => cases htarget
  | commit_upload now upload_id size etag parts condition' =>
      obtain ⟨upload, hupload, hname⟩ := Option.map_eq_some_iff.mp htarget
      simp only [Prod.mk.injEq] at hname
      obtain ⟨rfl, rfl, rfl⟩ := hname
      simp only [step] at hstep
      split at hstep
      · rename_i db' upload' released htx
        have hsame := (commit_upload_tx_ok htx).upload_row
        rw [hupload] at hsame
        obtain rfl := Option.some.inj hsame
        -- a commit that goes through had its condition on what it found
        have hallowed := (etag_commit_upload h.wellFormed htx).1
        rw [hrefused] at hallowed
        cases hallowed
      · obtain rfl := Option.some.inj hstep
        exact ⟨rfl, rfl⟩
  | copy_object now source bucket' key' metadata condition' =>
      simp only [target, Option.some.injEq, Prod.mk.injEq] at htarget
      obtain ⟨rfl, rfl, rfl⟩ := htarget
      simp only [step] at hstep
      split at hstep
      · rename_i db' released htx
        have hallowed := (etag_copy_object h.wellFormed htx).1
        rw [hrefused] at hallowed
        cases hallowed
      · obtain rfl := Option.some.inj hstep
        exact ⟨rfl, rfl⟩
  | delete_read bucket' key' condition' =>
      simp only [step] at hstep
      split_ifs at hstep
      · obtain rfl := Option.some.inj hstep
        exact ⟨rfl, rfl⟩
      · obtain rfl := Option.some.inj hstep
        exact ⟨rfl, rfl⟩
  | delete_write delete now =>
      simp only [target, Option.some.injEq, Prod.mk.injEq] at htarget
      obtain ⟨rfl, rfl, rfl⟩ := htarget
      simp only [step] at hstep
      split_ifs at hstep with hmem hcurrent
      · -- no commit since the read: the snapshot is the value
        rw [(h.snapshots delete hmem).2 hcurrent] at hstep
        split at hstep
        · rename_i db' deleted htx
          have hallowed := (etag_delete_object h.wellFormed htx).1
          rw [hrefused] at hallowed
          cases hallowed
        · obtain rfl := Option.some.inj hstep
          exact ⟨rfl, rfl⟩
      · obtain rfl := Option.some.inj hstep
        exact ⟨rfl, rfl⟩

theorem sound_run {past : List Op} {as : List Action} {s : Store}
    (hrun : run step (Store.init past) as = some s) : Sound (after past) s :=
  run_inv (C := fun _ _ => True) (fun _ _ _ h _ hstep => sound_step h hstep) (sound_init past)
    (Meets.of_forall (fun _ _ => trivial) _ as) hrun

/-- A position in the commits on a key is one in the chain of effects. -/
theorem Sound.split {start : Database} {s : Store} (h : Sound start s) {bucket key : String}
    {l₁ l₂ l₃ : List Commit} {a b : Commit}
    (hsplit : s.commits_on bucket key = l₁ ++ a :: l₂ ++ b :: l₃) :
    Chain (etag_at start bucket key)
      (l₁.map (·.effect) ++ a.effect :: l₂.map (·.effect) ++ b.effect :: l₃.map (·.effect))
      (etag_at s.db.value bucket key) := by
  have hchain := h.chain bucket key
  rw [hsplit] at hchain
  simpa using hchain

/-- Of two creates the second one comes after a deletion that comes after the first. -/
theorem Sound.deleted_between {start : Database} {s : Store} (h : Sound start s)
    {bucket key : String} {l₁ l₂ l₃ : List Commit} {a b : Commit}
    (hsplit : s.commits_on bucket key = l₁ ++ a :: l₂ ++ b :: l₃)
    (ha : a.condition.if_none_match = some "*") (hb : b.condition.if_none_match = some "*") :
    ∃ c ∈ l₂, c.after = none := by
  have hchain := h.split hsplit
  have hbefore : a.before = none :=
    forces_create ha _ (hchain.allowed a.effect (by simp))
  have hmem : a ∈ s.commits := by
    have : a ∈ s.commits_on bucket key := by rw [hsplit]; simp
    exact (List.mem_filter.mp this).1
  have hafter : a.effect.after ≠ none := fun hnone => h.deletions a hmem hnone hbefore
  obtain ⟨e, he, hnone⟩ := hchain.restored_between (forces_create hb) hafter
  obtain ⟨c, hc, rfl⟩ := List.mem_map.mp he
  exact ⟨c, hc, hnone⟩

/-- Of two writers that require one ETag, the first one leaves it, or one between
them does. -/
theorem Sound.restored_between {start : Database} {s : Store} (h : Sound start s)
    {bucket key : String} {l₁ l₂ l₃ : List Commit} {a b : Commit} {etag : String}
    (hsplit : s.commits_on bucket key = l₁ ++ a :: l₂ ++ b :: l₃)
    (hb : Forces b.condition.allows (some etag)) : ∃ c ∈ a :: l₂, c.after = some etag := by
  obtain ⟨e, he, hafter⟩ := (h.split hsplit).restored (b := b.effect) hb
  rw [← List.map_cons] at he
  obtain ⟨c, hc, rfl⟩ := List.mem_map.mp he
  exact ⟨c, hc, hafter⟩

/-- **Conditional writes are compare-and-swap.** After every run the operations that
committed on a key are a chain: each one's condition held on the ETag that the one
before it left. So two creates have a deletion between them, two writers that require
one ETag have an operation that left it -- the first of them or one between them --,
and an operation whose condition does not hold at its step changes nothing. -/
theorem conditional_writes (past : List Op) (as : List Action) (s : Store)
    (hrun : run step (Store.init past) as = some s) :
    (∀ bucket key, Chain (etag_at (after past) bucket key)
      ((s.commits_on bucket key).map (·.effect)) (etag_at s.db.value bucket key))
    ∧ (∀ bucket key l₁ a l₂ b l₃, s.commits_on bucket key = l₁ ++ a :: l₂ ++ b :: l₃ →
        a.condition.if_none_match = some "*" → b.condition.if_none_match = some "*" →
          ∃ c ∈ l₂, c.after = none)
    ∧ (∀ bucket key l₁ a l₂ b l₃ etag, s.commits_on bucket key = l₁ ++ a :: l₂ ++ b :: l₃ →
        Forces a.condition.allows (some etag) → Forces b.condition.allows (some etag) →
          ∃ c ∈ a :: l₂, c.after = some etag)
    ∧ (∀ a s', step s a = some s' → ∀ bucket key condition,
        target s a = some (bucket, key, condition) →
          condition.allows (etag_at s.db.value bucket key) = false →
            s'.db = s.db ∧ s'.commits = s.commits) := by
  have hsound : Sound (after past) s := sound_run hrun
  refine ⟨hsound.chain, ?_, ?_, ?_⟩
  · intro bucket key l₁ a l₂ b l₃ hsplit ha hb
    exact hsound.deleted_between hsplit ha hb
  · intro bucket key l₁ a l₂ b l₃ etag hsplit _ hb
    exact hsound.restored_between hsplit hb
  · intro a s' hstep bucket key condition htarget hrefused
    exact step_refused hsound hstep htarget hrefused

/-! ## Two runs

Three more uploads to the key of the first object are at their commit. -/

/-- An upload of one block, up to its commit. -/
def uploaded (n : Int) (upload_id etag : String) : List Op :=
  [ .create_upload (upload_record upload_id), .add_staged_block 0 (sent 0 (10 + n) 5),
    .replace_part 0 upload_id 0 5 etag [sent n (10 + n) 5] ]

/-- The part its commit names. -/
def uploaded_part (n : Int) (upload_id etag : String) : PartRecord :=
  { upload_id := upload_id, part_number := 0, size := 5, etag := etag
    blocks := [sent n (10 + n) 5] }

def three_uploads : List Op :=
  put_first ++ uploaded 2 "put-2" "e2" ++ uploaded 3 "put-3" "e1" ++ uploaded 4 "put-4" "e3"

def commit (n : Int) (upload_id etag : String) (condition : ObjectCondition) : Action :=
  .commit_upload 1 upload_id 5 etag [uploaded_part n upload_id etag] condition

/-- A deletion that read before the first commit, and one that reads after it. -/
def early_delete : Delete := ⟨"b", "k", {}, ⟨after three_uploads, 0⟩⟩

def late_delete : Delete :=
  ⟨"b", "k", { if_match := some "e2" },
    ⟨after (three_uploads ++ [.commit_upload 1 "put-2" 5 "e2" [uploaded_part 2 "put-2" "e2"]
      { if_match := some "e1" }]), 1⟩⟩

/-- The early deletion is refused, the late one goes through; of the two creates after
it the first one does. -/
def mixed_run : List Action :=
  [ .delete_read "b" "k" {}, commit 2 "put-2" "e2" { if_match := some "e1" },
    .delete_read "b" "k" { if_match := some "e2" }, .delete_write early_delete 2,
    .delete_write late_delete 2, commit 3 "put-3" "e1" { if_none_match := some "*" },
    commit 4 "put-4" "e3" { if_none_match := some "*" } ]

theorem conditional_writes_mixed :
    ∃ s, run step (Store.init three_uploads) mixed_run = some s
      ∧ (s.commits_on "b" "k").map (·.after) = [some "e2", none, some "e1"]
      ∧ Chain (etag_at (after three_uploads) "b" "k")
          ((s.commits_on "b" "k").map (·.effect)) (etag_at s.db.value "b" "k") := by
  have hrun : (run step (Store.init three_uploads) mixed_run).map
      (fun s => (s.commits_on "b" "k").map (·.after)) = some [some "e2", none, some "e1"] := by
    decide
  obtain ⟨s, hs, hafter⟩ := Option.map_eq_some_iff.mp hrun
  exact ⟨s, hs, hafter, (conditional_writes three_uploads mixed_run s hs).1 "b" "k"⟩

/-- The second writer puts the ETag back that the other two require. -/
def restoring_run : List Action :=
  [ commit 2 "put-2" "e2" { if_match := some "e1" }, commit 3 "put-3" "e1" { if_match := some "e2" },
    commit 4 "put-4" "e3" { if_match := some "e1" } ]

/-- **Two writers with one `If-Match` can both commit** though the first one leaves
another ETag. -/
theorem restored_in_between :
    ∃ s a c b, run step (Store.init three_uploads) restoring_run = some s
      ∧ s.commits_on "b" "k" = [a, c, b]
      ∧ a.condition.if_match = some "e1" ∧ b.condition.if_match = some "e1"
      ∧ a.after = some "e2" ∧ c.after = some "e1" ∧ b.after = some "e3" := by
  have hrun : (run step (Store.init three_uploads) restoring_run).map (·.commits_on "b" "k")
      = some [⟨"b", "k", { if_match := some "e1" }, some "e1", some "e2"⟩,
          ⟨"b", "k", { if_match := some "e2" }, some "e2", some "e1"⟩,
          ⟨"b", "k", { if_match := some "e1" }, some "e1", some "e3"⟩] := by
    decide
  obtain ⟨s, hs, hcommits⟩ := Option.map_eq_some_iff.mp hrun
  exact ⟨s, _, _, _, hs, hcommits, rfl, rfl, rfl, rfl, rfl⟩

end Tg2s3.Conditional
