/-
How an upload ends.

Complete, abort and expiry race for one row of `multipart_uploads`, and so does
`upload_part`, which only wants to write below it. Each of them looks the row up
inside its transaction, so the first one that deletes it decides. The id was
drawn by the upload and is never drawn again, so the row does not come back.

What follows is in three parts. An end is a completion, an abort or an expiry,
and it is the only one. Everything that comes too late finds no row: it reports
so, or it has nothing to do, and writes nothing. And the tasks of those that lost
still clean up; they give back what nothing refers to, so they do not reach a
block of an object (`account_loses`).
-/
import Mathlib
import Tg2s3.Completion
import Tg2s3.Removal

set_option autoImplicit false

namespace Tg2s3.Endings

open Tg2s3 Relational Machine RefCount.Account
open Tg2s3.Completion (EngineError)
open Tg2s3.Staging (records)
open Tg2s3.GcSafety (record_ok document upload_record put reference garbage first_spec)

/-! ## Ends -/

/-- The row of the upload is there before the step and gone after it. -/
def Ends (upload_id : String) (w w' : World) : Prop :=
  w.db.upload? upload_id ≠ none ∧ w'.db.upload? upload_id = none

instance (upload_id : String) (w w' : World) : Decidable (Ends upload_id w w') :=
  inferInstanceAs (Decidable (_ ∧ _))

/-- The commit of a completion, or of a put. -/
def completes (upload_id : String) : Action → Bool
  | .request (.commit_upload _ id _ _ _ _) => decide (id = upload_id)
  | .commit_upload call _ => decide (call.upload_id = upload_id)
  | _ => false

/-- An abort, or a pass of the expiry. -/
def releases (upload_id : String) : Action → Bool
  | .request (.abort_upload_with_blocks _ id) => decide (id = upload_id)
  | .request (.expire_uploads _ _) => true
  | _ => false

/-- How often the parts of the upload refer to a block. -/
def parts_refs (db : Database) (upload_id : String) (b : Int) : ℕ :=
  references (·.block_id) b (db.multipart_part_blocks.filter (·.upload_id = upload_id))

/-- A block that lost `n` counts, and is queued unless something is still counted
on it. -/
def Released (db db' : Database) (n : ℕ) (b : Int) : Prop :=
  ∀ a, db.account b = some a → ∃ a', db'.account b = some a' ∧ a'.count ≤ a.count - n
    ∧ (a'.count = 0 → a'.queued = true)

/-- What an operation on an upload does that is not there: nothing. -/
structure NoEffect (upload_id : String) (db : Database) : Prop where
  replace_part : ∀ now part_number size etag blocks,
    replace_part db now upload_id part_number size etag blocks = (db, .error .no_such_upload)
  commit_upload : ∀ now size etag parts condition,
    (transaction db (commit_upload_tx db now upload_id size etag parts condition)).1 = db
      ∧ ∀ r, (transaction db (commit_upload_tx db now upload_id size etag parts condition)).2 = .ok r →
        r = none
  complete_multipart : ∀ md5 max_object_size upload_state rows_state blocks_state reread now requested,
    ∃ e, Completion.complete_multipart md5 max_object_size upload_state rows_state blocks_state db
      reread now
      upload_id requested = (db, .error e)
  complete_multipart_late : ∀ md5 max_object_size rows_state blocks_state commit_state reread now
      requested, Completion.complete_multipart md5 max_object_size db rows_state blocks_state
      commit_state
        reread now upload_id requested = (commit_state, .error (.db .no_such_upload))
  upload_part : get_upload db upload_id = none
  abort : ∀ now, abort_upload_with_blocks db now upload_id = (db, .ok none)
  expire : ∀ before : Int,
    upload_id ∉ (db.multipart_uploads.filter (·.created_at < before)).map (·.upload_id)

/-- The steps of those who come too late: of an upload to this id, of a completion
or an abort of it, and of their cleanups and the reclaim task. -/
def loses (upload_id : String) : Action → Bool
  | .request (.commit_upload _ id _ _ _ _) => decide (id = upload_id)
  | .request (.abort_upload_with_blocks _ id) => decide (id = upload_id)
  | .start_task call _ | .stage call _ _ | .finish call _ | .fail call | .replace_part call
  | .commit_upload call _ | .drop call => decide (call.upload_id = upload_id)
  | .stage_late .. | .discard .. | .lose .. => true
  | .claim .. | .claim_error .. | .delete_claimed .. | .delete_unclaimed .. | .cleanup_success .. =>
      true
  | .gc_candidate .. | .gc_delete .. | .gc_success .. | .gc_failure .. | .gc_orphan .. => true
  | _ => false

/-! ## The row -/

section Row

variable {db : Database} {upload_id : String}

theorem upload?_delete_upload (db : Database) (id upload_id : String) :
    (db.delete_upload id).upload? upload_id
      = if upload_id = id then none else db.upload? upload_id :=
  lookup_delete_key (fun u : UploadRecord => u.upload_id) upload_id id db.multipart_uploads

theorem upload?_of_uploads {db' : Database} (h : db'.multipart_uploads = db.multipart_uploads) :
    db'.upload? upload_id = db.upload? upload_id := by
  unfold Database.upload?
  rw [h]

theorem upload?_none_of_subset {db' : Database} (h : db'.multipart_uploads ⊆ db.multipart_uploads)
    (hnone : db.upload? upload_id = none) : db'.upload? upload_id = none := by
  unfold Database.upload? at hnone ⊢
  rw [lookup_eq_none] at hnone ⊢
  intro hin
  obtain ⟨u, hu, rfl⟩ := List.mem_map.mp hin
  exact hnone (List.mem_map_of_mem (h hu))

/-- The row after an abort of any upload. -/
theorem upload?_abort (db : Database) (now : Int) (id upload_id : String) :
    (abort_upload_with_blocks db now id).1.upload? upload_id
      = if upload_id = id then none else db.upload? upload_id := by
  unfold abort_upload_with_blocks
  cases hbody : abort_upload_with_blocks_tx db now id with
  | error e =>
      unfold abort_upload_with_blocks_tx at hbody
      split at hbody <;> cases hbody
  | ok r =>
      rw [transaction_ok]
      rcases abort_upload_with_blocks_tx_ok hbody with ⟨hnone, hdb, -⟩ | ⟨hdb, -⟩
      · rw [hdb]
        split_ifs with hid
        · exact hid ▸ hnone
        · rfl
      · rw [hdb, upload?_of_uploads (books_decrement_blocks _ now _).multipart_uploads]
        exact upload?_delete_upload db id upload_id

end Row

/-- A commit that took effect has taken its upload away and left the others. -/
theorem upload?_commit {db db' : Database} {now : Int} {id : String} {size : Int}
    {etag : String} {parts : List PartRecord} {condition : ObjectCondition}
    {result : Option (UploadRecord × List BlockRef)}
    (h : commit_upload_tx db now id size etag parts condition = .ok (db', result))
    (upload_id : String) :
    db'.upload? upload_id = if upload_id = id then none else db.upload? upload_id := by
  cases result with
  | none =>
      have hnone : db.upload? id = none := by
        obtain ⟨total, -, h⟩ := bind_ok.mp h
        obtain ⟨_, -, h⟩ := bind_ok.mp h
        cases hupload : db.upload? id with
        | none => rfl
        | some upload =>
            -- with the row there, the body ends in `some`
            rw [hupload] at h
            obtain ⟨_, -, h⟩ := bind_ok.mp h
            obtain ⟨_, -, h⟩ := bind_ok.mp h
            obtain ⟨_, -, h⟩ := bind_ok.mp h
            obtain ⟨_, -, h⟩ := bind_ok.mp h
            obtain ⟨_, -, h⟩ := bind_ok.mp h
            cases (Prod.mk.inj (Except.ok.inj h)).2
      rw [commit_upload_tx_none h]
      split_ifs with hid
      · exact hid ▸ hnone
      · rfl
  | some r =>
      have hc := commit_upload_tx_ok h
      obtain rfl : r.1.upload_id = id := (lookup_mem hc.upload_row).2
      have huploads : db'.multipart_uploads = (db.delete_upload r.1.upload_id).multipart_uploads := by
        rw [hc.books.multipart_uploads]
        simp only [commit_target, Database.delete_upload, multipart_uploads_without_object]
      rw [upload?_of_uploads huploads]
      exact upload?_delete_upload db r.1.upload_id upload_id

/-! ## One end -/

theorem upload_ids_mono {w w' : World} {a : Action} (hstep : step w a = some w') :
    w.upload_ids ⊆ w'.upload_ids := by
  rcases upload_ids_step hstep with ⟨upload, -, -, hids⟩ | ⟨hids, -⟩
  · rw [hids]
    exact fun id hid => List.mem_cons_of_mem _ hid
  · rw [hids]
    exact fun _ h => h

/-- **An upload that is gone stays gone.** -/
theorem gone_step {w w' : World} {a : Action} {upload_id : String}
    (hdrawn : upload_id ∈ w.upload_ids) (hgone : w.db.upload? upload_id = none)
    (hstep : step w a = some w') : w'.db.upload? upload_id = none := by
  cases hrecords : records a with
  | true =>
      obtain ⟨spec, document, w₁, block, hrecord, hdb, -⟩ := step_record hstep hrecords
      obtain ⟨-, -, rfl, -⟩ := record_ok hrecord
      rw [hdb]
      exact hgone
  | false =>
      rw [step_db hstep hrecords]
      rcases upload_ids_step hstep with ⟨upload, hnew, hop, -⟩ | ⟨-, hop⟩
      · rw [hop]
        change (create_upload w.db upload).1.upload? upload_id = none
        unfold Database.upload? at hgone ⊢
        rw [lookup_eq_none] at hgone ⊢
        intro hin
        obtain ⟨u, hu, rfl⟩ := List.mem_map.mp hin
        rcases Staging.uploads_create_upload w.db upload u hu with hu | rfl
        · exact hgone (List.mem_map_of_mem hu)
        · exact hnew hdrawn
      · cases hop' : a.op w with
        | none => exact hgone
        | some op =>
            refine upload?_none_of_subset (uploads_apply w.db op fun upload heq => ?_) hgone
            exact hop upload (heq ▸ hop')

theorem gone_run {w w' : World} {as : List Action} {upload_id : String}
    (hdrawn : upload_id ∈ w.upload_ids) (hgone : w.db.upload? upload_id = none)
    (hrun : run step w as = some w') : w'.db.upload? upload_id = none := by
  induction as generalizing w with
  | nil =>
      obtain rfl : w = w' := by simpa using hrun
      exact hgone
  | cons a as ih =>
      obtain ⟨w₁, hstep, hrest⟩ := run_cons.mp hrun
      exact ih (upload_ids_mono hstep hdrawn) (gone_step hdrawn hgone hstep) hrest

/-- The uploads in the table were drawn. -/
theorem drawn_step {w w' : World} {a : Action}
    (h : ∀ u ∈ w.db.multipart_uploads, u.upload_id ∈ w.upload_ids) (hstep : step w a = some w') :
    ∀ u ∈ w'.db.multipart_uploads, u.upload_id ∈ w'.upload_ids := by
  cases hrecords : records a with
  | true =>
      obtain ⟨spec, document, w₁, block, hrecord, hdb, -⟩ := step_record hstep hrecords
      obtain ⟨-, -, rfl, -⟩ := record_ok hrecord
      rw [hdb]
      exact fun u hu => upload_ids_mono hstep (h u hu)
  | false =>
      rw [step_db hstep hrecords]
      rcases upload_ids_step hstep with ⟨upload, -, hop, hids⟩ | ⟨hids, hop⟩
      · rw [hop, hids]
        intro u hu
        rcases Staging.uploads_create_upload w.db upload u hu with hu | rfl
        · exact List.mem_cons_of_mem _ (h u hu)
        · exact List.mem_cons_self
      · rw [hids]
        cases hop' : a.op w with
        | none => exact h
        | some op =>
            refine fun u hu => h u (uploads_apply w.db op (fun upload heq => ?_) hu)
            exact hop upload (heq ▸ hop')

theorem drawn_run {w w' : World} {as : List Action}
    (h : ∀ u ∈ w.db.multipart_uploads, u.upload_id ∈ w.upload_ids)
    (hrun : run step w as = some w') : ∀ u ∈ w'.db.multipart_uploads, u.upload_id ∈ w'.upload_ids :=
  run_inv (C := fun _ _ => True) (fun _ _ _ hI _ hs => drawn_step hI hs) h
    (Meets.of_forall (fun _ _ => trivial) _ _) hrun

/-- What takes an upload's row away. -/
theorem op_of_end {db : Database} {op : Op} {upload_id : String}
    (hthere : db.upload? upload_id ≠ none) (hgone : (op.apply db).upload? upload_id = none) :
    (∃ now size etag parts condition, op = .commit_upload now upload_id size etag parts condition)
      ∨ (∃ now, op = .abort_upload_with_blocks now upload_id)
      ∨ ∃ now before, op = .expire_uploads now before := by
  cases op with
  | create_upload upload =>
      -- the table only grows
      have hkept : db.multipart_uploads ⊆ (create_upload db upload).1.multipart_uploads := by
        refine transaction_cases (P := fun d => db.multipart_uploads ⊆ d.multipart_uploads)
          (fun _ h => h) (fun db' r hok => ?_)
        obtain ⟨_, -, hok⟩ := bind_ok.mp hok
        obtain ⟨db₁, hins, hok⟩ := bind_ok.mp hok
        obtain ⟨rfl, -⟩ := Prod.mk.inj (Except.ok.inj hok)
        obtain ⟨rfl, -⟩ := insert_upload_ok hins
        exact fun u hu => List.mem_append_left _ hu
      exact absurd (upload?_none_of_subset hkept hgone) hthere
  | commit_upload now id size etag parts condition =>
      by_cases hid : upload_id = id
      · exact Or.inl ⟨now, size, etag, parts, condition, by rw [hid]⟩
      · refine absurd ?_ hthere
        change (transaction db _).1.upload? upload_id = none at hgone
        cases hbody : commit_upload_tx db now id size etag parts condition with
        | error e =>
            rw [hbody] at hgone
            exact hgone
        | ok r =>
            have hother := upload?_commit hbody upload_id
            rw [if_neg hid] at hother
            rw [hbody] at hgone
            exact hother.symm.trans hgone
  | abort_upload_with_blocks now id =>
      by_cases hid : upload_id = id
      · exact Or.inr (Or.inl ⟨now, by rw [hid]⟩)
      · change (abort_upload_with_blocks db now id).1.upload? upload_id = none at hgone
        rw [upload?_abort, if_neg hid] at hgone
        exact absurd hgone hthere
  | expire_uploads now before => exact Or.inr (Or.inr ⟨now, before, rfl⟩)
  | _ =>
      rw [upload?_of_uploads (multipart_uploads_apply db _ (fun _ h => by cases h) rfl)] at hgone
      exact absurd hgone hthere

/-- **An end is a completion, an abort or an expiry.** -/
theorem end_cases {w w' : World} {a : Action} {upload_id : String} (hstep : step w a = some w')
    (hends : Ends upload_id w w') : completes upload_id a = true ∨ releases upload_id a = true := by
  obtain ⟨hthere, hgone⟩ := hends
  by_cases hrecords : records a = true
  · obtain ⟨spec, document, w₁, block, hrecord, hdb, -⟩ := step_record hstep hrecords
    obtain ⟨-, -, rfl, -⟩ := record_ok hrecord
    rw [hdb] at hgone
    -- a recording leaves the rows of the uploads
    exact absurd hgone hthere
  · rw [step_db hstep (Bool.eq_false_iff.mpr hrecords)] at hgone
    cases hop : a.op w with
    | none =>
        rw [hop] at hgone
        exact absurd hgone hthere
    | some op =>
        rw [hop] at hgone
        rcases op_of_end hthere hgone with ⟨now, size, etag, parts, condition, rfl⟩ | ⟨now, rfl⟩
          | ⟨now, before, rfl⟩
        · left
          cases a with
          | request op =>
              obtain rfl := Option.some.inj hop
              exact decide_eq_true rfl
          | commit_upload call condition =>
              exact decide_eq_true (Op.commit_upload.inj (Option.some.inj hop)).2.1
          | _ => cases hop
        · right
          cases a with
          | request op =>
              obtain rfl := Option.some.inj hop
              exact decide_eq_true rfl
          | _ => cases hop
        · right
          cases a with
          | request op =>
              obtain rfl := Option.some.inj hop
              rfl
          | _ => cases hop

/-! ## Too late -/

theorem no_effect {db : Database} {upload_id : String} (h : db.upload? upload_id = none) :
    NoEffect upload_id db := by
  -- the layout is validated before the row is looked for
  have hcommit : ∀ (now size : Int) (etag : String) (parts : List PartRecord)
      (condition : ObjectCondition),
      (∃ e, commit_upload_tx db now upload_id size etag parts condition = .error e)
        ∨ commit_upload_tx db now upload_id size etag parts condition = .ok (db, none) := by
    intro now size etag parts condition
    unfold commit_upload_tx
    cases validate_parts_layout parts with
    | error e => exact Or.inl ⟨e, rfl⟩
    | ok total =>
        by_cases hsize : total = size
        · right
          simp [require, hsize, h, bind, Except.bind, pure, Except.pure]
        · left
          exact ⟨.invalid_layout, by simp [require, hsize, bind, Except.bind]⟩
  constructor
  · intro now part_number size etag blocks
    simp [Tg2s3.replace_part, replace_part_tx, require, h, bind, Except.bind]
  · intro now size etag parts condition
    rcases hcommit now size etag parts condition with ⟨e, he⟩ | hok
    · rw [he]
      exact ⟨rfl, fun r hr => by cases hr⟩
    · rw [hok]
      exact ⟨rfl, fun r hr => (Except.ok.inj hr).symm⟩
  · intro md5 max_object_size upload_state rows_state blocks_state reread now requested
    unfold Completion.complete_multipart
    split
    · rename_i e he
      exact ⟨e, rfl⟩
    · rename_i ordered total_size etag hprepared
      unfold Answers.commit_upload
      rcases hcommit now total_size etag ordered {} with ⟨e, he⟩ | hok
      · rw [he]
        exact ⟨_, rfl⟩
      · rw [hok]
        exact ⟨_, rfl⟩
  · intro md5 max_object_size rows_state blocks_state commit_state reread now requested
    -- the completion looks for the row first
    have hprepare : Completion.prepare md5 max_object_size db rows_state blocks_state upload_id
        requested = .error (.db .no_such_upload) := by
      simp [Completion.prepare, get_upload, h, Completion.ok_or, bind, Except.bind]
    unfold Completion.complete_multipart
    rw [hprepare]
  · exact h
  · intro now
    simp [abort_upload_with_blocks, abort_upload_with_blocks_tx, h]
  · intro before hin
    obtain ⟨u, hu, rfl⟩ := List.mem_map.mp hin
    exact lookup_eq_none.mp h (List.mem_map_of_mem (List.mem_filter.mp hu).1)

/-- **The losers do not reach a block that something refers to**: its count, its
state and its place outside the queue stay as they are. -/
theorem account_loses {w w' : World} {a : Action} {upload_id : String} (hwf : WellFormed w.db)
    (hgone : w.db.upload? upload_id = none) (hloses : loses upload_id a = true)
    (hstep : step w a = some w') {b : Int} (hrefs : 0 < w.db.refs b) :
    w'.db.account b = w.db.account b := by
  have hnone := no_effect hgone
  have hpresent : b ∈ w.db.telegram_blocks.map (·.id) := by
    by_contra hmissing
    rw [hwf.refs_missing hmissing] at hrefs
    omega
  cases hrecords : records a with
  | true =>
      obtain ⟨spec, document, w₁, block, hrecord, hdb, -⟩ := step_record hstep hrecords
      obtain ⟨-, -, rfl, -⟩ := record_ok hrecord
      rw [hdb]
      have hnew : w.db.next_block_id ∉ w.db.telegram_blocks.map (·.id) := nextRowid_not_mem _
      -- a recorded block is a new one, and this one is referred to
      have hne : b ≠ w.db.next_block_id := fun heq => hnew (heq ▸ hpresent)
      exact (account_insert_block hnew b).trans (if_neg hne)
  | false =>
      rw [step_db hstep hrecords]
      -- claims and removals ask for a block without references
      have hqueue : ∀ now id, (queue_stale_block w.db now id).1.account b = w.db.account b := by
        intro now id
        rw [account_queue_stale_block, if_neg]
        rintro ⟨-, hzero⟩
        omega
      have hremove : ∀ id, (gc_success w.db id).account b = w.db.account b := by
        intro id
        rw [account_gc_success hwf, if_neg]
        rintro ⟨-, hzero⟩
        omega
      cases a with
      -- what names the upload finds no row of it and does nothing
      | request op =>
          cases op with
          | commit_upload now id size etag parts condition =>
              obtain rfl := of_decide_eq_true hloses
              exact congrArg (·.account b) (hnone.commit_upload now size etag parts condition).1
          | abort_upload_with_blocks now id =>
              obtain rfl := of_decide_eq_true hloses
              exact congrArg (fun r => r.1.account b) (hnone.abort now)
          | _ => cases hloses
      | replace_part call =>
          obtain rfl := of_decide_eq_true hloses
          exact congrArg (fun r => r.1.account b) (hnone.replace_part w.now call.part_number
            call.next_offset call.etag call.blocks)
      | commit_upload call condition =>
          obtain rfl := of_decide_eq_true hloses
          exact congrArg (·.account b) (hnone.commit_upload w.now call.next_offset call.etag
            [call.part] condition).1
      | claim reference => exact hqueue w.now reference.id
      | cleanup_success reference => exact hremove reference.id
      | gc_success record => exact hremove record.block_id
      | gc_failure record error => exact account_update_queue w.db record.block_id b (fun _ => rfl)
      | gc_orphan record error => exact account_update_queue w.db record.block_id b (fun _ => rfl)
      | create_multipart upload => cases hloses
      | put_object upload => cases hloses
      | queue_stale record => cases hloses
      | copy_object source bucket key metadata condition => cases hloses
      | _ => rfl

/-! ## Released -/

theorem times_eq_parts_refs {db : Database} (hwf : WellFormed db) (upload_id : String) (b : Int) :
    times b (held_by_upload db upload_id) = parts_refs db upload_id b := by
  have htimes := times_join (hwf.held_by_upload upload_id) b
  have hperm : (db.upload_block_rows upload_id).Perm
      (db.multipart_part_blocks.filter (·.upload_id = upload_id)) :=
    List.perm_insertionSort _ _
  rw [references_perm hperm] at htimes
  exact htimes

/-- What any abort does to an account: it takes counts off. -/
theorem account_abort (db : Database) (now : Int) (id : String) :
    ∃ k : Int → ℕ, ∀ b, (abort_upload_with_blocks db now id).1.account b
      = (db.account b).map (release (k b)) := by
  rcases abort_upload_with_blocks_eq db now id with heq | heq
  · refine ⟨fun _ => 0, fun b => ?_⟩
    rw [heq]
    cases db.account b with
    | none => rfl
    | some a => exact congrArg some (release_zero a).symm
  · refine ⟨fun b => times b (held_by_upload db id), fun b => ?_⟩
    rw [heq]
    exact account_decrement_blocks (db.delete_upload id) now _ b

/-- **The abort of an upload that is there** releases what its parts hold. -/
theorem released_abort {db : Database} (hwf : WellFormed db) (now : Int) {upload_id : String}
    (hthere : db.upload? upload_id ≠ none) {b : Int} (hb : 0 < parts_refs db upload_id b) :
    Released db (abort_upload_with_blocks db now upload_id).1 (parts_refs db upload_id b) b := by
  have hdb : (abort_upload_with_blocks db now upload_id).1
      = decrement_blocks (db.delete_upload upload_id) now (held_by_upload db upload_id) := by
    unfold abort_upload_with_blocks abort_upload_with_blocks_tx
    cases hupload : db.upload? upload_id with
    | none => exact absurd hupload hthere
    | some upload => rfl
  intro a ha
  refine ⟨release (parts_refs db upload_id b) a, ?_, Nat.le_refl _, ?_⟩
  · rw [hdb, ← times_eq_parts_refs hwf]
    refine (account_decrement_blocks (db.delete_upload upload_id) now _ b).trans ?_
    exact congrArg _ (ha : (db.delete_upload upload_id).account b = some a)
  · intro hzero
    exact Completion.queued_of_release hb (Nat.le_of_sub_eq_zero hzero)

/-- A block that was released stays so when more counts are taken off. -/
theorem Released.release {db d d' : Database} {n : ℕ} {b : Int} (h : Released db d n b) {k : ℕ}
    (haccount : d'.account b = (d.account b).map (RefCount.Account.release k)) :
    Released db d' n b := by
  intro a ha
  obtain ⟨a', ha', hcount, hqueued⟩ := h a ha
  refine ⟨RefCount.Account.release k a', by rw [haccount, ha']; rfl, ?_, ?_⟩
  · exact Nat.le_trans (Nat.sub_le _ _) hcount
  · intro hzero
    rcases Nat.eq_zero_or_pos k with rfl | hk
    · rw [release_zero] at hzero ⊢
      exact hqueued hzero
    · exact Completion.queued_of_release hk (Nat.le_of_sub_eq_zero hzero)

/-- The upload while the expiry works on the others: its row and its parts are as
they were, and counts have only gone down. -/
structure Waiting (db : Database) (upload_id : String) (d : Database) : Prop where
  there : d.upload? upload_id ≠ none
  parts : ∀ b, parts_refs d upload_id b = parts_refs db upload_id b
  account : ∀ b a, db.account b = some a → ∃ a', d.account b = some a' ∧ a'.count ≤ a.count

/-- Expired, or still waiting. -/
def Expiring (db : Database) (upload_id : String) (d : Database) : Prop :=
  WellFormed d ∧ (Waiting db upload_id d
    ∨ (d.upload? upload_id = none
      ∧ ∀ b, 0 < parts_refs db upload_id b → Released db d (parts_refs db upload_id b) b))

theorem expiring_abort {db d : Database} {upload_id : String} (h : Expiring db upload_id d)
    (now : Int) (id : String) : Expiring db upload_id (abort_upload_with_blocks d now id).1 := by
  obtain ⟨hwf, hstate⟩ := h
  refine ⟨wellFormed_abort_upload hwf now id, ?_⟩
  obtain ⟨k, haccount⟩ := account_abort d now id
  have hrow := upload?_abort d now id upload_id
  rcases hstate with hwait | ⟨hgone, hreleased⟩
  · by_cases hid : upload_id = id
    · -- its own abort
      subst hid
      rw [if_pos rfl] at hrow
      refine Or.inr ⟨hrow, fun b hb a ha => ?_⟩
      obtain ⟨a₁, ha₁, hle⟩ := hwait.account b a ha
      have hown := released_abort hwf now hwait.there (b := b) (by rw [hwait.parts]; exact hb)
      obtain ⟨a₂, ha₂, hcount, hqueued⟩ := hown a₁ ha₁
      rw [hwait.parts] at hcount
      exact ⟨a₂, ha₂, by omega, hqueued⟩
    · rw [if_neg hid] at hrow
      refine Or.inl ⟨hrow ▸ hwait.there, fun b => ?_, fun b a ha => ?_⟩
      · rw [← hwait.parts]
        unfold parts_refs
        rcases abort_upload_with_blocks_eq d now id with heq | heq
        · rw [heq]
        · rw [heq, (books_decrement_blocks _ now _).multipart_part_blocks]
          -- the cascade of another upload
          unfold Database.delete_upload deleteWhere
          rw [List.filter_filter]
          congr 1
          refine List.filter_congr (fun r _ => ?_)
          by_cases hr : r.upload_id = upload_id
          · simp [hr, hid]
          · simp [hr]
      · obtain ⟨a₁, ha₁, hle⟩ := hwait.account b a ha
        refine ⟨release (k b) a₁, by rw [haccount, ha₁]; rfl, ?_⟩
        exact Nat.le_trans (Nat.sub_le _ _) hle
  · refine Or.inr ⟨?_, fun b hb => (hreleased b hb).release (haccount b)⟩
    rw [hrow]
    split_ifs
    · rfl
    · exact hgone

theorem released_expire {db : Database} (hwf : WellFormed db) (now before : Int)
    {upload_id : String} (hthere : db.upload? upload_id ≠ none)
    (hgone : (expire_uploads db now before).upload? upload_id = none) {b : Int}
    (hb : 0 < parts_refs db upload_id b) :
    Released db (expire_uploads db now before) (parts_refs db upload_id b) b := by
  have hinit : Expiring db upload_id db :=
    ⟨hwf, Or.inl ⟨hthere, fun _ => rfl, fun b a ha => ⟨a, ha, Nat.le_refl _⟩⟩⟩
  obtain ⟨-, hend⟩ := expire_uploads_induction (P := Expiring db upload_id) now before hinit
    (fun d id hd => expiring_abort hd now id)
  rcases hend with hwait | ⟨-, hreleased⟩
  · exact absurd hgone hwait.there
  · exact hreleased b hb

/-- An abort writes no object. -/
theorem objects_abort (db : Database) (now : Int) (id : String) :
    (abort_upload_with_blocks db now id).1.objects = db.objects
      ∧ (abort_upload_with_blocks db now id).1.object_blocks = db.object_blocks := by
  rcases abort_upload_with_blocks_eq db now id with heq | heq
  · rw [heq]
    exact ⟨rfl, rfl⟩
  · rw [heq, (books_decrement_blocks _ now _).objects, (books_decrement_blocks _ now _).object_blocks]
    exact ⟨rfl, rfl⟩

theorem objects_expire (db : Database) (now before : Int) :
    (expire_uploads db now before).objects = db.objects
      ∧ (expire_uploads db now before).object_blocks = db.object_blocks := by
  refine expire_uploads_induction
    (P := fun d => d.objects = db.objects ∧ d.object_blocks = db.object_blocks) now before
    ⟨rfl, rfl⟩ (fun d id hd => ?_)
  obtain ⟨hobjects, hblocks⟩ := objects_abort d now id
  rw [hobjects, hblocks]
  exact hd

/-! ## Completed -/

/-- The commit behind a completion that is an end. -/
theorem committed_of_end {w w' : World} {a : Action} {upload_id : String}
    (hstep : step w a = some w') (hends : Ends upload_id w w')
    (hcompletes : completes upload_id a = true) :
    ∃ now size etag parts condition upload released,
      Committed w.db now upload_id size etag parts condition upload released w'.db := by
  obtain ⟨hthere, hgone⟩ := hends
  -- the row is gone, so that the transaction went through and found it
  have hcommit : ∀ now size etag parts condition, w'.db = (transaction w.db
      (commit_upload_tx w.db now upload_id size etag parts condition)).1 →
      ∃ upload released, Committed w.db now upload_id size etag parts condition upload released
        w'.db := by
    intro now size etag parts condition hdb
    cases hbody : commit_upload_tx w.db now upload_id size etag parts condition with
    | error e =>
        rw [hdb, hbody] at hgone
        exact absurd hgone hthere
    | ok r =>
        obtain ⟨db', result⟩ := r
        rw [hbody, transaction_ok] at hdb
        cases result with
        | none =>
            rw [hdb, commit_upload_tx_none hbody] at hgone
            exact absurd hgone hthere
        | some result => exact ⟨result.1, result.2, hdb ▸ commit_upload_tx_ok hbody⟩
  have hdb : records a = false → w'.db = applied w.db (a.op w) := step_db hstep
  cases a with
  | request op =>
      cases op with
      | commit_upload now id size etag parts condition =>
          obtain rfl := of_decide_eq_true hcompletes
          exact ⟨now, size, etag, parts, condition, hcommit _ _ _ _ _ (hdb rfl)⟩
      | _ => cases hcompletes
  | commit_upload call condition =>
      obtain rfl := of_decide_eq_true hcompletes
      exact ⟨w.now, call.next_offset, call.etag, [call.part], condition,
        hcommit _ _ _ _ _ (hdb rfl)⟩
  | _ => cases hcompletes

/-- A completion has written its object, of blocks of the upload's parts. -/
theorem object_of_end {w w' : World} {a : Action} {upload_id : String} (hwf : WellFormed w.db)
    (hstep : step w a = some w') (hends : Ends upload_id w w')
    (hcompletes : completes upload_id a = true) :
    ∃ upload o, w.db.upload? upload_id = some upload
      ∧ w'.db.object? upload.bucket upload.key = some o
      ∧ ∀ r ∈ w'.db.object_blocks, r.object_id = o.id → 0 < parts_refs w.db upload_id r.block_id := by
  obtain ⟨now, size, etag, parts, condition, upload, released, hc⟩ :=
    committed_of_end hstep hends hcompletes
  obtain ⟨hobject, hrows⟩ := hc.object hwf
  refine ⟨upload, _, hc.upload_row, hobject, fun r hr hid => ?_⟩
  have hrow : r ∈ committed_rows (committed_object w.db now upload size etag).id 0 0
      (parts.flatMap (·.blocks)) := by
    rw [← hrows]
    exact List.mem_filter.mpr ⟨hr, decide_eq_true hid⟩
  obtain ⟨i, block, hblock, -, hblock_id⟩ := Staging.mem_committed_rows hrow
  have hused : 0 < times r.block_id (parts.flatMap (·.blocks)) :=
    times_pos.mpr (List.mem_map.mpr ⟨block, List.mem_of_getElem? hblock, hblock_id.symm⟩)
  have hheld := Tg2s3.times_held_by_upload hwf hc.verified r.block_id
  rw [times_eq_parts_refs hwf] at hheld
  omega

/-! ## The result -/

theorem wellFormed_run {w : World} {chat_id : Int} {as : List Action}
    (hrun : run step (World.init chat_id) as = some w) : WellFormed w.db :=
  run_inv (C := fun _ _ => True) (I := fun w => WellFormed w.db)
    (fun _ _ _ hwf _ hstep => Removal.wellFormed_step hwf hstep) wellFormed_empty
    (Meets.of_forall (fun _ _ => trivial) _ _) hrun

/-- What an abort or an expiry that is an end has done. -/
theorem released_of_end {w w' : World} {a : Action} {upload_id : String} (hwf : WellFormed w.db)
    (hstep : step w a = some w') (hends : Ends upload_id w w')
    (hreleases : releases upload_id a = true) :
    w'.db.objects = w.db.objects ∧ w'.db.object_blocks = w.db.object_blocks
      ∧ ∀ b, 0 < parts_refs w.db upload_id b →
          Released w.db w'.db (parts_refs w.db upload_id b) b := by
  obtain ⟨hthere, hgone⟩ := hends
  have hdb : records a = false → w'.db = applied w.db (a.op w) := step_db hstep
  cases a with
  | request op =>
      rw [hdb rfl] at hgone ⊢
      cases op with
      | abort_upload_with_blocks now id =>
          obtain rfl := of_decide_eq_true hreleases
          obtain ⟨hobjects, hblocks⟩ := objects_abort w.db now id
          exact ⟨hobjects, hblocks, fun b hb => released_abort hwf now hthere hb⟩
      | expire_uploads now before =>
          obtain ⟨hobjects, hblocks⟩ := objects_expire w.db now before
          exact ⟨hobjects, hblocks, fun b hb => released_expire hwf now before hthere hgone hb⟩
      | _ => cases hreleases
  | _ => cases hreleases

/-- **An upload ends once.** The step that ends it is a completion, an abort or an
expiry. In every state that is reached later the upload is gone, and what is then
asked of it has no effect. A completion has written its object, and the losers
change the account of no block an object refers to. An abort or an expiry writes
no object and releases what the parts hold: each block loses the counts the parts
had on it, and is queued unless something else is still counted on it. -/
theorem upload_ends_once (chat_id : Int) (as bs : List Action) (a : Action) (w w' w'' : World)
    (upload_id : String) (hrun : run step (World.init chat_id) as = some w)
    (hstep : step w a = some w') (hends : Ends upload_id w w')
    (hlater : run step w' bs = some w'') :
    (completes upload_id a = true ∨ releases upload_id a = true)
      ∧ (w''.db.upload? upload_id = none ∧ NoEffect upload_id w''.db)
      ∧ (completes upload_id a = true →
          (∃ upload o, w.db.upload? upload_id = some upload
            ∧ w'.db.object? upload.bucket upload.key = some o
            ∧ ∀ r ∈ w'.db.object_blocks, r.object_id = o.id →
                0 < parts_refs w.db upload_id r.block_id)
          ∧ ∀ c w₃, step w'' c = some w₃ → loses upload_id c = true →
              ∀ r ∈ w''.db.object_blocks, w₃.db.account r.block_id = w''.db.account r.block_id)
      ∧ (releases upload_id a = true →
          w'.db.objects = w.db.objects ∧ w'.db.object_blocks = w.db.object_blocks
          ∧ ∀ b, 0 < parts_refs w.db upload_id b →
              Released w.db w'.db (parts_refs w.db upload_id b) b) := by
  have hwf := wellFormed_run hrun
  have hwf'' : WellFormed w''.db := by
    have hall : run step (World.init chat_id) (as ++ a :: bs) = some w'' :=
      run_append.mpr ⟨w, hrun, run_cons.mpr ⟨w', hstep, hlater⟩⟩
    exact wellFormed_run hall
  -- the id was drawn, so that no later step draws it
  have hdrawn : upload_id ∈ w.upload_ids := by
    obtain ⟨u, hu⟩ := Option.ne_none_iff_exists'.mp hends.1
    obtain ⟨hmem, hid⟩ := lookup_mem hu
    rw [← hid]
    exact drawn_run (by simp [World.init]) hrun u hmem
  have hgone : w''.db.upload? upload_id = none :=
    gone_run (upload_ids_mono hstep hdrawn) hends.2 hlater
  refine ⟨end_cases hstep hends, ⟨hgone, no_effect hgone⟩, ?_, released_of_end hwf hstep hends⟩
  intro hcompletes
  refine ⟨object_of_end hwf hstep hends hcompletes, fun c w₃ hc hloses r hr => ?_⟩
  refine account_loses hwf'' hgone hloses hc ?_
  have hpos : 0 < references (·.block_id) r.block_id w''.db.object_blocks := by
    rw [Nat.pos_iff_ne_zero, Ne, references_eq_zero]
    exact fun hno => hno r hr rfl
  unfold Database.refs
  omega

/-! ## Two runs

An upload with one part: it is completed while another client still sends the part
again. -/

def multipart (n : Int) (pending : List BlockSpec) (blocks : List BlockRef) : UploadCall :=
  { put "mp" n pending blocks with part_number := 1, kind := .multipart }

/-- One client sends part 1 of the upload in one block. -/
def send_part (message_id id : Int) : List Action :=
  [ .upload_part "mp" 1, .start_task (multipart 0 [] []) 5,
    .stage (multipart 1 [first_spec] []) first_spec (document message_id 5),
    .finish (multipart 1 [] [reference id first_spec message_id]) "e",
    .replace_part { multipart 1 [] [reference id first_spec message_id] with
      etag := "e", phase := .uploaded } ]

def begun : List Action :=
  [ .request (.create_bucket 0 "b"),
    .create_multipart { upload_record "mp" "k" with kind := .multipart } ] ++ send_part 11 1

def completion : Action :=
  .request (.commit_upload 0 "mp" 5 "e"
    [{ upload_id := "mp", part_number := 1, size := 5, etag := "e"
       blocks := [reference 1 first_spec 11] }] {})

/-- The other client comes too late, and its cleanup claims its own block. -/
theorem upload_ends_once_completed :
    ∃ w w' w'', run step (World.init (-100)) (begun ++ (send_part 12 2).take 4) = some w
      ∧ step w completion = some w'
      ∧ run step w' ((send_part 12 2).drop 4 ++ [.claim (reference 2 first_spec 12)]) = some w''
      ∧ w''.db.queued 2 ∧ NoEffect "mp" w''.db := by
  have hrun : (run step (World.init (-100)) (begun ++ (send_part 12 2).take 4)).bind (fun w =>
      (step w completion).bind fun w' =>
        (run step w' ((send_part 12 2).drop 4 ++ [.claim (reference 2 first_spec 12)])).map fun w'' =>
          decide (Ends "mp" w w' ∧ w''.db.queued 2)) = some true := by
    decide
  obtain ⟨w, hw, hrest⟩ := Option.bind_eq_some_iff.mp hrun
  obtain ⟨w', hw', hrest⟩ := Option.bind_eq_some_iff.mp hrest
  obtain ⟨w'', hw'', hd⟩ := Option.map_eq_some_iff.mp hrest
  obtain ⟨hends, hqueued⟩ := of_decide_eq_true hd
  exact ⟨w, w', w'', hw, hw', hw'', hqueued,
    (upload_ends_once (-100) _ _ completion w w' w'' "mp" hw hw' hends hw'').2.1.2⟩

/-! A copy reads an object and waits. The object goes, another one takes its row
id, and the block of a part takes its block id. -/

def reused : List Action :=
  [ .request (.create_bucket 0 "b"), .put_object (upload_record "put-1" "k"),
    .start_task (put "put-1" 0 [] []) 5,
    .stage (put "put-1" 1 [first_spec] []) first_spec (document 11 5),
    .finish (put "put-1" 1 [] [reference 1 first_spec 11]) "e",
    .replace_part { put "put-1" 1 [] [reference 1 first_spec 11] with
      etag := "e", phase := .uploaded },
    .commit_upload { put "put-1" 1 [] [reference 1 first_spec 11] with
      etag := "e", phase := .replaced } {},
    .copy_row "b" "k",
    .copy_source { id := 1, bucket := "b", object_key := "k", size := 5, etag := "e", metadata := {}
                   created_at := 0, modified_at := 0 },
    .request (.delete_object 0 "b" "k" {}), .gc_candidates 1, .gc_delete (garbage 11 0 0),
    .gc_success (garbage 11 0 0), .put_object (upload_record "put-2" "k"),
    .finish (put "put-2" 0 [] []) "e0",
    .replace_part { put "put-2" 0 [] [] with etag := "e0", phase := .uploaded },
    .commit_upload { put "put-2" 0 [] [] with etag := "e0", phase := .replaced } {},
    .create_multipart { upload_record "mp" "k" with kind := .multipart } ] ++ send_part 12 1 ++
    [ .copy_object
        { id := 1, bucket := "b", key := "k", size := 5, etag := "e", metadata := {}, created_at := 0
          modified_at := 0, blocks := [reference 1 first_spec 11] } "b" "copy" {} {} ]

/-- **Not every block of an aborted upload is queued**: the copy counts on the block
of the part. -/
theorem aborted_block_not_queued :
    ∃ w w', run step (World.init (-100)) reused = some w
      ∧ step w (.request (.abort_upload_with_blocks 0 "mp")) = some w' ∧ Ends "mp" w w'
      ∧ parts_refs w.db "mp" 1 = 1 ∧ ¬ w'.db.queued 1
      ∧ (w'.db.block? 1).map (·.ref_count) = some 1 := by
  have hrun : (run step (World.init (-100)) reused).bind (fun w =>
      (step w (.request (.abort_upload_with_blocks 0 "mp"))).map fun w' =>
        decide (Ends "mp" w w' ∧ parts_refs w.db "mp" 1 = 1 ∧ ¬ w'.db.queued 1
          ∧ (w'.db.block? 1).map (·.ref_count) = some 1)) = some true := by
    decide
  obtain ⟨w, hw, hrest⟩ := Option.bind_eq_some_iff.mp hrun
  obtain ⟨w', hw', hd⟩ := Option.map_eq_some_iff.mp hrest
  exact ⟨w, w', hw, hw', of_decide_eq_true hd⟩

end Tg2s3.Endings
