/-
Does the collector leave a running upload alone?

A staged block has no link to its upload: until `replace_part` runs, its row says
`staged`, counts one, and nothing refers to it. To the collector such a row is
garbage once it is an hour old, and an upload may run for longer than that. So a
pass takes the first block of a client that stalls, and the `replace_part` of that
client is refused (`stalled_upload_refused`).

It is the age and nothing else, as far as ids are not handed out again: `InTime`
asks that at every `stale_blocks` each block staged by a running upload is at most
an hour old, and that no running upload is given a block id that another upload, a
cleanup or a list of stale blocks still remembers. Then the counts cover the
blocks a running upload has staged (`Kept.backed`), so nothing takes them away,
and neither `replace_part` nor the commit is refused on their account.
-/
import Mathlib
import Tg2s3.Backing
import Tg2s3.Endings

set_option autoImplicit false

namespace Tg2s3.Uploads

open Tg2s3 Relational Machine RefCount
open Tg2s3.Staging (records)
open Tg2s3.GcSafety (record_ok document upload_record put reference first_spec second_spec
  slow_client slow_client_commits)

/-! ## Running uploads -/

/-- The upload is open, and its blocks have no part row yet. -/
def Needs (db : Database) (call : UploadCall) : Prop :=
  db.upload? call.upload_id ≠ none ∧ call.phase ≠ .replaced

instance (db : Database) (call : UploadCall) : Decidable (Needs db call) :=
  inferInstanceAs (Decidable (_ ∧ _))

/-- An `upload_part` is over with `replace_part`; a `put_object` has its commit to
do. -/
def Running (db : Database) (call : UploadCall) : Prop :=
  db.upload? call.upload_id ≠ none ∧ (call.phase = .replaced → call.kind = .put)

/-- The blocks that are claimed by a call only. -/
def claims (db : Database) (uploads : List UploadCall) : List BlockRef :=
  (uploads.filter (Needs db)).flatMap (·.blocks)

/-- What the uploads and their cleanups remember. -/
def World.memory (w : World) : List BlockRef := w.uploads.flatMap (·.blocks) ++ w.cleanups

/-- At the query for stale blocks, what a running upload has staged is at most one
hour old; the id a running upload is given is remembered nowhere. -/
def InTime (w : World) : Action → Prop
  | .stale_blocks _ => ∀ call ∈ w.uploads, Needs w.db call → ∀ block ∈ call.blocks,
      ∀ row ∈ w.db.telegram_blocks, row.id = block.id → w.now - 3600 ≤ row.created_at
  | .stage call _ _ => Needs w.db call →
      w.db.next_block_id ∉ (World.memory w).map (·.id)
        ∧ w.db.next_block_id ∉ w.stale.map (·.block_id)
  | _ => True

instance (w : World) (a : Action) : Decidable (InTime w a) := by
  unfold InTime
  split <;> infer_instance

/-! ## Counting claims -/

section Claims

variable {db db' : Database} {uploads uploads' : List UploadCall} {call call' : UploadCall}

theorem times_perm {l l' : List BlockRef} (h : l.Perm l') (b : Int) : times b l = times b l' :=
  (h.map BlockRef.id).count_eq b

theorem times_sublist {l l' : List BlockRef} (h : l.Sublist l') (b : Int) :
    times b l ≤ times b l' :=
  (h.map BlockRef.id).count_le b

theorem times_claims_cons (b : Int) :
    times b (claims db (call :: uploads))
      = (if Needs db call then times b call.blocks else 0) + times b (claims db uploads) := by
  unfold claims
  rw [List.filter_cons]
  by_cases h : Needs db call
  · simp [h, times_append]
  · simp [h]

/-- The claims of one call, and those of the others. -/
theorem times_claims_erase (hcall : call ∈ uploads) (b : Int) :
    times b (claims db uploads)
      = (if Needs db call then times b call.blocks else 0)
        + times b (claims db (uploads.erase call)) := by
  rw [← times_claims_cons]
  exact times_perm (((List.perm_cons_erase hcall).filter _).flatMap_right _) b

theorem times_blocks_erase (hcall : call ∈ uploads) (b : Int) :
    times b (uploads.flatMap (·.blocks))
      = times b call.blocks + times b ((uploads.erase call).flatMap (·.blocks)) := by
  rw [← times_append, ← List.flatMap_cons (f := fun c : UploadCall => c.blocks)]
  exact times_perm ((List.perm_cons_erase hcall).flatMap_right _) b

theorem times_claims_sublist (h : uploads'.Sublist uploads) (b : Int) :
    times b (claims db uploads') ≤ times b (claims db uploads) :=
  times_sublist ((h.filter _).flatMap _) b

/-- An upload that ends takes its claims along. -/
theorem times_claims_mono (db db' : Database) (uploads : List UploadCall)
    (h : ∀ call ∈ uploads, Needs db' call → Needs db call) (b : Int) :
    times b (claims db' uploads) ≤ times b (claims db uploads) := by
  induction uploads with
  | nil => exact Nat.le_refl _
  | cons call uploads ih =>
      have hrest := ih (fun c hc => h c (List.mem_cons_of_mem _ hc))
      have hcall := h call List.mem_cons_self
      rw [times_claims_cons, times_claims_cons]
      by_cases hneeds : Needs db' call
      · rw [if_pos hneeds, if_pos (hcall hneeds)]
        omega
      · rw [if_neg hneeds]
        omega

/-- A claim is some call's. -/
theorem times_claims_pos {b : Int} :
    0 < times b (claims db uploads)
      ↔ ∃ call ∈ uploads, Needs db call ∧ b ∈ call.blocks.map (·.id) := by
  rw [times_pos]
  unfold claims
  constructor
  · intro hin
    obtain ⟨block, hblock, rfl⟩ := List.mem_map.mp hin
    obtain ⟨call, hcall, hmem⟩ := List.mem_flatMap.mp hblock
    obtain ⟨hcall, hneeds⟩ := List.mem_filter.mp hcall
    exact ⟨call, hcall, of_decide_eq_true hneeds, List.mem_map_of_mem hmem⟩
  · rintro ⟨call, hcall, hneeds, hin⟩
    obtain ⟨block, hblock, rfl⟩ := List.mem_map.mp hin
    exact List.mem_map_of_mem (List.mem_flatMap.mpr
      ⟨call, List.mem_filter.mpr ⟨hcall, decide_eq_true hneeds⟩, hblock⟩)

/-- Who claims a block remembers it. -/
theorem times_claims_le (db : Database) (uploads : List UploadCall) (b : Int) :
    times b (claims db uploads) ≤ times b (uploads.flatMap (·.blocks)) :=
  times_sublist (List.filter_sublist.flatMap _) b

end Claims

/-! ## The moves of the calls -/

/-- What a step that records nothing does to the uploads and the cleanups. -/
inductive Moves (w w' : World) : Action → Prop
  | rest {a : Action} (huploads : w'.uploads.Sublist w.uploads)
      (hcleanups : w'.cleanups.Sublist w.cleanups) : Moves w w' a
  | failed {a : Action} (call : UploadCall) (hcall : call ∈ w.uploads)
      (hdb : w'.db = w.db) (huploads : w'.uploads = w.uploads.erase call)
      (hcleanups : w'.cleanups = w.cleanups ++ call.blocks) : Moves w w' a
  | begun {a : Action} (call : UploadCall) (hblocks : call.blocks = [])
      (hphase : call.phase = .streaming)
      (hid : call.upload_id ∈ w'.upload_ids ∨ w.db.upload? call.upload_id ≠ none)
      (hnumber : call.kind = .put ↔ call.part_number = 0)
      (hnew : call.kind = .put → call.upload_id ∉ w.upload_ids)
      (huploads : w'.uploads = call :: w.uploads) (hcleanups : w'.cleanups = w.cleanups) :
      Moves w w' a
  | advanced {a : Action} (call call' : UploadCall) (hcall : call ∈ w.uploads)
      (huploads : w'.uploads = call' :: w.uploads.erase call)
      (hid : call'.upload_id = call.upload_id) (hkind : call'.kind = call.kind)
      (hnumber : call'.part_number = call.part_number) (hblocks : call'.blocks.Perm call.blocks)
      (hphase : call.phase ≠ .replaced) (hphase' : call'.phase ≠ .replaced)
      (hdb : w'.db = w.db) (hcleanups : w'.cleanups = w.cleanups) : Moves w w' a
  | replaced (call : UploadCall) (hcall : call ∈ w.uploads) (hphase : call.phase = .uploaded)
      (released : List BlockRef)
      (hreplaced : Replaced w.db call.upload_id call.part_number call.next_offset call.etag
        call.blocks released w'.db)
      (huploads : w'.uploads = { call with phase := .replaced } :: w.uploads.erase call)
      (hcleanups : w'.cleanups = w.cleanups) : Moves w w' (.replace_part call)

/-- A stale block on the list was there before, or the query has just found it. -/
def Lists (w w' : World) (a : Action) : Prop :=
  ∀ r ∈ w'.stale, r ∈ w.stale
    ∨ ∃ limit, a = .stale_blocks limit ∧ r ∈ stale_blocks w.db (w.now - 3600) limit

/-- `replace_part` goes through, or the call fails and the database is as before. -/
theorem step_replace_part {w w' : World} {call : UploadCall}
    (hstep : step w (.replace_part call) = some w') :
    call ∈ w.uploads ∧ call.phase = .uploaded ∧ w'.stale = w.stale
      ∧ ((w'.db = w.db ∧ w'.uploads = w.uploads.erase call
            ∧ w'.cleanups = w.cleanups ++ call.blocks)
        ∨ ∃ released, Replaced w.db call.upload_id call.part_number call.next_offset call.etag
              call.blocks released w'.db
            ∧ w'.uploads = { call with phase := .replaced } :: w.uploads.erase call
            ∧ w'.cleanups = w.cleanups) := by
  simp only [step] at hstep
  split_ifs at hstep with hcond
  refine ⟨hcond.1, hcond.2, ?_⟩
  unfold replace_part at hstep
  cases hbody : replace_part_tx w.db w.now call.upload_id call.part_number call.next_offset
      call.etag call.blocks with
  | error e =>
      rw [hbody] at hstep
      obtain rfl := Option.some.inj hstep
      exact ⟨rfl, Or.inl ⟨rfl, rfl, rfl⟩⟩
  | ok r =>
      rw [hbody] at hstep
      obtain rfl := Option.some.inj hstep
      exact ⟨rfl, Or.inr ⟨r.2, replace_part_tx_ok hbody, rfl, rfl⟩⟩

theorem moves_step {w w' : World} {a : Action} (hstep : step w a = some w')
    (hrecords : records a = false) : Moves w w' a ∧ Lists w w' a := by
  have hkept : w'.stale = w.stale → Lists w w' a := fun h r hr => Or.inl (h ▸ hr)
  have herase : ∀ call, (w.uploads.erase call).Sublist w.uploads := fun _ => List.erase_sublist
  cases a with
  | stage call spec document => cases hrecords
  | stage_late spec document => cases hrecords
  | lose spec document => cases hrecords
  | put_object upload =>
      simp only [step] at hstep
      split_ifs at hstep with hcond
      split at hstep
      · obtain rfl := Option.some.inj hstep
        -- a PUT begins with its upload row
        refine ⟨.begun { upload_id := upload.upload_id, part_number := 0, kind := .put } rfl rfl
          (Or.inl List.mem_cons_self) (by simp) (fun _ hin => hcond (Or.inl hin)) rfl rfl, hkept rfl⟩
      · cases hstep
  | upload_part upload_id part_number =>
      simp only [step] at hstep
      split at hstep
      · cases hstep
      · rename_i upload hupload
        split_ifs at hstep with hcond
        obtain rfl := Option.some.inj hstep
        -- a part begins for a row that is there, and its number is positive
        refine ⟨.begun { upload_id := upload_id, part_number := part_number, kind := .multipart } rfl
          rfl (Or.inr ?_) ⟨(fun h => by cases h), fun h => ?_⟩ (fun h => by cases h) rfl rfl, hkept rfl⟩
        · change get_upload w.db upload_id ≠ none
          rw [hupload]
          exact Option.some_ne_none _
        · have hpos := hcond.1
          change part_number = 0 at h
          omega
  | start_task call size =>
      simp only [step] at hstep
      split_ifs at hstep with hcond
      obtain rfl := Option.some.inj hstep
      exact ⟨.advanced call _ hcond.1 rfl rfl rfl rfl (List.Perm.refl _) (by simp [hcond.2.1])
        (by simp [hcond.2.1]) rfl rfl, hkept rfl⟩
  | finish call etag =>
      simp only [step] at hstep
      split_ifs at hstep with hcond
      obtain rfl := Option.some.inj hstep
      exact ⟨.advanced call _ hcond.1 rfl rfl rfl rfl (List.perm_insertionSort _ _)
        (by simp [hcond.2.1]) (by simp) rfl rfl, hkept rfl⟩
  | fail call =>
      simp only [step] at hstep
      split_ifs at hstep with hcond
      obtain rfl := Option.some.inj hstep
      exact ⟨.failed call hcond.1 rfl rfl rfl, hkept rfl⟩
  | replace_part call =>
      obtain ⟨hcall, hphase, hstale, ⟨hdb, huploads, hcleanups⟩ | ⟨released, hreplaced, huploads,
        hcleanups⟩⟩ := step_replace_part hstep
      · -- a replacement that is refused hands the blocks to the cleanups
        exact ⟨.failed call hcall hdb huploads hcleanups, hkept hstale⟩
      · exact ⟨.replaced call hcall hphase released hreplaced huploads hcleanups, hkept hstale⟩
  | commit_upload call condition =>
      simp only [step] at hstep
      split_ifs at hstep with hcond
      obtain rfl := Option.some.inj hstep
      exact ⟨.rest (herase call) (List.Sublist.refl _), hkept rfl⟩
  | drop call =>
      simp only [step] at hstep
      split_ifs at hstep with hcond
      obtain rfl := Option.some.inj hstep
      exact ⟨.rest (herase call) (List.Sublist.refl _), hkept rfl⟩
  | claim reference =>
      simp only [step] at hstep
      split_ifs at hstep with hcond
      split at hstep <;>
      · obtain rfl := Option.some.inj hstep
        exact ⟨.rest (List.Sublist.refl _) List.erase_sublist, hkept rfl⟩
  | claim_error reference =>
      simp only [step] at hstep
      split_ifs at hstep with hcond
      obtain rfl := Option.some.inj hstep
      exact ⟨.rest (List.Sublist.refl _) List.erase_sublist, hkept rfl⟩
  | stale_blocks limit =>
      obtain rfl := Option.some.inj hstep
      refine ⟨.rest (List.Sublist.refl _) (List.Sublist.refl _), fun r hr => ?_⟩
      -- only the query of the stale rows adds to its list
      rcases List.mem_append.mp hr with hr | hr
      · exact Or.inl hr
      · exact Or.inr ⟨limit, rfl, hr⟩
  | queue_stale record =>
      simp only [step] at hstep
      split_ifs at hstep with hcond
      obtain rfl := Option.some.inj hstep
      exact ⟨.rest (List.Sublist.refl _) (List.Sublist.refl _),
        fun r hr => Or.inl (List.mem_of_mem_erase hr)⟩
  | copy_row bucket key =>
      simp only [step] at hstep
      split at hstep
      · obtain rfl := Option.some.inj hstep
        exact ⟨.rest (List.Sublist.refl _) (List.Sublist.refl _), hkept rfl⟩
      · cases hstep
  | gc_candidates limit =>
      obtain rfl := Option.some.inj hstep
      exact ⟨.rest (List.Sublist.refl _) (List.Sublist.refl _), hkept rfl⟩
  | gc_candidate block_id =>
      obtain rfl := Option.some.inj hstep
      exact ⟨.rest (List.Sublist.refl _) (List.Sublist.refl _), hkept rfl⟩
  | crash =>
      obtain rfl := Option.some.inj hstep
      exact ⟨.rest (List.nil_sublist _) (List.nil_sublist _), fun r hr => by cases hr⟩
  | _ =>
      simp only [step] at hstep
      split_ifs at hstep
      obtain rfl := Option.some.inj hstep
      exact ⟨.rest (List.Sublist.refl _) (List.Sublist.refl _), hkept rfl⟩

/-! ### What comes of a call -/

section Moves

variable {w w' : World} {a : Action}

/-- A call after the step is one from before, or one from before that went on, or
a new one. -/
theorem Moves.origin (h : Moves w w' a) : ∀ call' ∈ w'.uploads,
    call' ∈ w.uploads
      ∨ (∃ call ∈ w.uploads, call.phase ≠ .replaced ∧ call'.upload_id = call.upload_id
          ∧ call'.kind = call.kind ∧ call'.part_number = call.part_number
          ∧ call'.blocks.Perm call.blocks
          ∧ (call'.phase = .replaced → ∃ released, Replaced w.db call.upload_id call.part_number
              call.next_offset call.etag call.blocks released w'.db))
      ∨ (call'.blocks = [] ∧ call'.phase = .streaming ∧ (call'.kind = .put ↔ call'.part_number = 0)
          ∧ (call'.upload_id ∈ w'.upload_ids ∨ w.db.upload? call'.upload_id ≠ none)) := by
  intro call' hcall'
  cases h with
  | rest huploads hcleanups => exact Or.inl (huploads.subset hcall')
  | failed call hcall hdb huploads hcleanups =>
      rw [huploads] at hcall'
      exact Or.inl (List.mem_of_mem_erase hcall')
  | begun call hblocks hphase hid hnumber hnew huploads hcleanups =>
      rw [huploads] at hcall'
      rcases List.mem_cons.mp hcall' with rfl | hcall'
      · exact Or.inr (Or.inr ⟨hblocks, hphase, hnumber, hid⟩)
      · exact Or.inl hcall'
  | advanced call next hcall huploads hid hkind hnumber hblocks hphase hphase' hdb hcleanups =>
      rw [huploads] at hcall'
      rcases List.mem_cons.mp hcall' with rfl | hcall'
      · exact Or.inr (Or.inl ⟨call, hcall, hphase, hid, hkind, hnumber, hblocks,
          fun heq => absurd heq hphase'⟩)
      · exact Or.inl (List.mem_of_mem_erase hcall')
  | replaced call hcall hphase released hreplaced huploads hcleanups =>
      rw [huploads] at hcall'
      rcases List.mem_cons.mp hcall' with rfl | hcall'
      · exact Or.inr (Or.inl ⟨call, hcall, by simp [hphase], rfl, rfl, rfl, List.Perm.refl _,
          fun _ => ⟨released, hreplaced⟩⟩)
      · exact Or.inl (List.mem_of_mem_erase hcall')

/-- **Claims only go**, but for those of a recorded block. -/
theorem Moves.claims_le (h : Moves w w' a)
    (hopen : ∀ call ∈ w.uploads, w'.db.upload? call.upload_id ≠ none →
      w.db.upload? call.upload_id ≠ none) (b : Int) :
    times b (claims w'.db w'.uploads) ≤ times b (claims w.db w.uploads) := by
  have hmono := times_claims_mono w.db w'.db w.uploads
    (fun call hcall hneeds => ⟨hopen call hcall hneeds.1, hneeds.2⟩) b
  refine Nat.le_trans ?_ hmono
  cases h with
  | rest huploads hcleanups => exact times_claims_sublist huploads b
  | failed call hcall hdb huploads hcleanups =>
      rw [huploads]
      exact times_claims_sublist List.erase_sublist b
  | begun call hblocks hphase hid hnumber hnew huploads hcleanups =>
      rw [huploads, times_claims_cons, hblocks]
      simp
  | advanced call call' hcall huploads hid hkind hnumber hblocks hphase hphase' hdb hcleanups =>
      have hneeds : Needs w'.db call' ↔ Needs w'.db call := by
        unfold Needs
        rw [hid]
        simp [hphase, hphase']
      rw [huploads, times_claims_cons, times_claims_erase hcall]
      simp only [hneeds, times_perm hblocks b]
      exact Nat.le_refl _
  | replaced call hcall hphase released hreplaced huploads hcleanups =>
      have hneeds : ¬ Needs w'.db { call with phase := .replaced } := fun h => h.2 rfl
      rw [huploads, times_claims_cons, times_claims_erase hcall, if_neg hneeds]
      omega

/-- **References only go**, too. -/
theorem Moves.memory_le (h : Moves w w' a) (b : Int) :
    times b (World.memory w') ≤ times b (World.memory w) := by
  unfold World.memory
  rw [times_append, times_append]
  cases h with
  | rest huploads hcleanups =>
      have h₁ := times_sublist (huploads.flatMap (·.blocks)) b
      have h₂ := times_sublist hcleanups b
      omega
  | failed call hcall hdb huploads hcleanups =>
      rw [huploads, hcleanups, times_append, times_blocks_erase hcall]
      omega
  | begun call hblocks hphase hid hnumber hnew huploads hcleanups =>
      rw [huploads, hcleanups, List.flatMap_cons, hblocks, List.nil_append]
  | advanced call call' hcall huploads hid hkind hnumber hblocks hphase hphase' hdb hcleanups =>
      rw [huploads, hcleanups, List.flatMap_cons, times_append, times_blocks_erase hcall,
        times_perm hblocks b]
  | replaced call hcall hphase released hreplaced huploads hcleanups =>
      rw [huploads, hcleanups, List.flatMap_cons, times_append, times_blocks_erase hcall]

end Moves

/-! ## Who is asked to delete what -/

theorem op_replace_part {w w' : World} {a : Action} (hstep : step w a = some w') {now : Int}
    {upload_id : String} {part_number size : Int} {etag : String} {blocks : List BlockRef}
    (hop : a.op w = some (.replace_part now upload_id part_number size etag blocks)) :
    ∃ call ∈ w.uploads, a = .replace_part call ∧ call.phase = .uploaded
      ∧ call.upload_id = upload_id ∧ call.part_number = part_number := by
  cases a with
  | request op =>
      simp only [step] at hstep
      split_ifs at hstep with hplain
      obtain rfl := Option.some.inj hop
      cases hplain
  | replace_part call =>
      simp only [step] at hstep
      split_ifs at hstep with hcond
      obtain ⟨-, hid, hnumber, -⟩ := Op.replace_part.inj (Option.some.inj hop)
      exact ⟨call, hcond.1, rfl, hcond.2, hid, hnumber⟩
  | _ => cases hop

/-- A block is claimed for collection by a cleanup, or off the list of stale ones. -/
theorem op_queue_stale {w w' : World} {a : Action} (hstep : step w a = some w') {now b : Int}
    (hop : a.op w = some (.queue_stale_block now b)) :
    (∃ r ∈ w.cleanups, r.id = b) ∨ ∃ r ∈ w.stale, r.block_id = b := by
  cases a with
  | request op =>
      simp only [step] at hstep
      split_ifs at hstep with hplain
      obtain rfl := Option.some.inj hop
      cases hplain
  | claim reference =>
      simp only [step] at hstep
      split_ifs at hstep with hcond
      exact Or.inl ⟨reference, hcond, (Op.queue_stale_block.inj (Option.some.inj hop)).2⟩
  | queue_stale record =>
      simp only [step] at hstep
      split_ifs at hstep with hcond
      exact Or.inr ⟨record, hcond, (Op.queue_stale_block.inj (Option.some.inj hop)).2⟩
  | _ => cases hop

/-! ## Rows that stay -/

/-- **A block with a reference or a claim stays**, whatever the operation. -/
theorem row_stays {db : Database} {k : Int → ℕ} (h : BackedBy db k) {op : Op}
    (hrecord : ∀ now block, op ≠ .add_staged_block now block) {row : TelegramBlockRow}
    (hrow : row ∈ db.telegram_blocks) (hpos : 0 < db.refs row.id + k row.id) :
    ∃ row' ∈ (op.apply db).telegram_blocks, row'.id = row.id ∧ row'.message_id = row.message_id := by
  by_cases hremove : ∃ b, op = .gc_success b
  · obtain ⟨b, rfl⟩ := hremove
    refine ⟨row, ?_, rfl, rfl⟩
    change row ∈ (gc_success db b).telegram_blocks
    unfold gc_success
    split
    · rename_i found hfound
      split_ifs with hcond
      · refine mem_deleteWhere.mpr ⟨hrow, fun hid => ?_⟩
        -- the count of the row covers what refers to it and who claims it
        have hcovered := (h b _ ((account_eq_some db).mpr ⟨found, hfound, rfl⟩)).covered
        rw [hid] at hpos
        dsimp only at hcovered
        omega
      · exact hrow
    · exact hrow
  · have hfrozen := frozen_apply db op hrecord (fun b heq => hremove ⟨b, heq⟩)
    have hmem : row.frozen ∈ (op.apply db).telegram_blocks.map (·.frozen) := by
      rw [hfrozen]
      exact List.mem_map_of_mem hrow
    obtain ⟨row', hrow', heq⟩ := List.mem_map.mp hmem
    exact ⟨row', hrow', TelegramBlockRow.id_of_frozen heq, TelegramBlockRow.message_id_of_frozen heq⟩

/-- The row of a part's block stays until its upload goes or the part is replaced. -/
theorem part_block_stays {db : Database} {op : Op} {r : PartBlockRow}
    (hr : r ∈ db.multipart_part_blocks) (hopen : (op.apply db).upload? r.upload_id ≠ none)
    (hreplace : ∀ now upload_id part_number size etag blocks,
      op = .replace_part now upload_id part_number size etag blocks →
        r.part ≠ (upload_id, part_number)) : r ∈ (op.apply db).multipart_part_blocks := by
  have hbooks : ∀ {db₁ db₂ : Database}, Books db₁ db₂ →
      r ∈ db₁.multipart_part_blocks → r ∈ db₂.multipart_part_blocks :=
    fun h hin => h.multipart_part_blocks ▸ hin
  -- an abort takes the rows of its own upload, which is then closed
  have habort : ∀ (d : Database) (now : Int) (id : String), r ∈ d.multipart_part_blocks →
      (abort_upload_with_blocks d now id).1.upload? r.upload_id ≠ none →
        r ∈ (abort_upload_with_blocks d now id).1.multipart_part_blocks := by
    intro d now id hin hopen
    rw [Endings.upload?_abort] at hopen
    rcases abort_upload_with_blocks_eq d now id with heq | heq
    · rw [heq]
      exact hin
    · rw [heq]
      refine hbooks (books_decrement_blocks _ now _) (mem_deleteWhere.mpr ⟨hin, fun hid => ?_⟩)
      exact hopen (if_pos hid)
  cases op with
  | create_bucket now name => exact hr
  | delete_bucket name =>
      change r ∈ (delete_bucket db name).1.multipart_part_blocks
      unfold delete_bucket
      split_ifs <;> exact hr
  | set_bucket_cors now bucket configuration =>
      change r ∈ (set_bucket_cors db now bucket configuration).multipart_part_blocks
      unfold set_bucket_cors
      split_ifs <;> exact hr
  | delete_bucket_cors bucket => exact hr
  | create_upload upload =>
      refine transaction_cases (P := fun d => r ∈ d.multipart_part_blocks) hr (fun db' u hok => ?_)
      obtain ⟨_, -, hok⟩ := bind_ok.mp hok
      obtain ⟨db₁, hins, hok⟩ := bind_ok.mp hok
      obtain ⟨rfl, -⟩ := Prod.mk.inj (Except.ok.inj hok)
      obtain ⟨rfl, -⟩ := insert_upload_ok hins
      exact hr
  | add_staged_block now block =>
      refine transaction_cases (P := fun d => r ∈ d.multipart_part_blocks) hr (fun db' id hok => ?_)
      obtain ⟨hins, -⟩ := insert_block_ok hok
      obtain ⟨rfl, -⟩ := Prod.mk.inj hins
      exact hr
  | replace_part now upload_id part_number size etag blocks =>
      refine transaction_cases (P := fun d => r ∈ d.multipart_part_blocks) hr
        (fun db' released hok => ?_)
      refine hbooks (replace_part_tx_ok hok).books (List.mem_append_left _ ?_)
      -- the DELETE of the replacement names another part
      exact mem_deleteWhere.mpr ⟨hr, hreplace now upload_id part_number size etag blocks rfl⟩
  | commit_upload now upload_id size etag parts condition =>
      change (transaction db _).1.upload? r.upload_id ≠ none at hopen
      change r ∈ (transaction db _).1.multipart_part_blocks
      cases hbody : commit_upload_tx db now upload_id size etag parts condition with
      | error e => exact hr
      | ok result =>
          obtain ⟨db', result⟩ := result
          rw [hbody] at hopen
          cases result with
          | none => exact commit_upload_tx_none hbody ▸ hr
          | some found =>
              have hc := commit_upload_tx_ok hbody
              -- a commit takes the rows of its own upload, and that row goes with them
              refine hbooks hc.books (mem_deleteWhere.mpr ⟨?_, fun hid => ?_⟩)
              · rw [multipart_part_blocks_without_object]
                exact hr
              · refine hopen ((Endings.upload?_commit hbody r.upload_id).trans (if_pos ?_))
                exact hid.trans (lookup_mem hc.upload_row).2
  | abort_upload_with_blocks now upload_id => exact habort db now upload_id hr hopen
  | expire_uploads now before =>
      refine expire_uploads_induction (P := fun d => d.upload? r.upload_id ≠ none →
        r ∈ d.multipart_part_blocks) now before (fun _ => hr) (fun d id hd hopen => ?_) hopen
      -- the upload is open at the end, so it was open before each abort
      refine habort d now id (hd fun hnone => hopen ?_) hopen
      exact Endings.upload?_none_of_subset (uploads_abort d now id) hnone
  | delete_object now bucket key condition =>
      refine transaction_cases (P := fun d => r ∈ d.multipart_part_blocks) hr
        (fun db' deleted hok => ?_)
      obtain ⟨-, rfl, -⟩ := delete_object_tx_ok hok
      refine hbooks (books_decrement_blocks _ now _) ?_
      rw [multipart_part_blocks_without_object]
      exact hr
  | copy_object now source bucket key metadata condition =>
      refine transaction_cases (P := fun d => r ∈ d.multipart_part_blocks) hr
        (fun db' released hok => hbooks (copy_object_tx_ok hok).books ?_)
      change r ∈ (without_object db bucket key).multipart_part_blocks
      rw [multipart_part_blocks_without_object]
      exact hr
  | queue_stale_block now block_id => exact hbooks (books_queue_stale_block db now block_id) hr
  | gc_success block_id =>
      change r ∈ (gc_success db block_id).multipart_part_blocks
      unfold gc_success
      split
      · split_ifs <;> exact hr
      · exact hr
  | gc_failure block_id error next_attempt => exact hr
  | gc_orphan block_id error => exact hr

/-! ## The invariant -/

structure Kept (w : World) : Prop where
  wellFormed : WellFormed w.db
  uploads_known : ∀ u ∈ w.db.multipart_uploads, u.upload_id ∈ w.upload_ids
  calls_known : ∀ call ∈ w.uploads, call.upload_id ∈ w.upload_ids
  /-- a put writes part 0, and nobody else does -/
  numbered : ∀ call ∈ w.uploads, call.kind = .put ↔ call.part_number = 0
  /-- a put has its upload for itself -/
  alone : ((w.uploads.filter (·.kind = .put)).map (·.upload_id)).Nodup
  /-- the counts cover the claims -/
  backed : BackedBy w.db fun b => times b (claims w.db w.uploads)
  /-- who claims a block is the only one to remember it -/
  once : ∀ b, 0 < times b (claims w.db w.uploads) → times b (World.memory w) ≤ 1
  /-- no list of stale blocks names a claimed one -/
  unlisted : ∀ r ∈ w.stale, times r.block_id (claims w.db w.uploads) = 0
  /-- the row a running upload staged is there -/
  present : ∀ call ∈ w.uploads, Running w.db call → ∀ block ∈ call.blocks,
    ∃ row ∈ w.db.telegram_blocks, row.id = block.id ∧ row.message_id = block.message_id
  /-- a put that has its part written has a row for each of its blocks -/
  placed : ∀ call ∈ w.uploads, call.phase = .replaced → Running w.db call → ∀ block ∈ call.blocks,
    ∃ r ∈ w.db.multipart_part_blocks,
      r.part = (call.upload_id, call.part_number) ∧ r.block_id = block.id

theorem kept_init (chat_id : Int) : Kept (World.init chat_id) where
  wellFormed := wellFormed_empty
  uploads_known := by simp [World.init]
  calls_known := by simp [World.init]
  numbered := by simp [World.init]
  alone := by simp [World.init]
  backed := by
    intro b a ha
    cases ha
  once := by simp [World.init, claims]
  unlisted := by simp [World.init]
  present := by simp [World.init]
  placed := by simp [World.init]

namespace Kept

variable {w w' : World} {a : Action}

/-- What a running upload has staged is referred to, or claimed. -/
theorem covered (h : Kept w) {call : UploadCall} (hcall : call ∈ w.uploads)
    (hrunning : Running w.db call) {block : BlockRef} (hblock : block ∈ call.blocks) :
    0 < w.db.refs block.id + times block.id (claims w.db w.uploads) := by
  by_cases hphase : call.phase = .replaced
  · obtain ⟨r, hr, -, hid⟩ := h.placed call hcall hphase hrunning block hblock
    have hpos : 0 < references (·.block_id) block.id w.db.multipart_part_blocks :=
      references_pos.mpr ⟨r, hr, hid⟩
    unfold Database.refs
    omega
  · have hclaimed : 0 < times block.id (claims w.db w.uploads) :=
      times_claims_pos.mpr ⟨call, hcall, ⟨hrunning.1, hphase⟩, List.mem_map_of_mem hblock⟩
    omega

/-- A claimed block is in the table. -/
theorem claimed_present (h : Kept w) {b : Int} (hb : 0 < times b (claims w.db w.uploads)) :
    b ∈ w.db.telegram_blocks.map (·.id) := by
  obtain ⟨call, hcall, hneeds, hin⟩ := times_claims_pos.mp hb
  obtain ⟨block, hblock, rfl⟩ := List.mem_map.mp hin
  obtain ⟨row, hrow, hid, -⟩ := h.present call hcall
    ⟨hneeds.1, fun heq => absurd heq hneeds.2⟩ block hblock
  exact hid ▸ List.mem_map_of_mem hrow

/-- The next id is nobody's claim. -/
theorem next_unclaimed (h : Kept w) : times w.db.next_block_id (claims w.db w.uploads) = 0 := by
  by_contra hne
  exact nextRowid_not_mem _ (h.claimed_present (Nat.pos_of_ne_zero hne))

/-- A cleanup remembers no claimed block. -/
theorem cleanup_unclaimed (h : Kept w) {r : BlockRef} (hr : r ∈ w.cleanups) :
    times r.id (claims w.db w.uploads) = 0 := by
  by_contra hne
  have honce := h.once r.id (Nat.pos_of_ne_zero hne)
  have hclaims := times_claims_le w.db w.uploads r.id
  have hcleanup : 0 < times r.id w.cleanups := times_pos.mpr (List.mem_map_of_mem hr)
  unfold World.memory at honce
  rw [times_append] at honce
  omega

/-- Two puts of one upload are one. -/
theorem put_unique (h : Kept w) {call call' : UploadCall} (hcall : call ∈ w.uploads)
    (hcall' : call' ∈ w.uploads) (hput : call.kind = .put) (hput' : call'.kind = .put)
    (hid : call.upload_id = call'.upload_id) : call = call' :=
  List.inj_on_of_nodup_map h.alone (List.mem_filter.mpr ⟨hcall, decide_eq_true hput⟩)
    (List.mem_filter.mpr ⟨hcall', decide_eq_true hput'⟩) hid

/-- An upload that is open after a step was open before. -/
theorem open_before (h : Kept w) (hstep : step w a = some w') :
    ∀ call ∈ w.uploads, w'.db.upload? call.upload_id ≠ none → w.db.upload? call.upload_id ≠ none :=
  fun call hcall hopen hnone =>
    hopen (Endings.gone_step (h.calls_known call hcall) hnone hstep)

end Kept

/-! ## Steps that record nothing -/

namespace Kept

variable {w w' : World} {a : Action}

/-- **The counts cover the claims** after the step. -/
theorem backed_quiet (h : Kept w) (hstep : step w a = some w') (hrecords : records a = false)
    (hmoves : Moves w w' a) : BackedBy w'.db fun b => times b (claims w'.db w'.uploads) := by
  have hle := hmoves.claims_le (h.open_before hstep)
  have hdb := step_db hstep hrecords
  cases hop : a.op w with
  | none =>
      rw [hop] at hdb
      rw [show w'.db = w.db from hdb] at hle ⊢
      exact h.backed.mono hle
  | some op =>
      rw [hop] at hdb
      by_cases hclaims : op.claims = false
      · have hbacked := backedBy_apply h.wellFormed h.backed op hclaims
        rw [← show w'.db = op.apply w.db from hdb] at hbacked
        exact hbacked.mono hle
      · cases op with
        | add_staged_block now block => exact absurd rfl (Removal.op_not_record hstep hop now block)
        | replace_part now upload_id part_number size etag blocks =>
            obtain ⟨call, hcall, rfl, hphase, -, -⟩ := op_replace_part hstep hop
            obtain ⟨-, -, -, ⟨hsame, -⟩ | ⟨released, hreplaced, huploads, -⟩⟩ := step_replace_part hstep
            · rw [hsame] at hle ⊢
              exact h.backed.mono hle
            · -- the claims of the call have become references
              have hneeds : Needs w.db call := ⟨hreplaced.upload_row, by simp [hphase]⟩
              have hdone : ¬ Needs w'.db { call with phase := .replaced } := fun h => h.2 rfl
              have hopen := h.open_before hstep
              have hrest := fun b => times_claims_mono w.db w'.db (w.uploads.erase call)
                (fun c hc hn => ⟨hopen c (List.mem_of_mem_erase hc) hn.1, hn.2⟩) b
              refine BackedBy.replace h.wellFormed (h.backed.mono fun b => ?_) hreplaced
              have := hrest b
              rw [huploads, times_claims_cons, if_neg hdone, times_claims_erase hcall, if_pos hneeds]
              omega
        | queue_stale_block now b =>
            have hzero : times b (claims w.db w.uploads) = 0 := by
              rcases op_queue_stale hstep hop with ⟨r, hr, rfl⟩ | ⟨r, hr, rfl⟩
              · exact h.cleanup_unclaimed hr
              · exact h.unlisted r hr
            have hbacked := h.backed.queue_stale now b (fun _ => hzero)
            rw [← show w'.db = (queue_stale_block w.db now b).1 from hdb] at hbacked
            exact hbacked.mono hle
        | _ => exact absurd rfl hclaims

/-- The rows a running upload staged are still there. -/
theorem present_quiet (h : Kept w) (hstep : step w a = some w') (hrecords : records a = false)
    (hmoves : Moves w w' a) : ∀ call ∈ w'.uploads, Running w'.db call → ∀ block ∈ call.blocks,
      ∃ row ∈ w'.db.telegram_blocks, row.id = block.id ∧ row.message_id = block.message_id := by
  have hstays : ∀ call ∈ w.uploads, Running w.db call → ∀ block ∈ call.blocks,
      ∃ row ∈ w'.db.telegram_blocks, row.id = block.id ∧ row.message_id = block.message_id := by
    intro call hcall hrunning block hblock
    obtain ⟨row, hrow, hid, hmessage⟩ := h.present call hcall hrunning block hblock
    rw [step_db hstep hrecords]
    cases hop : a.op w with
    | none => exact ⟨row, hrow, hid, hmessage⟩
    | some op =>
        have hpos := h.covered hcall hrunning hblock
        rw [← hid] at hpos
        obtain ⟨row', hrow', hid', hmessage'⟩ :=
          row_stays h.backed (Removal.op_not_record hstep hop) hrow hpos
        exact ⟨row', hrow', hid'.trans hid, hmessage'.trans hmessage⟩
  intro call' hcall' hrunning' block hblock
  rcases hmoves.origin call' hcall' with hcall | ⟨call, hcall, hphase, hid, hkind, hnumber, hblocks,
    hreplaced⟩ | ⟨hnone, -⟩
  · exact hstays call' hcall ⟨h.open_before hstep call' hcall hrunning'.1, hrunning'.2⟩ block hblock
  · refine hstays call hcall ⟨?_, fun heq => absurd heq hphase⟩ block (hblocks.subset hblock)
    exact h.open_before hstep call hcall (hid ▸ hrunning'.1)
  · rw [hnone] at hblock
    cases hblock

/-- The part of a put stays as it was written: nobody else writes part 0 of its
upload. -/
theorem placed_quiet (h : Kept w) (hstep : step w a = some w') (hrecords : records a = false)
    (hmoves : Moves w w' a) :
    ∀ call ∈ w'.uploads, call.phase = .replaced → Running w'.db call → ∀ block ∈ call.blocks,
      ∃ r ∈ w'.db.multipart_part_blocks,
        r.part = (call.upload_id, call.part_number) ∧ r.block_id = block.id := by
  intro call' hcall' hphase' hrunning' block hblock
  rcases hmoves.origin call' hcall' with hcall | ⟨call, hcall, hphase, hid, hkind, hnumber, hblocks,
    hreplaced⟩ | ⟨-, hstreaming, -⟩
  · have hopen := h.open_before hstep call' hcall hrunning'.1
    obtain ⟨r, hr, hpart, hblock_id⟩ :=
      h.placed call' hcall hphase' ⟨hopen, hrunning'.2⟩ block hblock
    refine ⟨r, ?_, hpart, hblock_id⟩
    have hdb := step_db hstep hrecords
    have hupload : r.upload_id = call'.upload_id := congrArg Prod.fst hpart
    have hopen' := hrunning'.1
    rw [← hupload] at hopen'
    rw [hdb] at hopen' ⊢
    cases hop : a.op w with
    | none => exact hr
    | some op =>
        rw [hop] at hopen'
        refine part_block_stays hr hopen' ?_
        rintro now upload_id part_number size etag blocks rfl heq
        -- whoever replaces this part is a put of the same upload: this one
        obtain ⟨call, hcall₀, -, hphase₀, hid₀, hnumber₀⟩ := op_replace_part hstep hop
        rw [hpart, Prod.mk.injEq, ← hid₀, ← hnumber₀] at heq
        have hput := hrunning'.2 hphase'
        have hput₀ : call.kind = .put :=
          (h.numbered call hcall₀).mpr (heq.2 ▸ (h.numbered call' hcall).mp hput)
        have hsame := h.put_unique hcall hcall₀ hput hput₀ heq.1
        rw [hsame, hphase₀] at hphase'
        cases hphase'
  · obtain ⟨released, hreplaced⟩ := hreplaced hphase'
    have hmem : ((call.upload_id, call.part_number), block.id) ∈
        (part_rows call.upload_id call.part_number 0 call.blocks).map
          (fun r => (r.part, r.block_id)) := by
      rw [map_block_id_part_rows]
      exact List.mem_map.mpr ⟨block, hblocks.subset hblock, rfl⟩
    obtain ⟨r, hr, heq⟩ := List.mem_map.mp hmem
    obtain ⟨hpart, hblock_id⟩ := Prod.mk.inj heq
    refine ⟨r, ?_, ?_, hblock_id⟩
    · rw [hreplaced.books.multipart_part_blocks]
      exact List.mem_append_right _ hr
    · rw [hpart, hid, hnumber]
  · rw [hstreaming] at hphase'
    cases hphase'

/-- Each put still has its upload for itself. -/
theorem alone_quiet (h : Kept w) (hmoves : Moves w w' a) :
    ((w'.uploads.filter (·.kind = .put)).map (·.upload_id)).Nodup := by
  have herase : ∀ call, (((w.uploads.erase call).filter (·.kind = .put)).map (·.upload_id)).Nodup :=
    fun call => h.alone.sublist ((List.erase_sublist.filter _).map _)
  have hnext : ∀ call call' : UploadCall, call ∈ w.uploads → call'.upload_id = call.upload_id →
      call'.kind = call.kind →
        (((call' :: w.uploads.erase call).filter (·.kind = .put)).map (·.upload_id)).Nodup := by
    intro call call' hcall hid hkind
    have hperm := (((List.perm_cons_erase hcall).filter (·.kind = .put)).map (·.upload_id)).nodup
      h.alone
    rw [List.filter_cons] at hperm ⊢
    rw [hkind]
    split_ifs at hperm ⊢ with hput
    · rw [List.map_cons, hid]
      exact hperm
    · exact hperm
  cases hmoves with
  | rest huploads hcleanups => exact h.alone.sublist ((huploads.filter _).map _)
  | failed call hcall hdb huploads hcleanups =>
      rw [huploads]
      exact herase call
  | begun call hblocks hphase hid hnumber hnew huploads hcleanups =>
      rw [huploads, List.filter_cons]
      split_ifs with hput
      · rw [List.map_cons, List.nodup_cons]
        refine ⟨fun hin => ?_, h.alone⟩
        obtain ⟨c, hc, heq⟩ := List.mem_map.mp hin
        exact hnew (of_decide_eq_true hput)
          (heq ▸ h.calls_known c (List.mem_filter.mp hc).1)
      · exact h.alone
  | advanced call call' hcall huploads hid hkind hnumber hblocks hphase hphase' hdb hcleanups =>
      rw [huploads]
      exact hnext call call' hcall hid hkind
  | replaced call hcall hphase released hreplaced huploads hcleanups =>
      rw [huploads]
      exact hnext call _ hcall rfl rfl

/-- A list of stale blocks names none that a running upload has just staged. -/
theorem unlisted_quiet (h : Kept w) (htime : InTime w a) (hlists : Lists w w' a) :
    ∀ r ∈ w'.stale, times r.block_id (claims w.db w.uploads) = 0 := by
  intro r hr
  rcases hlists r hr with hr | ⟨limit, rfl, hr⟩
  · exact h.unlisted r hr
  · by_contra hne
    obtain ⟨call, hcall, hneeds, hin⟩ := times_claims_pos.mp (Nat.pos_of_ne_zero hne)
    obtain ⟨block, hblock, hid⟩ := List.mem_map.mp hin
    obtain ⟨row, hrow, rfl⟩ := List.mem_map.mp hr
    obtain ⟨hmem, hstale⟩ := List.mem_filter.mp
      ((List.mem_insertionSort _).mp (List.mem_of_mem_take hrow))
    have hold := (of_decide_eq_true hstale).2.1
    have hyoung := htime call hcall hneeds block hblock row hmem hid.symm
    omega

theorem quiet (h : Kept w) (htime : InTime w a) (hstep : step w a = some w')
    (hrecords : records a = false) : Kept w' := by
  obtain ⟨hmoves, hlists⟩ := moves_step hstep hrecords
  have hle := hmoves.claims_le (h.open_before hstep)
  refine
    { wellFormed := Removal.wellFormed_step h.wellFormed hstep
      uploads_known := Endings.drawn_step h.uploads_known hstep
      calls_known := ?_
      numbered := ?_
      alone := h.alone_quiet hmoves
      backed := h.backed_quiet hstep hrecords hmoves
      once := fun b hb => ?_
      unlisted := fun r hr => ?_
      present := h.present_quiet hstep hrecords hmoves
      placed := h.placed_quiet hstep hrecords hmoves }
  · intro call' hcall'
    rcases hmoves.origin call' hcall' with hcall | ⟨call, hcall, -, hid, -⟩ | ⟨-, -, -, hin | hopen⟩
    · exact Endings.upload_ids_mono hstep (h.calls_known call' hcall)
    · exact hid ▸ Endings.upload_ids_mono hstep (h.calls_known call hcall)
    · exact hin
    · obtain ⟨u, hu, hid⟩ := List.mem_map.mp (Staging.upload?_ne_none.mp hopen)
      exact hid ▸ Endings.upload_ids_mono hstep (h.uploads_known u hu)
  · intro call' hcall'
    rcases hmoves.origin call' hcall' with hcall | ⟨call, hcall, -, -, hkind, hnumber, -⟩
      | ⟨-, -, hnumber, -⟩
    · exact h.numbered call' hcall
    · rw [hkind, hnumber]
      exact h.numbered call hcall
    · exact hnumber
  · have := hmoves.memory_le b
    have := h.once b (Nat.lt_of_lt_of_le hb (hle b))
    omega
  · have hzero := h.unlisted_quiet htime hlists r hr
    have := hle r.block_id
    omega

end Kept

/-! ## Steps that record a document -/

namespace Kept

variable {w w' : World} {a : Action}

/-- A recorded block comes on top of everything else; nobody remembers it yet. -/
theorem recorded (h : Kept w) {spec : BlockSpec} {document : StoredDocument} {block : BlockRef}
    (hrecord : w.record spec document = some (w', block)) :
    Kept w' ∧ BackedBy w'.db fun b =>
      times b (claims w.db w.uploads) + if b = w.db.next_block_id then 1 else 0 := by
  obtain ⟨-, -, rfl, hwf⟩ := record_ok hrecord
  have hid : (staged_row w.now (uploaded_block w.chat_id 0 spec document) w.db.next_block_id).id
      = w.db.next_block_id := rfl
  have hbacked := h.backed.insert_block h.wellFormed hid rfl h.next_unclaimed
  refine ⟨?_, hbacked⟩
  exact
    { wellFormed := hwf h.wellFormed
      uploads_known := h.uploads_known
      calls_known := h.calls_known
      numbered := h.numbered
      alone := h.alone
      backed := hbacked.mono fun b => Nat.le_add_right _ _
      once := h.once
      unlisted := h.unlisted
      present := fun call hcall hrunning block hblock => by
        obtain ⟨row, hrow, heq⟩ := h.present call hcall hrunning block hblock
        exact ⟨row, List.mem_append_left _ hrow, heq⟩
      placed := h.placed }

/-- The claims after a call has taken the reference to its block. -/
theorem times_claims_stage (call call' : UploadCall) (hcall : call ∈ w.uploads)
    (hid : call'.upload_id = call.upload_id) (hphase : call'.phase = call.phase) {block : BlockRef}
    (hblocks : call'.blocks = call.blocks ++ [block]) (b : Int) :
    times b (claims w.db (call' :: w.uploads.erase call))
      = times b (claims w.db w.uploads) + if Needs w.db call ∧ b = block.id then 1 else 0 := by
  have hneeds : Needs w.db call' ↔ Needs w.db call := by
    unfold Needs
    rw [hid, hphase]
  rw [times_claims_cons, times_claims_erase hcall, hblocks, times_append, times_cons, times_nil]
  simp only [hneeds]
  by_cases hneed : Needs w.db call
  · by_cases hb : b = block.id
    · simp [hneed, hb]
      omega
    · simp [hneed, hb]
  · simp [hneed]

/-- **The call that sent the document takes its reference.** -/
theorem stage (h : Kept w) {call : UploadCall} {spec : BlockSpec} {document : StoredDocument}
    {block : BlockRef} {w₁ : World} (hcall : call ∈ w.uploads) (hphase : call.phase = .streaming)
    (hrecord : w.record spec document = some (w₁, block))
    (htime : Needs w.db call → w.db.next_block_id ∉ (World.memory w).map (·.id)
      ∧ w.db.next_block_id ∉ w.stale.map (·.block_id)) :
    Kept (w₁.advance call { call with
      pending := call.pending.erase spec, blocks := call.blocks ++ [block] }) := by
  obtain ⟨h₁, hbacked⟩ := h.recorded hrecord
  obtain ⟨-, hblock, hw₁, -⟩ := record_ok hrecord
  have hid : block.id = w.db.next_block_id := by rw [hblock]; rfl
  have hcall₁ : call ∈ w₁.uploads := by rw [hw₁]; exact hcall
  have hsame : ∀ b, times b (claims w₁.db w₁.uploads) = times b (claims w.db w.uploads) := by
    intro b
    rw [hw₁]
    rfl
  have hneeds₁ : Needs w₁.db call ↔ Needs w.db call := by
    rw [hw₁]
    exact Iff.rfl
  -- a call whose part is not replaced yet has one claim more, on the new id
  have hclaims : ∀ b, times b (claims w₁.db ({ call with
      pending := call.pending.erase spec, blocks := call.blocks ++ [block] } :: w₁.uploads.erase call))
        = times b (claims w.db w.uploads) + if Needs w.db call ∧ b = block.id then 1 else 0 := by
    intro b
    refine (times_claims_stage call ({ call with
      pending := call.pending.erase spec, blocks := call.blocks ++ [block] }) hcall₁ rfl rfl rfl
        b).trans ?_
    rw [hsame]
    simp only [hneeds₁]
  -- and it is remembered once more
  have hmemory : ∀ b, times b (World.memory (w₁.advance call { call with
      pending := call.pending.erase spec, blocks := call.blocks ++ [block] }))
        = times b (World.memory w) + if b = block.id then 1 else 0 := by
    intro b
    have huploads : w₁.uploads = w.uploads := by rw [hw₁]
    have hcleanups : w₁.cleanups = w.cleanups := by rw [hw₁]
    unfold World.memory World.advance
    dsimp only
    rw [huploads, hcleanups, List.flatMap_cons, times_append, times_append, times_append,
      times_append, times_cons, times_nil, times_blocks_erase hcall]
    omega
  have hperm := List.perm_cons_erase hcall₁
  refine
    { wellFormed := h₁.wellFormed
      uploads_known := h₁.uploads_known
      calls_known := ?_
      numbered := ?_
      alone := ?_
      backed := hbacked.mono fun b => ?_
      once := fun b hb => ?_
      unlisted := fun r hr => ?_
      present := ?_
      placed := ?_ }
  · intro c hc
    rcases List.mem_cons.mp hc with rfl | hc
    · exact h₁.calls_known call hcall₁
    · exact h₁.calls_known c (List.mem_of_mem_erase hc)
  · intro c hc
    rcases List.mem_cons.mp hc with rfl | hc
    · exact h₁.numbered call hcall₁
    · exact h₁.numbered c (List.mem_of_mem_erase hc)
  · have hnodup := ((hperm.filter (·.kind = .put)).map (·.upload_id)).nodup h₁.alone
    change (((_ :: w₁.uploads.erase call).filter (·.kind = .put)).map (·.upload_id)).Nodup
    rw [List.filter_cons] at hnodup ⊢
    split_ifs at hnodup ⊢ with hput
    · exact hnodup
    · exact hnodup
  · change times b (claims w₁.db (_ :: w₁.uploads.erase call)) ≤ _
    rw [hclaims, hid]
    split_ifs with hboth hb
    · exact Nat.le_refl _
    · exact absurd hboth.2 hb
    · omega
    · exact Nat.le_refl _
  · change 0 < times b (claims w₁.db (_ :: w₁.uploads.erase call)) at hb
    rw [hclaims, hid] at hb
    rw [hmemory, hid]
    by_cases hnew : b = w.db.next_block_id
    · -- the new id is a claim only if it is remembered nowhere else
      subst hnew
      rw [h.next_unclaimed] at hb
      have hneeds : Needs w.db call := by
        by_contra hno
        simp [hno] at hb
      have hzero : times w.db.next_block_id (World.memory w) = 0 :=
        List.count_eq_zero.mpr (htime hneeds).1
      rw [hzero, if_pos rfl]
    · rw [if_neg (fun hboth => hnew hboth.2)] at hb
      rw [if_neg hnew]
      exact h.once b hb
  · have hr₁ : r ∈ w.stale := by
      rw [hw₁] at hr
      exact hr
    change times r.block_id (claims w₁.db (_ :: w₁.uploads.erase call)) = 0
    rw [hclaims, h.unlisted r hr₁, if_neg]
    rintro ⟨hneeds, heq⟩
    exact (htime hneeds).2 (hid ▸ heq ▸ List.mem_map_of_mem hr₁)
  · -- the new block has the row that was just recorded
    intro c hc hrunning b hb
    rcases List.mem_cons.mp hc with rfl | hc
    · rcases List.mem_append.mp hb with hb | hb
      · exact h₁.present call hcall₁ hrunning b hb
      · rw [List.mem_singleton.mp hb]
        refine ⟨staged_row w.now (uploaded_block w.chat_id 0 spec document) w.db.next_block_id,
          ?_, hid.symm, ?_⟩
        · rw [hw₁]
          exact List.mem_append_right _ (List.mem_singleton_self _)
        · rw [hblock]
          rfl
    · exact h₁.present c (List.mem_of_mem_erase hc) hrunning b hb
  · intro c hc hreplaced hrunning b hb
    rcases List.mem_cons.mp hc with rfl | hc
    · rw [show call.phase = .replaced from hreplaced] at hphase
      cases hphase
    · exact h₁.placed c (List.mem_of_mem_erase hc) hreplaced hrunning b hb

/-- A document that arrives too late is left to a cleanup. -/
theorem stage_late (h : Kept w) {spec : BlockSpec} {document : StoredDocument} {block : BlockRef}
    {w₁ : World} (hrecord : w.record spec document = some (w₁, block)) :
    Kept { w₁ with cleanups := w₁.cleanups ++ [block] } := by
  obtain ⟨h₁, -⟩ := h.recorded hrecord
  obtain ⟨-, hblock, hw₁, -⟩ := record_ok hrecord
  refine { h₁ with once := fun b hb => ?_ }
  have honce := h₁.once b hb
  have hnew : b ≠ block.id := by
    rintro rfl
    have hzero := h.next_unclaimed
    rw [hw₁, hblock] at hb
    change 0 < times w.db.next_block_id (claims w.db w.uploads) at hb
    omega
  unfold World.memory at honce ⊢
  rw [times_append] at honce
  rw [times_append, times_append, times_cons, if_neg hnew]
  simpa using honce

end Kept

/-- **One step.** -/
theorem kept_step {w w' : World} {a : Action} (h : Kept w) (htime : InTime w a)
    (hstep : step w a = some w') : Kept w' := by
  by_cases hrecords : records a = true
  · cases a with
    | stage call spec document =>
        simp only [step] at hstep
        split_ifs at hstep with hcond
        split at hstep
        · rename_i w₁ block hrecord
          obtain rfl := Option.some.inj hstep
          exact h.stage hcond.1 hcond.2.1 hrecord htime
        · cases hstep
    | stage_late spec document =>
        simp only [step] at hstep
        split at hstep
        · rename_i w₁ block hrecord
          obtain rfl := Option.some.inj hstep
          exact h.stage_late hrecord
        · cases hstep
    | lose spec document =>
        simp only [step] at hstep
        split at hstep
        · rename_i w₁ block hrecord
          obtain rfl := Option.some.inj hstep
          exact { (h.recorded hrecord).1 with }
        · cases hstep
    | _ => cases hrecords
  · exact h.quiet htime hstep (Bool.eq_false_iff.mpr hrecords)

/-- **In time, the collector leaves a running upload alone.** In every state of a
run whose steps all meet `InTime`, the blocks a running upload has staged are
there and not queued; `replace_part` goes through, and the commit is not refused
for a queued or a removed block. -/
theorem running_upload_kept (chat_id : Int) (as : List Action) (w : World)
    (htime : Meets step InTime (World.init chat_id) as)
    (hrun : run step (World.init chat_id) as = some w) :
    ∀ call ∈ w.uploads, Running w.db call →
      (∀ block ∈ call.blocks, ¬ w.db.queued block.id
        ∧ ∃ row ∈ w.db.telegram_blocks, row.id = block.id ∧ row.message_id = block.message_id)
      ∧ (call.phase = .uploaded → ∃ released,
          (replace_part w.db w.now call.upload_id call.part_number call.next_offset call.etag
            call.blocks).2 = .ok released)
      ∧ (call.phase = .replaced →
          (∀ block ∈ call.blocks, ∃ r ∈ w.db.multipart_part_blocks,
            r.part = (call.upload_id, call.part_number) ∧ r.block_id = block.id)
          ∧ ∀ condition e, commit_upload_tx w.db w.now call.upload_id call.next_offset call.etag
              [call.part] condition = .error e → e ≠ .blocks_pending_gc ∧ e ≠ .constraint_failed) := by
  -- the invariant holds in every state of the run; the rest is what it says of one call
  have hkept : Kept w :=
    run_inv (fun s a s' hs hf hstep => kept_step hs hf hstep) (kept_init chat_id) htime hrun
  intro call hcall hrunning
  have hunqueued : ∀ block ∈ call.blocks, ¬ w.db.queued block.id := fun block hblock =>
    hkept.backed.unqueued hkept.wellFormed (hkept.covered hcall hrunning hblock)
  have hpresent : ∀ block ∈ call.blocks, block.id ∈ w.db.telegram_blocks.map (·.id) := by
    intro block hblock
    obtain ⟨row, hrow, hid, -⟩ := hkept.present call hcall hrunning block hblock
    exact hid ▸ List.mem_map_of_mem hrow
  refine ⟨fun block hblock => ⟨hunqueued block hblock, hkept.present call hcall hrunning block hblock⟩,
    fun hphase => ?_, fun hphase => ⟨hkept.placed call hcall hphase hrunning, ?_⟩⟩
  · -- a claimed block is remembered once, so the call names none twice
    have hdistinct : (call.blocks.map (·.id)).Nodup := by
      rw [List.nodup_iff_count_le_one]
      intro b
      by_cases hb : b ∈ call.blocks.map (·.id)
      · have honce := hkept.once b (times_claims_pos.mpr
          ⟨call, hcall, ⟨hrunning.1, by simp [hphase]⟩, hb⟩)
        unfold World.memory at honce
        rw [times_append, times_blocks_erase hcall] at honce
        change times b call.blocks ≤ 1
        omega
      · rw [List.count_eq_zero.mpr hb]
        omega
    exact replace_part_succeeds w.now call.part_number call.next_offset call.etag hrunning.1
      hunqueued hdistinct hpresent
  · intro condition e herror
    have hblocks : [call.part].flatMap (·.blocks) = call.blocks := List.append_nil _
    rcases commit_upload_error hkept.wellFormed (hblocks ▸ hunqueued) (hblocks ▸ hpresent) herror
      with rfl | rfl | rfl <;> decide

/-- A put whose first block is an hour old when the collector looks. -/
def in_time : List Action :=
  slow_client.take 4 ++ [.tick 3600, .stale_blocks 100] ++ slow_client_commits.take 3

/-- The put of the slow client, all of it sent. -/
def sent_put : UploadCall :=
  { put "put-1" 2 [] [reference 1 first_spec 11, reference 2 second_spec 13] with
    etag := "e", phase := .uploaded }

theorem running_upload_kept_in_time :
    ∃ w released, run step (World.init (-100)) in_time = some w ∧ sent_put ∈ w.uploads
      ∧ (replace_part w.db w.now "put-1" 0 10 "e" sent_put.blocks).2 = .ok released := by
  have hrun : (run step (World.init (-100)) in_time).map (fun w =>
      decide (sent_put ∈ w.uploads ∧ w.db.upload? "put-1" ≠ none)) = some true := by
    decide
  obtain ⟨w, hw, hd⟩ := Option.map_eq_some_iff.mp hrun
  obtain ⟨hcall, hopen⟩ := of_decide_eq_true hd
  obtain ⟨-, hreplace, -⟩ := running_upload_kept (-100) in_time w (by decide) hw sent_put hcall
    ⟨hopen, fun h => by cases h⟩
  obtain ⟨released, hreleased⟩ := hreplace rfl
  exact ⟨w, released, hw, hcall, hreleased⟩

/-- The same put, a little slower: a pass comes after an hour and claims the block. -/
def stalled : List Action := slow_client.take 7 ++ slow_client_commits.take 3

/-- **A pass can break an upload in progress.** Nothing has failed, nobody has
aborted the upload and it has not expired; but its first block is queued, and
`replace_part` is refused for it. -/
theorem stalled_upload_refused :
    ∃ w, run step (World.init (-100)) stalled = some w ∧ sent_put ∈ w.uploads
      ∧ Running w.db sent_put ∧ (∃ block ∈ sent_put.blocks, w.db.queued block.id)
      ∧ (replace_part w.db w.now "put-1" 0 10 "e" sent_put.blocks).2 = .error .blocks_pending_gc := by
  have hrun : (run step (World.init (-100)) stalled).map (fun w =>
      decide (sent_put ∈ w.uploads ∧ w.db.upload? "put-1" ≠ none
        ∧ (∃ block ∈ sent_put.blocks, w.db.queued block.id)
        ∧ replace_part w.db w.now "put-1" 0 10 "e" sent_put.blocks
            = (w.db, .error .blocks_pending_gc))) = some true := by
    decide
  obtain ⟨w, hw, hd⟩ := Option.map_eq_some_iff.mp hrun
  obtain ⟨hcall, hopen, hqueued, hrefused⟩ := of_decide_eq_true hd
  exact ⟨w, hw, hcall, ⟨hopen, fun h => by cases h⟩, hqueued, congrArg Prod.snd hrefused⟩

end Tg2s3.Uploads
