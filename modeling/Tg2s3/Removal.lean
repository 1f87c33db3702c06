/-
Is a block row removed only after its own message is gone?

Three kinds of task remove rows: a pass of the collector, the reclaim task, and
the cleanup of a failed upload. Each remembers an id together with a message,
deletes the message, and when Telegram has confirmed that, removes the row under
the id. `gc_success` looks at the count and the references of the row, not at its
message.

So the row is the right one as long as the pairs that are remembered agree with
the table (`Matched`). A pair is right when it is learnt, and rows do not change
their message; what breaks it is `add_staged_block`, which hands an id out again
whose row is gone. `Unremembered` is the condition that this does not happen to
an id somebody may still remove. The ids an upload under way has staged are among
them: they become the ids of its cleanup if it fails.
-/
import Tg2s3.Steps

set_option autoImplicit false

namespace Tg2s3.Removal

open Tg2s3 Relational Machine
open Tg2s3.GcSafety (record_ok document upload_record put reference garbage first_spec)
open Tg2s3.Staging (records rows_record)

/-- The message whose deletion Telegram has confirmed to the acting task, or
reported as missing. -/
def confirms : Action → Option Int
  | .gc_success record => some record.message_id
  | .cleanup_success reference => some reference.message_id
  | _ => none

/-- The message of the row a step makes up. -/
def recorded : Action → Option Int
  | .stage _ _ document => some document.message_id
  | .stage_late _ document => some document.message_id
  | .lose _ document => some document.message_id
  | _ => none

/-- `add_staged_block` hands out no id that somebody may still remove. -/
def Unremembered (w : World) (a : Action) : Prop :=
  records a = true → w.db.next_block_id ∉ w.tracked.map (·.id)
    ∧ w.db.next_block_id ∉ w.candidates.map (·.block_id)

instance (w : World) (a : Action) : Decidable (Unremembered w a) :=
  inferInstanceAs (Decidable (_ → _))

/-- Every row a step removes is the row of the message whose deletion the acting
task has seen confirmed. -/
def RemovesOwn (w : World) (a : Action) : Prop :=
  ∀ w', step w a = some w' → ∀ row ∈ w.db.telegram_blocks,
    row.id ∉ w'.db.telegram_blocks.map (·.id) → confirms a = some row.message_id

/-! ## The invariant -/

/-- A remembered id is the id of the remembered message, if it has a row at all. -/
structure Matched (w : World) : Prop where
  wellFormed : WellFormed w.db
  tracked : ∀ r ∈ w.tracked, ∀ row ∈ w.db.telegram_blocks, row.id = r.id →
    row.message_id = r.message_id
  candidates : ∀ r ∈ w.candidates, ∀ row ∈ w.db.telegram_blocks, row.id = r.block_id →
    row.message_id = r.message_id

theorem matched_init (chat_id : Int) : Matched (World.init chat_id) where
  wellFormed := wellFormed_empty
  tracked := by simp [World.init, World.tracked]
  candidates := by simp [World.init]

/-- A record that was just selected is the record of its row. -/
theorem message_of_select {db : Database} (hwf : WellFormed db) {timestamp : Int}
    {q : GcQueueRow} {r : GarbageRecord} (h : gc_select db timestamp q = some r) :
    ∀ row ∈ db.telegram_blocks, row.id = r.block_id → row.message_id = r.message_id := by
  unfold gc_select at h
  split at h
  · cases h
  · rename_i b hb
    split_ifs at h
    obtain rfl := Option.some.inj h
    intro row hrow hid
    obtain ⟨hmem, hb_id⟩ := lookup_mem hb
    have hsame : row = b := eq_of_key_eq hwf.block_ids hrow hmem (hid.trans hb_id.symm)
    rw [hsame]
    rfl

/-! ## The operation of a step -/

/-- No step removes a row but through a remembered pair, and then the deletion of
the remembered message was confirmed. -/
theorem op_gc_success {w w' : World} {a : Action} (hstep : step w a = some w') {b : Int}
    (hop : a.op w = some (.gc_success b)) :
    (∃ r ∈ w.tracked, r.id = b ∧ confirms a = some r.message_id)
      ∨ ∃ r ∈ w.candidates, r.block_id = b ∧ confirms a = some r.message_id := by
  cases a with
  | request op =>
      simp only [step] at hstep
      split_ifs at hstep with hplain
      obtain rfl := Option.some.inj hop
      cases hplain
  | cleanup_success reference =>
      simp only [step] at hstep
      split_ifs at hstep with hcond
      refine Or.inl ⟨reference, mem_tracked.mpr (Or.inr (Or.inr hcond.1)), ?_, rfl⟩
      exact Op.gc_success.inj (Option.some.inj hop)
  | gc_success record =>
      simp only [step] at hstep
      split_ifs at hstep with hcond
      exact Or.inr ⟨record, hcond.1, Op.gc_success.inj (Option.some.inj hop), rfl⟩
  | _ => cases hop

theorem op_not_record {w w' : World} {a : Action} (hstep : step w a = some w') {op : Op}
    (hop : a.op w = some op) : ∀ now block, op ≠ .add_staged_block now block := by
  rintro now block rfl
  cases a with
  | request op =>
      simp only [step] at hstep
      split_ifs at hstep with hplain
      obtain rfl := Option.some.inj hop
      cases hplain
  | _ => cases hop

/-- The rows after a step that records nothing were rows before. -/
theorem rows_step {w w' : World} {a : Action} (hwf : WellFormed w.db)
    (hstep : step w a = some w') (hrecords : records a = false) :
    ∀ row' ∈ w'.db.telegram_blocks, ∃ row ∈ w.db.telegram_blocks, row.frozen = row'.frozen := by
  rw [step_db hstep hrecords]
  cases hop : a.op w with
  | none => exact fun row hrow => ⟨row, hrow, rfl⟩
  | some op => exact (leavesFree_apply hwf op (op_not_record hstep hop)).rows

theorem wellFormed_step {w w' : World} {a : Action} (hwf : WellFormed w.db)
    (hstep : step w a = some w') : WellFormed w'.db := by
  cases hrecords : records a with
  | false =>
      rw [step_db hstep hrecords]
      cases a.op w with
      | none => exact hwf
      | some op => exact wellFormed_apply w.db op hwf
  | true =>
      obtain ⟨spec, document, w₁, block, hrecord, hdb, -⟩ := step_record hstep hrecords
      rw [hdb]
      exact (record_ok hrecord).2.2.2 hwf

/-- A row is there after the step, or it was removed with its own message. -/
theorem row_step {w w' : World} {a : Action} (h : Matched w) (hstep : step w a = some w')
    {row : TelegramBlockRow} (hrow : row ∈ w.db.telegram_blocks) :
    (∃ row' ∈ w'.db.telegram_blocks, row'.id = row.id ∧ row'.message_id = row.message_id)
      ∨ confirms a = some row.message_id := by
  cases hrecords : records a with
  | true =>
      -- a new row is appended to the others
      obtain ⟨spec, document, w₁, block, hrecord, hdb, -⟩ := step_record hstep hrecords
      obtain ⟨-, -, rfl, -⟩ := record_ok hrecord
      refine Or.inl ⟨row, ?_, rfl, rfl⟩
      rw [hdb]
      exact List.mem_append_left _ hrow
  | false =>
      rw [step_db hstep hrecords]
      cases hop : a.op w with
      | none => exact Or.inl ⟨row, hrow, rfl, rfl⟩
      | some op =>
          by_cases hremove : ∃ b, op = .gc_success b
          · obtain ⟨b, rfl⟩ := hremove
            by_cases hid : row.id = b
            · right
              rcases op_gc_success hstep hop with ⟨r, hr, hr_id, hconfirm⟩ | ⟨r, hr, hr_id, hconfirm⟩
              · rw [hconfirm, h.tracked r hr row hrow (hid.trans hr_id.symm)]
              · rw [hconfirm, h.candidates r hr row hrow (hid.trans hr_id.symm)]
            · refine Or.inl ⟨row, ?_, rfl, rfl⟩
              change row ∈ (gc_success w.db b).telegram_blocks
              unfold gc_success
              split
              · split_ifs
                · exact mem_deleteWhere.mpr ⟨hrow, hid⟩
                · exact hrow
              · exact hrow
          · have hkept := frozen_apply w.db op (op_not_record hstep hop)
              (fun b hb => hremove ⟨b, hb⟩)
            have hmem : row.frozen ∈ (op.apply w.db).telegram_blocks.map (·.frozen) := by
              rw [hkept]
              exact List.mem_map_of_mem hrow
            obtain ⟨row', hrow', heq⟩ := List.mem_map.mp hmem
            exact Or.inl ⟨row', hrow', TelegramBlockRow.id_of_frozen heq,
              TelegramBlockRow.message_id_of_frozen heq⟩

/-- A document that was just recorded has its row. -/
theorem row_of_recorded {w w' : World} {a : Action} (hstep : step w a = some w') {m : Int}
    (hm : recorded a = some m) : ∃ row ∈ w'.db.telegram_blocks, row.message_id = m := by
  have hrow : ∀ (spec : BlockSpec) (d : StoredDocument) (w₁ : World) (block : BlockRef),
      w.record spec d = some (w₁, block) → ∃ row ∈ w₁.db.telegram_blocks,
        row.message_id = d.message_id := by
    intro spec d w₁ block hrecord
    obtain ⟨-, -, rfl, -⟩ := record_ok hrecord
    exact ⟨_, List.mem_append_right _ (List.mem_singleton.mpr rfl), rfl⟩
  cases a with
  | stage call spec d =>
      obtain rfl := Option.some.inj hm
      simp only [step] at hstep
      split_ifs at hstep
      split at hstep
      · rename_i w₁ block hrecord
        obtain rfl := Option.some.inj hstep
        exact hrow spec d w₁ block hrecord
      · cases hstep
  | stage_late spec d =>
      obtain rfl := Option.some.inj hm
      simp only [step] at hstep
      split at hstep
      · rename_i w₁ block hrecord
        obtain rfl := Option.some.inj hstep
        exact hrow spec d w₁ block hrecord
      · cases hstep
  | lose spec d =>
      obtain rfl := Option.some.inj hm
      simp only [step] at hstep
      split at hstep
      · rename_i w₁ block hrecord
        obtain rfl := Option.some.inj hstep
        exact hrow spec d w₁ block hrecord
      · cases hstep
  | _ => cases hm

/-- **Every step keeps the pairs right**, if the id it hands out is not remembered. -/
theorem matched_step {w w' : World} {a : Action} (h : Matched w) (hfresh : Unremembered w a)
    (hstep : step w a = some w') : Matched w' := by
  have hwf' := wellFormed_step h.wellFormed hstep
  cases hrecords : records a with
  | true =>
      obtain ⟨spec, document, w₁, block, hrecord, hdb, htracked, hcandidates⟩ :=
        step_record hstep hrecords
      obtain ⟨hnew, hnew'⟩ := hfresh hrecords
      have hrows := rows_record hrecord
      obtain ⟨-, hblock, -, -⟩ := record_ok hrecord
      refine ⟨hwf', ?_, ?_⟩
      · intro r hr row hrow hid
        rw [hdb] at hrow
        rcases hrows row hrow with ⟨hold, hne⟩ | ⟨hid', hmessage, -⟩
        · rcases htracked r hr with hr | rfl
          · exact h.tracked r hr row hold hid
          · -- the new reference has the new id, which no old row has
            rw [hblock] at hid
            exact absurd hid hne
        · rcases htracked r hr with hr | rfl
          · have hmem : r.id ∈ w.tracked.map (·.id) := List.mem_map_of_mem hr
            rw [← hid, hid', hblock] at hmem
            exact absurd hmem hnew
          · exact hmessage
      · intro r hr row hrow hid
        rw [hdb] at hrow
        rw [hcandidates] at hr
        rcases hrows row hrow with ⟨hold, -⟩ | ⟨hid', -, -⟩
        · exact h.candidates r hr row hold hid
        · have hmem : r.block_id ∈ w.candidates.map (·.block_id) := List.mem_map_of_mem hr
          rw [← hid, hid', hblock] at hmem
          exact absurd hmem hnew'
  | false =>
      have hrows := rows_step h.wellFormed hstep hrecords
      refine ⟨hwf', ?_, ?_⟩
      · intro r hr row' hrow' hid
        obtain ⟨row, hrow, heq⟩ := hrows row' hrow'
        rw [← TelegramBlockRow.message_id_of_frozen heq]
        apply h.tracked r (tracked_step hstep hrecords hr) row hrow
        rw [TelegramBlockRow.id_of_frozen heq, hid]
      · intro r hr row' hrow' hid
        obtain ⟨row, hrow, heq⟩ := hrows row' hrow'
        rw [← TelegramBlockRow.message_id_of_frozen heq]
        rw [← TelegramBlockRow.id_of_frozen heq] at hid
        rcases candidates_step hstep hrecords r hr with hr | ⟨q, -, hselect⟩
        · exact h.candidates r hr row hrow hid
        · exact message_of_select h.wellFormed hselect row hrow hid

/-! ## Runs -/

theorem removes_own {w : World} {a : Action} (h : Matched w) : RemovesOwn w a := by
  intro w' hstep row hrow hgone
  rcases row_step h hstep hrow with ⟨row', hrow', hid, -⟩ | hconfirm
  · rw [← hid] at hgone
    exact absurd (List.mem_map_of_mem hrow') hgone
  · exact hconfirm

/-- A document that was recorded has its row, or its deletion was confirmed. -/
def Accounted (w : World) (confirmed : List Int) (m : Int) : Prop :=
  (∃ row ∈ w.db.telegram_blocks, row.message_id = m) ∨ m ∈ confirmed

instance (w : World) (confirmed : List Int) (m : Int) : Decidable (Accounted w confirmed m) :=
  inferInstanceAs (Decidable (_ ∨ _))

theorem accounted_run {w w' : World} {as : List Action} (h : Matched w)
    (hfresh : Meets step Unremembered w as) (hrun : run step w as = some w') {m : Int}
    (hm : (∃ row ∈ w.db.telegram_blocks, row.message_id = m) ∨ m ∈ as.filterMap recorded) :
    Accounted w' (as.filterMap confirms) m := by
  induction as generalizing w with
  | nil =>
      obtain rfl : w = w' := by simpa using hrun
      rcases hm with hrow | hnone
      · exact Or.inl hrow
      · cases hnone
  | cons a as ih =>
      obtain ⟨w₁, hstep, hrest⟩ := run_cons.mp hrun
      have hkeep : Accounted w' (as.filterMap confirms) m →
          Accounted w' ((a :: as).filterMap confirms) m := by
        rintro (hrow | hin)
        · exact Or.inl hrow
        · refine Or.inr ?_
          rw [List.mem_filterMap] at hin ⊢
          obtain ⟨b, hb, hconfirm⟩ := hin
          exact ⟨b, List.mem_cons_of_mem a hb, hconfirm⟩
      have hnext := ih (matched_step h hfresh.1 hstep) (hfresh.2 w₁ hstep) hrest
      rcases hm with ⟨row, hrow, rfl⟩ | hrecorded
      · rcases row_step h hstep hrow with ⟨row', hrow', -, hmessage⟩ | hconfirm
        · exact hkeep (hnext (Or.inl ⟨row', hrow', hmessage⟩))
        · exact Or.inr (List.mem_filterMap.mpr ⟨a, List.mem_cons_self, hconfirm⟩)
      · obtain ⟨b, hb, hb_m⟩ := List.mem_filterMap.mp hrecorded
        rcases List.mem_cons.mp hb with rfl | hb
        · exact hkeep (hnext (Or.inl (row_of_recorded hstep hb_m)))
        · exact hkeep (hnext (Or.inr (List.mem_filterMap.mpr ⟨b, hb, hb_m⟩)))

/-- **No document is forgotten** in a run whose recordings hand out no id that is
still remembered: every step removes rows of messages only whose deletion the
acting task has seen confirmed, and every document that was recorded has its row
or was confirmed as deleted. -/
theorem no_document_forgotten (chat_id : Int) (as : List Action)
    (hfresh : Meets step Unremembered (World.init chat_id) as) :
    Meets step RemovesOwn (World.init chat_id) as
      ∧ ∀ w, run step (World.init chat_id) as = some w →
          ∀ m ∈ as.filterMap recorded, Accounted w (as.filterMap confirms) m := by
  have hinit := matched_init chat_id
  refine ⟨?_, fun w hrun m hm => accounted_run hinit hfresh hrun (Or.inr hm)⟩
  exact hfresh.of_inv (fun w a w' h hC hstep => matched_step h hC hstep)
    (fun w a h _ => removes_own h) hinit

/-! ## Two cleanups of one id

A put fails. Its cleanup claims the row and deletes the message; before it removes
the row, a pass of the collector has deleted the message once more and removed the
row. -/

def reclaimed : List Action :=
  [ .request (.create_bucket 0 "b"), .put_object (upload_record "put-1" "k"),
    .start_task (put "put-1" 0 [] []) 5,
    .stage (put "put-1" 1 [first_spec] []) first_spec (document 11 5),
    .fail (put "put-1" 1 [] [reference 1 first_spec 11]), .claim (reference 1 first_spec 11),
    .delete_claimed (reference 1 first_spec 11), .gc_candidates 100, .gc_delete (garbage 11 0 0),
    .gc_success (garbage 11 0 0) ]

/-- The cleanup finds no row left, and removes none. -/
theorem no_document_forgotten_reclaimed :
    ∃ w, run step (World.init (-100)) (reclaimed ++ [.cleanup_success (reference 1 first_spec 11)])
        = some w
      ∧ w.db.telegram_blocks = [] ∧ Accounted w [11, 11] 11 := by
  have hrun : (run step (World.init (-100))
      (reclaimed ++ [.cleanup_success (reference 1 first_spec 11)])).map (·.db.telegram_blocks)
        = some [] := by
    decide
  obtain ⟨w, hw, hrows⟩ := Option.map_eq_some_iff.mp hrun
  have hall := (no_document_forgotten (-100)
    (reclaimed ++ [.cleanup_success (reference 1 first_spec 11)]) (by decide)).2 w hw
  exact ⟨w, hw, hrows, hall 11 (by decide)⟩

/-- Meanwhile a second put has failed, too, and its cleanup has claimed the row
that got the id. -/
def forgetting : List Action :=
  reclaimed ++
    [ .put_object (upload_record "put-2" "other"), .start_task (put "put-2" 0 [] []) 5,
      .stage (put "put-2" 1 [first_spec] []) first_spec (document 12 5),
      .fail (put "put-2" 1 [] [reference 1 first_spec 12]), .claim (reference 1 first_spec 12) ]

/-- **A document can be forgotten.** The first cleanup removes the row of the
second document, whose deletion nobody has asked for; the process dies. -/
theorem document_forgotten :
    ∃ w w', run step (World.init (-100)) forgetting = some w
      ∧ run step w [.cleanup_success (reference 1 first_spec 11), .crash] = some w'
      ∧ w.db.telegram_blocks.map (·.message_id) = [12]
      ∧ w'.db.telegram_blocks = [] ∧ 12 ∉ w'.deleted ∧ w'.cleanups = [] ∧ w'.claimed = []
      ∧ (12 : Int) ∉ (forgetting ++ [Action.cleanup_success (reference 1 first_spec 11)]).filterMap
          confirms := by
  have hrun : (run step (World.init (-100)) forgetting).bind (fun w =>
      (run step w [.cleanup_success (reference 1 first_spec 11), .crash]).map fun w' =>
        decide (w.db.telegram_blocks.map (·.message_id) = [12] ∧ w'.db.telegram_blocks = []
          ∧ 12 ∉ w'.deleted ∧ w'.cleanups = [] ∧ w'.claimed = [])) = some true := by
    decide
  obtain ⟨w, hw, hrest⟩ := Option.bind_eq_some_iff.mp hrun
  obtain ⟨w', hw', hd⟩ := Option.map_eq_some_iff.mp hrest
  obtain ⟨hrow, hgone, hdeleted, hcleanups, hclaimed⟩ := of_decide_eq_true hd
  exact ⟨w, w', hw, hw', hrow, hgone, hdeleted, hcleanups, hclaimed, by decide⟩

end Tg2s3.Removal
