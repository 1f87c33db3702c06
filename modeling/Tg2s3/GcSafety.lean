/-
The garbage collector and live data.

The property is `NoLiveDeleted`: whenever the deletion of a message has been
issued, nothing refers to the block row of that message, now or later. Deletions
are issued on three ways, and each knows something else about its message:

- a candidate of the collector was queued and unreferenced when it was loaded;
- a cleanup that got `true` from `queue_stale_block` has queued the row itself;
- a document that was never recorded has no row.

"Queued and unreferenced" is stable (`LeavesFree`), which is all the first two
need: it does not matter how much later the deletion is issued, nor whether the
row or even its id is gone by then.

There is a fourth way. When `queue_stale_block` returns an error,
`cleanup_untracked_block` deletes the message all the same, and so does the guard
of a task that is aborted while its row is being inserted. That row is staged and
unreferenced, but not queued; what keeps it unreferenced is only that nobody else
knows its id. Somebody may: ids are reused, and an upload that stalled for more
than an hour still names the id the collector took from it. `Covered` is the
condition that this is not so where such a deletion is issued.
-/
import Tg2s3.Engine
import Tg2s3.FreeBlocks

set_option autoImplicit false

namespace Tg2s3.GcSafety

open Tg2s3 Relational Machine

/-- No row refers to the block row of a message whose deletion was issued. -/
def NoLiveDeleted (w : World) : Prop :=
  ∀ m ∈ w.deleted, ∀ row ∈ w.db.telegram_blocks, row.message_id = m → w.db.refs row.id = 0

instance (w : World) : Decidable (NoLiveDeleted w) :=
  inferInstanceAs (Decidable (∀ m ∈ w.deleted, _))

/-- Nothing refers to the block, and nothing can come to refer to it: it is
queued, or nobody remembers its id. -/
def Settled (w : World) (b : Int) : Prop :=
  w.db.refs b = 0 ∧ (w.db.queued b ∨ ¬ w.remembers b)

instance (w : World) (b : Int) : Decidable (Settled w b) := inferInstanceAs (Decidable (_ ∧ _))

/-- Where a message is deleted without a claim on its row, nobody else remembers
the id of the row. -/
def Covered (w : World) : Action → Prop
  | .delete_unclaimed reference =>
      ∀ row ∈ w.db.telegram_blocks, row.message_id = reference.message_id → Settled w row.id
  | .lose _ _ => ¬ w.remembers w.db.next_block_id
  | _ => True

instance (w : World) (a : Action) : Decidable (Covered w a) := by
  unfold Covered
  split <;> infer_instance

/-! ## The invariant -/

/-- The row of the message, if it is there, is queued and unreferenced. -/
def Dead (db : Database) (m : Int) : Prop :=
  ∀ row ∈ db.telegram_blocks, row.message_id = m → db.queued row.id ∧ db.refs row.id = 0

structure Sound (w : World) : Prop where
  wellFormed : WellFormed w.db
  rows_sent : ∀ row ∈ w.db.telegram_blocks, row.message_id ∈ w.sent
  one_row : ∀ r₁ ∈ w.db.telegram_blocks, ∀ r₂ ∈ w.db.telegram_blocks,
    r₁.message_id = r₂.message_id → r₁.id = r₂.id
  references_sent : ∀ r ∈ w.references, r.message_id ∈ w.sent
  references_row : ∀ r ∈ w.references, ∀ row ∈ w.db.telegram_blocks,
    row.message_id = r.message_id → row.id = r.id
  claimed_dead : ∀ r ∈ w.claimed, Dead w.db r.message_id
  candidates_sent : ∀ r ∈ w.candidates, r.message_id ∈ w.sent
  candidates_dead : ∀ r ∈ w.candidates, Dead w.db r.message_id
  deleted_sent : ∀ m ∈ w.deleted, m ∈ w.sent
  deleted_settled : ∀ m ∈ w.deleted, ∀ row ∈ w.db.telegram_blocks, row.message_id = m →
    Settled w row.id

/-- Nothing is sent, stored or deleted yet. -/
theorem sound_init (chat_id : Int) : Sound (World.init chat_id) where
  wellFormed := wellFormed_empty
  rows_sent := by simp [World.init]
  one_row := by simp [World.init]
  references_sent := by simp [World.init, World.references]
  references_row := by simp [World.init, World.references]
  claimed_dead := by simp [World.init]
  candidates_sent := by simp [World.init]
  candidates_dead := by simp [World.init]
  deleted_sent := by simp [World.init]
  deleted_settled := by simp [World.init]

/-! ## Steps that issue no deletion and record no document -/

/-- A dead message stays dead. -/
theorem Dead.step {db db' : Database} {given : List Int} {m : Int} (h : Dead db m)
    (hfree : LeavesFree given db db') : Dead db' m := by
  intro row' hrow' hm
  obtain ⟨row, hrow, heq⟩ := hfree.rows row' hrow'
  have hid := TelegramBlockRow.id_of_frozen heq
  have hmessage := TelegramBlockRow.message_id_of_frozen heq
  obtain ⟨hq, hr⟩ := h row hrow (hmessage.trans hm)
  rw [hid] at hq hr
  exact ⟨hfree.queued row'.id (List.mem_map_of_mem hrow') hq hr, hfree.refs row'.id hr (fun _ => hq)⟩

/-- **Moving on.** The database changes by an operation that leaves free blocks
alone, whatever ids it names are remembered, and the tasks remember no more than
before. -/
theorem Sound.step {w w' : World} {given : List Int} (h : Sound w)
    (hfree : LeavesFree given w.db w'.db) (hwf : WellFormed w'.db)
    (hgiven : ∀ b ∈ given, w.remembers b)
    (hsent : w'.sent = w.sent) (hdeleted : w'.deleted = w.deleted)
    (hreferences : w'.references ⊆ w.references) (hclaimed : w'.claimed ⊆ w.claimed)
    (hcandidates : w'.candidates ⊆ w.candidates)
    (hremembers : ∀ b, w'.remembers b → w.remembers b) : Sound w' where
  wellFormed := hwf
  rows_sent := by
    intro row' hrow'
    obtain ⟨row, hrow, heq⟩ := hfree.rows row' hrow'
    rw [hsent, ← TelegramBlockRow.message_id_of_frozen heq]
    exact h.rows_sent row hrow
  one_row := by
    intro r₁' h₁' r₂' h₂' hm
    obtain ⟨r₁, h₁, heq₁⟩ := hfree.rows r₁' h₁'
    obtain ⟨r₂, h₂, heq₂⟩ := hfree.rows r₂' h₂'
    rw [← TelegramBlockRow.id_of_frozen heq₁, ← TelegramBlockRow.id_of_frozen heq₂]
    refine h.one_row r₁ h₁ r₂ h₂ ?_
    rw [TelegramBlockRow.message_id_of_frozen heq₁, TelegramBlockRow.message_id_of_frozen heq₂, hm]
  references_sent := fun r hr => hsent ▸ h.references_sent r (hreferences hr)
  references_row := by
    intro r hr row' hrow' hm
    obtain ⟨row, hrow, heq⟩ := hfree.rows row' hrow'
    rw [← TelegramBlockRow.id_of_frozen heq]
    refine h.references_row r (hreferences hr) row hrow ?_
    rw [TelegramBlockRow.message_id_of_frozen heq, hm]
  claimed_dead := fun r hr => (h.claimed_dead r (hclaimed hr)).step hfree
  candidates_sent := fun r hr => hsent ▸ h.candidates_sent r (hcandidates hr)
  candidates_dead := fun r hr => (h.candidates_dead r (hcandidates hr)).step hfree
  deleted_sent := fun m hm => hsent ▸ h.deleted_sent m (hdeleted ▸ hm)
  deleted_settled := by
    intro m hm row' hrow' hmessage
    obtain ⟨row, hrow, heq⟩ := hfree.rows row' hrow'
    have hid := TelegramBlockRow.id_of_frozen heq
    obtain ⟨hr, hsettled⟩ := h.deleted_settled m (hdeleted ▸ hm) row hrow
      ((TelegramBlockRow.message_id_of_frozen heq).trans hmessage)
    rw [hid] at hr hsettled
    rcases hsettled with hq | hforgotten
    · exact ⟨hfree.refs row'.id hr (fun _ => hq),
        Or.inl (hfree.queued row'.id (List.mem_map_of_mem hrow') hq hr)⟩
    · refine ⟨hfree.refs row'.id hr (fun hin => ?_), Or.inr (fun hrem => ?_)⟩
      · -- an operation that takes the row up was given its id by a task that remembers it
        exact absurd (hgiven row'.id hin) hforgotten
      · exact hforgotten (hremembers row'.id hrem)

/-- The same, for a step that leaves the database as it is. -/
theorem Sound.forget {w w' : World} (h : Sound w) (hdb : w'.db = w.db)
    (hsent : w'.sent = w.sent) (hdeleted : w'.deleted = w.deleted)
    (hreferences : w'.references ⊆ w.references) (hclaimed : w'.claimed ⊆ w.claimed)
    (hcandidates : w'.candidates ⊆ w.candidates)
    (hremembers : ∀ b, w'.remembers b → w.remembers b) : Sound w' := by
  have hfree : LeavesFree [] w.db w'.db := by
    rw [hdb]
    exact LeavesFree.refl w.db
  exact h.step hfree (hdb ▸ h.wellFormed) (by simp) hsent hdeleted hreferences hclaimed
    hcandidates hremembers

/-! ## A document is recorded -/

/-- A document that is recorded is new to the chat, and its row is the one that was staged for
it. -/
theorem record_ok {w w' : World} {spec : BlockSpec} {document : StoredDocument}
    {block : BlockRef} (h : w.record spec document = some (w', block)) :
    document.message_id ∉ w.sent
      ∧ block = uploaded_block w.chat_id w.db.next_block_id spec document
      ∧ w' = { w with
          db := { w.db with telegram_blocks := w.db.telegram_blocks ++
            [staged_row w.now (uploaded_block w.chat_id 0 spec document) w.db.next_block_id] }
          sent := document.message_id :: w.sent }
      ∧ (WellFormed w.db → WellFormed w'.db) := by
  unfold World.record add_staged_block at h
  split_ifs at h with hcond
  cases hins : w.db.insert_block
      (staged_row w.now (uploaded_block w.chat_id 0 spec document)) with
  | error e => rw [hins] at h; cases h
  | ok r =>
      rw [hins] at h
      obtain ⟨rfl, rfl⟩ := Prod.mk.inj (Option.some.inj h)
      have hwf := fun hdb : WellFormed w.db => hdb.insert_block (fun _ => rfl) hins
      obtain ⟨rfl, -⟩ := insert_block_ok hins
      exact ⟨fun hin => hcond (Or.inl hin), rfl, rfl, hwf⟩

/-- **Recording.** The new row has a message nobody knew and an id no row had, so
nothing that was known about rows is lost. -/
theorem Sound.record {w w' : World} {spec : BlockSpec} {document : StoredDocument}
    {block : BlockRef} (h : Sound w) (hrecord : w.record spec document = some (w', block)) :
    Sound w' := by
  obtain ⟨hfresh, -, rfl, hwf⟩ := record_ok hrecord
  have hrows : ∀ row ∈ w.db.telegram_blocks ++
      [staged_row w.now (uploaded_block w.chat_id 0 spec document) w.db.next_block_id],
      row ∈ w.db.telegram_blocks
        ∨ (row.id = w.db.next_block_id ∧ row.message_id = document.message_id) := by
    intro row hrow
    rcases List.mem_append.mp hrow with hrow | hrow
    · exact Or.inl hrow
    · rw [List.mem_singleton.mp hrow]
      exact Or.inr ⟨rfl, rfl⟩
  -- a message that was sent before is not the new one
  have hdead : ∀ m ∈ w.sent, Dead w.db m → Dead { w.db with telegram_blocks :=
      w.db.telegram_blocks ++ [staged_row w.now (uploaded_block w.chat_id 0 spec document)
        w.db.next_block_id] } m := by
    intro m hm hd row hrow hmessage
    rcases hrows row hrow with hrow | ⟨-, hnew⟩
    · exact hd row hrow hmessage
    · exact absurd (hnew ▸ hmessage ▸ hm) hfresh
  constructor
  · exact hwf h.wellFormed
  · intro row hrow
    rcases hrows row hrow with hrow | ⟨-, hnew⟩
    · exact List.mem_cons_of_mem _ (h.rows_sent row hrow)
    · exact hnew ▸ List.mem_cons_self
  · intro r₁ h₁ r₂ h₂ hm
    rcases hrows r₁ h₁ with h₁ | ⟨hid₁, hnew₁⟩ <;> rcases hrows r₂ h₂ with h₂ | ⟨hid₂, hnew₂⟩
    · exact h.one_row r₁ h₁ r₂ h₂ hm
    · exact absurd (hnew₂ ▸ hm ▸ h.rows_sent r₁ h₁) hfresh
    · exact absurd (hnew₁ ▸ hm ▸ h.rows_sent r₂ h₂) hfresh
    · exact hid₁.trans hid₂.symm
  · exact fun r hr => List.mem_cons_of_mem _ (h.references_sent r hr)
  · intro r hr row hrow hm
    rcases hrows row hrow with hrow | ⟨-, hnew⟩
    · exact h.references_row r hr row hrow hm
    · exact absurd (hnew ▸ hm ▸ h.references_sent r hr) hfresh
  · exact fun r hr => hdead r.message_id
      (h.references_sent r (by simp [World.references, hr])) (h.claimed_dead r hr)
  · exact fun r hr => List.mem_cons_of_mem _ (h.candidates_sent r hr)
  · exact fun r hr => hdead r.message_id (h.candidates_sent r hr) (h.candidates_dead r hr)
  · exact fun m hm => List.mem_cons_of_mem _ (h.deleted_sent m hm)
  · intro m hm row hrow hmessage
    rcases hrows row hrow with hrow | ⟨-, hnew⟩
    · exact h.deleted_settled m hm row hrow hmessage
    · exact absurd (hnew ▸ hmessage ▸ h.deleted_sent m hm) hfresh

/-! ## A deletion is issued -/

/-- Asking for the deletion of a message whose row, if any, is settled. -/
theorem Sound.delete_message {w : World} (h : Sound w) {m : Int} (hsent : m ∈ w.sent)
    (hsettled : ∀ row ∈ w.db.telegram_blocks, row.message_id = m → Settled w row.id) :
    Sound (w.delete_message m) :=
  { h with
    deleted_sent := by
      intro m' hm'
      rcases List.mem_cons.mp hm' with rfl | hm'
      · exact hsent
      · exact h.deleted_sent m' hm'
    deleted_settled := by
      intro m' hm' row hrow hmessage
      rcases List.mem_cons.mp hm' with rfl | hm'
      · exact hsettled row hrow hmessage
      · exact h.deleted_settled m' hm' row hrow hmessage }

/-- A document that never was recorded has no row. -/
theorem Sound.discard {w : World} (h : Sound w) {m : Int} (hfresh : m ∉ w.sent) :
    Sound ({ w with sent := m :: w.sent }.delete_message m) := by
  have hsend : Sound { w with sent := m :: w.sent } :=
    { h with
      rows_sent := fun row hrow => List.mem_cons_of_mem _ (h.rows_sent row hrow)
      references_sent := fun r hr => List.mem_cons_of_mem _ (h.references_sent r hr)
      candidates_sent := fun r hr => List.mem_cons_of_mem _ (h.candidates_sent r hr)
      deleted_sent := fun m hm => List.mem_cons_of_mem _ (h.deleted_sent m hm) }
  refine hsend.delete_message List.mem_cons_self (fun row hrow hm => ?_)
  exact absurd (hm ▸ h.rows_sent row hrow) hfresh

/-- A document that was recorded and lost: its row is new, so if nobody remembers
the id nobody will refer to it. -/
theorem Sound.lose {w w' : World} {spec : BlockSpec} {document : StoredDocument}
    {block : BlockRef} (h : Sound w) (hrecord : w.record spec document = some (w', block))
    (hforgotten : ¬ w.remembers w.db.next_block_id) :
    Sound (w'.delete_message document.message_id) := by
  obtain ⟨hfresh, -, hw', -⟩ := record_ok hrecord
  refine (h.record hrecord).delete_message (by rw [hw']; exact List.mem_cons_self) ?_
  intro row hrow hm
  subst hw'
  rcases List.mem_append.mp hrow with hrow | hrow
  · exact absurd (hm ▸ h.rows_sent row hrow) hfresh
  · rw [List.mem_singleton.mp hrow]
    exact ⟨h.wellFormed.refs_missing (nextRowid_not_mem _), Or.inr hforgotten⟩

/-- A message without a row, or with one that is settled, may be deleted. -/
theorem Dead.settled {w : World} {m : Int} (h : Dead w.db m) :
    ∀ row ∈ w.db.telegram_blocks, row.message_id = m → Settled w row.id :=
  fun row hrow hm => ⟨(h row hrow hm).2, Or.inl (h row hrow hm).1⟩

/-- What the collector loads is dead: the query asks for queued blocks that
nothing refers to. -/
theorem dead_of_select {w : World} (h : Sound w) {timestamp : Int} {q : GcQueueRow}
    {r : GarbageRecord} (hq : q ∈ w.db.gc_queue) (hselect : gc_select w.db timestamp q = some r) :
    r.message_id ∈ w.sent ∧ Dead w.db r.message_id := by
  unfold gc_select at hselect
  cases hb : w.db.block? q.block_id with
  | none => rw [hb] at hselect; cases hselect
  | some b =>
      rw [hb] at hselect
      simp only at hselect
      split_ifs at hselect with hcond
      obtain rfl := Option.some.inj hselect
      obtain ⟨hmem, hid⟩ := lookup_mem hb
      refine ⟨h.rows_sent b hmem, fun row hrow hm => ?_⟩
      have hrow_id : row.id = b.id := h.one_row row hrow b hmem hm
      rw [hrow_id]
      exact ⟨List.mem_map.mpr ⟨q, hq, hid.symm⟩, hcond.2.2.2⟩

/-- Loading candidates adds dead messages. -/
theorem Sound.load {w : World} (h : Sound w) {rs : List GarbageRecord}
    (hrs : ∀ r ∈ rs, r.message_id ∈ w.sent ∧ Dead w.db r.message_id) :
    Sound { w with candidates := w.candidates ++ rs } :=
  { h with
    candidates_sent := by
      intro r hr
      rcases List.mem_append.mp hr with hr | hr
      · exact h.candidates_sent r hr
      · exact (hrs r hr).1
    candidates_dead := by
      intro r hr
      rcases List.mem_append.mp hr with hr | hr
      · exact h.candidates_dead r hr
      · exact (hrs r hr).2 }

/-- A claim that was answered true leaves the message of the reference dead. -/
theorem dead_of_claim {w : World} (h : Sound w) {r : BlockRef} (hr : r ∈ w.references)
    (hanswer : (queue_stale_block w.db w.now r.id).2 = true) :
    Dead (queue_stale_block w.db w.now r.id).1 r.message_id := by
  obtain ⟨b, hb, hstaged, hrefs⟩ := (queue_stale_block_answer w.db w.now r.id).mp hanswer
  obtain ⟨hmem, hid⟩ := lookup_mem hb
  have hbooks := books_queue_stale_block w.db w.now r.id
  intro row' hrow' hm
  obtain ⟨row, hrow, heq⟩ := rows_of_books hbooks rfl row' hrow'
  have hrow_id : row'.id = r.id := by
    rw [← TelegramBlockRow.id_of_frozen heq]
    refine h.references_row r hr row hrow ?_
    rw [TelegramBlockRow.message_id_of_frozen heq, hm]
  rw [hid] at hrefs
  rw [hrow_id, hbooks.refs]
  refine ⟨?_, hrefs⟩
  have haccount := account_queue_stale_block w.db w.now r.id r.id
  have hsome : w.db.account r.id
      = some { count := b.ref_count, staged := decide (b.state = .staged),
               queued := decide (w.db.queued r.id) } :=
    (account_eq_some w.db).mpr ⟨b, hb, rfl⟩
  rw [if_pos ⟨rfl, hrefs⟩, hsome] at haccount
  exact (queued_iff_account haccount).mpr (by simp [hstaged, RefCount.Account.claim])

/-! ## What a task learns -/

/-- Who holds a reference: an upload, a cleanup before its claim, or one after it. -/
theorem mem_references {w : World} {r : BlockRef} :
    r ∈ w.references ↔ (∃ call ∈ w.uploads, r ∈ call.blocks) ∨ r ∈ w.cleanups ∨ r ∈ w.claimed
      ∨ r ∈ w.unclaimed := by
  simp [World.references]

/-- A task that has just recorded a document learns its reference. The id is new,
so it is not the id of a row that was settled before. -/
theorem Sound.learn {w w₁ w₂ : World} {spec : BlockSpec} {document : StoredDocument}
    {block : BlockRef} (h : Sound w) (hrecord : w.record spec document = some (w₁, block))
    (hdb : w₂.db = w₁.db) (hsent : w₂.sent = w₁.sent) (hdeleted : w₂.deleted = w₁.deleted)
    (hreferences : ∀ r ∈ w₂.references, r ∈ w₁.references ∨ r = block)
    (hclaimed : w₂.claimed = w₁.claimed) (hcandidates : w₂.candidates = w₁.candidates)
    (hremembers : ∀ b, w₂.remembers b → w₁.remembers b ∨ b = block.id) : Sound w₂ := by
  have h₁ := h.record hrecord
  obtain ⟨hfresh, hblock, hw₁, -⟩ := record_ok hrecord
  have hmessage : block.message_id = document.message_id := by rw [hblock]; rfl
  have hid : block.id = w.db.next_block_id := by rw [hblock]; rfl
  have hnew : w.db.next_block_id ∉ w.db.telegram_blocks.map (·.id) := nextRowid_not_mem _
  have hrows : ∀ row ∈ w₁.db.telegram_blocks, row ∈ w.db.telegram_blocks
      ∨ (row.id = block.id ∧ row.message_id = document.message_id) := by
    intro row hrow
    rw [hw₁] at hrow
    rcases List.mem_append.mp hrow with hrow | hrow
    · exact Or.inl hrow
    · rw [List.mem_singleton.mp hrow, hid]
      exact Or.inr ⟨rfl, rfl⟩
  constructor
  · exact hdb ▸ h₁.wellFormed
  · rw [hdb, hsent]
    exact h₁.rows_sent
  · rw [hdb]
    exact h₁.one_row
  · intro r hr
    rw [hsent]
    rcases hreferences r hr with hr | rfl
    · exact h₁.references_sent r hr
    · rw [hmessage, hw₁]
      exact List.mem_cons_self
  · intro r hr row hrow hm
    rw [hdb] at hrow
    rcases hreferences r hr with hr | rfl
    · exact h₁.references_row r hr row hrow hm
    · rcases hrows row hrow with hrow | ⟨hrow, -⟩
      · exact absurd (hmessage ▸ hm ▸ h.rows_sent row hrow) hfresh
      · exact hrow
  · rw [hdb, hclaimed]
    exact h₁.claimed_dead
  · rw [hcandidates, hsent]
    exact h₁.candidates_sent
  · rw [hcandidates, hdb]
    exact h₁.candidates_dead
  · rw [hdeleted, hsent]
    exact h₁.deleted_sent
  · intro m hm row hrow hmrow
    rw [hdeleted] at hm
    rw [hdb] at hrow
    obtain ⟨hr, hsettled⟩ := h₁.deleted_settled m hm row hrow hmrow
    refine ⟨hdb ▸ hr, ?_⟩
    rw [hdb]
    rcases hsettled with hq | hforgotten
    · exact Or.inl hq
    · refine Or.inr (fun hrem => ?_)
      rcases hremembers row.id hrem with hrem | heq
      · exact hforgotten hrem
      · have hm' : m ∈ w.deleted := by rw [hw₁] at hm; exact hm
        rcases hrows row hrow with hrow | ⟨-, hmessage'⟩
        · exact hnew (hid ▸ heq ▸ List.mem_map_of_mem hrow)
        · exact hfresh (hmessage' ▸ hmrow ▸ h.deleted_sent m hm')

/-- A reference that was claimed was a reference before. -/
theorem claimed_reference {w : World} {db' : Database} {reference r : BlockRef}
    (hin : reference ∈ w.references)
    (hr : r ∈ ({ w with
      db := db', cleanups := w.cleanups.erase reference
      claimed := reference :: w.claimed } : World).references) : r ∈ w.references := by
  rw [mem_references] at hr
  rcases hr with hr | hr | hr | hr
  · exact mem_references.mpr (Or.inl hr)
  · exact mem_references.mpr (Or.inr (Or.inl (List.mem_of_mem_erase hr)))
  · rcases List.mem_cons.mp hr with rfl | hr
    · exact hin
    · exact mem_references.mpr (Or.inr (Or.inr (Or.inl hr)))
  · exact mem_references.mpr (Or.inr (Or.inr (Or.inr hr)))

/-- The blocks of an object are referred to. -/
theorem refs_pos_of_loaded {db : Database} (h : WellFormed db) {object_id b : Int}
    (hb : b ∈ (load_object_blocks db object_id).map (·.id)) : 0 < db.refs b := by
  have hrefs := h.refs_delete_object_row object_id b
  have hpos := times_pos.mpr hb
  omega

/-! ## The step -/

section Memory

variable {w : World} {call call' : UploadCall}

/-- An upload that goes on holds no more than before. -/
theorem references_advance (hcall : call ∈ w.uploads) (hblocks : call'.blocks ⊆ call.blocks) :
    (w.advance call call').references ⊆ w.references := by
  intro r hr
  rw [mem_references] at hr ⊢
  rcases hr with ⟨c, hc, hr⟩ | hr
  · rcases List.mem_cons.mp hc with rfl | hc
    · exact Or.inl ⟨call, hcall, hblocks hr⟩
    · exact Or.inl ⟨c, List.mem_of_mem_erase hc, hr⟩
  · exact Or.inr hr

/-- And one that is over holds nothing. -/
theorem references_finished : (w.finished call).references ⊆ w.references := by
  intro r hr
  rw [mem_references] at hr ⊢
  rcases hr with ⟨c, hc, hr⟩ | hr
  · exact Or.inl ⟨c, List.mem_of_mem_erase hc, hr⟩
  · exact Or.inr hr

/-- When it fails, its references go over to its cleanup. -/
theorem references_failed (hcall : call ∈ w.uploads) :
    (w.failed call).references ⊆ w.references := by
  intro r hr
  rw [mem_references] at hr ⊢
  rcases hr with ⟨c, hc, hr⟩ | hr | hr
  · exact Or.inl ⟨c, List.mem_of_mem_erase hc, hr⟩
  · rcases List.mem_append.mp hr with hr | hr
    · exact Or.inr (Or.inl hr)
    · exact Or.inl ⟨call, hcall, hr⟩
  · exact Or.inr (Or.inr hr)

/-- What is remembered after a step of an upload was remembered before. -/
theorem remembers_advance (hcall : call ∈ w.uploads) (hblocks : call'.blocks ⊆ call.blocks)
    (b : Int) (h : (w.advance call call').remembers b) : w.remembers b := by
  rcases h with ⟨c, hc, hb⟩ | h
  · rcases List.mem_cons.mp hc with rfl | hc
    · exact Or.inl ⟨call, hcall, List.map_subset _ hblocks hb⟩
    · exact Or.inl ⟨c, List.mem_of_mem_erase hc, hb⟩
  · exact Or.inr h

/-- An upload that is over forgets. -/
theorem remembers_erase (b : Int) (h : (w.finished call).remembers b) : w.remembers b := by
  rcases h with ⟨c, hc, hb⟩ | h
  · exact Or.inl ⟨c, List.mem_of_mem_erase hc, hb⟩
  · exact Or.inr h

end Memory

/-- **Every step keeps the invariant**, if it is covered. -/
theorem sound_step {w w' : World} {a : Action} (h : Sound w) (hcovered : Covered w a)
    (hstep : step w a = some w') : Sound w' := by
  have hwf := h.wellFormed
  cases a with
  | tick now =>
      simp only [step] at hstep
      split_ifs at hstep
      obtain rfl := Option.some.inj hstep
      exact h.forget rfl rfl rfl (fun _ h => h) (fun _ h => h) (fun _ h => h) (fun _ h => h)
  | request op =>
      simp only [step] at hstep
      split_ifs at hstep with hplain
      obtain rfl := Option.some.inj hstep
      exact h.step (leavesFree_plain hwf hplain) (wellFormed_apply w.db op hwf) (by simp) rfl rfl
        (fun _ h => h) (fun _ h => h) (fun _ h => h) (fun _ h => h)
  | create_multipart upload =>
      simp only [step] at hstep
      split_ifs at hstep
      obtain rfl := Option.some.inj hstep
      exact h.step (leavesFree_create_upload w.db upload)
        (wellFormed_apply w.db (.create_upload upload) hwf) (by simp) rfl rfl
        (fun _ h => h) (fun _ h => h) (fun _ h => h) (fun _ h => h)
  | put_object upload =>
      simp only [step] at hstep
      split_ifs at hstep
      have hfree := leavesFree_create_upload w.db upload
      have hwf' := wellFormed_apply w.db (.create_upload upload) hwf
      simp only [Op.apply] at hwf'
      split at hstep
      · rename_i db' hcreate
        obtain rfl := Option.some.inj hstep
        rw [hcreate] at hfree hwf'
        refine h.step hfree hwf' (by simp) rfl rfl ?_ (fun _ h => h) (fun _ h => h) ?_
        · intro r hr
          rw [mem_references] at hr ⊢
          simpa using hr
        · intro b hb
          simpa [World.remembers] using hb
      · cases hstep
  | upload_part upload_id part_number =>
      simp only [step] at hstep
      split at hstep
      · cases hstep
      · split_ifs at hstep
        obtain rfl := Option.some.inj hstep
        refine h.forget rfl rfl rfl ?_ (fun _ h => h) (fun _ h => h) ?_
        · intro r hr
          rw [mem_references] at hr ⊢
          simpa using hr
        · intro b hb
          simpa [World.remembers] using hb
  | start_task call size =>
      simp only [step] at hstep
      split_ifs at hstep with hcond
      obtain rfl := Option.some.inj hstep
      exact h.forget rfl rfl rfl (references_advance hcond.1 (fun _ h => h)) (fun _ h => h)
        (fun _ h => h) (remembers_advance hcond.1 (fun _ h => h))
  | stage call spec document =>
      simp only [step] at hstep
      split_ifs at hstep with hcond
      split at hstep
      · rename_i w₁ block hrecord
        obtain rfl := Option.some.inj hstep
        obtain ⟨-, -, hw₁, -⟩ := record_ok hrecord
        have hcall : call ∈ w₁.uploads := by rw [hw₁]; exact hcond.1
        refine h.learn hrecord rfl rfl rfl ?_ rfl rfl ?_
        · intro r hr
          rw [mem_references] at hr ⊢
          rcases hr with ⟨c, hc, hr⟩ | hr
          · rcases List.mem_cons.mp hc with rfl | hc
            · rcases List.mem_append.mp hr with hr | hr
              · exact Or.inl (Or.inl ⟨call, hcall, hr⟩)
              · exact Or.inr (List.mem_singleton.mp hr)
            · exact Or.inl (Or.inl ⟨c, List.mem_of_mem_erase hc, hr⟩)
          · exact Or.inl (Or.inr hr)
        · intro b hb
          rcases hb with ⟨c, hc, hb⟩ | hb
          · rcases List.mem_cons.mp hc with rfl | hc
            · simp only [List.map_append, List.mem_append, List.map_cons, List.map_nil,
                List.mem_singleton] at hb
              rcases hb with hb | hb
              · exact Or.inl (Or.inl ⟨call, hcall, hb⟩)
              · exact Or.inr hb
            · exact Or.inl (Or.inl ⟨c, List.mem_of_mem_erase hc, hb⟩)
          · exact Or.inl (Or.inr hb)
      · cases hstep
  | stage_late spec document =>
      simp only [step] at hstep
      split at hstep
      · rename_i w₁ block hrecord
        obtain rfl := Option.some.inj hstep
        refine h.learn hrecord rfl rfl rfl ?_ rfl rfl (fun b hb => Or.inl hb)
        intro r hr
        rw [mem_references] at hr ⊢
        rcases hr with hr | hr | hr
        · exact Or.inl (Or.inl hr)
        · rcases List.mem_append.mp hr with hr | hr
          · exact Or.inl (Or.inr (Or.inl hr))
          · exact Or.inr (List.mem_singleton.mp hr)
        · exact Or.inl (Or.inr (Or.inr hr))
      · cases hstep
  | discard document =>
      simp only [step] at hstep
      split_ifs at hstep with hsent
      obtain rfl := Option.some.inj hstep
      exact h.discard hsent
  | lose spec document =>
      simp only [step] at hstep
      split at hstep
      · rename_i w₁ block hrecord
        obtain rfl := Option.some.inj hstep
        exact h.lose hrecord hcovered
      · cases hstep
  | finish call etag =>
      simp only [step] at hstep
      split_ifs at hstep with hcond
      obtain rfl := Option.some.inj hstep
      have hblocks : call.blocks.insertionSort (·.ordinal ≤ ·.ordinal) ⊆ call.blocks :=
        fun b hb => (List.mem_insertionSort _).mp hb
      exact h.forget rfl rfl rfl (references_advance hcond.1 hblocks) (fun _ h => h)
        (fun _ h => h) (remembers_advance hcond.1 hblocks)
  | fail call =>
      simp only [step] at hstep
      split_ifs at hstep with hcond
      obtain rfl := Option.some.inj hstep
      exact h.forget rfl rfl rfl (references_failed hcond.1) (fun _ h => h) (fun _ h => h)
        remembers_erase
  | replace_part call =>
      simp only [step] at hstep
      split_ifs at hstep with hcond
      have hfree := leavesFree_replace_part hwf w.now call.upload_id call.part_number
        call.next_offset call.etag call.blocks
      have hwf' := wellFormed_apply w.db (.replace_part w.now call.upload_id call.part_number
        call.next_offset call.etag call.blocks) hwf
      simp only [Op.apply] at hwf'
      split at hstep
      · rename_i db' released hreplace
        obtain rfl := Option.some.inj hstep
        rw [hreplace] at hfree hwf'
        exact h.step hfree hwf' (fun b hb => Or.inl ⟨call, hcond.1, hb⟩) rfl rfl
          (references_advance (w := w) hcond.1 (fun _ h => h)) (fun _ h => h) (fun _ h => h)
          (remembers_advance (w := w) hcond.1 (fun _ h => h))
      · obtain rfl := Option.some.inj hstep
        exact h.forget rfl rfl rfl (references_failed hcond.1) (fun _ h => h) (fun _ h => h)
          remembers_erase
  | commit_upload call condition =>
      simp only [step] at hstep
      split_ifs at hstep with hcond
      obtain rfl := Option.some.inj hstep
      exact h.step (leavesFree_commit_upload hwf w.now _ _ _ _ condition)
        (wellFormed_apply w.db (.commit_upload w.now _ _ _ _ condition) hwf) (by simp) rfl rfl
        (references_finished (w := w)) (fun _ h => h) (fun _ h => h) (remembers_erase (w := w))
  | drop call =>
      simp only [step] at hstep
      split_ifs at hstep
      obtain rfl := Option.some.inj hstep
      exact h.forget rfl rfl rfl references_finished (fun _ h => h) (fun _ h => h) remembers_erase
  | claim reference =>
      simp only [step] at hstep
      split_ifs at hstep with hcond
      have hin : reference ∈ w.references := mem_references.mpr (Or.inr (Or.inl hcond))
      have hfree := leavesFree_queue_stale_block w.db w.now reference.id
      have hwf' := wellFormed_queue_stale_block hwf w.now reference.id
      have hrest : Sound { w with
          db := (queue_stale_block w.db w.now reference.id).1
          cleanups := w.cleanups.erase reference } := by
        refine h.step hfree hwf' (by simp) rfl rfl ?_ (fun _ h => h) (fun _ h => h) (fun _ h => h)
        intro r hr
        rw [mem_references] at hr ⊢
        rcases hr with hr | hr | hr
        · exact Or.inl hr
        · exact Or.inr (Or.inl (List.mem_of_mem_erase hr))
        · exact Or.inr (Or.inr hr)
      split at hstep
      · rename_i db' hclaim
        obtain rfl := Option.some.inj hstep
        have hdead := dead_of_claim h hin (by rw [hclaim])
        rw [hclaim] at hrest hdead
        refine { hrest with
          references_sent := ?_, references_row := ?_, claimed_dead := ?_ }
        · intro r hr
          exact h.references_sent r (claimed_reference hin hr)
        · intro r hr row hrow hm
          obtain ⟨row₀, hrow₀, heq⟩ := (hclaim ▸ hfree).rows row hrow
          rw [← TelegramBlockRow.id_of_frozen heq]
          refine h.references_row r (claimed_reference hin hr) row₀ hrow₀ ?_
          rw [TelegramBlockRow.message_id_of_frozen heq, hm]
        · intro r hr
          rcases List.mem_cons.mp hr with rfl | hr
          · exact hdead
          · exact hrest.claimed_dead r hr
      · rename_i db' hclaim
        obtain rfl := Option.some.inj hstep
        rw [hclaim] at hrest
        exact hrest
  | claim_error reference =>
      simp only [step] at hstep
      split_ifs at hstep with hcond
      obtain rfl := Option.some.inj hstep
      refine h.forget rfl rfl rfl ?_ (fun _ h => h) (fun _ h => h) (fun _ h => h)
      intro r hr
      rw [mem_references] at hr ⊢
      rcases hr with hr | hr | hr | hr
      · exact Or.inl hr
      · exact Or.inr (Or.inl (List.mem_of_mem_erase hr))
      · exact Or.inr (Or.inr (Or.inl hr))
      · rcases List.mem_cons.mp hr with rfl | hr
        · exact Or.inr (Or.inl hcond)
        · exact Or.inr (Or.inr (Or.inr hr))
  | delete_claimed reference =>
      simp only [step] at hstep
      split_ifs at hstep with hcond
      obtain rfl := Option.some.inj hstep
      exact h.delete_message (h.references_sent reference
        (mem_references.mpr (Or.inr (Or.inr (Or.inl hcond))))) (h.claimed_dead reference hcond).settled
  | delete_unclaimed reference =>
      simp only [step] at hstep
      split_ifs at hstep with hcond
      obtain rfl := Option.some.inj hstep
      have hrest : Sound { w with unclaimed := w.unclaimed.erase reference } := by
        refine h.forget rfl rfl rfl ?_ (fun _ h => h) (fun _ h => h) (fun _ h => h)
        intro r hr
        rw [mem_references] at hr ⊢
        rcases hr with hr | hr | hr | hr
        · exact Or.inl hr
        · exact Or.inr (Or.inl hr)
        · exact Or.inr (Or.inr (Or.inl hr))
        · exact Or.inr (Or.inr (Or.inr (List.mem_of_mem_erase hr)))
      exact hrest.delete_message (h.references_sent reference
        (mem_references.mpr (Or.inr (Or.inr (Or.inr hcond))))) hcovered
  | cleanup_success reference =>
      simp only [step] at hstep
      split_ifs at hstep with hcond
      obtain rfl := Option.some.inj hstep
      refine h.step (leavesFree_gc_success w.db reference.id)
        (wellFormed_gc_success hwf reference.id) (by simp) rfl rfl ?_
        (fun _ h => List.mem_of_mem_erase h) (fun _ h => h) (fun _ h => h)
      intro r hr
      rw [mem_references] at hr ⊢
      rcases hr with hr | hr | hr | hr
      · exact Or.inl hr
      · exact Or.inr (Or.inl hr)
      · exact Or.inr (Or.inr (Or.inl (List.mem_of_mem_erase hr)))
      · exact Or.inr (Or.inr (Or.inr hr))
  | stale_blocks limit =>
      obtain rfl := Option.some.inj hstep
      exact h.forget rfl rfl rfl (fun _ h => h) (fun _ h => h) (fun _ h => h) (fun _ h => h)
  | queue_stale record =>
      simp only [step] at hstep
      split_ifs at hstep
      obtain rfl := Option.some.inj hstep
      exact h.step (leavesFree_queue_stale_block w.db w.now record.block_id)
        (wellFormed_queue_stale_block hwf w.now record.block_id) (by simp) rfl rfl
        (fun _ h => h) (fun _ h => h) (fun _ h => h) (fun _ h => h)
  | gc_candidates limit =>
      obtain rfl := Option.some.inj hstep
      refine h.load (fun r hr => ?_)
      obtain ⟨q, hq, hselect⟩ := List.mem_filterMap.mp (List.mem_of_mem_take hr)
      exact dead_of_select h ((List.mem_insertionSort _).mp hq) hselect
  | gc_candidate block_id =>
      obtain rfl := Option.some.inj hstep
      refine h.load (fun r hr => ?_)
      obtain ⟨q, hq, hselect⟩ := Option.bind_eq_some_iff.mp (Option.mem_toList.mp hr)
      exact dead_of_select h (lookup_mem hq).1 hselect
  | gc_delete record =>
      simp only [step] at hstep
      split_ifs at hstep with hcond
      obtain rfl := Option.some.inj hstep
      exact h.delete_message (h.candidates_sent record hcond)
        (h.candidates_dead record hcond).settled
  | gc_success record =>
      simp only [step] at hstep
      split_ifs at hstep
      obtain rfl := Option.some.inj hstep
      exact h.step (leavesFree_gc_success w.db record.block_id)
        (wellFormed_gc_success hwf record.block_id) (by simp) rfl rfl (fun _ h => h)
        (fun _ h => h) (fun _ h => List.mem_of_mem_erase h) (fun _ h => h)
  | gc_failure record error =>
      simp only [step] at hstep
      split_ifs at hstep
      obtain rfl := Option.some.inj hstep
      exact h.step (leavesFree_update_queue w.db record.block_id (fun _ => rfl))
        (hwf.update_queue record.block_id (fun _ => rfl)) (by simp) rfl rfl (fun _ h => h)
        (fun _ h => h) (fun _ h => List.mem_of_mem_erase h) (fun _ h => h)
  | gc_orphan record error =>
      simp only [step] at hstep
      split_ifs at hstep
      obtain rfl := Option.some.inj hstep
      exact h.step (leavesFree_update_queue w.db record.block_id (fun _ => rfl))
        (hwf.update_queue record.block_id (fun _ => rfl)) (by simp) rfl rfl (fun _ h => h)
        (fun _ h => h) (fun _ h => List.mem_of_mem_erase h) (fun _ h => h)
  | copy_row bucket key =>
      simp only [step] at hstep
      split at hstep
      · obtain rfl := Option.some.inj hstep
        exact h.forget rfl rfl rfl (fun _ h => h) (fun _ h => h) (fun _ h => h) (fun _ h => h)
      · cases hstep
  | copy_source row =>
      simp only [step] at hstep
      split_ifs at hstep
      obtain rfl := Option.some.inj hstep
      -- the snapshot names blocks of an object, so none that is settled
      refine { h with deleted_settled := fun m hm b hb hmessage => ?_ }
      obtain ⟨hr, hsettled⟩ := h.deleted_settled m hm b hb hmessage
      refine ⟨hr, hsettled.imp id (fun hforgotten hrem => ?_)⟩
      rcases hrem with hrem | ⟨source, hsource, hb'⟩
      · exact hforgotten (Or.inl hrem)
      · rcases List.mem_cons.mp hsource with rfl | hsource
        · have hpos := refs_pos_of_loaded hwf hb'
          change w.db.refs b.id = 0 at hr
          omega
        · exact hforgotten (Or.inr ⟨source, hsource, hb'⟩)
  | copy_object source bucket key metadata condition =>
      simp only [step] at hstep
      split_ifs at hstep with hcond
      obtain rfl := Option.some.inj hstep
      refine h.step (leavesFree_copy_object hwf w.now source bucket key metadata condition)
        (wellFormed_apply w.db (.copy_object w.now source bucket key metadata condition) hwf)
        (fun b hb => Or.inr ⟨source, hcond, hb⟩) rfl rfl (fun _ h => h) (fun _ h => h)
        (fun _ h => h) ?_
      rintro b (hb | ⟨source', hsource', hb⟩)
      · exact Or.inl hb
      · exact Or.inr ⟨source', List.mem_of_mem_erase hsource', hb⟩
  | crash =>
      obtain rfl := Option.some.inj hstep
      refine h.forget rfl rfl rfl ?_ (by simp) (by simp) ?_
      · intro r hr
        simp [World.references] at hr
      · intro b hb
        simp [World.remembers] at hb

/-- **No live data is deleted**, in every state of every run whose steps are all
covered. -/
theorem no_live_deleted (chat_id : Int) (as : List Action) (w : World)
    (hcovered : Meets step Covered (World.init chat_id) as)
    (hrun : run step (World.init chat_id) as = some w) : NoLiveDeleted w := by
  have hsound : Sound w :=
    run_inv (fun s a s' hs hc hstep => sound_step hs hc hstep) (sound_init chat_id) hcovered hrun
  exact fun m hm row hrow hmessage => (hsound.deleted_settled m hm row hrow hmessage).1

/-! ## Two runs

A slow client sends the first block of its body and pauses. After an hour the
collector takes the block away, and a second upload gets the id of its row. -/

def document (message_id size : Int) : StoredDocument where
  backend := .bot_api
  message_id := message_id
  document_id := none
  file_id := "file"
  file_unique_id := "unique"
  file_size := size
  message_date := 0

def upload_record (upload_id key : String) : UploadRecord :=
  { upload_id := upload_id, bucket := "b", key := key, metadata := {}, kind := .put, created_at := 0 }

/-- The specs of a body of two blocks of five bytes. -/
def first_spec : BlockSpec := { ordinal := 0, offset := 0, size := 5 }
def second_spec : BlockSpec := { ordinal := 1, offset := 5, size := 5 }

/-- The reference of a block of five bytes. -/
def reference (id : Int) (spec : BlockSpec) (message_id : Int) : BlockRef :=
  uploaded_block (-100) id spec (document message_id 5)

/-- A put that has started `n` blocks. -/
def put (upload_id : String) (n : Int) (pending : List BlockSpec) (blocks : List BlockRef) :
    UploadCall :=
  { upload_id := upload_id, part_number := 0, kind := .put, next_ordinal := n, next_offset := 5 * n,
    pending := pending, blocks := blocks }

def garbage (message_id : Int) (attempts next_attempt : Int) : GarbageRecord :=
  { block_id := 1, chat_id := -100, message_id := message_id, backend := .bot_api,
    document_id := none, file_id := "file", file_unique_id := "unique", message_date := 0,
    attempts := attempts, next_attempt := next_attempt, last_error := none }

/-- Up to the moment where the second upload has staged its block. -/
def slow_client : List Action :=
  [ .request (.create_bucket 0 "b"), .put_object (upload_record "put-1" "k"),
    .start_task (put "put-1" 0 [] []) 5,
    .stage (put "put-1" 1 [first_spec] []) first_spec (document 11 5),
    .tick 4000, .stale_blocks 100, .queue_stale (garbage 11 0 0), .gc_candidates 100,
    .gc_delete (garbage 11 0 4000), .gc_success (garbage 11 0 4000),
    .put_object (upload_record "put-2" "other"), .start_task (put "put-2" 0 [] []) 5,
    .stage (put "put-2" 1 [first_spec] []) first_spec (document 12 5),
    .fail (put "put-2" 1 [] [reference 1 first_spec 12]) ]

/-- The first client goes on with its second block and commits. -/
def slow_client_commits : List Action :=
  [ .start_task (put "put-1" 1 [] [reference 1 first_spec 11]) 5,
    .stage (put "put-1" 2 [second_spec] [reference 1 first_spec 11]) second_spec (document 13 5),
    .finish (put "put-1" 2 [] [reference 1 first_spec 11, reference 2 second_spec 13]) "e",
    .replace_part { put "put-1" 2 [] [reference 1 first_spec 11, reference 2 second_spec 13] with
      etag := "e", phase := .uploaded },
    .commit_upload { put "put-1" 2 [] [reference 1 first_spec 11, reference 2 second_spec 13] with
      etag := "e", phase := .replaced } {} ]

/-- Here the cleanup of the second upload claims the row, and the first one's
`replace_part` is refused. -/
def claimed_run : List Action :=
  slow_client ++
    [ .claim (reference 1 first_spec 12), .delete_claimed (reference 1 first_spec 12) ]
    ++ slow_client_commits.take 4

/-- A run in which both blocks of a failed upload are claimed first, and then deleted. -/
theorem no_live_deleted_claimed :
    ∃ w, run step (World.init (-100)) claimed_run = some w ∧ w.deleted = [12, 11]
      ∧ NoLiveDeleted w := by
  have hrun : (run step (World.init (-100)) claimed_run).map (·.deleted) = some [12, 11] := by
    decide
  obtain ⟨w, hw, hdeleted⟩ := Option.map_eq_some_iff.mp hrun
  exact ⟨w, hw, hdeleted, no_live_deleted (-100) claimed_run w (by decide) hw⟩

/-- Here `queue_stale_block` fails, and the message is deleted all the same. -/
def unclaimed_run : List Action :=
  slow_client ++
    [ .claim_error (reference 1 first_spec 12), .delete_unclaimed (reference 1 first_spec 12) ]
    ++ slow_client_commits

/-- **Live data can be deleted.** The object of the first client ends up on a row
whose message was deleted before. -/
theorem live_deleted :
    ∃ w, run step (World.init (-100)) unclaimed_run = some w ∧ 12 ∈ w.deleted
      ∧ (w.db.block? 1).map (·.message_id) = some 12 ∧ 0 < references (·.block_id) 1 w.db.object_blocks
      ∧ ¬ NoLiveDeleted w := by
  have hrun : (run step (World.init (-100)) unclaimed_run).map (fun w => decide (12 ∈ w.deleted
      ∧ (w.db.block? 1).map (·.message_id) = some 12 ∧ 0 < references (·.block_id) 1 w.db.object_blocks
      ∧ ¬ NoLiveDeleted w)) = some true := by
    decide
  obtain ⟨w, hw, hd⟩ := Option.map_eq_some_iff.mp hrun
  exact ⟨w, hw, of_decide_eq_true hd⟩

end Tg2s3.GcSafety
