/-
Whose documents does a committed object hold?

Between staging and commit an upload knows its blocks by row ids only, and the
commit compares ids, offsets and sizes. So the object holds the documents of its
own upload if the row under a remembered id is always the row that upload staged
-- or no row at all, which the foreign key of `object_blocks` then refuses.

The id allocator does not promise that. The collector may take a staged row from
an upload that is slow, and `INTEGER PRIMARY KEY` without `AUTOINCREMENT` may
give the id to the next upload (`slow_client`). `Fresh` is the condition that no
id is handed out that a running upload still remembers, as far as the upload is
still open; an upload whose row in `multipart_uploads` is gone cannot commit any
more, and its id does not come back.
-/
import Mathlib.Data.List.Sort
import Tg2s3.GcSafety

set_option autoImplicit false

namespace Tg2s3.Staging

open Tg2s3 Relational Machine
open Tg2s3.GcSafety (record_ok upload_record put reference first_spec second_spec slow_client
  slow_client_commits)

/-- Every row of the object at `(bucket, key)` refers to the document the call
sent for that ordinal. -/
def OwnDocuments (db : Database) (bucket key : String) (call : UploadCall) : Prop :=
  ∃ o ∈ db.object? bucket key, ∀ r ∈ db.object_blocks, r.object_id = o.id →
    ∃ block ∈ call.blocks, block.ordinal = r.ordinal
      ∧ ∃ row ∈ db.telegram_blocks, row.id = r.block_id
        ∧ row.message_id = block.message_id ∧ row.file_id = block.file_id

instance (db : Database) (bucket key : String) (call : UploadCall) :
    Decidable (OwnDocuments db bucket key call) := by
  unfold OwnDocuments
  infer_instance

/-- The steps in which `add_staged_block` hands out an id. -/
def records : Action → Bool
  | .stage _ _ _ | .stage_late _ _ | .lose _ _ => true
  | _ => false

/-- A recorded document does not get an id that an open upload remembers. -/
def Fresh (w : World) (a : Action) : Prop :=
  records a = true → ∀ call ∈ w.uploads, w.db.upload? call.upload_id ≠ none →
    w.db.next_block_id ∉ call.blocks.map (·.id)

instance (w : World) (a : Action) : Decidable (Fresh w a) :=
  inferInstanceAs (Decidable (_ → _))

/-! ## The invariant -/

/-- The rows under the remembered ids are the ones the call staged. -/
def Own (db : Database) (call : UploadCall) : Prop :=
  ∀ block ∈ call.blocks, ∀ row ∈ db.telegram_blocks, row.id = block.id →
    row.message_id = block.message_id ∧ row.file_id = block.file_id

/-- The ordinals `0 .. n - 1`. -/
def ordinals (n : ℕ) : List Int := (List.range n).map Int.ofNat

/-- The blocks sent and the blocks on the way are the first so many; once the
stream is over they are in order. -/
def Ordered (call : UploadCall) : Prop :=
  ∃ n : ℕ, call.next_ordinal = n
    ∧ (call.blocks.map (·.ordinal) ++ call.pending.map (·.ordinal)).Perm (ordinals n)
    ∧ (call.phase ≠ .streaming → call.blocks.map (·.ordinal) = ordinals n)

structure Owned (w : World) : Prop where
  wellFormed : WellFormed w.db
  uploads_known : ∀ u ∈ w.db.multipart_uploads, u.upload_id ∈ w.upload_ids
  calls_known : ∀ call ∈ w.uploads, call.upload_id ∈ w.upload_ids
  own : ∀ call ∈ w.uploads, w.db.upload? call.upload_id ≠ none → Own w.db call
  ordered : ∀ call ∈ w.uploads, Ordered call

/-- No upload has begun. -/
theorem owned_init (chat_id : Int) : Owned (World.init chat_id) where
  wellFormed := wellFormed_empty
  uploads_known := by simp [World.init]
  calls_known := by simp [World.init]
  own := by simp [World.init]
  ordered := by simp [World.init]

/-- One block more has the next ordinal. -/
theorem ordinals_succ (n : ℕ) : ordinals (n + 1) = ordinals n ++ [(n : Int)] := by
  simp [ordinals, List.range_succ]

/-- An upload is there if its row is. -/
theorem upload?_ne_none {db : Database} {upload_id : String} :
    db.upload? upload_id ≠ none ↔ upload_id ∈ db.multipart_uploads.map (·.upload_id) := by
  unfold Database.upload?
  rw [ne_eq, lookup_eq_none, not_not]

/-! ## Steps that record nothing -/

/-- **Moving on.** No row is made up, no upload id is used twice, and each call is
one from before that forgot some blocks at most, or a new one. -/
theorem Owned.step {w w' : World} (h : Owned w) (hwf : WellFormed w'.db)
    (hrows : ∀ row' ∈ w'.db.telegram_blocks,
      ∃ row ∈ w.db.telegram_blocks, row.frozen = row'.frozen)
    (huploads : ∀ u ∈ w'.db.multipart_uploads, u ∈ w.db.multipart_uploads
      ∨ (u.upload_id ∉ w.upload_ids ∧ u.upload_id ∈ w'.upload_ids))
    (hids : w.upload_ids ⊆ w'.upload_ids)
    (hcalls : ∀ call' ∈ w'.uploads, Ordered call' ∧
      ((∃ call ∈ w.uploads, call'.upload_id = call.upload_id ∧ call'.blocks ⊆ call.blocks)
        ∨ (call'.upload_id ∈ w'.upload_ids ∧ call'.blocks = []))) : Owned w' where
  wellFormed := hwf
  uploads_known := by
    intro u hu
    rcases huploads u hu with hu | ⟨-, hu⟩
    · exact hids (h.uploads_known u hu)
    · exact hu
  calls_known := by
    intro call' hcall'
    rcases (hcalls call' hcall').2 with ⟨call, hcall, hid, -⟩ | ⟨hid, -⟩
    · exact hid ▸ hids (h.calls_known call hcall)
    · exact hid
  own := by
    intro call' hcall' hopen block hblock row' hrow' hrow_id
    rcases (hcalls call' hcall').2 with ⟨call, hcall, hid, hblocks⟩ | ⟨-, hnone⟩
    · obtain ⟨row, hrow, heq⟩ := hrows row' hrow'
      have hopen' : w.db.upload? call.upload_id ≠ none := by
        rw [upload?_ne_none] at hopen ⊢
        obtain ⟨u, hu, hu_id⟩ := List.mem_map.mp hopen
        rcases huploads u hu with hu | ⟨hnew, -⟩
        · exact List.mem_map.mpr ⟨u, hu, hu_id.trans hid⟩
        · exact absurd (hu_id.trans hid ▸ h.calls_known call hcall) hnew
      have hfile : row.file_id = row'.file_id := by
        have : row.frozen.file_id = row'.frozen.file_id := by rw [heq]
        exact this
      rw [← TelegramBlockRow.message_id_of_frozen heq, ← hfile]
      refine h.own call hcall hopen' block (hblocks hblock) row hrow ?_
      rw [TelegramBlockRow.id_of_frozen heq, hrow_id]
    · rw [hnone] at hblock
      exact absurd hblock List.not_mem_nil
  ordered := fun call' hcall' => (hcalls call' hcall').1

/-- An operation of the database, while the calls stay or go. -/
theorem Owned.apply {w w' : World} (h : Owned w) (op : Op)
    (hrecord : ∀ now block, op ≠ .add_staged_block now block)
    (hcreate : ∀ upload, op ≠ .create_upload upload)
    (hdb : w'.db = op.apply w.db) (hids : w'.upload_ids = w.upload_ids)
    (hcalls : w'.uploads ⊆ w.uploads) : Owned w' := by
  refine h.step ?_ ?_ ?_ ?_ ?_
  · exact hdb ▸ wellFormed_apply w.db op h.wellFormed
  · rw [hdb]
    exact (leavesFree_apply h.wellFormed op hrecord).rows
  · rw [hdb]
    exact fun u hu => Or.inl (uploads_apply w.db op hcreate hu)
  · rw [hids]
    exact fun _ h => h
  · exact fun call hcall => ⟨h.ordered call (hcalls hcall),
      Or.inl ⟨call, hcalls hcall, rfl, fun _ h => h⟩⟩

/-- Only the calls move. -/
theorem Owned.calls {w w' : World} (h : Owned w) (hdb : w'.db = w.db)
    (hids : w'.upload_ids = w.upload_ids)
    (hcalls : ∀ call' ∈ w'.uploads, Ordered call' ∧
      ((∃ call ∈ w.uploads, call'.upload_id = call.upload_id ∧ call'.blocks ⊆ call.blocks)
        ∨ (call'.upload_id ∈ w'.upload_ids ∧ call'.blocks = []))) : Owned w' := by
  refine h.step (hdb ▸ h.wellFormed) ?_ ?_ (hids ▸ fun _ h => h) hcalls
  · rw [hdb]
    exact fun row hrow => ⟨row, hrow, rfl⟩
  · rw [hdb]
    exact fun u hu => Or.inl hu

/-- The calls are the ones from before. -/
theorem Owned.keep {w w' : World} (h : Owned w) (hdb : w'.db = w.db)
    (hids : w'.upload_ids = w.upload_ids) (hcalls : w'.uploads ⊆ w.uploads) : Owned w' :=
  h.calls hdb hids (fun call hcall => ⟨h.ordered call (hcalls hcall),
    Or.inl ⟨call, hcalls hcall, rfl, fun _ h => h⟩⟩)

/-! ## A document is recorded -/

/-- The rows after a recording: the old ones, none of which has the new id, and
the row of the document. -/
theorem rows_record {w w' : World} {spec : BlockSpec} {document : StoredDocument}
    {block : BlockRef} (hrecord : w.record spec document = some (w', block)) :
    ∀ row ∈ w'.db.telegram_blocks,
      (row ∈ w.db.telegram_blocks ∧ row.id ≠ w.db.next_block_id)
        ∨ (row.id = block.id ∧ row.message_id = block.message_id ∧ row.file_id = block.file_id) := by
  obtain ⟨-, rfl, rfl, -⟩ := record_ok hrecord
  intro row hrow
  rcases List.mem_append.mp hrow with hrow | hrow
  · refine Or.inl ⟨hrow, fun heq => ?_⟩
    have hmem : w.db.next_block_id ∈ w.db.telegram_blocks.map (·.id) :=
      heq ▸ List.mem_map_of_mem hrow
    exact nextRowid_not_mem _ hmem
  · rw [List.mem_singleton.mp hrow]
    exact Or.inr ⟨rfl, rfl, rfl⟩

/-- **A document is recorded for an upload**: its id is new, and no running upload remembers it,
so that no two uploads own one block. -/
theorem Owned.record {w w' : World} {spec : BlockSpec} {document : StoredDocument}
    {block : BlockRef} (h : Owned w) (hrecord : w.record spec document = some (w', block))
    (hfresh : ∀ call ∈ w.uploads, w.db.upload? call.upload_id ≠ none →
      w.db.next_block_id ∉ call.blocks.map (·.id)) : Owned w' := by
  have hrows := rows_record hrecord
  obtain ⟨-, hblock, rfl, hwf⟩ := record_ok hrecord
  refine ⟨hwf h.wellFormed, h.uploads_known, h.calls_known, ?_, h.ordered⟩
  intro call hcall hopen b hb row hrow hid
  rcases hrows row hrow with ⟨hrow, -⟩ | ⟨hnew, -⟩
  · exact h.own call hcall hopen b hb row hrow hid
  · refine absurd (List.mem_map_of_mem hb) (?_ : ¬ b.id ∈ _)
    rw [← hid, hnew, hblock]
    exact hfresh call hcall hopen

/-- The call that sent the document takes its reference. -/
theorem Owned.stage {w w' : World} {call : UploadCall} {spec : BlockSpec}
    {document : StoredDocument} {block : BlockRef} (h : Owned w) (hcall : call ∈ w.uploads)
    (hphase : call.phase = .streaming) (hspec : spec ∈ call.pending)
    (hrecord : w.record spec document = some (w', block))
    (hfresh : ∀ call ∈ w.uploads, w.db.upload? call.upload_id ≠ none →
      w.db.next_block_id ∉ call.blocks.map (·.id)) :
    Owned (w'.advance call { call with
      pending := call.pending.erase spec, blocks := call.blocks ++ [block] }) := by
  have h' := h.record hrecord hfresh
  have hrows := rows_record hrecord
  obtain ⟨-, hblock, hw', -⟩ := record_ok hrecord
  have hcall' : call ∈ w'.uploads := by rw [hw']; exact hcall
  refine ⟨h'.wellFormed, h'.uploads_known, ?_, ?_, ?_⟩
  · intro c hc
    rcases List.mem_cons.mp hc with rfl | hc
    · exact h'.calls_known call hcall'
    · exact h'.calls_known c (List.mem_of_mem_erase hc)
  · intro c hc hopen b hb row hrow hid
    rcases List.mem_cons.mp hc with rfl | hc
    · rcases List.mem_append.mp hb with hb | hb
      · exact h'.own call hcall' hopen b hb row hrow hid
      · rw [List.mem_singleton.mp hb] at hid ⊢
        rcases hrows row hrow with ⟨-, hne⟩ | ⟨-, hdocument⟩
        · exact absurd (hid.trans (by rw [hblock]; rfl)) hne
        · exact hdocument
    · exact h'.own c (List.mem_of_mem_erase hc) hopen b hb row hrow hid
  · intro c hc
    rcases List.mem_cons.mp hc with rfl | hc
    · obtain ⟨n, hn, hperm, -⟩ := h.ordered call hcall
      refine ⟨n, hn, ?_, fun hne => absurd hphase hne⟩
      have hordinal : block.ordinal = spec.ordinal := by rw [hblock]; rfl
      simp only [List.map_append, List.map_cons, List.map_nil, hordinal, List.append_assoc,
        List.singleton_append]
      refine List.Perm.trans ?_ hperm
      refine List.Perm.append_left _ ?_
      exact ((List.perm_cons_erase hspec).map (·.ordinal)).symm
    · exact h'.ordered c (List.mem_of_mem_erase hc)

/-! ## The stream is over -/

/-- The ordinals come in order. -/
theorem pairwise_ordinals (n : ℕ) : (ordinals n).Pairwise (· ≤ ·) := by
  unfold ordinals
  rw [List.pairwise_map]
  exact List.pairwise_lt_range.imp (fun h => Int.ofNat_le.mpr (Nat.le_of_lt h))

/-- Sorting by ordinal what is a permutation of `0 .. n - 1` puts it in order. -/
theorem map_ordinal_sort {blocks : List BlockRef} {n : ℕ}
    (h : (blocks.map (·.ordinal)).Perm (ordinals n)) :
    (blocks.insertionSort (·.ordinal ≤ ·.ordinal)).map (·.ordinal) = ordinals n := by
  have hperm : ((blocks.insertionSort (·.ordinal ≤ ·.ordinal)).map (·.ordinal)).Perm
      (ordinals n) := ((List.perm_insertionSort _ blocks).map _).trans h
  have hsorted : ((blocks.insertionSort (·.ordinal ≤ ·.ordinal)).map (·.ordinal)).Pairwise
      (· ≤ ·) := by
    rw [List.pairwise_map]
    have : Std.Total (fun a b : BlockRef => a.ordinal ≤ b.ordinal) := ⟨fun a b => Int.le_total _ _⟩
    have : IsTrans BlockRef (fun a b => a.ordinal ≤ b.ordinal) := ⟨fun a b c => Int.le_trans⟩
    exact List.pairwise_insertionSort _ blocks
  exact hperm.eq_of_pairwise (fun a b _ _ hab hba => Int.le_antisymm hab hba) hsorted
    (pairwise_ordinals n)

/-! ## The step -/

/-- One call moves on, keeping its upload and its blocks; the others stay. -/
theorem calls_advance {w : World} (h : Owned w) {call call' : UploadCall}
    (hcall : call ∈ w.uploads) (hid : call'.upload_id = call.upload_id)
    (hblocks : call'.blocks ⊆ call.blocks) (hordered : Ordered call') :
    ∀ c ∈ (w.advance call call').uploads, Ordered c ∧
      ((∃ c₀ ∈ w.uploads, c.upload_id = c₀.upload_id ∧ c.blocks ⊆ c₀.blocks)
        ∨ (c.upload_id ∈ (w.advance call call').upload_ids ∧ c.blocks = [])) := by
  intro c hc
  rcases List.mem_cons.mp hc with rfl | hc
  · exact ⟨hordered, Or.inl ⟨call, hcall, hid, hblocks⟩⟩
  · have hc' := List.mem_of_mem_erase hc
    exact ⟨h.ordered c hc', Or.inl ⟨c, hc', rfl, fun _ h => h⟩⟩

/-- A call that begins has sent nothing. -/
theorem calls_begin {w w' : World} (h : Owned w) {upload_id : String} {part_number : Int}
    {kind : UploadKind} (hid : upload_id ∈ w'.upload_ids)
    (hcalls : w'.uploads = { upload_id := upload_id, part_number := part_number, kind := kind }
      :: w.uploads) :
    ∀ c ∈ w'.uploads, Ordered c ∧
      ((∃ c₀ ∈ w.uploads, c.upload_id = c₀.upload_id ∧ c.blocks ⊆ c₀.blocks)
        ∨ (c.upload_id ∈ w'.upload_ids ∧ c.blocks = [])) := by
  intro c hc
  rw [hcalls] at hc
  rcases List.mem_cons.mp hc with rfl | hc
  · exact ⟨⟨0, rfl, by simp [ordinals], fun hne => absurd rfl hne⟩, Or.inr ⟨hid, rfl⟩⟩
  · exact ⟨h.ordered c hc, Or.inl ⟨c, hc, rfl, fun _ h => h⟩⟩

/-- `create_upload` under an id that was not drawn before. -/
theorem uploads_create_upload (db : Database) (upload : UploadRecord) :
    ∀ u ∈ (create_upload db upload).1.multipart_uploads,
      u ∈ db.multipart_uploads ∨ u = upload := by
  refine transaction_cases (P := fun d => ∀ u ∈ d.multipart_uploads,
    u ∈ db.multipart_uploads ∨ u = upload) (fun u hu => Or.inl hu) (fun db' r hok => ?_)
  obtain ⟨_, -, hok⟩ := bind_ok.mp hok
  obtain ⟨db₁, hins, hok⟩ := bind_ok.mp hok
  obtain ⟨rfl, -⟩ := Prod.mk.inj (Except.ok.inj hok)
  obtain ⟨rfl, -⟩ := insert_upload_ok hins
  intro u hu
  rcases List.mem_append.mp hu with hu | hu
  · exact Or.inl hu
  · exact Or.inr (List.mem_singleton.mp hu)

/-- A new upload owns nothing, and its id was never used. -/
theorem Owned.create_upload {w w' : World} (h : Owned w) {upload : UploadRecord}
    (hnew : upload.upload_id ∉ w.upload_ids)
    (hdb : w'.db = (Tg2s3.create_upload w.db upload).1)
    (hids : w'.upload_ids = upload.upload_id :: w.upload_ids)
    (hcalls : ∀ c ∈ w'.uploads, Ordered c ∧
      ((∃ c₀ ∈ w.uploads, c.upload_id = c₀.upload_id ∧ c.blocks ⊆ c₀.blocks)
        ∨ (c.upload_id ∈ w'.upload_ids ∧ c.blocks = []))) : Owned w' := by
  refine h.step ?_ ?_ ?_ ?_ hcalls
  · exact hdb ▸ wellFormed_apply w.db (.create_upload upload) h.wellFormed
  · rw [hdb]
    exact (leavesFree_create_upload w.db upload).rows
  · rw [hdb, hids]
    intro u hu
    rcases uploads_create_upload w.db upload u hu with hu | rfl
    · exact Or.inl hu
    · exact Or.inr ⟨hnew, List.mem_cons_self⟩
  · rw [hids]
    exact fun _ h => List.mem_cons_of_mem _ h

/-- **Every step keeps the invariant**, if the id it hands out is fresh. -/
theorem owned_step {w w' : World} {a : Action} (h : Owned w) (hfresh : Fresh w a)
    (hstep : Tg2s3.step w a = some w') : Owned w' := by
  cases a with
  | tick now =>
      simp only [Tg2s3.step] at hstep
      split_ifs at hstep
      obtain rfl := Option.some.inj hstep
      exact h.keep rfl rfl (fun _ h => h)
  | request op =>
      simp only [Tg2s3.step] at hstep
      split_ifs at hstep with hplain
      obtain rfl := Option.some.inj hstep
      refine h.apply op ?_ ?_ rfl rfl (fun _ h => h)
      · rintro now block rfl
        cases hplain
      · rintro upload rfl
        cases hplain
  | create_multipart upload =>
      simp only [Tg2s3.step] at hstep
      split_ifs at hstep with hcond
      obtain rfl := Option.some.inj hstep
      -- a new row with an id that was never drawn; no call of this process runs for it
      exact h.create_upload (fun hin => hcond (Or.inl hin)) rfl rfl
        (fun c hc => ⟨h.ordered c hc, Or.inl ⟨c, hc, rfl, fun _ h => h⟩⟩)
  | put_object upload =>
      simp only [Tg2s3.step] at hstep
      split_ifs at hstep with hcond
      split at hstep
      · rename_i db' hcreate
        obtain rfl := Option.some.inj hstep
        refine h.create_upload (fun hin => hcond (Or.inl hin)) (by rw [hcreate]) rfl ?_
        -- the call of a PUT begins with its row, without any block
        exact calls_begin h List.mem_cons_self rfl
      · cases hstep
  | upload_part upload_id part_number =>
      simp only [Tg2s3.step] at hstep
      split at hstep
      · cases hstep
      · rename_i upload hget
        split_ifs at hstep
        obtain rfl := Option.some.inj hstep
        -- a part goes to an upload that is there, so that its id was drawn
        obtain ⟨hmem, hid⟩ := lookup_mem hget
        exact h.calls rfl rfl
          (calls_begin h (hid ▸ h.uploads_known upload hmem) rfl)
  | start_task call size =>
      simp only [Tg2s3.step] at hstep
      split_ifs at hstep with hcond
      obtain rfl := Option.some.inj hstep
      refine h.calls rfl rfl (calls_advance h hcond.1 rfl (fun _ h => h) ?_)
      obtain ⟨n, hn, hperm, -⟩ := h.ordered call hcond.1
      refine ⟨n + 1, by simp [hn], ?_, fun hne => absurd hcond.2.1 hne⟩
      -- the new block takes the next ordinal, at the end of those that are under way
      rw [ordinals_succ, List.map_append, ← List.append_assoc, List.map_singleton, hn]
      exact hperm.append_right _
  | stage call spec document =>
      simp only [Tg2s3.step] at hstep
      split_ifs at hstep with hcond
      split at hstep
      · rename_i w₁ block hrecord
        obtain rfl := Option.some.inj hstep
        -- the block moves from those under way to those that are staged
        exact h.stage hcond.1 hcond.2.1 hcond.2.2 hrecord (hfresh rfl)
      · cases hstep
  | stage_late spec document =>
      simp only [Tg2s3.step] at hstep
      split at hstep
      · rename_i w₁ block hrecord
        obtain rfl := Option.some.inj hstep
        -- its call has ended: a row that nobody lists
        exact (h.record hrecord (hfresh rfl)).keep rfl rfl (fun _ h => h)
      · cases hstep
  | discard document =>
      simp only [Tg2s3.step] at hstep
      split_ifs at hstep
      obtain rfl := Option.some.inj hstep
      exact h.keep rfl rfl (fun _ h => h)
  | lose spec document =>
      simp only [Tg2s3.step] at hstep
      split at hstep
      · rename_i w₁ block hrecord
        obtain rfl := Option.some.inj hstep
        exact (h.record hrecord (hfresh rfl)).keep rfl rfl (fun _ h => h)
      · cases hstep
  | finish call etag =>
      simp only [Tg2s3.step] at hstep
      split_ifs at hstep with hcond
      obtain rfl := Option.some.inj hstep
      refine h.calls rfl rfl (calls_advance h hcond.1 rfl
        (fun b hb => (List.mem_insertionSort _).mp hb) ?_)
      obtain ⟨n, hn, hperm, -⟩ := h.ordered call hcond.1
      -- nothing is under way any more, and sorting puts the ordinals in order
      rw [hcond.2.2, List.map_nil, List.append_nil] at hperm
      have hsorted := map_ordinal_sort hperm
      refine ⟨n, hn, ?_, fun _ => hsorted⟩
      simp only [hcond.2.2, List.map_nil, List.append_nil, hsorted]
      exact List.Perm.refl _
  | fail call =>
      simp only [Tg2s3.step] at hstep
      split_ifs at hstep
      obtain rfl := Option.some.inj hstep
      exact h.keep rfl rfl (fun _ h => List.mem_of_mem_erase h)
  | replace_part call =>
      simp only [Tg2s3.step] at hstep
      split_ifs at hstep with hcond
      split at hstep
      · rename_i db' released hreplace
        obtain rfl := Option.some.inj hstep
        -- first the tables, then the call, which goes on to its commit
        have hdb : Owned { w with db := db' } :=
          h.apply (.replace_part w.now call.upload_id call.part_number call.next_offset call.etag
            call.blocks) (by simp) (by simp) (by simp [Op.apply, hreplace]) rfl (fun _ h => h)
        refine hdb.calls rfl rfl (calls_advance hdb hcond.1 rfl (fun _ h => h) ?_)
        obtain ⟨n, hn, hperm, hdone⟩ := h.ordered call hcond.1
        exact ⟨n, hn, hperm, fun _ => hdone (by rw [hcond.2]; decide)⟩
      · obtain rfl := Option.some.inj hstep
        exact h.keep rfl rfl (fun _ h => List.mem_of_mem_erase h)
  | commit_upload call condition =>
      simp only [Tg2s3.step] at hstep
      split_ifs at hstep
      obtain rfl := Option.some.inj hstep
      exact h.apply (.commit_upload w.now call.upload_id call.next_offset call.etag [call.part]
        condition) (by simp) (by simp) rfl rfl (fun _ h => List.mem_of_mem_erase h)
  | drop call =>
      simp only [Tg2s3.step] at hstep
      split_ifs at hstep
      obtain rfl := Option.some.inj hstep
      exact h.keep rfl rfl (fun _ h => List.mem_of_mem_erase h)
  | claim reference =>
      simp only [Tg2s3.step] at hstep
      split_ifs at hstep
      split at hstep
      -- granted or refused, a claim writes no row of an object or a part
      all_goals
        rename_i db' hclaim
        obtain rfl := Option.some.inj hstep
        exact h.apply (.queue_stale_block w.now reference.id) (by simp) (by simp)
          (by simp [Op.apply, hclaim]) rfl (fun _ h => h)
  | claim_error reference =>
      simp only [Tg2s3.step] at hstep
      split_ifs at hstep
      obtain rfl := Option.some.inj hstep
      exact h.keep rfl rfl (fun _ h => h)
  | delete_claimed reference =>
      simp only [Tg2s3.step] at hstep
      split_ifs at hstep
      obtain rfl := Option.some.inj hstep
      exact h.keep rfl rfl (fun _ h => h)
  | delete_unclaimed reference =>
      simp only [Tg2s3.step] at hstep
      split_ifs at hstep
      obtain rfl := Option.some.inj hstep
      exact h.keep rfl rfl (fun _ h => h)
  | cleanup_success reference =>
      simp only [Tg2s3.step] at hstep
      split_ifs at hstep
      obtain rfl := Option.some.inj hstep
      exact h.apply (.gc_success reference.id) (by simp) (by simp) rfl rfl (fun _ h => h)
  | stale_blocks limit =>
      obtain rfl := Option.some.inj hstep
      exact h.keep rfl rfl (fun _ h => h)
  | queue_stale record =>
      simp only [Tg2s3.step] at hstep
      split_ifs at hstep
      obtain rfl := Option.some.inj hstep
      exact h.apply (.queue_stale_block w.now record.block_id) (by simp) (by simp) rfl rfl
        (fun _ h => h)
  | gc_candidates limit =>
      obtain rfl := Option.some.inj hstep
      exact h.keep rfl rfl (fun _ h => h)
  | gc_candidate block_id =>
      obtain rfl := Option.some.inj hstep
      exact h.keep rfl rfl (fun _ h => h)
  | gc_delete record =>
      simp only [Tg2s3.step] at hstep
      split_ifs at hstep
      obtain rfl := Option.some.inj hstep
      exact h.keep rfl rfl (fun _ h => h)
  | gc_success record =>
      simp only [Tg2s3.step] at hstep
      split_ifs at hstep
      obtain rfl := Option.some.inj hstep
      exact h.apply (.gc_success record.block_id) (by simp) (by simp) rfl rfl (fun _ h => h)
  | gc_failure record error =>
      simp only [Tg2s3.step] at hstep
      split_ifs at hstep
      obtain rfl := Option.some.inj hstep
      exact h.apply (.gc_failure record.block_id error (w.now + 300)) (by simp) (by simp) rfl rfl
        (fun _ h => h)
  | gc_orphan record error =>
      simp only [Tg2s3.step] at hstep
      split_ifs at hstep
      obtain rfl := Option.some.inj hstep
      exact h.apply (.gc_orphan record.block_id error) (by simp) (by simp) rfl rfl (fun _ h => h)
  | copy_row bucket key =>
      simp only [Tg2s3.step] at hstep
      split at hstep
      · obtain rfl := Option.some.inj hstep
        exact h.keep rfl rfl (fun _ h => h)
      · cases hstep
  | copy_source row =>
      simp only [Tg2s3.step] at hstep
      split_ifs at hstep
      obtain rfl := Option.some.inj hstep
      exact h.keep rfl rfl (fun _ h => h)
  | copy_object source bucket key metadata condition =>
      simp only [Tg2s3.step] at hstep
      split_ifs at hstep
      obtain rfl := Option.some.inj hstep
      exact h.apply (.copy_object w.now source bucket key metadata condition) (by simp) (by simp)
        rfl rfl (fun _ h => h)
  | crash =>
      obtain rfl := Option.some.inj hstep
      exact h.keep rfl rfl (by simp)

/-! ## The commit -/

/-- The rows of a new object count through its blocks. -/
theorem mem_committed_rows {object_id ordinal offset : Int} {blocks : List BlockRef}
    {r : ObjectBlockRow} (h : r ∈ committed_rows object_id ordinal offset blocks) :
    ∃ (i : ℕ) (block : BlockRef), blocks[i]? = some block
      ∧ r.ordinal = ordinal + i ∧ r.block_id = block.id := by
  induction blocks generalizing ordinal offset with
  | nil => cases h
  | cons block blocks ih =>
      rcases List.mem_cons.mp h with rfl | h
      · exact ⟨0, block, rfl, by simp, rfl⟩
      · obtain ⟨i, b, hb, hordinal, hid⟩ := ih h
        exact ⟨i + 1, b, hb, by rw [hordinal]; push_cast; omega, hid⟩

/-- In an ordered list the ordinal of a block is its position. -/
theorem ordinal_of_ordered {blocks : List BlockRef} {n i : ℕ} {block : BlockRef}
    (h : blocks.map (·.ordinal) = ordinals n) (hi : blocks[i]? = some block) :
    block.ordinal = i := by
  have hget : (blocks.map (·.ordinal))[i]? = some block.ordinal := by
    rw [List.getElem?_map, hi]
    rfl
  rw [h] at hget
  unfold ordinals at hget
  rw [List.getElem?_map] at hget
  obtain ⟨j, hj, hordinal⟩ := Option.map_eq_some_iff.mp hget
  obtain ⟨hlt, rfl⟩ := List.getElem?_eq_some_iff.mp hj
  rw [← hordinal, List.getElem_range]
  rfl

/-- **A committed object holds the documents its own upload sent.** -/
theorem commit_own_documents (chat_id : Int) (as : List Action) (w w' : World)
    (call : UploadCall) (condition : ObjectCondition) (upload : UploadRecord)
    (released : List BlockRef) (hfresh : Meets step Fresh (World.init chat_id) as)
    (hrun : run step (World.init chat_id) as = some w)
    (hstep : step w (.commit_upload call condition) = some w')
    (hcommit : commit_upload_tx w.db w.now call.upload_id call.next_offset call.etag [call.part]
      condition = .ok (w'.db, some (upload, released))) :
    OwnDocuments w'.db upload.bucket upload.key call := by
  have howned : Owned w :=
    run_inv (fun s a s' hs hf hstep => owned_step hs hf hstep) (owned_init chat_id) hfresh hrun
  have hcommitted := commit_upload_tx_ok hcommit
  obtain ⟨hobject, hrows⟩ := hcommitted.object howned.wellFormed
  obtain ⟨hcall, hphase, -⟩ : call ∈ w.uploads ∧ call.phase = .replaced ∧ call.kind = .put := by
    simp only [Tg2s3.step] at hstep
    split_ifs at hstep with hcond
    exact hcond
  have hblocks : [call.part].flatMap (·.blocks) = call.blocks := List.append_nil _
  have hopen : w.db.upload? call.upload_id ≠ none := by
    rw [hcommitted.upload_row]
    exact Option.some_ne_none _
  obtain ⟨n, -, -, hordered⟩ := howned.ordered call hcall
  refine ⟨_, hobject, fun r hr hid => ?_⟩
  have hrow : r ∈ committed_rows (committed_object w.db w.now upload call.next_offset
      call.etag).id 0 0 call.blocks := by
    rw [← hblocks, ← hrows]
    exact List.mem_filter.mpr ⟨hr, decide_eq_true hid⟩
  obtain ⟨i, block, hblock, hordinal, hblock_id⟩ := mem_committed_rows hrow
  have hmem : block ∈ call.blocks := List.mem_of_getElem? hblock
  have hposition := ordinal_of_ordered (hordered (by rw [hphase]; decide)) hblock
  refine ⟨block, hmem, by omega, ?_⟩
  -- the row was there before the commit, and is this upload's
  obtain ⟨row, hrow, hrow_id⟩ := List.mem_map.mp
    (hcommitted.present block.id (hblocks.symm ▸ List.mem_map_of_mem hmem))
  obtain ⟨hmessage, hfile⟩ := howned.own call hcall hopen block hmem row hrow hrow_id
  have hfrozen : row.frozen ∈ w'.db.telegram_blocks.map (·.frozen) := by
    rw [hcommitted.books.frozen]
    simp only [commit_target, Database.delete_upload, telegram_blocks_without_object]
    exact List.mem_map_of_mem hrow
  obtain ⟨row', hrow', heq⟩ := List.mem_map.mp hfrozen
  refine ⟨row', hrow', ?_, ?_, ?_⟩
  · rw [TelegramBlockRow.id_of_frozen heq, hrow_id, hblock_id]
  · rw [TelegramBlockRow.message_id_of_frozen heq, hmessage]
  · have : row'.frozen.file_id = row.frozen.file_id := by rw [heq]
    exact this.trans hfile

/-- The first client alone. -/
def alone : List Action := slow_client.take 4 ++ slow_client_commits.dropLast

/-- The first client while the second one is still at work. -/
def overtaken : List Action := slow_client.dropLast ++ slow_client_commits.dropLast

/-- The put of the first client before its commit. -/
def first_put : UploadCall :=
  { put "put-1" 2 [] [reference 1 first_spec 11, reference 2 second_spec 13] with
    etag := "e", phase := .replaced }

/-- One upload with two blocks, and nobody else at work: it commits its own. -/
theorem commit_own_documents_alone :
    ∃ w w', run step (World.init (-100)) alone = some w
      ∧ step w (.commit_upload first_put {}) = some w'
      ∧ commit_upload_tx w.db w.now "put-1" 10 "e" [first_put.part] {}
          = .ok (w'.db, some (upload_record "put-1" "k", []))
      ∧ OwnDocuments w'.db "b" "k" first_put := by
  have hrun : (run step (World.init (-100)) alone).bind (fun w =>
      (step w (.commit_upload first_put {})).map (fun w' => decide
        (commit_upload_tx w.db w.now "put-1" 10 "e" [first_put.part] {}
          = .ok (w'.db, some (upload_record "put-1" "k", []))))) = some true := by
    decide
  obtain ⟨w, hw, hrest⟩ := Option.bind_eq_some_iff.mp hrun
  obtain ⟨w', hstep, hd⟩ := Option.map_eq_some_iff.mp hrest
  have hcommit := of_decide_eq_true hd
  exact ⟨w, w', hw, hstep, hcommit,
    commit_own_documents (-100) alone w w' first_put {} (upload_record "put-1" "k") []
      (by decide) hw hstep hcommit⟩

/-- **A committed object can hold the document of another upload**: here the first
client commits while the second one has its row. -/
theorem commit_foreign_document :
    ∃ w w', run step (World.init (-100)) overtaken = some w
      ∧ step w (.commit_upload first_put {}) = some w'
      ∧ commit_upload_tx w.db w.now "put-1" 10 "e" [first_put.part] {}
          = .ok (w'.db, some (upload_record "put-1" "k", []))
      ∧ ¬ OwnDocuments w'.db "b" "k" first_put := by
  have hrun : (run step (World.init (-100)) overtaken).bind (fun w =>
      (step w (.commit_upload first_put {})).map (fun w' => decide
        (commit_upload_tx w.db w.now "put-1" 10 "e" [first_put.part] {}
          = .ok (w'.db, some (upload_record "put-1" "k", []))
        ∧ ¬ OwnDocuments w'.db "b" "k" first_put))) = some true := by
    decide
  obtain ⟨w, hw, hrest⟩ := Option.bind_eq_some_iff.mp hrun
  obtain ⟨w', hstep, hd⟩ := Option.map_eq_some_iff.mp hrest
  obtain ⟨hcommit, hforeign⟩ := of_decide_eq_true hd
  exact ⟨w, w', hw, hstep, hcommit, hforeign⟩

end Tg2s3.Staging
