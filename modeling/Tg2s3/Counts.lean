/-
Are the reference counts exact?

`Exact` compares every block row with the rows that refer to it. It is carried
through a history together with two facts it needs: the constraints of the
schema, and that no part lists a block twice (`PartsOnce`, which `replace_part`
sees to when it refuses duplicate ids). Each transaction is read with its
theorem from `Writers`, as a chain of releases, settlements and retentions on
every account, and the balance follows by the rules of `RefCount`.

One step does not keep it. `copy_object` takes its blocks from a snapshot that
was read before the transaction, and what the transaction checks of it is that
the source row is there (by id and name) and that no block is queued. A block id
can be reused between the snapshot and the copy, by an upload that has just
staged a block under it. Then the copy counts its reference on top of the one
the upload holds. `Op.SourceHeld` says that this is not the case, and with it
every history is exact.
-/
import Tg2s3.History

set_option autoImplicit false

namespace Tg2s3.Counts

open Tg2s3 Relational Machine RefCount RefCount.Account

/-- The counts agree with the references. -/
structure Exact (db : Database) : Prop where
  held : ∀ b ∈ db.telegram_blocks, 0 < db.refs b.id →
    b.ref_count = db.refs b.id ∧ ¬ db.queued b.id
  free : ∀ b ∈ db.telegram_blocks, db.refs b.id = 0 →
    (b.state = .staged ∧ b.ref_count = 1 ∧ ¬ db.queued b.id) ∨ (b.ref_count = 0 ∧ db.queued b.id)

instance (db : Database) : Decidable (Exact db) :=
  decidable_of_iff
    ((∀ b ∈ db.telegram_blocks, 0 < db.refs b.id →
        b.ref_count = db.refs b.id ∧ ¬ db.queued b.id)
      ∧ ∀ b ∈ db.telegram_blocks, db.refs b.id = 0 →
        (b.state = .staged ∧ b.ref_count = 1 ∧ ¬ db.queued b.id)
          ∨ (b.ref_count = 0 ∧ db.queued b.id))
    ⟨fun h => ⟨h.1, h.2⟩, fun h => ⟨h.held, h.free⟩⟩

/-! ## What the callers provide -/

/-- The blocks given to `replace_part` are distinct, and each is a staged block
that nothing refers to except the part that is replaced. -/
def Replaceable (db : Database) (upload_id : String) (part_number : Int)
    (blocks : List BlockRef) : Prop :=
  (blocks.map (·.id)).Nodup
    ∧ ∀ block ∈ blocks,
        (∃ row ∈ db.telegram_blocks, row.id = block.id ∧ row.state = .staged)
        ∧ references (·.block_id) block.id db.object_blocks = 0
        ∧ ∀ r ∈ db.multipart_part_blocks, r.block_id = block.id →
            r.part = (upload_id, part_number)

instance (db : Database) (upload_id : String) (part_number : Int) (blocks : List BlockRef) :
    Decidable (Replaceable db upload_id part_number blocks) :=
  inferInstanceAs (Decidable (_ ∧ _))

/-- What the engine sees to when it calls `replace_part`; the other operations
are called with anything. -/
def Provided (db : Database) : Op → Prop
  | .replace_part _ upload_id part_number _ _ block_ids =>
      Replaceable db upload_id part_number block_ids
  | _ => True

instance (db : Database) (op : Op) : Decidable (Provided db op) := by
  unfold Provided
  split <;> infer_instance

/-- The checks a copy makes of the tables: the source row by id and name, the
queue, the foreign keys of its blocks, and the condition on the destination. -/
def CopyPasses (db : Database) (source : ObjectRecord) (bucket key : String)
    (condition : ObjectCondition) : Prop :=
  (∃ o ∈ db.objects, o.id = source.id ∧ o.bucket = source.bucket ∧ o.object_key = source.key)
    ∧ (∀ id ∈ source.blocks.map (·.id), ¬ db.queued id ∧ id ∈ db.telegram_blocks.map (·.id))
    ∧ condition.allows ((db.object? bucket key).map (·.etag)) = true

instance (db : Database) (source : ObjectRecord) (bucket key : String)
    (condition : ObjectCondition) : Decidable (CopyPasses db source bucket key condition) :=
  inferInstanceAs (Decidable (_ ∧ _ ∧ _))

/-- A copy that passes its checks names only blocks that something refers to. -/
def SourceHeld (db : Database) : Op → Prop
  | .copy_object _ source bucket key _ condition =>
      CopyPasses db source bucket key condition → ∀ block ∈ source.blocks, 0 < db.refs block.id
  | _ => True

instance (db : Database) (op : Op) : Decidable (SourceHeld db op) := by
  unfold SourceHeld
  split <;> infer_instance

/-! ## The invariant -/

/-- No part lists a block twice. -/
def PartsOnce (db : Database) : Prop :=
  (db.multipart_part_blocks.map (fun r => (r.part, r.block_id))).Nodup

structure Inv (db : Database) : Prop where
  wellFormed : WellFormed db
  partsOnce : PartsOnce db
  balanced : ∀ b a, db.account b = some a → Balanced (db.refs b) a

/-- Exactness, read account by account. -/
theorem exact_of_balanced {db : Database} (hwf : WellFormed db)
    (h : ∀ b a, db.account b = some a → Balanced (db.refs b) a) : Exact db := by
  have hrow : ∀ b ∈ db.telegram_blocks, Balanced (db.refs b.id)
      { count := b.ref_count, staged := decide (b.state = .staged),
        queued := decide (db.queued b.id) } := by
    intro b hb
    refine h b.id _ ((account_eq_some db).mpr ⟨b, ?_, rfl⟩)
    exact lookup_eq_some hwf.block_ids hb rfl
  constructor
  · intro b hb hpos
    simpa using (hrow b hb).held hpos
  · intro b hb hzero
    simpa using (hrow b hb).free hzero

theorem inv_empty : Inv {} where
  wellFormed := wellFormed_empty
  partsOnce := List.nodup_nil
  balanced := fun b a h => by simp [Database.account, Database.block?, lookup] at h

/-- A part holds a block at most once. -/
theorem times_held_by_part_le {db : Database} (h : Inv db) (upload_id : String)
    (part_number b : Int) : times b (held_by_part db upload_id part_number) ≤ 1 := by
  rw [times_join (h.wellFormed.held_by_part upload_id part_number)]
  have hperm : (db.part_block_rows upload_id part_number).Perm
      (db.multipart_part_blocks.filter (·.part = (upload_id, part_number))) :=
    List.perm_insertionSort _ _
  rw [references_perm hperm, ← count_map_eq_references]
  have hnodup : ((db.multipart_part_blocks.filter (·.part = (upload_id, part_number))).map
      (fun r => (r.part, r.block_id))).Nodup :=
    (List.Sublist.map _ List.filter_sublist).nodup h.partsOnce
  have hids : ((db.multipart_part_blocks.filter (·.part = (upload_id, part_number))).map
      (·.block_id)).Nodup := by
    refine List.Nodup.of_map (fun i => ((upload_id, part_number), i)) ?_
    rw [List.map_map]
    refine (List.map_congr_left (fun r hr => ?_)) ▸ hnodup
    have hpart := (List.mem_filter.mp hr).2
    simp only [decide_eq_true_eq] at hpart
    simp [hpart]
  exact List.nodup_iff_count_le_one.mp hids b

/-! ## The steps -/

/-- A step that only releases: what goes from the tables goes from the accounts. -/
theorem inv_release {db db' : Database} (h : Inv db) (hwf : WellFormed db')
    (hparts : PartsOnce db') {k : Int → ℕ} (hrefs : ∀ b, db.refs b = db'.refs b + k b)
    (haccount : ∀ b, db'.account b = (db.account b).map (release (k b))) : Inv db' where
  wellFormed := hwf
  partsOnce := hparts
  balanced := by
    intro b a' ha'
    rw [haccount, Option.map_eq_some_iff] at ha'
    obtain ⟨a, ha, rfl⟩ := ha'
    exact Balanced.release (hrefs b ▸ h.balanced b a ha)

/-- A step that touches neither the references nor the accounts. -/
theorem inv_same {db db' : Database} (h : Inv db) (hwf : WellFormed db')
    (hparts : db'.multipart_part_blocks = db.multipart_part_blocks)
    (hrefs : ∀ b, db'.refs b = db.refs b) (haccount : ∀ b, db'.account b = db.account b) :
    Inv db' where
  wellFormed := hwf
  partsOnce := by
    unfold PartsOnce
    rw [hparts]
    exact h.partsOnce
  balanced := by
    intro b a ha
    rw [hrefs]
    exact h.balanced b a (haccount b ▸ ha)

theorem inv_decrement_upload {db : Database} (h : Inv db) (now : Int) (upload_id : String) :
    Inv (decrement_blocks (db.delete_upload upload_id) now (held_by_upload db upload_id)) := by
  have hbooks := books_decrement_blocks (db.delete_upload upload_id) now
    (held_by_upload db upload_id)
  refine inv_release h ?_ ?_ (k := fun b => times b (held_by_upload db upload_id)) ?_ ?_
  · exact wellFormed_decrement_blocks (h.wellFormed.delete_upload upload_id) now _
  · unfold PartsOnce
    rw [hbooks.multipart_part_blocks]
    exact nodup_deleteWhere h.partsOnce
  · intro b
    rw [hbooks.refs]
    exact h.wellFormed.refs_delete_upload upload_id b
  · intro b
    exact account_decrement_blocks (db.delete_upload upload_id) now _ b

theorem inv_abort {db : Database} (h : Inv db) (now : Int) (upload_id : String) :
    Inv (abort_upload_with_blocks db now upload_id).1 := by
  rcases abort_upload_with_blocks_eq db now upload_id with heq | heq
  · rw [heq]
    exact h
  · rw [heq]
    exact inv_decrement_upload h now upload_id

theorem inv_delete_object {db : Database} (h : Inv db) (now : Int) (bucket key : String) :
    Inv (decrement_blocks (without_object db bucket key) now (held_by_object db bucket key)) := by
  have hbooks := books_decrement_blocks (without_object db bucket key) now
    (held_by_object db bucket key)
  refine inv_release h ?_ ?_ (k := fun b => times b (held_by_object db bucket key)) ?_ ?_
  · exact wellFormed_decrement_blocks (h.wellFormed.without_object bucket key) now _
  · unfold PartsOnce
    rw [hbooks.multipart_part_blocks, multipart_part_blocks_without_object]
    exact h.partsOnce
  · intro b
    rw [hbooks.refs]
    exact h.wellFormed.refs_without_object bucket key b
  · intro b
    rw [account_decrement_blocks, account_without_object]

/-- A new block has a new id, so nothing can refer to it yet. -/
theorem inv_add_staged_block {db : Database} (h : Inv db) (now : Int) (block : BlockRef) :
    Inv (add_staged_block db now block).1 := by
  refine transaction_cases h (fun db' id hok => ?_)
  have hwf := h.wellFormed.insert_block (fun _ => rfl) hok
  obtain ⟨hr, -⟩ := insert_block_ok hok
  obtain ⟨rfl, rfl⟩ := Prod.mk.inj hr
  have hnew : db.next_block_id ∉ db.telegram_blocks.map (·.id) := nextRowid_not_mem _
  refine ⟨hwf, h.partsOnce, fun b a ha => ?_⟩
  change Balanced (db.refs b) a
  rw [account_insert_block hnew] at ha
  split_ifs at ha with hb
  · obtain rfl := Option.some.inj ha
    have hid : (staged_row now block db.next_block_id).id = db.next_block_id := rfl
    rw [hb, hid, h.wellFormed.refs_missing hnew]
    simpa [h.wellFormed.not_queued_missing hnew, staged_row, opened] using balanced_opened
  · exact h.balanced b a ha

/-- **Replacing a part.** Its new blocks have no other reference, so each ends up
with this one; the old ones lose theirs. -/
theorem inv_replace_part {db db' : Database} {upload_id : String} {part_number size : Int}
    {etag : String} {blocks released : List BlockRef} (h : Inv db)
    (hprovided : Replaceable db upload_id part_number blocks)
    (hr : Replaced db upload_id part_number size etag blocks released db') : Inv db' where
  wellFormed := hr.wellFormed h.wellFormed
  partsOnce := by
    unfold PartsOnce
    rw [hr.books.multipart_part_blocks]
    simp only [replace_target, List.map_append, map_block_id_part_rows]
    refine List.Nodup.append (nodup_deleteWhere h.partsOnce) ?_ ?_
    · have hmap := hr.distinct.map (f := fun i : Int => ((upload_id, part_number), i))
        (fun i j hij => (Prod.mk.inj hij).2)
      rwa [List.map_map] at hmap
    · intro t ht ht'
      obtain ⟨r, hrow, rfl⟩ := List.mem_map.mp ht
      obtain ⟨block, -, heq⟩ := List.mem_map.mp ht'
      exact (mem_deleteWhere.mp hrow).2 (Prod.mk.inj heq).1.symm
  balanced := by
    intro b a' ha'
    rw [hr.account, Option.map_eq_some_iff] at ha'
    obtain ⟨a, ha, rfl⟩ := ha'
    have hbal := h.balanced b a ha
    have hbefore := h.wellFormed.refs_delete_part upload_id part_number b
    rw [hr.books.refs, refs_replace_target]
    by_cases hnew : b ∈ blocks.map (·.id)
    · -- `b` is one of the new blocks: it is not released, and this is its only reference
      have hk : times b (released_by_part db upload_id part_number blocks) = 0 := by
        unfold times released_by_part
        rw [List.count_eq_zero]
        intro hin
        obtain ⟨block, hblock, rfl⟩ := List.mem_map.mp hin
        simpa [hnew] using (List.mem_filter.mp hblock).2
      have hone : times b blocks = 1 :=
        List.count_eq_one_of_mem hr.distinct hnew
      have hrest : (db.delete_part upload_id part_number).refs b = 0 := by
        obtain ⟨block, hblock, rfl⟩ := List.mem_map.mp hnew
        obtain ⟨-, hobject, hpart⟩ := hprovided.2 block hblock
        have hparts : references (·.block_id) block.id
            (deleteWhere (·.part = (upload_id, part_number)) db.multipart_part_blocks) = 0 := by
          refine references_eq_zero.mpr (fun r hrow heq => ?_)
          obtain ⟨hmem, hne⟩ := mem_deleteWhere.mp hrow
          exact hne (hpart r hmem heq)
        simp only [Database.refs, Database.delete_part, hobject, hparts]
      rw [hk, release_zero, hone, hrest]
      have hle := times_held_by_part_le h upload_id part_number b
      have hqueued : a.queued = false := by
        obtain ⟨row, -, rfl⟩ := (account_eq_some db).mp ha
        simpa using hr.unqueued b hnew
      rcases Nat.eq_zero_or_pos (times b (held_by_part db upload_id part_number)) with hz | hpos
      · exact Balanced.adopt (by rwa [hbefore, hrest, hz] at hbal) hqueued
      · have hrefs : db.refs b = 1 := by omega
        simpa [hrefs] using hbal
    · -- `b` is not among the new ones: all that the old part held of it is released
      have hzero : times b blocks = 0 := by
        unfold times
        exact List.count_eq_zero.mpr hnew
      have hk : times b (released_by_part db upload_id part_number blocks)
          = times b (held_by_part db upload_id part_number) := times_released_by_part hnew
      rw [hk, hzero, Nat.add_zero]
      exact Balanced.release (hbefore ▸ hbal)

/-- **Committing.** The old object's references go, those of the used parts move
to the new object, those of the unused parts go. -/
theorem inv_commit_upload {db db' : Database} {now : Int} {upload_id : String} {size : Int}
    {etag : String} {parts : List PartRecord} {condition : ObjectCondition}
    {upload : UploadRecord} {released : List BlockRef} (h : Inv db)
    (hc : Committed db now upload_id size etag parts condition upload released db') :
    Inv db' where
  wellFormed := hc.wellFormed h.wellFormed
  partsOnce := by
    unfold PartsOnce
    rw [hc.books.multipart_part_blocks]
    simp only [commit_target, Database.delete_upload, multipart_part_blocks_without_object]
    exact nodup_deleteWhere h.partsOnce
  balanced := by
    intro b a' ha'
    rw [hc.account, Option.map_eq_some_iff] at ha'
    obtain ⟨a, ha, rfl⟩ := ha'
    have hbal := h.balanced b a ha
    have hobject := h.wellFormed.refs_without_object upload.bucket upload.key b
    have hwf := h.wellFormed.without_object upload.bucket upload.key
    have hupload := hwf.refs_delete_upload upload.upload_id b
    have hid : upload.upload_id = upload_id := (lookup_mem hc.upload_row).2
    have hheld := times_held_by_upload h.wellFormed hc.verified b
    have hsame : held_by_upload (without_object db upload.bucket upload.key) upload.upload_id
        = held_by_upload db upload_id := by
      rw [hid]
      exact held_by_upload_without_object db _ _ _
    rw [hsame] at hupload
    rw [hc.books.refs, refs_commit_target]
    -- the three moves, in the order of the transaction
    have h₁ : Balanced ((without_object db upload.bucket upload.key).refs b)
        (release (times b (held_by_object db upload.bucket upload.key)) a) :=
      Balanced.release (hobject ▸ hbal)
    have h₂ := h₁.settle (k := times b (parts.flatMap (·.blocks))) (by omega)
    refine Balanced.release ?_
    rwa [hupload, hheld, ← Nat.add_assoc] at h₂

/-- **Copying.** The references of the object at the destination go and those of
the copy come; a block that both have may touch zero in between. -/
theorem inv_copy_object {db db' : Database} {now : Int} {source : ObjectRecord}
    {bucket key : String} {metadata : ObjectMetadata} {condition : ObjectCondition}
    {released : List BlockRef} (h : Inv db)
    (hsource : CopyPasses db source bucket key condition →
      ∀ block ∈ source.blocks, 0 < db.refs block.id)
    (hc : Copied db now source bucket key metadata condition released db') : Inv db' where
  wellFormed := hc.wellFormed h.wellFormed
  partsOnce := by
    unfold PartsOnce
    rw [hc.books.multipart_part_blocks]
    simp only [copy_target, multipart_part_blocks_without_object]
    exact h.partsOnce
  balanced := by
    intro b a' ha'
    rw [hc.account, Option.map_eq_some_iff] at ha'
    obtain ⟨a, ha, rfl⟩ := ha'
    have hbal := h.balanced b a ha
    have hobject := h.wellFormed.refs_without_object bucket key b
    rw [hc.books.refs, refs_copy_target]
    have h₁ : Balanced ((without_object db bucket key).refs b)
        (release (times b (held_by_object db bucket key)) a) :=
      Balanced.release (hobject ▸ hbal)
    rcases Nat.eq_zero_or_pos (times b source.blocks) with hz | hpos
    · rw [hz]
      exact h₁
    · have hpasses : CopyPasses db source bucket key condition :=
        ⟨hc.source_row, fun id hid => ⟨hc.unqueued id hid, hc.present id hid⟩, hc.allowed⟩
      have hrefs : 0 < db.refs b := by
        obtain ⟨block, hblock, rfl⟩ := List.mem_map.mp (times_pos.mp hpos)
        exact hsource hpasses block hblock
      have hcount := (hbal.held hrefs).1
      refine h₁.retain ?_
      rcases Nat.eq_zero_or_pos ((without_object db bucket key).refs b) with hr | hr
      · exact Or.inr (by simp only [release]; omega)
      · exact Or.inl hr

theorem inv_queue_stale_block {db : Database} (h : Inv db) (now id : Int) :
    Inv (queue_stale_block db now id).1 where
  wellFormed := wellFormed_queue_stale_block h.wellFormed now id
  partsOnce := by
    unfold PartsOnce
    rw [(books_queue_stale_block db now id).multipart_part_blocks]
    exact h.partsOnce
  balanced := by
    intro b a' ha'
    rw [(books_queue_stale_block db now id).refs]
    rw [account_queue_stale_block] at ha'
    split_ifs at ha' with hcond
    · obtain ⟨a, ha, rfl⟩ := Option.map_eq_some_iff.mp ha'
      rw [hcond.2]
      split_ifs
      · exact balanced_claim a
      · exact hcond.2 ▸ h.balanced b a ha
    · exact h.balanced b a' ha'

theorem inv_gc_success {db : Database} (h : Inv db) (id : Int) : Inv (gc_success db id) where
  wellFormed := wellFormed_gc_success h.wellFormed id
  partsOnce := by
    have hsame : (gc_success db id).multipart_part_blocks = db.multipart_part_blocks := by
      unfold gc_success
      split
      · split_ifs <;> rfl
      · rfl
    unfold PartsOnce
    rw [hsame]
    exact h.partsOnce
  balanced := by
    intro b a ha
    rw [refs_gc_success]
    rw [account_gc_success h.wellFormed] at ha
    split_ifs at ha
    · exact h.balanced b a (Option.filter_eq_some_iff.mp ha).1
    · exact h.balanced b a ha

/-! ## Histories -/

/-- Every operation keeps the books, if what it is given is provided as the
engine provides it and a copy's source is held. -/
theorem inv_apply (db : Database) (op : Op) (h : Inv db)
    (hop : Provided db op ∧ SourceHeld db op) : Inv (op.apply db) := by
  cases op with
  | create_bucket now name =>
      -- buckets, rules and upload rows refer to no block
      exact inv_same h (wellFormed_create_bucket h.wellFormed now name) rfl (fun _ => rfl)
        (fun _ => rfl)
  | delete_bucket name =>
      have hwf := wellFormed_delete_bucket h.wellFormed name
      change Inv (delete_bucket db name).1
      unfold delete_bucket at hwf ⊢
      split_ifs at hwf ⊢
      · exact h
      · exact inv_same h hwf rfl (fun _ => rfl) (fun _ => rfl)
      · exact h
  | set_bucket_cors now bucket configuration =>
      have hwf := wellFormed_set_bucket_cors h.wellFormed now bucket configuration
      change Inv (set_bucket_cors db now bucket configuration)
      unfold set_bucket_cors at hwf ⊢
      split_ifs at hwf ⊢ <;> exact inv_same h hwf rfl (fun _ => rfl) (fun _ => rfl)
  | delete_bucket_cors bucket =>
      exact inv_same h (wellFormed_delete_bucket_cors h.wellFormed bucket) rfl (fun _ => rfl)
        (fun _ => rfl)
  | create_upload upload =>
      refine transaction_cases h (fun db' u hok => ?_)
      obtain ⟨_, -, hok⟩ := bind_ok.mp hok
      obtain ⟨db₁, hins, hok⟩ := bind_ok.mp hok
      obtain ⟨rfl, -⟩ := Prod.mk.inj (Except.ok.inj hok)
      have hwf := h.wellFormed.insert_upload hins
      obtain ⟨rfl, -⟩ := insert_upload_ok hins
      exact inv_same h hwf rfl (fun _ => rfl) (fun _ => rfl)
  | add_staged_block now block => exact inv_add_staged_block h now block
  | replace_part now upload_id part_number size etag block_ids =>
      exact transaction_cases h (fun db' released hok =>
        inv_replace_part h hop.1 (replace_part_tx_ok hok))
  | commit_upload now upload_id size etag parts condition =>
      refine transaction_cases h (fun db' result hok => ?_)
      cases result with
      | none => exact commit_upload_tx_none hok ▸ h
      | some r => exact inv_commit_upload h (commit_upload_tx_ok hok)
  | abort_upload_with_blocks now upload_id => exact inv_abort h now upload_id
  | expire_uploads now before =>
      exact expire_uploads_induction now before h (fun d upload_id hd => inv_abort hd now upload_id)
  | delete_object now bucket key condition =>
      refine transaction_cases h (fun db' deleted hok => ?_)
      obtain ⟨-, rfl, -⟩ := delete_object_tx_ok hok
      exact inv_delete_object h now bucket key
  | copy_object now source bucket key metadata condition =>
      exact transaction_cases h (fun db' released hok =>
        inv_copy_object h hop.2 (copy_object_tx_ok hok))
  | queue_stale_block now block_id => exact inv_queue_stale_block h now block_id
  | gc_success block_id => exact inv_gc_success h block_id
  | gc_failure block_id error next_attempt =>
      -- a failure changes the attempts and the time of its queue row
      exact inv_same h (h.wellFormed.update_queue block_id (fun _ => rfl)) rfl (fun _ => rfl)
        (fun b => account_update_queue db block_id b (fun _ => rfl))
  | gc_orphan block_id error =>
      exact inv_same h (h.wellFormed.update_queue block_id (fun _ => rfl)) rfl (fun _ => rfl)
        (fun b => account_update_queue db block_id b (fun _ => rfl))

/-- **The counts are exact** after every history whose copies find their source
held. -/
theorem counts_exact (ops : List Op)
    (hops : ExecMeets Op.apply (fun db op => Provided db op ∧ SourceHeld db op) {} ops) :
    Exact (after ops) := by
  have hinv : Inv (after ops) := exec_inv inv_apply inv_empty hops
  exact exact_of_balanced hinv.wellFormed hinv.balanced

/-- A block reference as an upload hands it to the database. -/
def sent (id message_id size : Int) : BlockRef :=
  { id := id, ordinal := 0, offset := 0, size := size, chat_id := -100, message_id := message_id,
    backend := .bot_api, document_id := none, file_id := "file", file_unique_id := "unique",
    message_date := 0 }

def upload_record (upload_id : String) : UploadRecord :=
  { upload_id := upload_id, bucket := "b", key := "k", metadata := {}, kind := .put,
    created_at := 0 }

def put_first : List Op :=
  [ .create_bucket 0 "b", .create_upload (upload_record "put-1"),
    .add_staged_block 0 (sent 0 11 5), .replace_part 0 "put-1" 0 5 "e1" [sent 1 11 5],
    .commit_upload 0 "put-1" 5 "e1"
      [{ upload_id := "put-1", part_number := 0, size := 5, etag := "e1",
         blocks := [sent 1 11 5] }] {} ]

/-- What `get_object` hands to the copy. -/
def snapshot : ObjectRecord :=
  { id := 1, bucket := "b", key := "k", size := 5, etag := "e1", metadata := {}, created_at := 0,
    modified_at := 0, blocks := [sent 1 11 5] }

def with_copies : List Op :=
  put_first ++
    [ .copy_object 1 snapshot "b" "k" {} {},
      .copy_object 1 snapshot "b" "other" {} {},
      .create_upload (upload_record "put-2"), .add_staged_block 2 (sent 0 12 3),
      .replace_part 2 "put-2" 1 3 "e2" [sent 2 12 3], .add_staged_block 2 (sent 0 13 4),
      .replace_part 3 "put-2" 1 7 "e3" [sent 2 12 3, sent 3 13 4],
      .replace_part 4 "put-2" 1 4 "e4" [sent 3 13 4], .delete_object 4 "b" "k" {},
      .gc_success 2, .abort_upload_with_blocks 5 "put-2" ]

/-- A history with every kind of holder: a part replaced by one that keeps a
block, a commit, a copy onto the source itself and one next to it. -/
theorem counts_exact_of_copies :
    ExecMeets Op.apply (fun db op => Provided db op ∧ SourceHeld db op) {} with_copies
      ∧ Exact (after with_copies) :=
  ⟨by decide, counts_exact with_copies (by decide)⟩

/-! ## A history that is not exact

A copy reads its source and waits. Meanwhile the source is deleted, its block is
collected, an empty object takes the source's name and row id, and another
upload stages a document: the block table was empty, so it gets the id the
snapshot names. The copy then goes through. -/

def reuse_ids : List Op :=
  [ .delete_object 1 "b" "k" {}, .gc_success 1, .create_upload (upload_record "put-2"),
    .replace_part 2 "put-2" 0 0 "e0" [],
    .commit_upload 2 "put-2" 0 "e0"
      [{ upload_id := "put-2", part_number := 0, size := 0, etag := "e0", blocks := [] }] {},
    .create_upload (upload_record "put-3"), .add_staged_block 3 (sent 0 12 7) ]

def copy_late : Op := .copy_object 4 snapshot "b" "copy" {} {}

/-- **The counts are not always exact.** Everything is called as the engine calls
it, the copy with what `get_object` returned when the source was read; afterwards
block 1 is counted twice and referred to once. -/
theorem counts_not_exact :
    get_object (after put_first) "b" "k" = some snapshot
      ∧ ExecMeets Op.apply Provided {} (put_first ++ reuse_ids ++ [copy_late])
      ∧ (after (put_first ++ reuse_ids ++ [copy_late])).refs 1 = 1
      ∧ ((after (put_first ++ reuse_ids ++ [copy_late])).block? 1).map (·.ref_count) = some 2
      ∧ ¬ Exact (after (put_first ++ reuse_ids ++ [copy_late])) := by
  decide

end Tg2s3.Counts
