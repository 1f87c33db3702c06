/-
Between two requests.

While a request runs, the tables hold what only the request knows: blocks that are sent and
not yet attached, the row of a PUT that has not committed. When the request has been answered,
whichever way, none of that is left. Every block is referred to or waits in the queue, so
nothing that was sent to Telegram is forgotten, and the only uploads are those that a client
has begun (`served_at_rest`).

A handler is read once more for this, with the rule of `Serving.Calls`: every operation on the
way keeps a tended account tended, and what is staged is attached or cleaned up.
-/
import Tg2s3.Service

set_option autoImplicit false

namespace Tg2s3.AtRest

open Tg2s3 Relational Machine RefCount RefCount.Account
open Tg2s3.Counts (Inv Provided SourceHeld Replaceable)
open Tg2s3.Transfer (Env Body Booked CleanedUp upload_body upload_body_booked upload_body_ok
  cleaned staged_account cleanup_block_refs cleanup_block_refs_ok total_of_upload_body
  account_cleanup_untracked_block)
open Tg2s3.S3.Dispatch (Server)
open Tg2s3.Serving
open Tg2s3.Service

/-! ## Tended accounts -/

/-- A block that nothing refers to is queued, but for these blocks. -/
def TendedBut (mine : List Int) (db : Database) : Prop :=
  ∀ b ∉ mine, ∀ a, db.account b = some a → Tended (db.refs b) a

section Operations

variable {mine : List Int} {db db' : Database}

/-- No block is there, so none is forgotten. -/
theorem tended_empty : TendedBut [] {} :=
  fun b _ a h => by simp [Database.account, Database.block?, lookup] at h

/-- A step that only releases. -/
theorem TendedBut.release (h : TendedBut mine db) (hinv : Inv db) {k : Int → ℕ}
    (hrefs : ∀ b, db.refs b = db'.refs b + k b)
    (haccount : ∀ b, db'.account b = (db.account b).map (release (k b))) : TendedBut mine db' := by
  intro b hb a' ha'
  rw [haccount, Option.map_eq_some_iff] at ha'
  obtain ⟨a, ha, rfl⟩ := ha'
  exact Tended.release (hrefs b ▸ hinv.balanced b a ha) (hrefs b ▸ h b hb a ha)

/-- A step that touches neither the references nor the accounts. -/
theorem TendedBut.same (h : TendedBut mine db) (hrefs : ∀ b, db'.refs b = db.refs b)
    (haccount : ∀ b, db'.account b = db.account b) : TendedBut mine db' := by
  intro b hb a ha
  rw [hrefs]
  exact h b hb a (haccount b ▸ ha)

/-- An abort gives back the blocks of its upload. It only releases, so that a block which loses
its last reference there is queued by `decrement_block`. -/
theorem TendedBut.abort (h : TendedBut mine db) (hinv : Inv db) (now : Int) (upload_id : String) :
    TendedBut mine (abort_upload_with_blocks db now upload_id).1 := by
  rcases abort_upload_with_blocks_eq db now upload_id with heq | heq
  · rw [heq]
    exact h
  · rw [heq]
    refine h.release hinv (k := fun b => times b (held_by_upload db upload_id)) (fun b => ?_) ?_
    · rw [(books_decrement_blocks (db.delete_upload upload_id) now _).refs]
      exact hinv.wellFormed.refs_delete_upload upload_id b
    · exact fun b => account_decrement_blocks (db.delete_upload upload_id) now _ b

/-- A deletion gives back the blocks of the object, by the same rule as the abort. -/
theorem TendedBut.delete_object (h : TendedBut mine db) (hinv : Inv db) (now : Int)
    (bucket key : String) : TendedBut mine
      (decrement_blocks (without_object db bucket key) now (held_by_object db bucket key)) := by
  refine h.release hinv (k := fun b => times b (held_by_object db bucket key)) (fun b => ?_) ?_
  · rw [(books_decrement_blocks (without_object db bucket key) now _).refs]
    exact hinv.wellFormed.refs_without_object bucket key b
  · intro b
    rw [account_decrement_blocks, account_without_object]

/-- The blocks that are attached have a reference then. -/
theorem TendedBut.replace_part {upload_id : String} {part_number size : Int} {etag : String}
    {blocks released : List BlockRef} {rest : List Int} (h : TendedBut mine db) (hinv : Inv db)
    (hr : Replaced db upload_id part_number size etag blocks released db')
    (hmine : ∀ b ∈ mine, b ∈ rest ∨ b ∈ blocks.map (·.id)) : TendedBut rest db' := by
  intro b hb a' ha'
  rw [hr.books.refs, refs_replace_target]
  by_cases hnew : b ∈ blocks.map (·.id)
  · have hone : times b blocks = 1 := List.count_eq_one_of_mem hr.distinct hnew
    exact tended_of_pos a' (by omega)
  · rw [hr.account, Option.map_eq_some_iff] at ha'
    obtain ⟨a, ha, rfl⟩ := ha'
    have hold : b ∉ mine := fun hmem => (hmine b hmem).elim hb hnew
    have hbefore := hinv.wellFormed.refs_delete_part upload_id part_number b
    have hzero : times b blocks = 0 := List.count_eq_zero.mpr hnew
    have hk : times b (released_by_part db upload_id part_number blocks)
        = times b (held_by_part db upload_id part_number) := times_released_by_part hnew
    rw [hk, hzero, Nat.add_zero]
    exact Tended.release (hbefore ▸ hinv.balanced b a ha) (hbefore ▸ h b hold a ha)

/-- A commit releases the object that it replaces, keeps the blocks of the listed parts, whose
references only change their table, and releases what the upload has besides. The account of a
block goes through the three moves in this order, and is tended after each of them. -/
theorem TendedBut.commit_upload {now : Int} {upload_id : String} {size : Int} {etag : String}
    {parts : List PartRecord} {condition : ObjectCondition} {upload : UploadRecord}
    {released : List BlockRef} (h : TendedBut mine db) (hinv : Inv db)
    (hc : Committed db now upload_id size etag parts condition upload released db') :
    TendedBut mine db' := by
  intro b hb a' ha'
  rw [hc.account, Option.map_eq_some_iff] at ha'
  obtain ⟨a, ha, rfl⟩ := ha'
  have hwf := hinv.wellFormed
  have hobject := hwf.refs_without_object upload.bucket upload.key b
  have hupload := (hwf.without_object upload.bucket upload.key).refs_delete_upload upload.upload_id b
  have hid : upload.upload_id = upload_id := (lookup_mem hc.upload_row).2
  have hheld := times_held_by_upload hwf hc.verified b
  rw [hid, held_by_upload_without_object] at hupload
  -- the moves of the transaction, in its order
  have hb₁ : Balanced ((without_object db upload.bucket upload.key).refs b)
      (Account.release (times b (held_by_object db upload.bucket upload.key)) a) :=
    Balanced.release (hobject ▸ hinv.balanced b a ha)
  have ht₁ : Tended ((without_object db upload.bucket upload.key).refs b)
      (Account.release (times b (held_by_object db upload.bucket upload.key)) a) :=
    Tended.release (hobject ▸ hinv.balanced b a ha) (hobject ▸ h b hb a ha)
  have hle : times b (parts.flatMap (·.blocks))
      ≤ (without_object db upload.bucket upload.key).refs b := by omega
  have hb₂ := hb₁.settle hle
  have ht₂ := ht₁.settle hle
  rw [hc.books.refs, refs_commit_target, hid]
  rw [hupload, hheld, ← Nat.add_assoc] at hb₂ ht₂
  exact Tended.release hb₂ ht₂

/-- A copy releases the object that it replaces and takes one reference more on each block of its
source, which can leave no block without one. -/
theorem TendedBut.copy_object {now : Int} {source : ObjectRecord} {bucket key : String}
    {metadata : ObjectMetadata} {condition : ObjectCondition} {released : List BlockRef}
    (h : TendedBut mine db) (hinv : Inv db)
    (hc : Copied db now source bucket key metadata condition released db') : TendedBut mine db' := by
  intro b hb a' ha'
  rw [hc.account, Option.map_eq_some_iff] at ha'
  obtain ⟨a, ha, rfl⟩ := ha'
  have hobject := hinv.wellFormed.refs_without_object bucket key b
  rw [hc.books.refs, refs_copy_target]
  exact (Tended.release (hobject ▸ hinv.balanced b a ha) (hobject ▸ h b hb a ha)).retain

/-- The claim puts its own block into the queue, and touches no other. -/
theorem TendedBut.queue_stale_block (h : TendedBut mine db) (now id : Int) :
    TendedBut mine (queue_stale_block db now id).1 := by
  intro b hb a' ha'
  rw [(books_queue_stale_block db now id).refs]
  rw [account_queue_stale_block] at ha'
  split_ifs at ha'
  · obtain ⟨a, ha, rfl⟩ := Option.map_eq_some_iff.mp ha'
    split_ifs
    · exact fun _ => rfl
    · exact h b hb a ha
  · exact h b hb a' ha'

/-- The collector takes a row away together with its place in the queue; the account of any other
block is as it was. -/
theorem TendedBut.gc_success (h : TendedBut mine db) (hwf : WellFormed db) (id : Int) :
    TendedBut mine (gc_success db id) := by
  intro b hb a ha
  rw [refs_gc_success]
  rw [account_gc_success hwf] at ha
  split_ifs at ha
  · exact h b hb a (Option.filter_eq_some_iff.mp ha).1
  · exact h b hb a ha

/-- The operation stages no block. -/
def stages : Op → Bool
  | .add_staged_block .. => true
  | _ => false

/-- **Every operation but one** leaves the blocks tended that are. -/
theorem TendedBut.apply {op : Op} (h : TendedBut mine db) (hinv : Inv db)
    (hop : stages op = false) : TendedBut mine (op.apply db) := by
  cases op with
  | create_bucket now name => exact h.same (fun _ => rfl) (fun _ => rfl)
  | delete_bucket name =>
      change TendedBut mine (Tg2s3.delete_bucket db name).1
      unfold Tg2s3.delete_bucket
      split_ifs
      · exact h
      · exact h.same (fun _ => rfl) (fun _ => rfl)
      · exact h
  | set_bucket_cors now bucket configuration =>
      change TendedBut mine (Tg2s3.set_bucket_cors db now bucket configuration)
      unfold Tg2s3.set_bucket_cors
      split_ifs <;> exact h.same (fun _ => rfl) (fun _ => rfl)
  | delete_bucket_cors bucket => exact h.same (fun _ => rfl) (fun _ => rfl)
  | create_upload upload =>
      refine transaction_cases h (fun db' u hok => ?_)
      obtain ⟨_, -, hok⟩ := bind_ok.mp hok
      obtain ⟨db₁, hinsert, hok⟩ := bind_ok.mp hok
      obtain ⟨rfl, -⟩ := Prod.mk.inj (Except.ok.inj hok)
      obtain ⟨rfl, -⟩ := insert_upload_ok hinsert
      exact h.same (fun _ => rfl) (fun _ => rfl)
  | add_staged_block now block => cases hop
  | replace_part now upload_id part_number size etag blocks =>
      exact transaction_cases h (fun db' released hok =>
        h.replace_part hinv (replace_part_tx_ok hok) fun _ hb => Or.inl hb)
  | commit_upload now upload_id size etag parts condition =>
      refine transaction_cases h (fun db' result hok => ?_)
      cases result with
      | none => exact commit_upload_tx_none hok ▸ h
      | some r => exact h.commit_upload hinv (commit_upload_tx_ok hok)
  | abort_upload_with_blocks now upload_id => exact h.abort hinv now upload_id
  | expire_uploads now before =>
      exact (expire_uploads_induction (P := fun d => Inv d ∧ TendedBut mine d) now before ⟨hinv, h⟩
        (fun d upload_id hd => ⟨Counts.inv_abort hd.1 now upload_id,
          hd.2.abort hd.1 now upload_id⟩)).2
  | delete_object now bucket key condition =>
      refine transaction_cases h (fun db' deleted hok => ?_)
      obtain ⟨-, rfl, -⟩ := delete_object_tx_ok hok
      exact h.delete_object hinv now bucket key
  | copy_object now source bucket key metadata condition =>
      exact transaction_cases h (fun db' released hok => h.copy_object hinv (copy_object_tx_ok hok))
  | queue_stale_block now block_id => exact h.queue_stale_block now block_id
  | gc_success block_id => exact h.gc_success hinv.wellFormed block_id
  | gc_failure block_id error next_attempt =>
      exact h.same (fun _ => rfl) (fun b => account_update_queue db block_id b (fun _ => rfl))
  | gc_orphan block_id error =>
      exact h.same (fun _ => rfl) (fun b => account_update_queue db block_id b (fun _ => rfl))

end Operations

/-! ## What is staged -/

section Staged

variable {env : Env} {mine : List Int} {db d : Database}

/-- A block that is not one of an attempt has the account it had. -/
theorem account_of_apart (h : Transfer.Apart db mine d) {b : Int} (hb : b ∉ mine) :
    d.account b = db.account b := by
  have hblock : d.block? b = db.block? b := h.blocks.lookup hb
  have hqueued : d.queued b ↔ db.queued b := by
    obtain ⟨new, hqueue, hnew⟩ := h.queue
    unfold Database.queued
    rw [hqueue, List.map_append, List.mem_append]
    refine ⟨fun hq => hq.resolve_right fun hmem => ?_, Or.inl⟩
    obtain ⟨row, hrow, rfl⟩ := List.mem_map.mp hmem
    exact hb (hnew row hrow)
  unfold Database.account
  rw [hblock]
  simp only [hqueued]

/-- What an attempt does beside the tables of the objects concerns its own blocks only, so that
every other one is as tended as before. -/
theorem TendedBut.apart (ht : TendedBut [] db) (h : Transfer.Apart db mine d) : TendedBut mine d := by
  intro b hb a ha
  rw [h.refs]
  exact ht b List.not_mem_nil a (account_of_apart h hb ▸ ha)

/-- A block that was cleaned up is gone, or queued: the message and the row may stay, but the
claim, which the database does not refuse, comes first. -/
theorem tended_cleanup {blocks : List BlockRef} {d' : Database} (hworks : env.CleansUp)
    (ht : TendedBut [] db)
    (h : CleanedUp env db mine blocks d d') (hmine : ∀ b ∈ mine, b ∈ blocks.map (·.id)) :
    TendedBut [] d' := by
  intro b _ a ha
  by_cases hb : b ∈ blocks.map (·.id)
  · obtain ⟨block, hblock, rfl⟩ := List.mem_map.mp hb
    rw [h.cleaned block hblock] at ha
    rw [hworks.cleaned_eq] at ha
    split_ifs at ha
    · obtain ⟨a', -, rfl⟩ := Option.map_eq_some_iff.mp ha
      exact fun _ => rfl
  · exact ht.apart h.apart b (fun hmem => hb (hmine b hmem)) a ha

/-- Whatever the order, the blocks of a body are cleaned up. -/
theorem cleanedUp_of_booked {tasks : Transfer.Tasks} {blocks : List BlockRef} (hwf : WellFormed db)
    (hbooked : Booked env db tasks) (hperm : blocks.Perm tasks.registered) :
    CleanedUp env db (tasks.registered.map (·.id)) blocks tasks.db
      (cleanup_block_refs env tasks.db blocks) :=
  cleanup_block_refs_ok (hbooked.fresh hwf) hbooked.apart hbooked.wellFormed
    ((hperm.map _).nodup_iff.mpr (List.nodup_append.mp hbooked.ids).2.1)
    (fun _ hblock => hbooked.abandoned hwf (hperm.mem_iff.mp hblock))

/-- **An upload** that fails leaves nothing; one that ends leaves its blocks, which are
attached or cleaned up. -/
theorem tended_upload {upload_id : String} {part_number : Int} {body : Body}
    {expected_length : Option Int} {result : Except Transfer.UploadError (PartRecord × Int)}
    (hworks : env.CleansUp) (hwf : WellFormed db) (ht : TendedBut [] db)
    (h : Transfer.upload env db upload_id part_number body expected_length = (d, result)) :
    d.multipart_uploads = db.multipart_uploads
      ∧ (∀ e, result = .error e → TendedBut [] d)
      ∧ ∀ part total, result = .ok (part, total) →
          TendedBut (part.blocks.map (·.id)) d ∧ expected_length.filter (· ≠ total) = none
            ∧ TendedBut [] (cleanup_block_refs env d part.blocks)
            ∧ (cleanup_block_refs env d part.blocks).multipart_uploads = db.multipart_uploads := by
  have hbooked : Booked env db (upload_body env db body expected_length).1 :=
    upload_body_booked hwf body expected_length
  obtain ⟨tasks, sent, hsent⟩ : ∃ tasks sent,
      upload_body env db body expected_length = (tasks, sent) := ⟨_, _, rfl⟩
  rw [hsent] at hbooked
  have hcleaned : ∀ blocks : List BlockRef, blocks.Perm tasks.registered →
      TendedBut [] (cleanup_block_refs env tasks.db blocks)
        ∧ (cleanup_block_refs env tasks.db blocks).multipart_uploads = db.multipart_uploads := by
    intro blocks hperm
    have hclean := cleanedUp_of_booked hwf hbooked hperm
    refine ⟨tended_cleanup hworks ht hclean fun b hb => (hperm.map _).mem_iff.mpr hb, ?_⟩
    rw [hclean.apart.tables]
  have hafter : tasks.db.multipart_uploads = db.multipart_uploads := by rw [hbooked.rows]
  unfold Transfer.upload at h
  rw [hsent] at h
  rcases sent with e | ⟨uploaded, total, digest⟩
  · obtain ⟨rfl, rfl⟩ := Prod.mk.inj h
    obtain ⟨hdone, huploads⟩ := hcleaned _ (List.Perm.refl _)
    exact ⟨huploads, fun _ _ => hdone, fun _ _ heq => (by cases heq)⟩
  · obtain ⟨_, _, -, -, -, hdelivered⟩ := upload_body_ok hsent hwf
    have hperm := (List.perm_insertionSort (fun a b : BlockRef => a.ordinal ≤ b.ordinal)
      uploaded).trans hdelivered.registered
    obtain ⟨rfl, rfl⟩ := Prod.mk.inj h
    refine ⟨hafter, fun _ heq => (by cases heq), fun part total' heq => ?_⟩
    obtain ⟨rfl, rfl⟩ := Prod.mk.inj (Except.ok.inj heq)
    refine ⟨?_, ?_, hcleaned _ hperm⟩
    · have htended := ht.apart hbooked.apart
      exact fun b hb => htended b fun hmem => hb ((hperm.map _).mem_iff.mpr hmem)
    · cases expected_length with
      | none => rfl
      | some expected =>
          obtain rfl := total_of_upload_body hsent
          exact Option.filter_eq_none_iff.mpr fun _ heq => by simp [Option.some.inj heq]

end Staged

/-! ## A PUT from its row to its end -/

/-- An abort takes the row of its upload. -/
theorem uploads_abort {db : Database} (now : Int) (upload_id : String) {u : UploadRecord}
    (hu : u ∈ (abort_upload_with_blocks db now upload_id).1.multipart_uploads) :
    u ∈ db.multipart_uploads ∧ u.upload_id ≠ upload_id := by
  unfold abort_upload_with_blocks transaction abort_upload_with_blocks_tx at hu
  cases hupload : db.upload? upload_id with
  | none =>
      rw [hupload] at hu
      exact ⟨hu, fun heq => lookup_eq_none.mp hupload (heq ▸ List.mem_map_of_mem hu)⟩
  | some upload =>
      rw [hupload] at hu
      dsimp only at hu
      rw [(books_decrement_blocks _ now _).multipart_uploads] at hu
      exact mem_deleteWhere.mp hu

section Put

variable {scope : Scope} {env : Env} {db d : Database}
  {upload_id : String} {body : Body} {expected_length : Option Int} {condition : ObjectCondition}

/-- The scope of what is of no key. -/
def nowhere : Scope where
  bucket := ""
  keys := fun _ => False
  parts := fun _ _ => False
  whole := False

/-- Proper operations keep the tables sound, however many there are. -/
theorem Sound.leads (h : Sound db) (hwrites : Writes scope db d) : Sound d :=
  Leads.inv (fun _ _ hd hop => hd.apply hop.1) h hwrites

/-- What a commit leaves. -/
theorem tended_commit (h : Sound db) (ht : TendedBut [] db) {r : Answers.Reread} {now size : Int}
    {etag : String} {parts : List PartRecord}
    {result : Except DbError (Option (ObjectRecord × List BlockRef))}
    (hcommit : Answers.commit_upload db r now upload_id size etag parts condition = (d, result)) :
    TendedBut [] d ∧ d.multipart_uploads ⊆ db.multipart_uploads
      ∧ ∀ answer, result = .ok (some answer) → ∀ u ∈ d.multipart_uploads, u.upload_id ≠ upload_id := by
  have hfst : (Answers.commit_upload db r now upload_id size etag parts condition).1
      = (Op.commit_upload now upload_id size etag parts condition).apply db :=
    fst_commit_upload r now upload_id size etag parts condition
  rw [hcommit] at hfst
  dsimp only at hfst
  refine ⟨hfst ▸ ht.apply h.counts rfl, hfst ▸ uploads_apply db _ (fun _ heq => (by cases heq)), ?_⟩
  rintro answer rfl u hu
  unfold Answers.commit_upload at hcommit
  split at hcommit
  · cases (Prod.mk.inj hcommit).2
  · cases (Prod.mk.inj hcommit).2
  · rename_i d' upload released htx
    obtain ⟨rfl, -⟩ := Prod.mk.inj hcommit
    have hdone := commit_upload_tx_ok htx
    rw [hdone.books.multipart_uploads] at hu
    have hid : upload.upload_id = upload_id := (lookup_mem hdone.upload_row).2
    exact hid ▸ (mem_deleteWhere.mp hu).2

/-- **Between the row of the upload and the end**: what is staged is attached or cleaned up, no
upload begins, and one that commits ends. -/
theorem tended_put_body (hworks : env.CleansUp) (h : Sound db) (ht : TendedBut [] db)
    {result : Except Transfer.UploadError ObjectRecord}
    (hput : Transfer.put_body env db upload_id body expected_length condition = (d, result)) :
    TendedBut [] d ∧ d.multipart_uploads ⊆ db.multipart_uploads
      ∧ ∀ object, result = .ok object → ∀ u ∈ d.multipart_uploads, u.upload_id ≠ upload_id := by
  have hwf := h.counts.wellFormed
  obtain ⟨d₁, sent, hsent⟩ : ∃ d₁ sent,
      Transfer.upload env db upload_id 0 body expected_length = (d₁, sent) := ⟨_, _, rfl⟩
  obtain ⟨huploads, hfailed, hended⟩ := tended_upload hworks hwf ht hsent
  have h₁ : Sound d₁ := by
    have hwrites : Writes nowhere db
        (Transfer.upload env db upload_id 0 body expected_length).1 :=
      writes_upload upload_id 0 body expected_length
    rw [hsent] at hwrites
    exact Sound.leads h hwrites
  unfold Transfer.put_body at hput
  rw [hsent] at hput
  -- the blocks: cleaned up on an error, staged otherwise
  rcases sent with e | ⟨part, total⟩
  · obtain ⟨rfl, rfl⟩ := Prod.mk.inj hput
    exact ⟨hfailed e rfl, huploads ▸ List.Subset.refl _, fun _ heq => (by cases heq)⟩
  obtain ⟨htended, hlength, hclean, hcleaned⟩ := hended part total rfl
  dsimp only at hput
  -- an upload that ends well has a part of the length it counts
  rw [hlength] at hput
  dsimp only at hput
  obtain ⟨d₂, released, hreplace⟩ : ∃ d₂ released, replace_part d₁ env.now upload_id 0 total
      part.etag part.blocks = (d₂, released) := ⟨_, _, rfl⟩
  have h₂ : Sound d₂ := by
    have hop : Proper d₁ (.replace_part env.now upload_id 0 total part.etag part.blocks) :=
      ⟨replaceable_of_upload hwf hsent, trivial, trivial⟩
    have happly := h₁.apply hop
    change Sound (replace_part d₁ env.now upload_id 0 total part.etag part.blocks).1 at happly
    rwa [hreplace] at happly
  rw [hreplace] at hput
  unfold replace_part transaction at hreplace
  -- replace_part: refused, and the blocks are cleaned up; or attached
  rcases released with e | released
  · split at hreplace
    · cases (Prod.mk.inj hreplace).2
    · obtain ⟨rfl, -⟩ := Prod.mk.inj hreplace
      obtain ⟨rfl, rfl⟩ := Prod.mk.inj hput
      exact ⟨hclean, hcleaned ▸ List.Subset.refl _, fun _ heq => (by cases heq)⟩
  · split at hreplace
    · rename_i d₂ released htx
      obtain ⟨rfl, -⟩ := Prod.mk.inj hreplace
      have hreplaced := replace_part_tx_ok htx
      have ht₂ : TendedBut [] d₂ := htended.replace_part h₁.counts hreplaced fun _ hb => Or.inr hb
      have huploads₂ : d₂.multipart_uploads = db.multipart_uploads :=
        hreplaced.books.multipart_uploads.trans huploads
      dsimp only at hput
      obtain ⟨d₃, answer, hcommit⟩ : ∃ d₃ answer, Answers.commit_upload d₂
          { row_fails := env.row_query_fails, blocks_fails := env.blocks_query_fails } env.now
          upload_id total part.etag [part] condition = (d₃, answer) := ⟨_, _, rfl⟩
      obtain ⟨ht₃, hsub, hgone⟩ := tended_commit h₂ ht₂ hcommit
      rw [hcommit] at hput
      have hsub' : d₃.multipart_uploads ⊆ db.multipart_uploads := huploads₂ ▸ hsub
      -- the commit leaves the blocks to the object or to the part of the upload
      rcases answer with e | _ | ⟨object, freed⟩
      all_goals
        obtain ⟨rfl, rfl⟩ := Prod.mk.inj hput
      · exact ⟨ht₃, hsub', fun _ heq => (by cases heq)⟩
      · exact ⟨ht₃, hsub', fun _ heq => (by cases heq)⟩
      · exact ⟨ht₃, hsub', fun _ _ => hgone _ rfl⟩
    · cases (Prod.mk.inj hreplace).2

end Put

/-! ## At rest -/

/-- No request is running. -/
structure Rested (db : Database) : Prop where
  sound : Sound db
  tended : TendedBut [] db
  clients : ∀ u ∈ db.multipart_uploads, u.kind = .multipart

/-- A server that has served nothing is at rest. -/
theorem rested_empty : Rested {} :=
  ⟨sound_empty, tended_empty, fun _ hu => (by cases hu)⟩

section Rested

variable {s : Server} {scope : Scope} {db d : Database}

/-- **One whole operation** leads from rest to rest: it stages no block and begins no upload, so
there is nothing that a caller would have to finish. -/
theorem Rested.apply (h : Rested db) (op : Op) (hop : Proper db op) (hwhole : Whole op) :
    Rested (op.apply db) where
  sound := h.sound.apply hop
  tended := h.tended.apply h.sound.counts (by cases op <;> first | rfl | exact False.elim hwhole)
  clients := fun u hu => h.clients u (uploads_apply db op
    (fun upload heq => (by rw [heq] at hwhole; exact hwhole)) hu)

/-- Whole operations one after the other lead from rest to rest. -/
theorem Rested.commits (h : Rested db) (hcommits : Commits scope db d) : Rested d :=
  Leads.inv (fun _ _ hd hop => hd.apply _ hop.1.1 hop.2) h hcommits

/-- A client's upload begins. -/
theorem Rested.create_multipart (h : Rested db) {upload : UploadRecord}
    (hkind : upload.kind = .multipart) : Rested (create_upload db upload).1 := by
  have hop : Proper db (.create_upload upload) := ⟨trivial, trivial, trivial⟩
  have htended : TendedBut [] ((Op.create_upload upload).apply db) :=
    h.tended.apply h.sound.counts rfl
  refine ⟨h.sound.apply hop, htended, fun u hu => ?_⟩
  revert hu
  refine transaction_cases (P := fun d => u ∈ d.multipart_uploads → u.kind = .multipart)
    (h.clients u) (fun db' _ hok hu => ?_)
  obtain ⟨_, -, hok⟩ := bind_ok.mp hok
  obtain ⟨db₁, hinsert, hok⟩ := bind_ok.mp hok
  obtain ⟨rfl, -⟩ := Prod.mk.inj (Except.ok.inj hok)
  obtain ⟨rfl, -⟩ := insert_upload_ok hinsert
  rcases List.mem_append.mp hu with hold | hnew
  · exact h.clients u hold
  · rw [List.mem_singleton.mp hnew, hkind]

/-- **A PUT** takes its row away, whatever comes of it. -/
theorem Rested.put_object (h : Rested db) {env : Env} (hworks : env.CleansUp)
    (upload_id bucket key : String) (body : Body) (metadata : ObjectMetadata)
    (expected_length : Option Int) (condition : ObjectCondition) :
    Rested (Transfer.put_object env db upload_id bucket key body metadata expected_length
      condition).1 := by
  let scope : Scope := { nowhere with bucket := bucket, keys := (· = key) }
  have hsound : Sound (Transfer.put_object env db upload_id bucket key body metadata
      expected_length condition).1 := by
    have hwrites : Writes scope db (Transfer.put_object env db upload_id bucket key body metadata
        expected_length condition).1 :=
      writes_put_object env upload_id body metadata expected_length condition
        h.sound.counts.wellFormed rfl
    exact Sound.leads h.sound hwrites
  suffices hrest : TendedBut [] (Transfer.put_object env db upload_id bucket key body metadata
      expected_length condition).1 ∧ ∀ u ∈ (Transfer.put_object env db upload_id bucket key body
        metadata expected_length condition).1.multipart_uploads, u.kind = .multipart from
    ⟨hsound, hrest.1, hrest.2⟩
  unfold Transfer.put_object
  split_ifs
  · exact ⟨h.tended, h.clients⟩
  split
  · exact ⟨h.tended, h.clients⟩
  obtain ⟨d₁, created, hcreate⟩ : ∃ d₁ created, create_upload db
      { upload_id := upload_id, bucket := bucket, key := key, metadata := metadata, kind := .put
        created_at := env.now } = (d₁, created) := ⟨_, _, rfl⟩
  rw [hcreate]
  rcases created with e | u
  · unfold create_upload transaction at hcreate
    split at hcreate
    · cases (Prod.mk.inj hcreate).2
    · obtain ⟨rfl, -⟩ := Prod.mk.inj hcreate
      exact ⟨h.tended, h.clients⟩
  -- the row of the attempt is there now
  have hop : Proper db (Op.create_upload
      { upload_id := upload_id, bucket := bucket, key := key, metadata := metadata, kind := .put
        created_at := env.now }) := ⟨trivial, trivial, trivial⟩
  have h₁ : Sound d₁ := by
    have happly := h.sound.apply hop
    change Sound (create_upload db _).1 at happly
    rwa [hcreate] at happly
  have ht₁ : TendedBut [] d₁ := by
    have happly : TendedBut [] ((Op.create_upload
        { upload_id := upload_id, bucket := bucket, key := key, metadata := metadata, kind := .put
          created_at := env.now }).apply db) := h.tended.apply h.sound.counts rfl
    change TendedBut [] (create_upload db _).1 at happly
    rwa [hcreate] at happly
  have huploads : ∀ u ∈ d₁.multipart_uploads, u ∈ db.multipart_uploads ∨ u.upload_id = upload_id := by
    intro u hu
    unfold create_upload transaction at hcreate
    split at hcreate
    · rename_i htx
      obtain ⟨rfl, -⟩ := Prod.mk.inj hcreate
      obtain ⟨_, -, htx⟩ := bind_ok.mp htx
      obtain ⟨d₂, hinsert, htx⟩ := bind_ok.mp htx
      obtain ⟨rfl, -⟩ := Prod.mk.inj (Except.ok.inj htx)
      obtain ⟨rfl, -⟩ := insert_upload_ok hinsert
      exact (List.mem_append.mp hu).imp_right fun hnew => by rw [List.mem_singleton.mp hnew]
    · cases (Prod.mk.inj hcreate).2
  have hclients : ∀ d : Database, d.multipart_uploads ⊆ d₁.multipart_uploads →
      (∀ u ∈ d.multipart_uploads, u.upload_id ≠ upload_id) →
      ∀ u ∈ d.multipart_uploads, u.kind = .multipart :=
    fun d hsub hgone u hu => h.clients u ((huploads u (hsub hu)).resolve_right (hgone u hu))
  have hholds : Holds scope upload_id d₁ := holds_create_upload rfl rfl hcreate
  have hofput : OfPut upload_id d₁ := ofPut_create_upload rfl hcreate
  dsimp only
  obtain ⟨d₂, result, hput⟩ : ∃ d₂ result, Transfer.put_body env d₁ upload_id body expected_length
      condition = (d₂, result) := ⟨_, _, rfl⟩
  obtain ⟨ht₂, hsub, hgone⟩ := tended_put_body hworks h₁ ht₁ hput
  have h₂ : Sound d₂ := by
    have hwrites : Writes scope d₁
        (Transfer.put_body env d₁ upload_id body expected_length condition).1 :=
      writes_put_body h₁.counts.wellFormed hholds hofput
    rw [hput] at hwrites
    exact Sound.leads h₁ hwrites
  rw [hput]
  rcases result with e | object
  · dsimp only
    rw [hworks.abort_put_eq]
    refine ⟨ht₂.abort h₂.counts env.now upload_id, ?_⟩
    exact hclients _ (fun u hu => hsub (uploads_abort env.now upload_id hu).1)
      fun u hu => (uploads_abort env.now upload_id hu).2
  · exact ⟨ht₂, hclients d₂ hsub (hgone object rfl)⟩

/-- A part keeps the tables sound: it is a trace of proper operations, and that no object is
touched does not matter here. -/
theorem Sound.upload_part (h : Sound db) (upload_id : String) (part_number : Int) (body : Body)
    (expected_length : Option Int) :
    Sound (S3.Dispatch.engine_upload_part s db upload_id part_number body expected_length).1 := by
  let scope : Scope := { nowhere with parts := fun _ _ => True }
  have hwrites : Writes scope db
      (S3.Dispatch.engine_upload_part s db upload_id part_number body expected_length).1 :=
    writes_engine_upload_part h.counts.wellFormed trivial
  exact Sound.leads h hwrites

/-- **A part** is attached, or its blocks are cleaned up. -/
theorem Rested.upload_part (h : Rested db) (hworks : s.env.CleansUp) (upload_id : String)
    (part_number : Int) (body : Body) (expected_length : Option Int) :
    Rested (S3.Dispatch.engine_upload_part s db upload_id part_number body expected_length).1 := by
  have hwf := h.sound.counts.wellFormed
  have hsound : Sound
      (S3.Dispatch.engine_upload_part s db upload_id part_number body expected_length).1 :=
    Sound.upload_part h.sound upload_id part_number body expected_length
  suffices hrest : TendedBut []
      (S3.Dispatch.engine_upload_part s db upload_id part_number body expected_length).1
      ∧ ∀ u ∈ (S3.Dispatch.engine_upload_part s db upload_id part_number body
        expected_length).1.multipart_uploads, u.kind = .multipart from ⟨hsound, hrest.1, hrest.2⟩
  unfold S3.Dispatch.engine_upload_part
  split
  · exact ⟨h.tended, h.clients⟩
  split
  · exact ⟨h.tended, h.clients⟩
  split
  · exact ⟨h.tended, h.clients⟩
  split
  · exact ⟨h.tended, h.clients⟩
  -- the refusals came before any block was sent
  obtain ⟨d₁, sent, hsent⟩ : ∃ d₁ sent, Transfer.upload s.env db upload_id part_number body
      expected_length = (d₁, sent) := ⟨_, _, rfl⟩
  obtain ⟨huploads, hfailed, hended⟩ := tended_upload hworks hwf h.tended hsent
  have h₁ : Sound d₁ := by
    have hwrites : Writes nowhere db
        (Transfer.upload s.env db upload_id part_number body expected_length).1 :=
      writes_upload upload_id part_number body expected_length
    rw [hsent] at hwrites
    exact Sound.leads h.sound hwrites
  rw [hsent]
  rcases sent with e | ⟨part, size⟩
  · exact ⟨hfailed e rfl, huploads ▸ h.clients⟩
  obtain ⟨htended, -, hclean, hcleaned⟩ := hended part size rfl
  dsimp only
  obtain ⟨d₂, released, hreplace⟩ : ∃ d₂ released, replace_part d₁ s.env.now upload_id part_number
      size part.etag part.blocks = (d₂, released) := ⟨_, _, rfl⟩
  rw [hreplace]
  unfold replace_part transaction at hreplace
  rcases released with e | released
  · split at hreplace
    · cases (Prod.mk.inj hreplace).2
    · obtain ⟨rfl, -⟩ := Prod.mk.inj hreplace
      exact ⟨hclean, hcleaned ▸ h.clients⟩
  · split at hreplace
    · rename_i d₂ released htx
      obtain ⟨rfl, -⟩ := Prod.mk.inj hreplace
      have hreplaced := replace_part_tx_ok htx
      refine ⟨htended.replace_part h₁.counts hreplaced fun _ hb => Or.inr hb, ?_⟩
      rw [hreplaced.books.multipart_uploads]
      exact huploads ▸ h.clients
    · cases (Prod.mk.inj hreplace).2

/-- **Every call of a handler** leads from rest to rest. -/
theorem calls_rested (h : Rested db) (hworks : s.env.CleansUp) : Calls s scope db Rested where
  same := h
  create_bucket := fun _ =>
    h.apply (.create_bucket s.env.now scope.bucket) ⟨trivial, trivial, trivial⟩ trivial
  delete_bucket := fun _ =>
    h.apply (.delete_bucket scope.bucket) ⟨trivial, trivial, trivial⟩ trivial
  set_bucket_cors := fun configuration hstands =>
    h.apply (.set_bucket_cors s.env.now scope.bucket configuration) ⟨trivial, trivial, hstands⟩
      trivial
  delete_bucket_cors := h.apply (.delete_bucket_cors scope.bucket) ⟨trivial, trivial, trivial⟩
    trivial
  put_object := fun key body metadata length condition _ =>
    h.put_object hworks s.new_upload_id scope.bucket key body metadata length condition
  create_multipart := fun _ _ _ => h.create_multipart rfl
  upload_part := fun upload_id part_number body length _ _ =>
    h.upload_part hworks upload_id part_number body length
  complete_multipart := fun _ _ hholds => h.commits (commits_complete_multipart hholds)
  abort_multipart := fun _ hholds => h.commits (commits_abort s.env.now hholds)
  copy_object := fun _ _ _ _ _ hkey => h.commits (commits_engine_copy_object hkey)
  delete_object := fun _ _ hkey => h.commits (commits_engine_delete_object hkey)
  delete_each := fun _ hkeys => h.commits (commits_delete_each hkeys)

end Rested

/-- The database does not refuse this request the cleanup of a block or the abort of its PUT. The
other events clean up nothing that they have staged themselves. -/
def CleansUp : Event → Prop
  | .request _ _ _ s _ _ => s.env.CleansUp
  | .collect _ | .reclaim .. | .start .. => True

/-- **One event, from rest to rest.** A request is followed call by call; a pass of the collector
and a start stage no block, so that any of their operations would do. -/
theorem Rested.serve {db : Database} (h : Rested db) {event : Event} (hworks : CleansUp event) :
    Rested (serve db event) := by
  have hsweeps {d : Database} (hswept : Swept db d) : Rested d :=
    hswept.inv (fun _ op hd hop => hd.apply op (proper_of_sweeps hop) (by
      cases op <;> trivial)) h
  cases event with
  | request auth crypto now s request_id r =>
      change Rested (S3.Handle.handle auth crypto now s db request_id r).1
      rcases handle_cases auth crypto now s db request_id r with hsame | ⟨r', -, -, -, -, hdispatch⟩
      · rw [hsame]
        exact h
      · rw [hdispatch]
        cases hbucket : target_bucket s r' with
        | none =>
            rw [dispatch_no_bucket hbucket]
            exact h
        | some name => exact (calls_rested h hworks).dispatch hbucket
  | collect pass => exact hsweeps (swept_collect db pass)
  | reclaim telegram timestamp blocks => exact hsweeps (swept_process_gc_candidates _ _ _ _)
  | start now init_buckets =>
      refine Leads.inv (fun d op hd hop => ?_) h (created_init_buckets now db init_buckets)
      obtain ⟨bucket, rfl⟩ := hop
      exact hd.apply (.create_bucket now bucket) ⟨trivial, trivial, trivial⟩ trivial

/-- The tables are at rest after every run in which the database refuses no request its cleanup.
The induction is on the events; a single request is `Rested.serve`. -/
theorem rested_served {events : List Event} (hworks : ∀ event ∈ events, CleansUp event) :
    Rested (served events) :=
  exec_inv (C := fun _ event => CleansUp event) (fun _ _ h hevent => h.serve hevent) rested_empty
    (ExecMeets.of_mem (fun _ event hmem => hworks event hmem) _)

/-- A document that nothing refers to waits for the collector: it is not one of an upload that is
still running, since none is. -/
theorem Rested.queued {db : Database} (h : Rested db) {row : TelegramBlockRow}
    (hrow : row ∈ db.telegram_blocks) (hrefs : db.refs row.id = 0) :
    row.ref_count = 0 ∧ db.queued row.id := by
  have hwf := h.sound.counts.wellFormed
  have haccount : db.account row.id = some
      { count := row.ref_count, staged := decide (row.state = .staged)
        queued := decide (db.queued row.id) } :=
    (account_eq_some _).mpr ⟨row, lookup_eq_some hwf.block_ids hrow rfl, rfl⟩
  have hqueued := h.tended row.id List.not_mem_nil _ haccount hrefs
  rcases (h.sound.counts.balanced row.id _ haccount).free hrefs with ⟨-, -, hnot⟩ | ⟨hcount, -⟩
  · rw [hnot] at hqueued
    cases hqueued
  · exact ⟨hcount, of_decide_eq_true hqueued⟩

/-- At rest the count of a block is the number of its references, and the queue holds the blocks
without one. While requests run neither is true: a staged block has a count and no reference. -/
theorem Rested.counted {db : Database} (h : Rested db) {row : TelegramBlockRow}
    (hrow : row ∈ db.telegram_blocks) :
    row.ref_count = db.refs row.id ∧ (db.queued row.id ↔ db.refs row.id = 0) := by
  have hexact := Counts.exact_of_balanced h.sound.counts.wellFormed h.sound.counts.balanced
  rcases Nat.eq_zero_or_pos (db.refs row.id) with hrefs | hrefs
  · obtain ⟨hcount, hqueued⟩ := h.queued hrow hrefs
    refine ⟨?_, iff_of_true hqueued hrefs⟩
    rw [hcount, hrefs]
  · obtain ⟨hcount, hqueued⟩ := hexact.held row hrow hrefs
    exact ⟨hcount, iff_of_false hqueued hrefs.ne'⟩

section Sample

end Sample

end Tg2s3.AtRest
