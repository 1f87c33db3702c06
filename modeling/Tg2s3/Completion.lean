/-
`src/engine/multipart.rs`, `complete_multipart`: what a completed upload is made of.

The parts are read by two queries outside the transaction, after a third one for
the upload; a part may be replaced between any two of them and before the commit.
`select_parts` works on what was read. What it has checked there -- sizes, ETags,
order -- is worth something only because `verify_parts_tx` compares the selected
parts with the persisted ones inside the transaction, part by part and block by
block. So the checks hold of the parts as they are at the commit (`Assembled`).

MD5 is a parameter: nothing depends on how it is computed.
-/
import Mathlib
import Tg2s3.Answers
import Tg2s3.Lib.Hex

set_option autoImplicit false

namespace Tg2s3.Completion

open Tg2s3 Relational Machine
open Tg2s3.Answers (Reread)
open Tg2s3.Counts (sent upload_record put_first reuse_ids snapshot copy_late)

/-! ## The source -/

inductive EngineError
  | db (error : DbError)
  | invalid_part_order
  | entity_too_small
  | multipart_too_large
  | entity_too_large
  deriving DecidableEq, Repr

def EngineError.message : EngineError → String
  | .db error => error.message
  | .invalid_part_order => "InvalidPartOrder"
  | .entity_too_small => "EntityTooSmall"
  | .multipart_too_large => "multipart object is too large"
  | .entity_too_large => "EntityTooLarge"

def MIN_MULTIPART_PART : Int := 5 * 1024 * 1024

def MAX_MULTIPART_PARTS : ℕ := 10000

/-- `if !cond { bail!(error) }` in the engine. -/
def ensure (cond : Prop) [Decidable cond] (error : EngineError) : Except EngineError Unit :=
  if cond then .ok () else .error error

/-- `ok_or_else(..)?`. -/
def ok_or {α : Type} (value : Option α) (error : EngineError) : Except EngineError α :=
  match value with
  | some a => .ok a
  | none => .error error

/-- `hex::decode` of an ETag, if it has the 16 bytes of an MD5. -/
def part_digest (etag : String) : Option (List UInt8) :=
  (Hex.decode (normalize_etag etag).toList).filter (·.length = 16)

/-- The loop over the requested parts: the parts in order, the bytes that go into the
composite, and the total size. -/
def select_parts (max_object_size : Int) :
    List PartRecord → List (Int × String) → Int →
      Except EngineError (List PartRecord × List UInt8 × Int)
  | _, [], total_size => .ok ([], [], total_size)
  | stored, (part_number, requested_etag) :: rest, total_size => do
      let part ← ok_or (stored.find? (·.part_number = part_number)) (.db .invalid_part)
      ensure (normalize_etag part.etag = normalize_etag requested_etag) (.db .invalid_part)
      ensure (rest = [] ∨ MIN_MULTIPART_PART ≤ part.size) .entity_too_small
      let digest ← ok_or (part_digest part.etag) (.db .invalid_part)
      let total_size ← ok_or (checked_add total_size part.size) .multipart_too_large
      ensure (total_size ≤ max_object_size) .entity_too_large
      let (ordered, digests, total_size) ←
        select_parts max_object_size (stored.filter (·.part_number ≠ part_number)) rest total_size
      pure (part :: ordered, digest ++ digests, total_size)

/-- `format!("{:x}-{}", composite.finalize(), requested.len())`. -/
def composite_etag (md5 : List UInt8 → List UInt8) (digests : List UInt8) (count : ℕ) : String :=
  String.ofList (Hex.encode (md5 digests)) ++ "-" ++ toString count

/-- Everything before the commit, each query in the state it finds. -/
def prepare (md5 : List UInt8 → List UInt8) (max_object_size : Int)
    (upload_state rows_state blocks_state : Database) (upload_id : String)
    (requested : List (Int × String)) : Except EngineError (List PartRecord × Int × String) := do
  let upload ← ok_or (get_upload upload_state upload_id) (.db .no_such_upload)
  ensure (upload.kind = .multipart) (.db .no_such_upload)
  ensure (requested ≠ [] ∧ requested.length ≤ MAX_MULTIPART_PARTS) (.db .invalid_part)
  ensure (requested.IsChain (·.1 < ·.1)) .invalid_part_order
  let stored := parts_from_rows (get_parts_rows rows_state upload_id false)
    (get_parts_blocks blocks_state upload_id false)
  let (ordered, digests, total_size) ← select_parts max_object_size stored requested 0
  pure (ordered, total_size, composite_etag md5 digests requested.length)

/-- `complete_multipart`; the first component is what its transaction leaves. -/
def complete_multipart (md5 : List UInt8 → List UInt8) (max_object_size : Int)
    (upload_state rows_state blocks_state commit_state : Database) (r : Reread) (now : Int)
    (upload_id : String) (requested : List (Int × String)) :
    Database × Except EngineError ObjectRecord :=
  match prepare md5 max_object_size upload_state rows_state blocks_state upload_id requested with
  | .error e => (commit_state, .error e)
  | .ok (ordered, total_size, etag) =>
      match Answers.commit_upload commit_state r now upload_id total_size etag ordered {} with
      | (db', .ok (some (object, _))) => (db', .ok object)
      | (db', .ok none) => (db', .error (.db .no_such_upload))
      | (db', .error e) => (db', .error (.db e))

/-! ## What a completed upload should be -/

/-- The rows of `multipart_part_blocks` for the requested parts, in request order. -/
def persisted_rows (db : Database) (upload_id : String) (requested : List (Int × String)) :
    List PartBlockRow :=
  requested.flatMap fun p => db.part_block_rows upload_id p.1

/-- The rows of an object made of these: ordinals count up, and each offset is the end
of the row before it. -/
def rebased (object_id : Int) : Int → Int → List PartBlockRow → List ObjectBlockRow
  | _, _, [] => []
  | ordinal, offset, r :: rest =>
      { object_id := object_id, ordinal := ordinal, block_id := r.block_id, byte_offset := offset,
        size := r.size } :: rebased object_id (ordinal + 1) (offset + r.size) rest

/-- The size of a part as it is persisted. -/
def persisted_size (db : Database) (upload_id : String) (part_number : Int) : Int :=
  ((db.part? upload_id part_number).map (·.size)).getD 0

/-- The MD5 of a part as its persisted ETag gives it. -/
def persisted_digest (db : Database) (upload_id : String) (part_number : Int) : List UInt8 :=
  ((db.part? upload_id part_number).bind fun row => part_digest row.etag).getD []

/-- The block ids of the parts that were not listed. -/
def unlisted (db : Database) (upload_id : String) (requested : List (Int × String)) : List Int :=
  (db.multipart_part_blocks.filter
    (fun r => r.upload_id = upload_id ∧ r.part_number ∉ requested.map (·.1))).map (·.block_id)

/-- How many rows of parts that were not listed refer to the block. -/
def unlisted_refs (db : Database) (upload_id : String) (requested : List (Int × String))
    (b : Int) : ℕ :=
  (unlisted db upload_id requested).count b

/-- The count of a block when the commit comes to the parts that were not listed: the object at
the key has given its references back by then, and a block of a listed part counts once at
least. -/
def carried (db : Database) (upload : UploadRecord) (requested : List (Int × String)) (b : Int)
    (count : ℕ) : ℕ :=
  let kept := count - times b (held_by_object db upload.bucket upload.key)
  if b ∈ (persisted_rows db upload.upload_id requested).map (·.block_id) then max kept 1 else kept

/-- `db'` is `db` with the upload assembled from the requested parts, as they are
persisted in `db`. -/
structure Assembled (md5 : List UInt8 → List UInt8) (max_object_size : Int) (db : Database)
    (upload : UploadRecord) (requested : List (Int × String)) (db' : Database) : Prop where
  nonempty : requested ≠ []
  at_most : requested.length ≤ 10000
  increasing : (requested.map (·.1)).Pairwise (· < ·)
  persisted : ∀ p ∈ requested, ∃ row, db.part? upload.upload_id p.1 = some row
    ∧ normalize_etag row.etag = normalize_etag p.2 ∧ (part_digest row.etag).isSome
  large : ∀ p ∈ requested.dropLast,
    5 * 1024 * 1024 ≤ persisted_size db upload.upload_id p.1
  bounded : (requested.map fun p => persisted_size db upload.upload_id p.1).sum ≤ max_object_size
  object : ∃ o, db'.object? upload.bucket upload.key = some o
    ∧ o.size = (requested.map fun p => persisted_size db upload.upload_id p.1).sum
    ∧ o.etag = composite_etag md5
        (requested.flatMap fun p => persisted_digest db upload.upload_id p.1) requested.length
    ∧ db'.object_block_rows o.id = rebased o.id 0 0 (persisted_rows db upload.upload_id requested)
  /-- each row of a part that was not listed takes one off the count of its block, and the block
  is queued when none is left -/
  released : ∀ b ∈ unlisted db upload.upload_id requested, ∃ row row',
    db.block? b = some row ∧ db'.block? b = some row'
      ∧ row'.ref_count = carried db upload requested b row.ref_count
          - unlisted_refs db upload.upload_id requested b
      ∧ (row'.ref_count = 0 → db'.queued b)

/-! ## The checks before the commit -/

theorem ensure_ok {cond : Prop} [Decidable cond] {error : EngineError} {u : Unit} :
    ensure cond error = .ok u ↔ cond := by
  unfold ensure
  split_ifs with h <;> simp [h]

theorem ok_or_ok {α : Type} {value : Option α} {error : EngineError} {a : α} :
    ok_or value error = .ok a ↔ value = some a := by
  unfold ok_or
  cases value <;> simp

/-- A requested entry and the part that was selected for it. -/
def Selected (p : Int × String) (part : PartRecord) : Prop :=
  part.part_number = p.1 ∧ normalize_etag part.etag = normalize_etag p.2

/-- **What the loop has checked** of the parts it selected. -/
theorem select_parts_ok {max_object_size : Int} {stored : List PartRecord}
    {requested : List (Int × String)} {total total' : Int} {ordered : List PartRecord}
    {digests : List UInt8}
    (h : select_parts max_object_size stored requested total = .ok (ordered, digests, total')) :
    List.Forall₂ Selected requested ordered
      ∧ (∀ part ∈ ordered.dropLast, MIN_MULTIPART_PART ≤ part.size)
      ∧ (∀ part ∈ ordered, (part_digest part.etag).isSome)
      ∧ digests = ordered.flatMap (fun part => (part_digest part.etag).getD [])
      ∧ total' = total + (ordered.map (·.size)).sum
      ∧ (ordered ≠ [] → total' ≤ max_object_size) := by
  induction requested generalizing stored total ordered digests total' with
  | nil =>
      obtain ⟨rfl, hrest⟩ := Prod.mk.inj (Except.ok.inj h)
      obtain ⟨rfl, rfl⟩ := Prod.mk.inj hrest
      simp
  | cons p rest ih =>
      -- the checks in the order of the loop body
      obtain ⟨part, hpart, h⟩ := bind_ok.mp h
      obtain ⟨_, hetag, h⟩ := bind_ok.mp h
      obtain ⟨_, hlarge, h⟩ := bind_ok.mp h
      obtain ⟨digest, hdigest, h⟩ := bind_ok.mp h
      obtain ⟨total₁, hadd, h⟩ := bind_ok.mp h
      obtain ⟨_, hbound, h⟩ := bind_ok.mp h
      obtain ⟨⟨ordered₁, digests₁, total₂⟩, hrest, h⟩ := bind_ok.mp h
      obtain ⟨rfl, hres⟩ := Prod.mk.inj (Except.ok.inj h)
      obtain ⟨rfl, rfl⟩ := Prod.mk.inj hres
      obtain ⟨hselected, hlarge', hsome, hdigests, hsum, hbound'⟩ := ih hrest
      have hdigest' := ok_or_ok.mp hdigest
      have hadd' : total₁ = total + part.size := by
        have hsome := ok_or_ok.mp hadd
        unfold checked_add at hsome
        split_ifs at hsome
        exact (Option.some.inj hsome).symm
      refine ⟨List.Forall₂.cons ⟨?_, ensure_ok.mp hetag⟩ hselected, ?_, ?_, ?_, ?_, ?_⟩
      · simpa using List.find?_some (ok_or_ok.mp hpart)
      · intro q hq
        cases hselected with
        | nil => simp at hq
        | cons _ _ =>
            -- the size is checked where more parts follow
            rcases ensure_ok.mp hlarge with hnil | hsize
            · cases hnil
            · rw [List.dropLast_cons_cons] at hq
              rcases List.mem_cons.mp hq with rfl | hq
              · exact hsize
              · exact hlarge' q hq
      · intro q hq
        rcases List.mem_cons.mp hq with rfl | hq
        · rw [hdigest']
          rfl
        · exact hsome q hq
      · rw [List.flatMap_cons, hdigest', hdigests]
        rfl
      · rw [hsum, hadd', List.map_cons, List.sum_cons]
        omega
      · intro _
        cases hselected with
        | nil =>
            -- the bound that was checked last is the bound of the whole sum
            have := ensure_ok.mp hbound
            simp only [List.map_nil, List.sum_nil, Int.add_zero] at hsum
            omega
        | cons _ _ => exact hbound' (by simp)

/-! ## The checks inside the transaction -/

/-- The selected part is the one that is persisted under the requested number, with
the requested ETag. -/
def Persisted (db : Database) (upload_id : String) (p : Int × String) (part : PartRecord) : Prop :=
  ∃ row, db.part? upload_id p.1 = some row ∧ row.size = part.size
    ∧ normalize_etag row.etag = normalize_etag part.etag
    ∧ normalize_etag row.etag = normalize_etag p.2
    ∧ (db.part_block_rows upload_id p.1).map (fun r => (r.block_id, r.byte_offset, r.size))
        = part.blocks.map (fun b => (b.id, b.offset, b.size))

theorem persisted_of_selected {db : Database} {upload_id : String} {p : Int × String}
    {part : PartRecord} (hselected : Selected p part) (h : part_matches db upload_id part) :
    Persisted db upload_id p part := by
  obtain ⟨hnumber, hetag⟩ := hselected
  unfold part_matches at h
  cases hrow : db.part? upload_id part.part_number with
  | none => rw [hrow] at h; exact h.elim
  | some row =>
      rw [hrow] at h
      obtain ⟨hsize, hsame, hblocks⟩ := h
      exact ⟨row, hnumber ▸ hrow, hsize, hsame, hsame.trans hetag, hnumber ▸ hblocks⟩

theorem all_persisted {db : Database} {upload_id : String} {requested : List (Int × String)}
    {ordered : List PartRecord} (hselected : List.Forall₂ Selected requested ordered)
    (h : ∀ part ∈ ordered, part_matches db upload_id part) :
    List.Forall₂ (Persisted db upload_id) requested ordered := by
  induction hselected with
  | nil => exact List.Forall₂.nil
  | cons hfirst _ ih =>
      exact List.Forall₂.cons (persisted_of_selected hfirst (h _ List.mem_cons_self))
        (ih fun part hpart => h part (List.mem_cons_of_mem _ hpart))

/-- What related entries agree on, the lists agree on. -/
theorem map_eq_of_forall₂ {α β γ : Type*} {R : α → β → Prop} {f : α → γ} {g : β → γ}
    (hR : ∀ a b, R a b → f a = g b) {l₁ : List α} {l₂ : List β} (h : List.Forall₂ R l₁ l₂) :
    l₁.map f = l₂.map g := by
  have hmap : List.Forall₂ (· = ·) (l₁.map f) (l₂.map g) :=
    List.forall₂_map_left_iff.mpr (List.forall₂_map_right_iff.mpr (h.imp hR))
  rwa [List.forall₂_eq_eq_eq] at hmap

section Persisted

variable {db : Database} {upload_id : String} {p : Int × String} {part : PartRecord}

theorem Persisted.size (h : Persisted db upload_id p part) :
    persisted_size db upload_id p.1 = part.size := by
  obtain ⟨row, hrow, hsize, -⟩ := h
  unfold persisted_size
  rw [hrow]
  exact hsize

theorem Persisted.digest (h : Persisted db upload_id p part) :
    persisted_digest db upload_id p.1 = (part_digest part.etag).getD [] := by
  obtain ⟨row, hrow, -, hetag, -⟩ := h
  unfold persisted_digest part_digest
  rw [hrow, Option.bind_some, hetag]

theorem Persisted.blocks (h : Persisted db upload_id p part) :
    (db.part_block_rows upload_id p.1).map (fun r => (r.block_id, r.size))
      = part.blocks.map (fun b => (b.id, b.size)) := by
  obtain ⟨row, -, -, -, -, hblocks⟩ := h
  have := congrArg (List.map fun t : Int × Int × Int => (t.1, t.2.2)) hblocks
  simpa [List.map_map, Function.comp_def] using this

end Persisted

/-- Numbering and rebasing only look at the block id and the size. -/
theorem committed_rows_eq_rebased {object_id ordinal offset : Int} {blocks : List BlockRef}
    {rows : List PartBlockRow}
    (h : rows.map (fun r => (r.block_id, r.size)) = blocks.map (fun b => (b.id, b.size))) :
    committed_rows object_id ordinal offset blocks = rebased object_id ordinal offset rows := by
  induction blocks generalizing ordinal offset rows with
  | nil =>
      rw [List.map_nil, List.map_eq_nil_iff] at h
      rw [h]
      rfl
  | cons block blocks ih =>
      cases rows with
      | nil => cases h
      | cons r rows =>
          rw [List.map_cons, List.map_cons, List.cons.injEq, Prod.mk.injEq] at h
          obtain ⟨⟨hid, hsize⟩, hrest⟩ := h
          unfold committed_rows rebased
          rw [ih hrest, hid, hsize]

/-! ## The parts that were not listed -/

/-- The commit releases a block once for each row of a part that was not listed. -/
theorem times_unused_blocks {db : Database} (hwf : WellFormed db) {upload_id : String}
    {parts : List PartRecord} {requested : List (Int × String)}
    (hnumbers : parts.map (·.part_number) = requested.map (·.1)) (b : Int) :
    times b (unused_blocks db upload_id parts) = unlisted_refs db upload_id requested b := by
  have hunused : (unused_blocks db upload_id parts).map (·.row)
      = ((db.upload_block_rows upload_id).filter
          (fun r => r.part_number ∉ parts.map (·.part_number))).map (·.columns) := by
    refine hwf.join_part_rows (fun r hr => ?_)
    have hsorted := (List.mem_insertionSort _).mp (List.mem_filter.mp hr).1
    exact (List.mem_filter.mp hsorted).1
  -- the rows are those of the upload, in another order
  have hperm : ((db.upload_block_rows upload_id).filter
      (fun r => r.part_number ∉ parts.map (·.part_number))).Perm
      (db.multipart_part_blocks.filter
        (fun r => r.upload_id = upload_id ∧ r.part_number ∉ requested.map (·.1))) := by
    rw [hnumbers]
    unfold Database.upload_block_rows
    refine ((List.perm_insertionSort _ _).filter _).trans ?_
    rw [List.filter_filter]
    refine (List.filter_congr fun r _ => ?_) ▸ List.Perm.refl _
    rw [Bool.and_comm, Bool.decide_and]
  unfold times unlisted_refs unlisted
  rw [ids_of_rows hunused]
  exact (hperm.map _).count_eq b

/-- A release that takes the last count queues the block. -/
theorem queued_of_release {k : ℕ} {a : RefCount.Account} (hk : 0 < k) (ha : a.count ≤ k) :
    (RefCount.Account.release k a).queued = true := by
  unfold RefCount.Account.release
  have : 0 < k ∧ a.count - k = 0 := ⟨hk, by omega⟩
  simp [this]

section Released

variable {db db' : Database} {now : Int} {upload_id : String} {size : Int} {etag : String}
  {parts : List PartRecord} {condition : ObjectCondition} {upload : UploadRecord}
  {released : List BlockRef}

/-- The account of a released block, after the commit. -/
theorem account_of_unused
    (h : Committed db now upload_id size etag parts condition upload released db') {b : Int}
    (hb : 0 < times b (unused_blocks db upload_id parts)) :
    ∃ a, db.account b = some a
      ∧ db'.account b = some (RefCount.Account.release (times b (unused_blocks db upload_id parts))
          (RefCount.Account.settle (times b (parts.flatMap (·.blocks)))
            (RefCount.Account.release (times b (held_by_object db upload.bucket upload.key)) a))) := by
  obtain ⟨block, hblock, rfl⟩ := List.mem_map.mp (times_pos.mp hb)
  obtain ⟨r, -, hjoin⟩ := List.mem_filterMap.mp hblock
  obtain ⟨row, hrow, rfl⟩ := Option.map_eq_some_iff.mp hjoin
  obtain ⟨hmem, -⟩ := lookup_mem (hrow : lookup _ _ db.telegram_blocks = some row)
  have hsome := (account_ne_none db).mpr (List.mem_map_of_mem (f := (·.id)) hmem)
  obtain ⟨a, ha⟩ := Option.ne_none_iff_exists'.mp hsome
  refine ⟨a, ha, ?_⟩
  exact (h.account row.id).trans (by rw [ha]; rfl)

/-- A released block has lost the counts of the parts that were not listed. -/
theorem row_of_unused
    (h : Committed db now upload_id size etag parts condition upload released db') {b : Int}
    (hb : 0 < times b (unused_blocks db upload_id parts)) :
    ∃ row row', db.block? b = some row ∧ db'.block? b = some row'
      ∧ row'.ref_count = (RefCount.Account.settle (times b (parts.flatMap (·.blocks)))
          (RefCount.Account.release (times b (held_by_object db upload.bucket upload.key))
            { count := row.ref_count, staged := false, queued := false })).count
          - times b (unused_blocks db upload_id parts)
      ∧ (row'.ref_count = 0 → db'.queued b) := by
  obtain ⟨a, ha, hafter⟩ := account_of_unused h hb
  obtain ⟨row, hrow, rfl⟩ := (account_eq_some db).mp ha
  obtain ⟨row', hrow', heq⟩ := (account_eq_some db').mp hafter
  have hcount := congrArg RefCount.Account.count heq
  refine ⟨row, row', hrow, hrow', ?_, fun hzero => ?_⟩
  · refine hcount.symm.trans ?_
    unfold RefCount.Account.settle RefCount.Account.release
    split_ifs <;> rfl
  · refine (queued_iff_account hafter).mpr (queued_of_release hb ?_)
    -- nothing is left, so the release took all there was
    have hleft := hcount.trans hzero
    unfold RefCount.Account.release at hleft ⊢
    dsimp only at hleft ⊢
    omega

end Released

/-! ## The result -/

/-- **A commit of selected parts assembles them**, as they are persisted at the commit. -/
theorem assembled {md5 : List UInt8 → List UInt8} {max_object_size : Int} {db db' : Database}
    {now : Int} {upload_id : String} {requested : List (Int × String)} {stored : List PartRecord}
    {ordered : List PartRecord} {digests : List UInt8} {total : Int} {upload : UploadRecord}
    {released : List BlockRef} (hwf : WellFormed db)
    (hcount : requested ≠ [] ∧ requested.length ≤ MAX_MULTIPART_PARTS)
    (hchain : requested.IsChain (·.1 < ·.1))
    (hselect : select_parts max_object_size stored requested 0 = .ok (ordered, digests, total))
    (hcommit : Committed db now upload_id total (composite_etag md5 digests requested.length)
      ordered {} upload released db') :
    Assembled md5 max_object_size db upload requested db' := by
  obtain ⟨hselected, hlarge, hsome, hdigests, htotal, hbound⟩ := select_parts_ok hselect
  -- what the loop selected is what the rows say at the commit: verify_parts has compared them
  have hpersisted := all_persisted hselected (verify_parts_tx_ok hcommit.verified).2
  obtain rfl : upload.upload_id = upload_id := (lookup_mem hcommit.upload_row).2
  have hsizes : requested.map (fun p => persisted_size db upload.upload_id p.1)
      = ordered.map (·.size) := map_eq_of_forall₂ (fun _ _ h => h.size) hpersisted
  have hsum : (requested.map fun p => persisted_size db upload.upload_id p.1).sum = total := by
    rw [hsizes, htotal, Int.zero_add]
  have hnumbers : ordered.map (·.part_number) = requested.map (·.1) :=
    (map_eq_of_forall₂ (fun _ _ h => h.1.symm) hselected).symm
  have hbytes : requested.flatMap (fun p => persisted_digest db upload.upload_id p.1) = digests := by
    rw [hdigests, List.flatMap_def, List.flatMap_def]
    exact congrArg List.flatten (map_eq_of_forall₂ (fun _ _ h => h.digest) hpersisted)
  -- from there each sum, digest and row list is rewritten over the request
  have hrows : (persisted_rows db upload.upload_id requested).map (fun r => (r.block_id, r.size))
      = (ordered.flatMap (·.blocks)).map (fun b => (b.id, b.size)) := by
    unfold persisted_rows
    rw [List.map_flatMap, List.map_flatMap, List.flatMap_def, List.flatMap_def]
    exact congrArg List.flatten (map_eq_of_forall₂ (fun _ _ h => h.blocks) hpersisted)
  obtain ⟨hobject, -⟩ := hcommit.object hwf
  have hids : (ordered.flatMap (·.blocks)).map (·.id)
      = (persisted_rows db upload.upload_id requested).map (·.block_id) := by
    have hblocks := congrArg (List.map fun t : Int × Int => t.1) hrows
    simp only [List.map_map, Function.comp_def] at hblocks
    exact hblocks.symm
  refine
    { nonempty := hcount.1
      at_most := hcount.2
      increasing := ?_
      persisted := ?_
      large := ?_
      bounded := ?_
      object := ⟨_, hobject, hsum.symm, ?_, ?_⟩
      released := ?_ }
  · exact List.isChain_iff_pairwise.mp ((List.isChain_map _).mpr hchain)
  · intro p hp
    obtain ⟨i, hi, rfl⟩ := List.getElem_of_mem hp
    have hi' : i < ordered.length := hpersisted.length_eq ▸ hi
    obtain ⟨row, hrow, -, hsame, hetag, -⟩ := List.forall₂_iff_get.mp hpersisted |>.2 i hi hi'
    refine ⟨row, hrow, hetag, ?_⟩
    have hdigest := hsome _ (List.getElem_mem hi')
    unfold part_digest at hdigest ⊢
    rw [hsame]
    exact hdigest
  · intro p hp
    -- the last part alone may be small
    have hdrop : requested.dropLast.map (fun p => persisted_size db upload.upload_id p.1)
        = ordered.dropLast.map (·.size) := by
      rw [List.map_dropLast, List.map_dropLast, hsizes]
    have hmem : persisted_size db upload.upload_id p.1 ∈ ordered.dropLast.map (·.size) :=
      hdrop ▸ List.mem_map.mpr ⟨p, hp, rfl⟩
    obtain ⟨part, hpart, hsize⟩ := List.mem_map.mp hmem
    exact hsize ▸ hlarge part hpart
  · rw [hsum]
    refine hbound (fun hnil => hcount.1 ?_)
    rw [hnil] at hselected
    exact List.forall₂_nil_right_iff.mp hselected
  · rw [hbytes]
    rfl
  · rw [hcommit.object_block_rows hwf]
    exact committed_rows_eq_rebased hrows
  · intro b hb
    have htimes : times b (unused_blocks db upload.upload_id ordered)
        = unlisted_refs db upload.upload_id requested b := times_unused_blocks hwf hnumbers b
    have hpos : 0 < times b (unused_blocks db upload.upload_id ordered) := by
      rw [htimes]
      exact List.count_pos_iff.mpr hb
    obtain ⟨row, row', hrow, hrow', hcount, hqueued⟩ := row_of_unused hcommit hpos
    refine ⟨row, row', hrow, hrow', ?_, hqueued⟩
    -- the count loses the references of the parts that are not listed
    rw [hcount, htimes]
    congr 1
    unfold carried RefCount.Account.settle RefCount.Account.release
    by_cases hlisted : b ∈ (persisted_rows db upload.upload_id requested).map (·.block_id)
    · rw [if_pos hlisted, if_pos (times_pos.mpr (hids ▸ hlisted))]
    · have hnone : ¬ 0 < times b (ordered.flatMap (·.blocks)) :=
        fun htaken => hlisted (hids ▸ times_pos.mp htaken)
      rw [if_neg hlisted, if_neg hnone]

/-- **What `complete_multipart` does.** Whatever other requests commit between its
queries and its commit, it leaves the database as they did and returns an error, or
it assembles the requested parts as they are at the commit. -/
theorem complete_multipart_assembles (md5 : List UInt8 → List UInt8) (max_object_size : Int)
    (past ops₁ ops₂ ops₃ : List Op) (r : Reread) (now : Int) (upload_id : String)
    (requested : List (Int × String)) :
    let db := after (past ++ ops₁ ++ ops₂ ++ ops₃)
    let result := complete_multipart md5 max_object_size (after past) (after (past ++ ops₁))
      (after (past ++ ops₁ ++ ops₂)) db r now upload_id requested
    (result.1 = db ∧ ∃ e, result.2 = .error e)
      ∨ ∃ upload, get_upload db upload_id = some upload
          ∧ Assembled md5 max_object_size db upload requested result.1 := by
  intro db result
  have hwf : WellFormed db := wellFormed_after _
  unfold result
  unfold complete_multipart
  cases hprepare : prepare md5 max_object_size (after past) (after (past ++ ops₁))
      (after (past ++ ops₁ ++ ops₂)) upload_id requested with
  | error e => exact Or.inl ⟨rfl, e, rfl⟩
  | ok prepared =>
      obtain ⟨ordered, total_size, etag⟩ := prepared
      -- what prepare has checked, on what the three queries found
      obtain ⟨upload₀, -, h⟩ := bind_ok.mp hprepare
      obtain ⟨_, -, h⟩ := bind_ok.mp h
      obtain ⟨_, hcount, h⟩ := bind_ok.mp h
      obtain ⟨_, hchain, h⟩ := bind_ok.mp h
      obtain ⟨⟨ordered', digests, total⟩, hselect, h⟩ := bind_ok.mp h
      obtain ⟨rfl, hres⟩ := Prod.mk.inj (Except.ok.inj h)
      obtain ⟨rfl, rfl⟩ := Prod.mk.inj hres
      simp only [Answers.commit_upload]
      -- the transaction compares with the tables again
      cases hcommit : commit_upload_tx db now upload_id total
          (composite_etag md5 digests requested.length) ordered' {} with
      | error e => exact Or.inl ⟨rfl, _, rfl⟩
      | ok committed =>
          obtain ⟨db', written⟩ := committed
          cases written with
          | none => exact Or.inl ⟨commit_upload_tx_none hcommit, _, rfl⟩
          | some written =>
              obtain ⟨upload, released⟩ := written
              right
              have hok := commit_upload_tx_ok hcommit
              refine ⟨upload, hok.upload_row, ?_⟩
              have hassembled := assembled hwf (ensure_ok.mp hcount) (ensure_ok.mp hchain) hselect hok
              dsimp only
              -- the read-back decides the answer, not the tables
              cases Answers.reread db' r upload.bucket upload.key .disappeared_after_commit with
              | error e => exact hassembled
              | ok object => exact hassembled

/-! ## ETags the engine has made

A part that was uploaded here has the hex text of an MD5 as its ETag, so what goes
into the composite is that MD5. -/

theorem trim_matches_eq_self {p : Char → Bool} {s : List Char} (h : ∀ c ∈ s, p c = false) :
    trim_matches p s = s := by
  have hdrop : ∀ l : List Char, (∀ c ∈ l, p c = false) → l.dropWhile p = l := by
    intro l hl
    cases l with
    | nil => rfl
    | cons c l => rw [List.dropWhile_cons_of_neg (by simp [hl c List.mem_cons_self])]
  unfold trim_matches
  rw [hdrop s h, hdrop s.reverse (fun c hc => h c (List.mem_reverse.mp hc)), List.reverse_reverse]

/-- A hex digit is neither a blank nor a quote. -/
theorem not_trimmed_of_digit {c : Char} (h : Hex.value c ≠ none) :
    is_whitespace c = false ∧ c ≠ '"' := by
  have hrange : (48 ≤ c.toNat ∧ c.toNat ≤ 57) ∨ (97 ≤ c.toNat ∧ c.toNat ≤ 102)
      ∨ (65 ≤ c.toNat ∧ c.toNat ≤ 70) := by
    unfold Hex.value at h
    split_ifs at h with hdigit hlower hupper
    · exact Or.inl hdigit
    · exact Or.inr (Or.inl hlower)
    · exact Or.inr (Or.inr hupper)
    · exact absurd rfl h
  constructor
  · simp only [is_whitespace, Bool.or_eq_false_iff, Bool.and_eq_false_iff, decide_eq_false_iff_not]
    omega
  · rintro rfl
    rcases hrange with h | h | h <;> revert h <;> decide

/-- The ETag that the upload of a part writes is a digest that the completion reads back. -/
theorem part_digest_encode {bytes : List UInt8} (h : bytes.length = 16) :
    part_digest (String.ofList (Hex.encode bytes)) = some bytes := by
  have hdigits : ∀ c ∈ Hex.encode bytes, is_whitespace c = false ∧ c ≠ '"' :=
    fun c hc => not_trimmed_of_digit (Hex.isDigit_of_mem_encode c hc)
  unfold part_digest normalize_etag
  simp only [String.toList_ofList]
  rw [trim_matches_eq_self (fun c hc => (hdigits c hc).1),
    trim_matches_eq_self (fun c hc => decide_eq_false (hdigits c hc).2), Hex.decode_encode]
  simp [Option.filter_some, h]

/-! ## A block that is not queued

A copy that read its source long ago names block 1 by id. Meanwhile the block was
collected and its id went to a part of this upload, so the copy refers to the part's
block. The upload is completed without that part. -/

/-- The object of five bytes is gone; an empty one has its name and its row id. -/
def emptied : List Op := put_first ++ reuse_ids.take 5

def two_parts : List Op :=
  [ .create_upload { upload_record "mp" with key := "big", kind := .multipart },
    .add_staged_block 3 (sent 0 12 7),
    .replace_part 3 "mp" 2 7 "ab56b4d92b40713acc5af89985d4b786" [sent 1 12 7],
    .add_staged_block 3 (sent 0 13 5),
    .replace_part 3 "mp" 1 5 "ab56b4d92b40713acc5af89985d4b786" [sent 2 13 5] ]

/-- The MD5 of the 16 bytes that the ETag of part 1 stands for. -/
def md5_of_part (_ : List UInt8) : List UInt8 :=
  [212, 96, 11, 253, 91, 230, 214, 90, 29, 113, 88, 178, 157, 41, 8, 219]

/-- The completion with part 1 alone, after the copy has gone through. -/
def complete_part_one : Database × Except EngineError ObjectRecord :=
  complete_multipart md5_of_part 1000000 (after (emptied ++ two_parts)) (after (emptied ++ two_parts))
    (after (emptied ++ two_parts)) (after (emptied ++ two_parts ++ [copy_late])) {} 5 "mp"
    [(1, "\"ab56b4d92b40713acc5af89985d4b786\"")]

/-- **Not every block of a part that was not listed is queued**: block 1 of part 2 is
released, but a copy still counts on it. -/
theorem unlisted_block_not_queued :
    complete_part_one.2.toOption.map (fun object =>
        (object.etag, object.size, object.blocks.map (·.id)))
        = some ("d4600bfd5be6d65a1d7158b29d2908db-1", 5, [2])
      ∧ 1 ∈ unlisted (after (emptied ++ two_parts ++ [copy_late])) "mp"
          [(1, "\"ab56b4d92b40713acc5af89985d4b786\"")]
      ∧ ¬ complete_part_one.1.queued 1
      ∧ (complete_part_one.1.block? 1).map (·.ref_count) = some 1 := by
  decide

end Tg2s3.Completion
