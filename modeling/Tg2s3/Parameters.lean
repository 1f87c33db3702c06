/-
How many parameters the check for queued blocks binds.

`ensure_blocks_not_queued` asks for all blocks at once, with one placeholder for each, and
SQLite takes no more than `max_bound_parameters` of them. The number of blocks follows from
the sizes: an upload cuts a body into blocks of `chunk_size`, the rows of a part are the blocks
of its upload, and a commit binds the blocks of all its parts. `into_config` checks the size
of a block and the size of an object, each on its own, so nothing keeps the quotient small.

A copy is no problem: the object it reads was committed, and the commit has bound the same
blocks. This is the invariant `Inv.objects`, and it needs that an operation with too many
parameters does nothing (`execute`).
-/
import Mathlib
import Tg2s3.Cutting
import Tg2s3.Readable

set_option autoImplicit false

namespace Tg2s3.Parameters

open Tg2s3 Relational Machine
open Tg2s3.Readable (Objects objects_apply columns)
open Tg2s3.Transfer (Config Env Body block_count)

/-! ## A property of every part -/

/-- This holds of every part and the number of its block rows. -/
def Parts (V : PartRow → ℕ → Prop) (db : Database) : Prop :=
  ∀ row ∈ db.multipart_parts, V row (db.part_block_rows row.upload_id row.part_number).length

section Parts

variable {V : PartRow → ℕ → Prop} {db db' : Database}

theorem Parts.same (h : Parts V db) (hparts : db'.multipart_parts = db.multipart_parts)
    (hblocks : db'.multipart_part_blocks = db.multipart_part_blocks) : Parts V db' := by
  intro row hrow
  have hrows : db'.part_block_rows row.upload_id row.part_number
      = db.part_block_rows row.upload_id row.part_number := by
    unfold Database.part_block_rows
    rw [hblocks]
  rw [hrows]
  exact h row (hparts ▸ hrow)

theorem Parts.books (h : Parts V db) (hbooks : Books db db') : Parts V db' :=
  h.same hbooks.multipart_parts hbooks.multipart_part_blocks

/-- The parts of the other uploads keep their rows. -/
theorem Parts.delete_upload (h : Parts V db) (upload_id : String) :
    Parts V (db.delete_upload upload_id) := by
  intro row hrow
  obtain ⟨hmem, hne⟩ := mem_deleteWhere.mp hrow
  have hrows : (db.delete_upload upload_id).part_block_rows row.upload_id row.part_number
      = db.part_block_rows row.upload_id row.part_number := by
    unfold Database.part_block_rows Database.delete_upload deleteWhere
    dsimp only
    rw [List.filter_filter]
    congr 1
    refine List.filter_congr (fun r _ => ?_)
    by_cases hpart : r.part = (row.upload_id, row.part_number)
    · have hid : r.upload_id = row.upload_id := congrArg Prod.fst hpart
      simpa [hpart, hid] using hne
    · simp [hpart]
  rw [hrows]
  exact h row hmem

/-- The other parts keep their rows, and the new part has those of its blocks. -/
theorem Parts.replace {upload_id : String} {part_number size : Int} {etag : String}
    {blocks : List BlockRef} (h : Parts V db)
    (hnew : V { upload_id := upload_id, part_number := part_number, size := size, etag := etag }
      blocks.length) : Parts V (replace_target db upload_id part_number size etag blocks) := by
  have hpart : ∀ r ∈ part_rows upload_id part_number 0 blocks, r.part = (upload_id, part_number) := by
    intro r hr
    have hmem := List.mem_map_of_mem (f := fun r : PartBlockRow => (r.part, r.block_id)) hr
    rw [map_block_id_part_rows] at hmem
    obtain ⟨block, -, heq⟩ := List.mem_map.mp hmem
    exact (congrArg Prod.fst heq).symm
  have hsplit : ∀ key : String × Int,
      (replace_target db upload_id part_number size etag blocks).multipart_part_blocks.filter
          (·.part = key)
        = (db.delete_part upload_id part_number).multipart_part_blocks.filter (·.part = key)
          ++ (part_rows upload_id part_number 0 blocks).filter (·.part = key) :=
    fun key => List.filter_append _ _
  have hlength : ∀ row : PartRow,
      ((replace_target db upload_id part_number size etag blocks).part_block_rows row.upload_id
          row.part_number).length
        = ((db.delete_part upload_id part_number).multipart_part_blocks.filter
            (·.part = row.key)).length
          + ((part_rows upload_id part_number 0 blocks).filter (·.part = row.key)).length := by
    intro row
    unfold Database.part_block_rows
    rw [List.length_insertionSort, ← List.length_append]
    exact congrArg List.length (hsplit row.key)
  intro row hrow
  rw [hlength]
  rcases List.mem_append.mp hrow with hold | hlast
  · obtain ⟨hmem, hne⟩ := mem_deleteWhere.mp hold
    have hkept : (db.delete_part upload_id part_number).multipart_part_blocks.filter
        (·.part = row.key) = db.multipart_part_blocks.filter (·.part = row.key) := by
      unfold Database.delete_part deleteWhere
      rw [List.filter_filter]
      refine List.filter_congr (fun r _ => ?_)
      by_cases hkey : r.part = row.key
      · simpa [hkey] using hne
      · simp [hkey]
    have hnone : (part_rows upload_id part_number 0 blocks).filter (·.part = row.key) = [] := by
      refine List.filter_eq_nil_iff.mpr (fun r hr => ?_)
      rw [hpart r hr]
      simpa using fun heq => hne (Eq.symm heq)
    have hbefore := h row hmem
    unfold Database.part_block_rows at hbefore
    rw [List.length_insertionSort] at hbefore
    rw [hkept, hnone, List.length_nil, Nat.add_zero]
    exact hbefore
  · obtain rfl := List.mem_singleton.mp hlast
    have hgone : (db.delete_part upload_id part_number).multipart_part_blocks.filter
        (·.part = (upload_id, part_number)) = [] := by
      refine List.filter_eq_nil_iff.mpr (fun r hr => ?_)
      simpa using (mem_deleteWhere.mp hr).2
    have hall : (part_rows upload_id part_number 0 blocks).filter
        (·.part = (upload_id, part_number)) = part_rows upload_id part_number 0 blocks :=
      List.filter_eq_self.mpr (fun r hr => by simpa using hpart r hr)
    have hcount := congrArg List.length (map_block_id_part_rows upload_id part_number 0 blocks)
    rw [List.length_map, List.length_map] at hcount
    change V _ ((List.filter (fun r : PartBlockRow => r.part = (upload_id, part_number)) _).length
      + (List.filter (fun r : PartBlockRow => r.part = (upload_id, part_number)) _).length)
    rw [hgone, hall, hcount, List.length_nil, Nat.zero_add]
    exact hnew

theorem Parts.abort (h : Parts V db) (now : Int) (upload_id : String) :
    Parts V (abort_upload_with_blocks db now upload_id).1 := by
  rcases abort_upload_with_blocks_eq db now upload_id with heq | heq
  · rw [heq]
    exact h
  · rw [heq]
    exact (h.delete_upload upload_id).books (books_decrement_blocks _ now _)

theorem Parts.without_object (h : Parts V db) (bucket key : String) :
    Parts V (without_object db bucket key) := by
  unfold Tg2s3.without_object
  cases db.object? bucket key with
  | none => exact h
  | some row => exact h.same rfl rfl

/-- **The rule of the parts.** A property of a part and the number of its rows that holds of
what `replace_part` writes stays true of every part. -/
theorem parts_apply {op : Op} (h : Parts V db)
    (hreplace : ∀ now upload_id part_number size etag blocks released db',
      op = .replace_part now upload_id part_number size etag blocks →
      Replaced db upload_id part_number size etag blocks released db' →
      V { upload_id := upload_id, part_number := part_number, size := size, etag := etag }
        blocks.length) : Parts V (op.apply db) := by
  cases op with
  | create_bucket now name => exact h.same rfl rfl
  | delete_bucket name =>
      change Parts V (delete_bucket db name).1
      unfold delete_bucket
      split_ifs <;> exact h.same rfl rfl
  | set_bucket_cors now bucket configuration =>
      change Parts V (set_bucket_cors db now bucket configuration)
      unfold set_bucket_cors
      split_ifs <;> exact h.same rfl rfl
  | delete_bucket_cors bucket => exact h.same rfl rfl
  | create_upload upload =>
      refine transaction_cases (P := Parts V) h (fun db' u hok => ?_)
      obtain ⟨_, -, hok⟩ := bind_ok.mp hok
      obtain ⟨db₁, hins, hok⟩ := bind_ok.mp hok
      obtain ⟨rfl, -⟩ := Prod.mk.inj (Except.ok.inj hok)
      obtain ⟨rfl, -⟩ := insert_upload_ok hins
      exact h.same rfl rfl
  | add_staged_block now block =>
      refine transaction_cases (P := Parts V) h (fun db' id hok => ?_)
      obtain ⟨hins, -⟩ := insert_block_ok hok
      obtain ⟨rfl, -⟩ := Prod.mk.inj hins
      exact h.same rfl rfl
  | replace_part now upload_id part_number size etag blocks =>
      refine transaction_cases (P := Parts V) h (fun db' released hok => ?_)
      -- the one operation that writes a part
      have hdone := replace_part_tx_ok hok
      exact (h.replace (hreplace _ _ _ _ _ _ _ _ rfl hdone)).books hdone.books
  | commit_upload now upload_id size etag parts condition =>
      refine transaction_cases (P := Parts V) h (fun db' result hok => ?_)
      cases result with
      | none => exact commit_upload_tx_none hok ▸ h
      | some r =>
          have hdone := commit_upload_tx_ok hok
          -- the parts of the upload go, and the object they become is no part
          have hrest : Parts V (commit_target db now r.1 size etag (parts.flatMap (·.blocks))) :=
            ((h.without_object r.1.bucket r.1.key).delete_upload r.1.upload_id).same rfl rfl
          exact hrest.books hdone.books
  | abort_upload_with_blocks now upload_id => exact h.abort now upload_id
  | expire_uploads now before =>
      exact expire_uploads_induction now before h (fun d id hd => hd.abort now id)
  | delete_object now bucket key condition =>
      refine transaction_cases (P := Parts V) h (fun db' deleted hok => ?_)
      obtain ⟨-, rfl, -⟩ := delete_object_tx_ok hok
      exact (h.without_object bucket key).books (books_decrement_blocks _ now _)
  | copy_object now source bucket key metadata condition =>
      refine transaction_cases (P := Parts V) h (fun db' released hok => ?_)
      have hrest : Parts V (copy_target db now source bucket key metadata) :=
        (h.without_object bucket key).same rfl rfl
      exact hrest.books (copy_object_tx_ok hok).books
  | queue_stale_block now block_id => exact h.books (books_queue_stale_block db now block_id)
  | gc_success block_id =>
      change Parts V (gc_success db block_id)
      unfold gc_success
      split
      · split_ifs
        · exact h.same rfl rfl
        · exact h
      · exact h
  | gc_failure block_id error next_attempt => exact h.same rfl rfl
  | gc_orphan block_id error => exact h.same rfl rfl

end Parts

/-! ## The query -/

/-- SQLite's default for `SQLITE_MAX_VARIABLE_NUMBER`. -/
def max_bound_parameters : ℕ := 32766

/-- What `ensure_blocks_not_queued` is called with. -/
def block_ids : Op → List Int
  | .replace_part _ _ _ _ _ blocks => blocks.map (·.id)
  | .commit_upload _ _ _ _ parts _ => (parts.flatMap (·.blocks)).map (·.id)
  | .copy_object _ source _ _ _ _ => source.blocks.map (·.id)
  | _ => []

/-- The operation comes to the query: the checks before it pass. -/
def Reaches (db : Database) : Op → Prop
  | .replace_part _ upload_id _ _ _ _ => db.upload? upload_id ≠ none
  | .commit_upload _ upload_id size _ parts _ =>
      validate_parts_layout parts = .ok size ∧ db.upload? upload_id ≠ none
        ∧ verify_parts_tx db upload_id parts = .ok ()
  | .copy_object _ source _ _ _ _ =>
      ∃ o ∈ db.objects, o.id = source.id ∧ o.bucket = source.bucket ∧ o.object_key = source.key
  | _ => False

instance (db : Database) : (op : Op) → Decidable (Reaches db op)
  | .replace_part _ upload_id _ _ _ _ =>
      inferInstanceAs (Decidable (db.upload? upload_id ≠ none))
  | .commit_upload _ upload_id size _ parts _ =>
      inferInstanceAs (Decidable (validate_parts_layout parts = .ok size
        ∧ db.upload? upload_id ≠ none ∧ verify_parts_tx db upload_id parts = .ok ()))
  | .copy_object _ source _ _ _ _ =>
      inferInstanceAs (Decidable (∃ o ∈ db.objects, o.id = source.id
        ∧ o.bucket = source.bucket ∧ o.object_key = source.key))
  | .create_bucket .. | .delete_bucket .. | .set_bucket_cors .. | .delete_bucket_cors ..
  | .create_upload .. | .add_staged_block .. | .abort_upload_with_blocks .. | .expire_uploads ..
  | .delete_object .. | .queue_stale_block .. | .gc_success .. | .gc_failure .. | .gc_orphan .. =>
      inferInstanceAs (Decidable False)

/-- The query does not bind too much. -/
def Fits (db : Database) (op : Op) : Prop :=
  Reaches db op → (block_ids op).length ≤ max_bound_parameters

instance (db : Database) (op : Op) : Decidable (Fits db op) := inferInstanceAs (Decidable (_ → _))

/-- SQLite refuses a statement with too many parameters, and the transaction is rolled back. -/
def execute (db : Database) (op : Op) : Database := if Fits db op then op.apply db else db

def executed (ops : List Op) : Database := exec execute {} ops

theorem executed_append (past : List Op) (op : Op) :
    executed (past ++ [op]) = execute (executed past) op := exec_append _ _ _

/-! ## What the engine hands over -/

/-- These are the blocks that an upload under this configuration has returned. -/
def Returned (config : Config) (upload_id : String) (part_number size : Int)
    (blocks : List BlockRef) : Prop :=
  ∃ (env : Env) (db db' : Database) (body : Body) (expected_length : Option Int)
    (part : PartRecord), env.config = config ∧ WellFormed db
      ∧ Transfer.upload env db upload_id part_number body expected_length = (db', .ok (part, size))
      ∧ part.blocks = blocks

/-- `replace_part` stores what an upload has returned, and a copy has read the blocks of its
snapshot in some state before. -/
def Served (config : Config) (past : List Op) : Op → Prop
  | .replace_part _ upload_id part_number size _ blocks =>
      Returned config upload_id part_number size blocks
  | .copy_object _ source _ _ _ _ =>
      ∃ earlier, earlier <+: past
        ∧ source.blocks = load_object_blocks (executed earlier) source.id
  | _ => True

/-- A history of a server with this configuration. -/
inductive History (config : Config) : List Op → Prop
  | nil : History config []
  | snoc {past : List Op} {op : Op} : History config past → Served config past op →
      History config (past ++ [op])

/-- The number of placeholders, as it follows from the sizes. A copy needs no more than the
commit before it. -/
def placeholders (chunk_size : ℕ) : Op → ℕ
  | .replace_part _ _ _ size _ _ => block_count chunk_size size.toNat
  | .commit_upload _ _ _ _ parts _ =>
      (parts.map fun part => block_count chunk_size part.size.toNat).sum
  | _ => 0

/-- An upload has as many blocks as its size asks for. -/
theorem Returned.length {config : Config} {upload_id : String} {part_number size : Int}
    {blocks : List BlockRef} (h : Returned config upload_id part_number size blocks) :
    blocks.length = block_count config.chunk_size size.toNat := by
  obtain ⟨env, db, db', body, expected_length, part, rfl, hwf, hupload, rfl⟩ := h
  obtain ⟨bytes, -, htotal, hpart⟩ := Transfer.upload_ok hupload hwf
  obtain ⟨sent, hconsecutive, hsized, hcontent, hblocks⟩ := hpart.pieces
  have hcount := Transfer.length_of_sized env.config.chunk_size_checked.1 hconsecutive hsized
    (by rw [hcontent, Int.zero_add])
  rw [← hblocks.length_eq, hcount, hcontent, htotal, Int.toNat_natCast]

/-- A single object fits exactly if it is no longer than this. -/
theorem block_count_le {chunk_size n k : ℕ} (hchunk : chunk_size ≠ 0) :
    block_count chunk_size n ≤ k ↔ n ≤ k * chunk_size := by
  rw [← not_lt, Transfer.lt_block_count hchunk, not_lt]

/-- A configuration under which every single object fits. -/
theorem single_objects_fit (config : Config) :
    (∀ n : ℕ, n ≤ config.max_object_size →
        block_count config.chunk_size n ≤ max_bound_parameters)
      ↔ config.max_object_size ≤ max_bound_parameters * config.chunk_size := by
  have hmax := config.max_object_size_checked.1
  constructor
  · intro h
    have hlargest := (block_count_le config.chunk_size_checked.1).mp
      (h config.max_object_size.toNat (by omega))
    rw [← Nat.cast_mul]
    omega
  · intro h n hn
    rw [block_count_le config.chunk_size_checked.1]
    rw [← Nat.cast_mul] at h
    omega

/-! ## The invariant -/

/-- Every part has the rows that its size asks for, and no object has more rows than fit. -/
structure Inv (config : Config) (db : Database) : Prop where
  wellFormed : WellFormed db
  parts : Parts (fun row count => count = block_count config.chunk_size row.size.toNat) db
  objects : Objects (fun _ rows => rows.length ≤ max_bound_parameters) db

section Inv

variable {config : Config} {db : Database}

theorem inv_empty : Inv config {} where
  wellFormed := wellFormed_empty
  parts := fun _ h => (by cases h)
  objects := fun _ h => (by cases h)

/-- The persisted parts that a commit lists have as many blocks as it says. -/
theorem Inv.commit (h : Inv config db) {upload_id : String} {parts : List PartRecord}
    (hverified : verify_parts_tx db upload_id parts = .ok ()) :
    (parts.flatMap (·.blocks)).length
      = (parts.map fun part => block_count config.chunk_size part.size.toNat).sum := by
  obtain ⟨-, hmatches⟩ := verify_parts_tx_ok hverified
  rw [List.length_flatMap]
  refine congrArg List.sum (List.map_congr_left (fun part hpart => ?_))
  have hrows := congrArg List.length (part_matches_rows (hmatches part hpart))
  rw [List.length_map, List.length_map] at hrows
  have hmatch := hmatches part hpart
  unfold part_matches at hmatch
  cases hrow : db.part? upload_id part.part_number with
  | none => rw [hrow] at hmatch; exact hmatch.elim
  | some row =>
      rw [hrow] at hmatch
      obtain ⟨hmem, hkey⟩ := lookup_mem hrow
      obtain ⟨hupload, hnumber⟩ := Prod.mk.inj hkey
      have hcount := h.parts row hmem
      rw [hupload, hnumber, hmatch.1] at hcount
      exact hrows.symm.trans hcount

/-- What is read under any id is short enough. -/
theorem Inv.loaded (h : Inv config db) (object_id : Int) :
    (load_object_blocks db object_id).length ≤ max_bound_parameters := by
  have hlength : (load_object_blocks db object_id).length ≤ (db.object_block_rows object_id).length :=
    List.length_filterMap_le _ _
  by_cases hid : object_id ∈ db.objects.map (·.id)
  · obtain ⟨row, hrow, rfl⟩ := List.mem_map.mp hid
    have hcolumns : (columns db row.id).length ≤ max_bound_parameters := h.objects row hrow
    unfold columns at hcolumns
    rw [List.length_map] at hcolumns
    exact hlength.trans hcolumns
  · -- no object has this id, and so no row refers to it
    have hnone : db.object_block_rows object_id = [] := by
      have hfilter : db.object_blocks.filter (·.object_id = object_id) = [] := by
        refine List.filter_eq_nil_iff.mpr (fun r hr => ?_)
        simpa using fun heq : r.object_id = object_id =>
          hid (heq ▸ h.wellFormed.object_block_object r hr)
      unfold Database.object_block_rows
      rw [hfilter]
      rfl
    rw [hnone, List.length_nil] at hlength
    omega

/-- What is executed keeps the invariant. -/
theorem Inv.execute {past : List Op} {op : Op} (h : Inv config db)
    (hearlier : ∀ earlier, earlier <+: past → Inv config (executed earlier))
    (hserved : Served config past op) : Inv config (execute db op) := by
  unfold Parameters.execute
  by_cases hfits : Fits db op
  swap
  · rw [if_neg hfits]
    exact h
  rw [if_pos hfits]
  refine ⟨wellFormed_apply db op h.wellFormed, ?_, ?_⟩
  · refine parts_apply h.parts ?_
    rintro now upload_id part_number size etag blocks released db' rfl -
    exact Returned.length hserved
  · refine objects_apply h.wellFormed h.objects ?_ ?_
    · rintro now upload_id size etag parts condition db' upload released rfl hok
      have hdone := commit_upload_tx_ok hok
      -- the rows of the object are the blocks that the query has bound
      have hbound := hfits ⟨hdone.layout, by rw [hdone.upload_row]; exact Option.some_ne_none _,
        hdone.verified⟩
      have hids := congrArg List.length
        (Readable.columns_committed 0 0 (parts.flatMap (·.blocks))).2.1
      rw [List.length_map] at hids
      exact hids.trans_le hbound
    · rintro now source bucket key metadata condition - - rfl -
      obtain ⟨earlier, hprefix, hblocks⟩ := hserved
      have hloaded := (hearlier earlier hprefix).loaded source.id
      rw [List.length_map, List.length_insertionSort, hblocks]
      exact hloaded

/-- **Every state of a history** keeps the invariant, by induction. -/
theorem History.inv {ops : List Op} (h : History config ops) :
    ∀ earlier, earlier <+: ops → Inv config (executed earlier) := by
  induction h with
  | nil =>
      intro earlier hearlier
      rw [List.prefix_nil.mp hearlier]
      exact inv_empty
  | @snoc past op _ hserved ih =>
      intro earlier hearlier
      rcases List.prefix_concat_iff.mp hearlier with rfl | hbefore
      · rw [executed_append]
        exact (ih past (List.prefix_refl past)).execute ih hserved
      · exact ih earlier hbefore

end Inv

/-! ## The result -/

/-- **Whether an operation fits** depends on the sizes only: the query of `replace_part` and of
`commit_upload` binds as many ids as the sizes of the parts ask for, and that of a copy always
fits. -/
theorem parameters_fit (config : Config) (past : List Op) (op : Op) (hpast : History config past)
    (hserved : Served config past op) :
    Fits (executed past) op
      ↔ (Reaches (executed past) op → placeholders config.chunk_size op ≤ max_bound_parameters) := by
  have hinv := hpast.inv past (List.prefix_refl past)
  refine imp_congr_right (fun hreaches => ?_)
  cases op with
  | replace_part now upload_id part_number size etag blocks =>
      change (blocks.map (·.id)).length ≤ _ ↔ block_count config.chunk_size size.toNat ≤ _
      rw [List.length_map, Returned.length hserved]
  | commit_upload now upload_id size etag parts condition =>
      change ((parts.flatMap (·.blocks)).map (·.id)).length ≤ _ ↔ (List.map _ parts).sum ≤ _
      rw [List.length_map, hinv.commit hreaches.2.2]
  | copy_object now source bucket key metadata condition =>
      obtain ⟨earlier, hprefix, hblocks⟩ := hserved
      have hloaded := (hpast.inv earlier hprefix).loaded source.id
      refine iff_of_true ?_ (Nat.zero_le _)
      change (source.blocks.map (·.id)).length ≤ _
      rw [List.length_map, hblocks]
      exact hloaded
  | _ => exact hreaches.elim

/-! ## A block for every byte -/

/-- The server of the example, under any configuration. -/
def configured (config : Config) : Env := { Transfer.sample_env with config := config }

theorem smooth_configured (config : Config) : Transfer.Smooth (configured config) :=
  ⟨fun _ _ => rfl, fun _ _ => rfl, fun _ => rfl, fun _ => rfl⟩

theorem accepts_configured (config : Config) (bytes : Download.Bytes) :
    Transfer.Accepts (configured config) {} (Transfer.pieces config.chunk_size bytes) := by
  have hposted : ∀ i, Transfer.posted (configured config)
      (Transfer.piece_at config.chunk_size bytes i) = some (config.chat_id, (i : Int) + 1) := by
    intro i
    have hlength : ((bytes.drop (i * config.chunk_size)).take config.chunk_size).length
        ≤ 4294967296 := by
      have hchunk := config.chunk_size_checked.2
      rw [List.length_take]
      omega
    unfold Transfer.posted configured Transfer.sample_env Transfer.piece_at
    dsimp only
    rw [if_pos hlength]
    dsimp only
    rw [if_neg (fun h => h.1 rfl)]
  constructor
  · intro piece hpiece
    obtain ⟨i, -, rfl⟩ := List.mem_map.mp hpiece
    rw [hposted]
    exact Option.some_ne_none _
  · rw [List.map_nil, List.append_nil]
    unfold Transfer.pieces
    rw [List.map_map]
    refine List.Nodup.map (fun i j heq => ?_) List.nodup_range
    rw [Function.comp_apply, Function.comp_apply, hposted, hposted] at heq
    have := (Prod.mk.inj (Option.some.inj heq)).2
    omega

/-- There is an upload of any body that the configuration admits. -/
theorem returned_of_bytes (config : Config) (bytes : Download.Bytes)
    (hmax : (bytes.length : Int) ≤ config.max_object_size) (upload_id : String) (part_number : Int) :
    ∃ blocks, Returned config upload_id part_number bytes.length blocks := by
  have hbody : Slices.collect [Except.ok (ε := Transfer.UploadError) bytes] = .ok bytes := by
    rw [Slices.collect_cons_ok, Slices.collect_nil]
    exact congrArg Except.ok (List.append_nil bytes)
  obtain ⟨db', part, total, hupload⟩ := Transfer.upload_isOk upload_id part_number
    (some (bytes.length : Int)) hbody (fun n hn => (Option.some.inj hn).symm) wellFormed_empty
    (smooth_configured config) hmax (accepts_configured config bytes)
  obtain ⟨bytes', hbytes', htotal, -⟩ := Transfer.upload_ok hupload wellFormed_empty
  obtain rfl : bytes' = bytes := Except.ok.inj (hbytes'.symm.trans hbody)
  rw [← htotal]
  exact ⟨part.blocks, configured config, {}, db', _, _, part, rfl, wellFormed_empty, hupload, rfl⟩

/-- The upload that the parts below belong to. -/
def upload_row : List Op :=
  [.create_bucket 0 "b",
    .create_upload { upload_id := "put-1", bucket := "b", key := "k", metadata := {}, kind := .put
                     created_at := 0 }]

theorem history_upload_row (config : Config) : History config upload_row :=
  @History.snoc config [.create_bucket 0 "b"] _ (@History.snoc config [] _ .nil trivial) trivial

/-- Five bytes in blocks of two. -/
theorem parameters_fit_five_bytes :
    ∃ blocks, Returned Transfer.sample_config "put-1" 0 5 blocks
      ∧ Fits (executed upload_row) (.replace_part 0 "put-1" 0 5 "e" blocks) := by
  obtain ⟨blocks, hreturned⟩ := returned_of_bytes Transfer.sample_config [1, 2, 3, 4, 5]
    (by decide) "put-1" 0
  refine ⟨blocks, hreturned, ?_⟩
  exact (parameters_fit Transfer.sample_config upload_row (.replace_part 0 "put-1" 0 5 "e" blocks)
    (history_upload_row _) hreturned).mpr
      (fun _ => show block_count 2 5 ≤ 32766 by decide)

/-- The size of the object or the part. -/
def object_size : Op → Int
  | .replace_part _ _ _ size _ _ => size
  | .commit_upload _ _ size _ _ _ => size
  | .copy_object _ source _ _ _ _ => source.size
  | _ => 0

/-- `into_config` accepts it. -/
def bytewise : Config where
  chat_id := 7
  chunk_size := 1
  upload_concurrency := 4
  max_object_size := 32767
  chunk_size_checked := by decide
  upload_concurrency_checked := by decide
  max_object_size_checked := by decide

/-- All bytes of an object of 32767 bytes are stored, and then the query fails. -/
theorem too_many_parameters :
    ¬ ∀ (config : Config) (past : List Op) (op : Op), History config past →
        Served config past op → object_size op ≤ config.max_object_size →
          Fits (executed past) op := by
  intro h
  obtain ⟨bytes, hbytes⟩ : ∃ bytes : Download.Bytes, bytes.length = 32767 :=
    ⟨List.replicate 32767 0, List.length_replicate⟩
  obtain ⟨blocks, hreturned⟩ := returned_of_bytes bytewise bytes
    (by rw [hbytes]; exact le_refl _) "put-1" 0
  rw [hbytes] at hreturned
  have hfits := h bytewise upload_row (.replace_part 0 "put-1" 0 32767 "e" blocks)
    (history_upload_row _) hreturned (le_refl _)
    (show (executed upload_row).upload? "put-1" ≠ none by decide)
  have hlength := hreturned.length
  change (blocks.map (·.id)).length ≤ 32766 at hfits
  rw [List.length_map, hlength] at hfits
  have hcount := (block_count_le bytewise.chunk_size_checked.1).mp hfits
  exact absurd hcount (by decide)

end Tg2s3.Parameters
