/-
Every stored object can be read.

Two functions check a layout. The writer's, `validate_parts_layout`, goes part by part, with
offsets that start again in each; the loop of the commit then gives every block the offset
that it has in the whole. The reader's, `validate_object_layout`, goes over the rows of the
object. A copy writes down the rows of a snapshot that the reader's check has accepted.

`objects_apply` is the rule for such properties: what holds of the rows that a commit or a
copy writes, stays true of every object. For `Layout` it says that the reader's check never
fails.
-/
import Tg2s3.Lib.Tiling
import Tg2s3.Answers
import Tg2s3.Conditional
import Tg2s3.Download
import Tg2s3.Steps

set_option autoImplicit false

namespace Tg2s3.Readable

open Tg2s3 Relational Machine Tiling
open Tg2s3.Conditional (writes_objects same_objects_apply)
open Tg2s3.GcSafety (reference first_spec second_spec slow_client slow_client_commits)
open Tg2s3.Staging (ordinals)

/-! ## A property of every object -/

/-- Ordinal, block, offset and size of the block rows of an object, in the order of the
ordinals. -/
def columns (db : Database) (object_id : Int) : List (Int × Int × Int × Int) :=
  (db.object_block_rows object_id).map (·.columns)

/-- This holds of every object row and its block rows. -/
def Objects (V : ObjectRow → List (Int × Int × Int × Int) → Prop) (db : Database) : Prop :=
  ∀ row ∈ db.objects, V row (columns db row.id)

section Objects

variable {V : ObjectRow → List (Int × Int × Int × Int) → Prop} {db : Database}

theorem columns_of_object_blocks {db db' : Database} {object_id : Int}
    (h : db'.object_blocks.filter (·.object_id = object_id)
      = db.object_blocks.filter (·.object_id = object_id)) :
    columns db' object_id = columns db object_id := by
  unfold columns Database.object_block_rows
  rw [h]

/-- Where an object is taken away, the others keep their rows. -/
theorem Objects.without_object (h : Objects V db) (bucket key : String) :
    Objects V (without_object db bucket key) := by
  unfold Tg2s3.without_object
  cases db.object? bucket key with
  | none => exact h
  | some gone =>
      intro row hrow
      obtain ⟨hmem, hne⟩ := mem_deleteWhere.mp hrow
      have hrows : (db.delete_object_row gone.id).object_blocks.filter (·.object_id = row.id)
          = db.object_blocks.filter (·.object_id = row.id) := by
        unfold Database.delete_object_row deleteWhere
        rw [List.filter_filter]
        refine List.filter_congr (fun r _ => ?_)
        by_cases hid : r.object_id = row.id
        · simpa [hid] using hne
        · simp [hid]
      rw [columns_of_object_blocks hrows]
      exact h row hmem

/-- A new object with new rows. -/
theorem Objects.append {db' : Database} {row : ObjectRow} {rows : List ObjectBlockRow}
    (h : Objects V db) (hobjects : db'.objects = db.objects ++ [row])
    (hblocks : db'.object_blocks = db.object_blocks ++ rows)
    (hrows : ∀ r ∈ rows, r.object_id = row.id) (hid : row.id ∉ db.objects.map (·.id))
    (hnew : V row (columns db' row.id)) : Objects V db' := by
  intro row' hrow'
  rw [hobjects] at hrow'
  rcases List.mem_append.mp hrow' with hold | hlast
  · have hkept : db'.object_blocks.filter (·.object_id = row'.id)
        = db.object_blocks.filter (·.object_id = row'.id) := by
      have hnone : rows.filter (·.object_id = row'.id) = [] := by
        refine List.filter_eq_nil_iff.mpr (fun r hr => ?_)
        have hne : row.id ≠ row'.id := fun heq => hid (heq ▸ List.mem_map_of_mem hold)
        simpa [hrows r hr] using hne
      rw [hblocks, List.filter_append, hnone, List.append_nil]
    rw [columns_of_object_blocks hkept]
    exact h row' hold
  · rw [List.mem_singleton.mp hlast]
    exact hnew

/-- **The rule of the objects.** A property of an object row and its block rows that holds
of what a commit writes and of what a copy writes, where these go through, stays true of every
object. -/
theorem objects_apply {op : Op} (hwf : WellFormed db) (h : Objects V db)
    (hcommit : ∀ now upload_id size etag parts condition db' upload released,
      op = .commit_upload now upload_id size etag parts condition →
      commit_upload_tx db now upload_id size etag parts condition
        = .ok (db', some (upload, released)) →
      V (committed_object db now upload size etag)
        ((committed_rows 0 0 0 (parts.flatMap (·.blocks))).map (·.columns)))
    (hcopy : ∀ now source bucket key metadata condition db' released,
      op = .copy_object now source bucket key metadata condition →
      copy_object_tx db now source bucket key metadata condition = .ok (db', released) →
      V (copied_object db now source bucket key metadata)
        ((source.blocks.insertionSort (·.ordinal ≤ ·.ordinal)).map (·.row))) :
    Objects V (op.apply db) := by
  have hsame : ∀ db', db'.objects = db.objects → db'.object_blocks = db.object_blocks →
      Objects V db' := by
    intro db' hobjects hblocks row hrow
    have hcolumns : columns db' row.id = columns db row.id :=
      columns_of_object_blocks (by rw [hblocks])
    rw [hcolumns]
    exact h row (hobjects ▸ hrow)
  -- three operations write objects; after the others nothing reads differently
  by_cases hwrites : writes_objects op = false
  · obtain ⟨hobjects, hblocks⟩ := same_objects_apply db hwrites
    exact hsame _ hobjects hblocks
  cases op with
  | commit_upload now upload_id size etag parts condition =>
      refine transaction_cases (P := Objects V) h (fun db' result hok => ?_)
      cases result with
      | none => exact commit_upload_tx_none hok ▸ h
      | some r =>
          have hdone := commit_upload_tx_ok hok
          -- the old object goes first, then the new row with its block rows is appended
          have hrest := h.without_object r.1.bucket r.1.key
          refine hrest.append hdone.books.objects hdone.books.object_blocks
            (fun r hr => object_id_committed_rows r hr) (nextRowid_not_mem _) ?_
          unfold columns
          rw [hdone.object_block_rows hwf, Answers.columns_committed_rows]
          exact hcommit _ _ _ _ _ _ _ _ _ rfl hok
  | copy_object now source bucket key metadata condition =>
      refine transaction_cases (P := Objects V) h (fun db' released hok => ?_)
      have hdone := copy_object_tx_ok hok
      refine (h.without_object bucket key).append hdone.books.objects hdone.books.object_blocks
        (fun r hr => ?_) (nextRowid_not_mem _) ?_
      · obtain ⟨block, -, rfl⟩ := List.mem_map.mp hr
        rfl
      · unfold columns
        rw [(hdone.object hwf).2, Answers.columns_copied_rows]
        exact hcopy _ _ _ _ _ _ _ _ rfl hok
  | delete_object now bucket key condition =>
      refine transaction_cases (P := Objects V) h (fun db' deleted hok => ?_)
      obtain ⟨-, rfl, -⟩ := delete_object_tx_ok hok
      -- the counts are not part of what an object reads
      have hbooks := books_decrement_blocks (without_object db bucket key) now
        (held_by_object db bucket key)
      intro row hrow
      have hcolumns : columns (decrement_blocks (without_object db bucket key) now
          (held_by_object db bucket key)) row.id = columns (without_object db bucket key) row.id :=
        columns_of_object_blocks (by rw [hbooks.object_blocks])
      rw [hcolumns]
      exact h.without_object bucket key row (hbooks.objects ▸ hrow)
  | _ => exact absurd rfl hwrites

end Objects

/-! ## The two checks -/

/-- Offset and size of a block. -/
def BlockRef.interval (block : BlockRef) : Int × Int := (block.offset, block.size)

/-- What the loop of both checks accepts: blocks that tile from the offset on, and whose ids
are new. -/
theorem validate_blocks_ok {blocks : List BlockRef} {offset stop : Int} {seen ids : List Int}
    (h : validate_blocks blocks offset seen = .ok (stop, ids)) (hoffset : offset ≤ i64_max) :
    Tiles offset (blocks.map BlockRef.interval) stop ∧ stop ≤ i64_max
      ∧ ids = (blocks.map (·.id)).reverse ++ seen ∧ (blocks.map (·.id)).Nodup
      ∧ ∀ id ∈ blocks.map (·.id), id ∉ seen := by
  induction blocks generalizing offset seen with
  | nil =>
      obtain ⟨rfl, rfl⟩ := Prod.mk.inj (Except.ok.inj h)
      exact ⟨rfl, hoffset, rfl, List.nodup_nil, fun _ h => (by cases h)⟩
  | cons block rest ih =>
      unfold validate_blocks at h
      split_ifs at h with hbad
      obtain ⟨hsize, hstart, hnew⟩ := not_or.mp hbad |>.imp_right not_or.mp
      cases hadd : checked_add offset block.size with
      | none => rw [hadd] at h; cases h
      | some next =>
          rw [hadd] at h
          obtain ⟨rfl, hmax⟩ := Download.checked_add_eq_some hadd
          obtain ⟨htiles, hstop, rfl, hnodup, hseen⟩ := ih h hmax
          refine ⟨⟨not_not.mp hstart, by omega, htiles⟩, hstop, by simp, ?_, ?_⟩
          · rw [List.map_cons, List.nodup_cons]
            exact ⟨fun hmem => hseen _ hmem List.mem_cons_self, hnodup⟩
          · rw [List.map_cons, List.forall_mem_cons]
            exact ⟨hnew, fun id hid hmem => hseen id hid (List.mem_cons_of_mem _ hmem)⟩

/-- The loop accepts all of these. -/
theorem validate_blocks_of_tiles {blocks : List BlockRef} {offset stop : Int} {seen : List Int}
    (htiles : Tiles offset (blocks.map BlockRef.interval) stop) (hoffset : 0 ≤ offset)
    (hstop : stop ≤ i64_max) (hnodup : (blocks.map (·.id)).Nodup)
    (hseen : ∀ id ∈ blocks.map (·.id), id ∉ seen) :
    ∃ ids, validate_blocks blocks offset seen = .ok (stop, ids) := by
  induction blocks generalizing offset seen with
  | nil =>
      obtain rfl : offset = stop := htiles
      exact ⟨seen, rfl⟩
  | cons block rest ih =>
      obtain ⟨hstart, hsize, hrest⟩ := htiles
      change block.offset = offset at hstart
      change 0 < block.size at hsize
      have hle := hrest.le
      rw [List.map_cons, List.nodup_cons] at hnodup
      rw [List.map_cons, List.forall_mem_cons] at hseen
      have hnext : ∀ id ∈ rest.map (·.id), id ∉ block.id :: seen := by
        intro id hid hmem
        rcases List.mem_cons.mp hmem with rfl | hmem
        · exact hnodup.1 hid
        · exact hseen.2 id hid hmem
      have hadd : checked_add offset block.size = some (offset + block.size) := by
        unfold checked_add
        rw [if_pos]
        unfold i64_min
        change offset + block.size ≤ stop at hle
        omega
      obtain ⟨ids, hids⟩ := ih hrest (by omega) hnodup.2 hnext
      refine ⟨ids, ?_⟩
      unfold validate_blocks
      rw [if_neg, hadd]
      · exact hids
      · rintro (hle | hne | hmem)
        · omega
        · exact hne hstart
        · exact hseen.1 hmem

/-- What the writer's check accepts, over all the parts. -/
theorem validate_parts_ok {parts : List PartRecord} {total stop : Int} {seen : List Int}
    (h : validate_parts parts total seen = .ok stop) (htotal : total ≤ i64_max) :
    (∀ block ∈ parts.flatMap (·.blocks), 0 < block.size)
      ∧ stop = total + ((parts.flatMap (·.blocks)).map (·.size)).sum ∧ stop ≤ i64_max
      ∧ ((parts.flatMap (·.blocks)).map (·.id)).Nodup
      ∧ ∀ id ∈ (parts.flatMap (·.blocks)).map (·.id), id ∉ seen := by
  induction parts generalizing total seen with
  | nil =>
      obtain rfl := Except.ok.inj h
      exact ⟨fun _ h => (by cases h), (Int.add_zero _).symm, htotal, List.nodup_nil,
        fun _ h => (by cases h)⟩
  | cons part rest ih =>
      obtain ⟨⟨offset, ids⟩, hblocks, h⟩ := bind_ok.mp h
      obtain ⟨_, -, h⟩ := bind_ok.mp h
      obtain ⟨htiles, -, rfl, hnodup, hseen⟩ := validate_blocks_ok hblocks (by decide)
      cases hadd : checked_add total offset with
      | none => rw [hadd] at h; cases h
      | some total' =>
          rw [hadd] at h
          obtain ⟨rfl, hmax⟩ := Download.checked_add_eq_some hadd
          obtain ⟨hsizes, rfl, hstop, hnodup', hseen'⟩ := ih h hmax
          obtain ⟨-, hpos, hoffset⟩ := tiles_iff.mp htiles
          have hmap : (part.blocks.map BlockRef.interval).map (·.2) = part.blocks.map (·.size) :=
            List.map_map
          rw [hmap] at hpos hoffset
          rw [List.flatMap_cons, List.map_append, List.map_append, List.sum_append]
          refine ⟨?_, ?_, hstop, ?_, ?_⟩
          · intro block hblock
            rcases List.mem_append.mp hblock with hfirst | hlater
            · exact hpos _ (List.mem_map_of_mem hfirst)
            · exact hsizes block hlater
          · omega
          · refine List.nodup_append.mpr ⟨hnodup, hnodup', fun a ha b hb heq => ?_⟩
            subst heq
            exact hseen' a hb (List.mem_append_left _ (List.mem_reverse.mpr ha))
          · intro id hid
            rcases List.mem_append.mp hid with hfirst | hlater
            · exact hseen id hfirst
            · exact fun hmem => hseen' id hlater (List.mem_append_right _ hmem)

/-! ## Rows that a reader accepts -/

/-- Ordinals that count from 0, every block once, and intervals that tile the object. -/
structure Layout (size : Int) (rows : List (Int × Int × Int × Int)) : Prop where
  counted : rows.map (·.1) = ordinals rows.length
  distinct : (rows.map (·.2.1)).Nodup
  tiles : Tiles 0 (rows.map (·.2.2)) size
  fits : size ≤ i64_max

theorem ordinals_cons (n : ℕ) : ordinals (n + 1) = 0 :: (ordinals n).map (· + 1) := by
  unfold ordinals
  rw [List.range_succ_eq_map, List.map_cons, List.map_map, List.map_map]
  rfl

/-- The loop of the commit lays the blocks out anew. -/
theorem columns_committed (ordinal offset : Int) (blocks : List BlockRef) :
    ((committed_rows 0 ordinal offset blocks).map (·.columns)).map (·.1)
        = (ordinals blocks.length).map (ordinal + ·)
      ∧ ((committed_rows 0 ordinal offset blocks).map (·.columns)).map (·.2.1) = blocks.map (·.id)
      ∧ ((committed_rows 0 ordinal offset blocks).map (·.columns)).map (·.2.2)
        = place offset (blocks.map (·.size)) := by
  induction blocks generalizing ordinal offset with
  | nil => exact ⟨rfl, rfl, rfl⟩
  | cons block rest ih =>
      obtain ⟨hordinals, hids, hplace⟩ := ih (ordinal + 1) (offset + block.size)
      rw [List.length_cons, ordinals_cons]
      unfold committed_rows
      simp only [List.map_cons, List.map_map] at hordinals hids hplace ⊢
      rw [hordinals, hids, hplace]
      refine ⟨List.cons_eq_cons.mpr ⟨(Int.add_zero ordinal).symm, ?_⟩, rfl, rfl⟩
      refine List.map_congr_left (fun n _ => ?_)
      dsimp only [Function.comp_apply]
      omega

/-- **What the writer's check accepts, the reader's check accepts** once it is committed. -/
theorem layout_of_parts {parts : List PartRecord} {size : Int}
    (h : validate_parts_layout parts = .ok size) :
    Layout size ((committed_rows 0 0 0 (parts.flatMap (·.blocks))).map (·.columns)) := by
  obtain ⟨hpos, hsize, hfits, hnodup, -⟩ := validate_parts_ok h (by decide)
  obtain ⟨hordinals, hids, hplace⟩ := columns_committed 0 0 (parts.flatMap (·.blocks))
  have hlength : ((committed_rows 0 0 0 (parts.flatMap (·.blocks))).map (·.columns)).length
      = (parts.flatMap (·.blocks)).length := by
    simpa only [List.length_map] using congrArg List.length hids
  refine ⟨?_, hids ▸ hnodup, ?_, hfits⟩
  · rw [hordinals, hlength]
    simp
  · rw [hplace, hsize]
    refine tiles_place (fun size hmem => ?_)
    obtain ⟨block, hblock, rfl⟩ := List.mem_map.mp hmem
    exact hpos block hblock

/-- A record that the reader's check has accepted, with its ordinals. -/
def Accepted (object : ObjectRecord) : Prop :=
  validate_object_layout object = .ok ()
    ∧ object.blocks.map (·.ordinal) = ordinals object.blocks.length

theorem validate_object_layout_ok {object : ObjectRecord} :
    validate_object_layout object = .ok ()
      ↔ Tiles 0 (object.blocks.map BlockRef.interval) object.size ∧ object.size ≤ i64_max
        ∧ (object.blocks.map (·.id)).Nodup := by
  constructor
  · intro h
    obtain ⟨_, -, h⟩ := bind_ok.mp h
    obtain ⟨⟨offset, ids⟩, hblocks, h⟩ := bind_ok.mp h
    obtain rfl : offset = object.size := require_ok.mp h
    obtain ⟨htiles, hfits, -, hnodup, -⟩ := validate_blocks_ok hblocks (by decide)
    exact ⟨htiles, hfits, hnodup⟩
  · rintro ⟨htiles, hfits, hnodup⟩
    obtain ⟨ids, hblocks⟩ := validate_blocks_of_tiles htiles (le_refl 0) hfits hnodup
      (fun _ _ => List.not_mem_nil)
    refine bind_ok.mpr ⟨(), require_ok.mpr htiles.le, bind_ok.mpr ⟨_, hblocks, ?_⟩⟩
    exact require_ok.mpr rfl

/-- A copy writes the rows of its snapshot. -/
theorem Accepted.layout {source : ObjectRecord} (h : Accepted source) :
    Layout source.size ((source.blocks.insertionSort (·.ordinal ≤ ·.ordinal)).map (·.row)) := by
  obtain ⟨hvalid, hordinals⟩ := h
  obtain ⟨htiles, hfits, hnodup⟩ := validate_object_layout_ok.mp hvalid
  have hsorted : source.blocks.Pairwise (·.ordinal ≤ ·.ordinal) := by
    have hpairwise := Staging.pairwise_ordinals source.blocks.length
    rw [← hordinals, List.pairwise_map] at hpairwise
    exact hpairwise
  rw [List.Pairwise.insertionSort_eq hsorted]
  refine ⟨?_, ?_, ?_, hfits⟩
  · rw [List.map_map, List.length_map]
    exact hordinals
  · rw [List.map_map]
    exact hnodup
  · rw [List.map_map]
    exact htiles

/-- Reading an object gives back its rows. -/
theorem Layout.accepted {db : Database} {row : ObjectRow} (hwf : WellFormed db)
    (h : Layout row.size (columns db row.id)) :
    Accepted (object_from_row row (load_object_blocks db row.id)) := by
  have hrows : (load_object_blocks db row.id).map (·.row) = columns db row.id :=
    hwf.load_object_blocks row.id
  obtain ⟨hordinals, hnodup, htiles, hfits⟩ := h
  rw [← hrows] at hordinals hnodup htiles
  rw [List.map_map] at hnodup htiles
  rw [List.map_map, List.length_map] at hordinals
  exact ⟨validate_object_layout_ok.mpr ⟨htiles, hfits, hnodup⟩, hordinals⟩

/-! ## The machine -/

/-- A step learns of a snapshot only by reading one. -/
theorem sources_step {w w' : World} {a : Action} (hstep : step w a = some w') :
    ∀ source ∈ w'.sources, source ∈ w.sources
      ∨ ∃ row ∈ w.source_rows, validate_object_layout source = .ok ()
          ∧ source = object_from_row row (load_object_blocks w.db row.id) := by
  have hkept : w'.sources = w.sources → ∀ source ∈ w'.sources, source ∈ w.sources
      ∨ ∃ row ∈ w.source_rows, validate_object_layout source = .ok ()
          ∧ source = object_from_row row (load_object_blocks w.db row.id) :=
    fun heq source hsource => Or.inl (heq ▸ hsource)
  cases a with
  | copy_source row =>
      simp only [step] at hstep
      split_ifs at hstep with hcond
      obtain rfl := Option.some.inj hstep
      intro source hsource
      -- the snapshot is the row with the blocks of now, and it was validated
      rcases List.mem_cons.mp hsource with rfl | hold
      · exact Or.inr ⟨row, hcond.1, hcond.2, rfl⟩
      · exact Or.inl hold
  | copy_object source bucket key metadata condition =>
      simp only [step] at hstep
      split_ifs at hstep
      obtain rfl := Option.some.inj hstep
      -- a copy uses its snapshot up
      exact fun source hsource => Or.inl (List.mem_of_mem_erase hsource)
  | stage call spec document =>
      simp only [step] at hstep
      split_ifs at hstep
      split at hstep
      · rename_i w₁ block hrecord
        obtain ⟨-, -, rfl, -⟩ := GcSafety.record_ok hrecord
        obtain rfl := Option.some.inj hstep
        exact hkept rfl
      · cases hstep
  | stage_late spec document =>
      simp only [step] at hstep
      split at hstep
      · rename_i w₁ block hrecord
        obtain ⟨-, -, rfl, -⟩ := GcSafety.record_ok hrecord
        obtain rfl := Option.some.inj hstep
        exact hkept rfl
      · cases hstep
  | lose spec document =>
      simp only [step] at hstep
      split at hstep
      · rename_i w₁ block hrecord
        obtain ⟨-, -, rfl, -⟩ := GcSafety.record_ok hrecord
        obtain rfl := Option.some.inj hstep
        exact hkept rfl
      · cases hstep
  | put_object upload =>
      simp only [step] at hstep
      split_ifs at hstep
      split at hstep
      · obtain rfl := Option.some.inj hstep
        exact hkept rfl
      · cases hstep
  | upload_part upload_id part_number =>
      simp only [step] at hstep
      split at hstep
      · cases hstep
      · split_ifs at hstep
        obtain rfl := Option.some.inj hstep
        exact hkept rfl
  | replace_part call =>
      simp only [step] at hstep
      split_ifs at hstep
      split at hstep <;>
      · obtain rfl := Option.some.inj hstep
        exact hkept rfl
  | claim reference =>
      simp only [step] at hstep
      split_ifs at hstep
      split at hstep <;>
      · obtain rfl := Option.some.inj hstep
        exact hkept rfl
  | copy_row bucket key =>
      simp only [step] at hstep
      split at hstep
      · obtain rfl := Option.some.inj hstep
        exact hkept rfl
      · cases hstep
  | crash =>
      obtain rfl := Option.some.inj hstep
      exact fun _ h => (by cases h)
  | stale_blocks limit =>
      obtain rfl := Option.some.inj hstep
      exact hkept rfl
  | gc_candidates limit =>
      obtain rfl := Option.some.inj hstep
      exact hkept rfl
  | gc_candidate block_id =>
      obtain rfl := Option.some.inj hstep
      exact hkept rfl
  | _ =>
      simp only [step] at hstep
      split_ifs at hstep
      obtain rfl := Option.some.inj hstep
      exact hkept rfl

/-- A copy is made of a snapshot that was read. -/
theorem copied_source {w w' : World} {a : Action} (hstep : step w a = some w') {now : Int}
    {source : ObjectRecord} {bucket key : String} {metadata : ObjectMetadata}
    {condition : ObjectCondition}
    (hop : a.op w = some (.copy_object now source bucket key metadata condition)) :
    source ∈ w.sources := by
  cases a with
  | request op =>
      obtain rfl := Option.some.inj hop
      simp only [step] at hstep
      split_ifs at hstep with hplain
      cases hplain
  | copy_object source' bucket' key' metadata' condition' =>
      simp only [step] at hstep
      split_ifs at hstep with hmem
      simp only [Action.op, Option.some.injEq, Op.copy_object.injEq] at hop
      exact hop.2.1 ▸ hmem
  | _ => cases hop

structure Inv (w : World) : Prop where
  wellFormed : WellFormed w.db
  objects : Objects (fun row => Layout row.size) w.db
  sources : ∀ source ∈ w.sources, Accepted source

theorem inv_init (chat_id : Int) : Inv (World.init chat_id) where
  wellFormed := wellFormed_empty
  objects := fun _ h => (by cases h)
  sources := fun _ h => (by cases h)

/-- What is stored under any id is in order: under the id of an object by its layout, and
under another id there is nothing. -/
theorem Inv.ordinals_eq {w : World} (h : Inv w) (object_id : Int) :
    (load_object_blocks w.db object_id).map (·.ordinal)
      = ordinals (load_object_blocks w.db object_id).length := by
  by_cases hid : object_id ∈ w.db.objects.map (·.id)
  · obtain ⟨row, hrow, rfl⟩ := List.mem_map.mp hid
    exact ((h.objects row hrow).accepted h.wellFormed).2
  · have hempty : load_object_blocks w.db object_id = [] := by
      have hnone : w.db.object_blocks.filter (·.object_id = object_id) = [] := by
        refine List.filter_eq_nil_iff.mpr (fun r hr => ?_)
        have hne : r.object_id ≠ object_id :=
          fun heq => hid (heq ▸ h.wellFormed.object_block_object r hr)
        simpa using hne
      unfold load_object_blocks Database.object_block_rows
      rw [hnone]
      rfl
    rw [hempty]
    rfl

/-- One step: commits and copies write rows that read well, and nothing else writes rows. -/
theorem Inv.step {w w' : World} {a : Action} (h : Inv w) (hstep : Tg2s3.step w a = some w') :
    Inv w' := by
  have hsources : ∀ source ∈ w'.sources, Accepted source := by
    intro source hsource
    rcases sources_step hstep source hsource with hold | ⟨row, -, hvalid, rfl⟩
    · exact h.sources source hold
    · exact ⟨hvalid, h.ordinals_eq row.id⟩
  by_cases hrecords : Staging.records a = true
  · -- a new block row belongs to no object
    obtain ⟨spec, document, w₁, block, hrecord, hdb, -, -⟩ := step_record hstep hrecords
    obtain ⟨-, -, hw₁, hwf⟩ := GcSafety.record_ok hrecord
    refine ⟨hdb ▸ hwf h.wellFormed, ?_, hsources⟩
    rw [hdb, hw₁]
    exact h.objects
  · have happlied := step_db hstep (Bool.eq_false_iff.mpr hrecords)
    cases hop : a.op w with
    | none =>
        rw [hop] at happlied
        have hsame : w'.db = w.db := happlied
        exact ⟨hsame ▸ h.wellFormed, hsame ▸ h.objects, hsources⟩
    | some op =>
        rw [hop] at happlied
        have hdb : w'.db = op.apply w.db := happlied
        refine ⟨hdb ▸ wellFormed_apply _ op h.wellFormed, hdb ▸ ?_, hsources⟩
        refine objects_apply h.wellFormed h.objects ?_ ?_
        · intro _ _ _ _ _ _ _ _ _ _ hok
          exact layout_of_parts (commit_upload_tx_ok hok).layout
        · rintro now source bucket key metadata condition - - rfl -
          exact (h.sources source (copied_source hstep hop)).layout

/-- The rows of the object tile it, the reader's check accepts it, and every block that a row
refers to is there. -/
structure Intact (db : Database) (row : ObjectRow) : Prop where
  layout : Layout row.size (columns db row.id)
  valid : validate_object_layout (object_from_row row (load_object_blocks db row.id)) = .ok ()
  present : ∀ r ∈ db.object_block_rows row.id, ∃ block ∈ db.telegram_blocks, block.id = r.block_id
  loaded : (load_object_blocks db row.id).map (·.row) = columns db row.id

/-- **Every stored object is readable**, in every state that requests, tasks, copies and the
collector can reach. -/
theorem stored_objects_readable (chat_id : Int) (as : List Action) (w : World)
    (hrun : run step (World.init chat_id) as = some w) :
    ∀ row ∈ w.db.objects, Intact w.db row := by
  have hinv : Inv w := run_inv (C := fun _ _ => True)
    (fun _ _ _ h _ hstep => h.step hstep) (inv_init chat_id)
    (Meets.of_forall (fun _ _ => trivial) _ as) hrun
  intro row hrow
  have hlayout := hinv.objects row hrow
  refine ⟨hlayout, (hlayout.accepted hinv.wellFormed).1, fun r hr => ?_,
    hinv.wellFormed.load_object_blocks row.id⟩
  have hmem := (List.mem_filter.mp ((List.mem_insertionSort _).mp hr)).1
  exact List.mem_map.mp (hinv.wellFormed.object_block_block r hmem)

/-! ## An object that is copied onto itself -/

/-- The row of an object of two blocks, as the client put it. -/
def stored : ObjectRow where
  id := 1
  bucket := "b"
  object_key := "k"
  size := 10
  etag := "e"
  metadata := {}
  created_at := 0
  modified_at := 0

/-- A client puts the object; a copy reads it and writes it to its own key. -/
def copied_onto_itself : List Action :=
  slow_client.take 4 ++ slow_client_commits ++
    [ .copy_row "b" "k", .copy_source stored,
      .copy_object (object_from_row stored [reference 1 first_spec 11, reference 2 second_spec 13])
        "b" "k" {} {} ]

theorem stored_objects_readable_copied :
    ∃ w, run step (World.init (-100)) copied_onto_itself = some w ∧ stored ∈ w.db.objects
      ∧ Intact w.db stored := by
  have hrun : (run step (World.init (-100)) copied_onto_itself).map
      (fun w => decide (stored ∈ w.db.objects)) = some true := by decide
  obtain ⟨w, hw, hd⟩ := Option.map_eq_some_iff.mp hrun
  have hmem := of_decide_eq_true hd
  exact ⟨w, hw, hmem, stored_objects_readable (-100) copied_onto_itself w hw stored hmem⟩

end Tg2s3.Readable
