/-
The account of a block, and what the bookkeeping loops do to it.

`Database.account db b` is the reference-counting view of one block: its count,
whether it is staged, whether it is in `gc_queue`. Each loop of `src/db/` that
moves the books is one operation of `RefCount` on every account, with the number
of times the block occurs in the list as the operation's number:

- `decrement_blocks` releases,
- the loop of `commit_upload` settles,
- the loop of `copy_object` retains,
- `queue_stale_block` claims.

The loops that also insert rows come with the rows they append, up to the books
(`Books`). The number of references itself, `Database.refs`, is a count over two
tables and is followed separately.
-/
import Tg2s3.Lib.RefCount
import Tg2s3.Constraints

set_option autoImplicit false

namespace Tg2s3

open Relational RefCount RefCount.Account

/-- What the tables keep about a block besides its document. -/
def Database.account (db : Database) (b : Int) : Option Account :=
  (db.block? b).map fun row =>
    { count := row.ref_count, staged := decide (row.state = .staged),
      queued := decide (db.queued b) }

/-- How often a block occurs in a list of references. -/
def times (b : Int) (blocks : List BlockRef) : ℕ := (blocks.map (·.id)).count b

/-- An empty list refers to nothing. -/
@[simp] theorem times_nil (b : Int) : times b [] = 0 := rfl

/-- The first block counts once more for its own id. -/
theorem times_cons (b : Int) (block : BlockRef) (blocks : List BlockRef) :
    times b (block :: blocks) = (if b = block.id then 1 else 0) + times b blocks := by
  unfold times
  rw [List.map_cons, List.count_cons, Nat.add_comm]
  congr 1
  by_cases h : b = block.id
  · simp [h]
  · simp [h, Ne.symm h]

/-- Lists of references are counted one after the other. -/
theorem times_append (b : Int) (l₁ l₂ : List BlockRef) :
    times b (l₁ ++ l₂) = times b l₁ + times b l₂ := by
  simp [times]

/-- A block is counted if it is on the list. -/
theorem times_pos {b : Int} {blocks : List BlockRef} :
    0 < times b blocks ↔ b ∈ blocks.map (·.id) :=
  List.count_pos_iff

/-! ## The statements -/

section Statements

variable (db : Database)

/-- An update of one row is seen under its own id, if it keeps the id. -/
theorem block?_update_block {f : TelegramBlockRow → TelegramBlockRow} (hf : ∀ r, (f r).id = r.id)
    (id b : Int) :
    (db.update_block id f).block? b = if b = id then (db.block? b).map f else db.block? b := by
  have hlookup : (db.update_block id f).block? b
      = (db.block? b).map (fun r => if r.id = id then f r else r) :=
    lookup_updateWhere hf (·.id = id) b db.telegram_blocks
  rw [hlookup]
  cases hb : db.block? b with
  | none => simp
  | some r =>
      have hid : r.id = b := (lookup_mem hb).2
      simp only [Option.map_some, hid]
      split_ifs <;> rfl

/-- The queue has one block more. -/
theorem queued_enqueue (id now b : Int) : (db.enqueue id now).queued b ↔ b = id ∨ db.queued b :=
  key_mem_insertOrIgnore _ _ _ _

/-- And here it has one block less. -/
theorem queued_dequeue (id b : Int) : (db.dequeue id).queued b ↔ db.queued b ∧ b ≠ id := by
  unfold Database.queued Database.dequeue
  simp only [List.mem_map, mem_deleteWhere]
  constructor
  · rintro ⟨q, ⟨hq, hne⟩, rfl⟩
    exact ⟨⟨q, hq, rfl⟩, hne⟩
  · rintro ⟨⟨q, hq, rfl⟩, hne⟩
    exact ⟨q, ⟨hq, hne⟩, rfl⟩

/-- An update of one block is a change of one account. -/
theorem account_update_block {f : TelegramBlockRow → TelegramBlockRow}
    (hf : ∀ r, (f r).id = r.id) {g : Account → Account} (id b : Int)
    (hg : ∀ (r : TelegramBlockRow) (queued : Bool),
      ({ count := (f r).ref_count, staged := decide ((f r).state = .staged),
         queued := queued } : Account)
        = g { count := r.ref_count, staged := decide (r.state = .staged), queued := queued }) :
    (db.update_block id f).account b
      = if b = id then (db.account b).map g else db.account b := by
  unfold Database.account
  rw [block?_update_block db hf id b]
  have hqueued : (db.update_block id f).queued b = db.queued b := rfl
  split_ifs with hid
  · rw [Option.map_map, Option.map_map]
    congr 1
    funext r
    exact hg r _
  · rfl

/-- Queuing a block marks its account, and no other. -/
theorem account_enqueue (id now b : Int) :
    (db.enqueue id now).account b
      = if b = id then (db.account b).map (fun a => { a with queued := true })
        else db.account b := by
  unfold Database.account
  have hblock : (db.enqueue id now).block? b = db.block? b := rfl
  rw [hblock]
  split_ifs with hid
  · rw [Option.map_map]
    congr 1
    funext r
    simp [queued_enqueue, hid]
  · congr 1
    funext r
    simp [queued_enqueue, hid]

/-- Taking it out of the queue takes the mark away. -/
theorem account_dequeue (id b : Int) :
    (db.dequeue id).account b
      = if b = id then (db.account b).map (fun a => { a with queued := false })
        else db.account b := by
  unfold Database.account
  have hblock : (db.dequeue id).block? b = db.block? b := rfl
  rw [hblock]
  split_ifs with hid
  · rw [Option.map_map]
    congr 1
    funext r
    simp [queued_dequeue, hid]
  · congr 1
    funext r
    simp [queued_dequeue, hid]

/-- The account of a block that is there. -/
theorem account_eq_some {b : Int} {a : Account} :
    db.account b = some a ↔ ∃ row, db.block? b = some row
      ∧ a = { count := row.ref_count, staged := decide (row.state = .staged),
              queued := decide (db.queued b) } := by
  unfold Database.account
  rw [Option.map_eq_some_iff]
  constructor
  · rintro ⟨row, hrow, rfl⟩
    exact ⟨row, hrow, rfl⟩
  · rintro ⟨row, hrow, rfl⟩
    exact ⟨row, hrow, rfl⟩

/-- A block has an account exactly if it has a row. -/
theorem account_ne_none {b : Int} :
    db.account b ≠ none ↔ b ∈ db.telegram_blocks.map (·.id) := by
  unfold Database.account Database.block?
  rw [ne_eq, Option.map_eq_none_iff, lookup_eq_none, not_not]

end Statements

/-- The queue, read off an account. -/
theorem queued_iff_account {db : Database} {b : Int} {a : Account}
    (h : db.account b = some a) : db.queued b ↔ a.queued = true := by
  obtain ⟨row, -, rfl⟩ := (account_eq_some db).mp h
  simp

/-! ## A new block -/

/-- A row whose id is new opens an account of its own. -/
theorem account_insert_block {db : Database} {row : TelegramBlockRow}
    (hnew : row.id ∉ db.telegram_blocks.map (·.id)) (b : Int) :
    ({ db with telegram_blocks := db.telegram_blocks ++ [row] } : Database).account b
      = if b = row.id then
          some { count := row.ref_count, staged := decide (row.state = .staged),
                 queued := decide (db.queued row.id) }
        else db.account b := by
  have hblock : ({ db with telegram_blocks := db.telegram_blocks ++ [row] } : Database).block? b
      = if b = row.id then some row else db.block? b := lookup_append_singleton hnew
  have hqueued : ({ db with telegram_blocks := db.telegram_blocks ++ [row] } : Database).queued b
      = db.queued b := rfl
  unfold Database.account
  rw [hblock]
  split_ifs with hb
  · subst hb
    rfl
  · rfl

/-- Nothing refers to a block that is not there. -/
theorem WellFormed.refs_missing {db : Database} (h : WellFormed db) {b : Int}
    (hb : b ∉ db.telegram_blocks.map (·.id)) : db.refs b = 0 := by
  have hobject : references (·.block_id) b db.object_blocks = 0 :=
    references_eq_zero.mpr (fun r hr heq => hb (heq ▸ h.object_block_block r hr))
  have hpart : references (·.block_id) b db.multipart_part_blocks = 0 :=
    references_eq_zero.mpr (fun r hr heq => hb (heq ▸ h.part_block_block r hr))
  simp only [Database.refs, hobject, hpart]

/-- The queue refers to rows of blocks, by its foreign key. -/
theorem WellFormed.not_queued_missing {db : Database} (h : WellFormed db) {b : Int}
    (hb : b ∉ db.telegram_blocks.map (·.id)) : ¬ db.queued b := by
  intro hq
  obtain ⟨q, hmem, rfl⟩ := List.mem_map.mp hq
  exact hb (h.queue_block q hmem)

/-! ## Releasing -/

/-- A count that goes down leaves the other columns of the row. -/
@[simp] theorem frozen_decrement (b : TelegramBlockRow) : (decrement b).frozen = b.frozen := rfl

/-- And it goes down by one. -/
@[simp] theorem decrement_ref_count (b : TelegramBlockRow) :
    (decrement b).ref_count = b.ref_count - 1 := by
  unfold decrement
  simp only
  split_ifs <;> omega

/-- `decrement_block` keeps to the counts and the queue: the references and the documents are as
they were. -/
theorem books_decrement_block (db : Database) (now id : Int) :
    Books db (decrement_block db now id) := by
  have h := books_update_block db id frozen_decrement
  unfold decrement_block
  simp only
  split
  · split_ifs
    · exact h.trans (books_enqueue _ _ _)
    · exact h
  · exact h

/-- **What `decrement_block` means for an account**: one release of its own block. The queue is
part of the account, which is how the two statements of the source become one move. -/
theorem account_decrement_block (db : Database) (now id b : Int) :
    (decrement_block db now id).account b
      = if b = id then (db.account b).map (release 1) else db.account b := by
  have hupdate : (db.update_block id decrement).account b
      = if b = id then (db.account b).map (fun a => { a with count := a.count - 1 })
        else db.account b := by
    refine account_update_block db (f := decrement) (fun _ => rfl) id b (fun r queued => ?_)
    simp [decrement]
    omega
  have hrow : (db.update_block id decrement).block? id = (db.block? id).map decrement := by
    rw [block?_update_block db (f := decrement) (fun _ => rfl), if_pos rfl]
  unfold decrement_block
  simp only
  rw [hrow]
  cases hb : db.block? id with
  | none =>
      simp only [Option.map_none, hupdate]
      split_ifs with hid
      · subst hid
        simp [Database.account, hb]
      · rfl
  | some r =>
      simp only [Option.map_some, decrement_ref_count]
      split_ifs with hzero hid hid
      · rw [account_enqueue, if_pos hid, hupdate, if_pos hid, Option.map_map]
        subst hid
        simp [Database.account, hb, release, hzero]
      · rw [account_enqueue, if_neg hid, hupdate, if_neg hid]
      · rw [hupdate, if_pos hid]
        subst hid
        simp [Database.account, hb, release, hzero]
      · rw [hupdate, if_neg hid]

/-- The queue gets a row only for a block that is there. -/
theorem wellFormed_decrement_block {db : Database} (h : WellFormed db) (now id : Int) :
    WellFormed (decrement_block db now id) := by
  have hupdate := h.update_block id frozen_decrement
  unfold decrement_block
  simp only
  split
  · rename_i r hr
    split_ifs
    · exact hupdate.enqueue (lookup_isSome.mp ⟨r, hr⟩) now
    · exact hupdate
  · exact hupdate

/-- The same for a list, by induction. -/
theorem books_decrement_blocks (db : Database) (now : Int) (blocks : List BlockRef) :
    Books db (decrement_blocks db now blocks) := by
  unfold decrement_blocks
  induction blocks generalizing db with
  | nil => exact Books.refl db
  | cons block blocks ih => exact (books_decrement_block db now block.id).trans (ih _)

/-- And the same for its keys. -/
theorem wellFormed_decrement_blocks {db : Database} (h : WellFormed db) (now : Int)
    (blocks : List BlockRef) : WellFormed (decrement_blocks db now blocks) := by
  unfold decrement_blocks
  induction blocks generalizing db with
  | nil => exact h
  | cons block blocks ih => exact ih (wellFormed_decrement_block h now block.id)

/-- **The release loop.** Every block gives up as many counts as it occurs in the
list, and is queued if that takes the last one. -/
theorem account_decrement_blocks (db : Database) (now : Int) (blocks : List BlockRef) (b : Int) :
    (decrement_blocks db now blocks).account b
      = (db.account b).map (release (times b blocks)) := by
  unfold decrement_blocks
  induction blocks generalizing db with
  | nil =>
      have hid : release 0 = id := funext release_zero
      simp [hid]
  | cons block blocks ih =>
      rw [List.foldl_cons, ih, account_decrement_block, times_cons]
      split_ifs with hid
      · rw [Option.map_map]
        congr 1
        funext a
        exact release_release _ _ a
      · rw [Nat.zero_add]

/-! ## Committing -/

/-- The rows the commit loop appends: ordinals count up and offsets follow each
other, whatever the blocks said about themselves. -/
def committed_rows (object_id : Int) : Int → Int → List BlockRef → List ObjectBlockRow
  | _, _, [] => []
  | ordinal, offset, block :: rest =>
      { object_id := object_id, ordinal := ordinal, block_id := block.id, byte_offset := offset,
        size := block.size } :: committed_rows object_id (ordinal + 1) (offset + block.size) rest

/-- The update and the delete of `commit_block`. -/
theorem account_commit_row (db : Database) (id b : Int) :
    ((db.update_block id commit_row).dequeue id).account b
      = if b = id then (db.account b).map (settle 1) else db.account b := by
  have hupdate := account_update_block db (f := commit_row) (fun _ => rfl)
    (g := fun a => { a with count := max a.count 1, staged := false }) id b
    (fun r queued => by
      simp only [commit_row, Account.mk.injEq, reduceCtorEq, decide_false, and_true]
      split_ifs <;> omega)
  rw [account_dequeue, hupdate]
  split_ifs with hid
  · rw [Option.map_map]
    rfl
  · rfl

/-- **What committing a block means for its account**: its staging count becomes the count of the
reference, which is `settle`. -/
theorem account_commit_block {db db' : Database} {object_id ordinal offset : Int}
    {block : BlockRef} (h : commit_block db object_id ordinal offset block = .ok db') (b : Int) :
    db'.account b = if b = block.id then (db.account b).map (settle 1) else db.account b := by
  obtain ⟨db₁, hins, hdb'⟩ := bind_ok.mp h
  obtain rfl := Except.ok.inj hdb'
  have haccount : db₁.account b = db.account b := by
    obtain ⟨rfl, -, -, -⟩ := insert_object_block_ok hins
    rfl
  rw [account_commit_row, haccount]

/-- A block that is committed gets its row of the object, and the other tables of references
stay. -/
theorem commit_block_ok {db db' : Database} {object_id ordinal offset : Int}
    {block : BlockRef} (h : commit_block db object_id ordinal offset block = .ok db') :
    Books { db with object_blocks := db.object_blocks ++
        [{ object_id := object_id, ordinal := ordinal, block_id := block.id, byte_offset := offset,
           size := block.size }] } db'
      ∧ (WellFormed db → WellFormed db')
      ∧ block.id ∈ db.telegram_blocks.map (·.id) := by
  obtain ⟨db₁, hins, hdb'⟩ := bind_ok.mp h
  obtain rfl := Except.ok.inj hdb'
  have hrow : ∀ b, (commit_row b).frozen = b.frozen := fun _ => rfl
  have hwf' := fun hwf : WellFormed db =>
    ((hwf.insert_object_block hins).update_block block.id hrow).dequeue block.id
  obtain ⟨rfl, -, hblock, -⟩ := insert_object_block_ok hins
  exact ⟨(books_update_block _ block.id hrow).trans (books_dequeue _ _), hwf', hblock⟩

/-- Appending on top of a step that only moved the books. -/
theorem Books.append_object_blocks {db db' : Database} (h : Books db db')
    (rows : List ObjectBlockRow) :
    Books { db with object_blocks := db.object_blocks ++ rows }
      { db' with object_blocks := db'.object_blocks ++ rows } :=
  { h with object_blocks := by simp [h.object_blocks] }

/-- **The commit loop.** It appends the rebased rows, and settles every account
as often as the block occurs. -/
theorem commit_blocks_ok {db db' : Database} {object_id ordinal offset : Int}
    {blocks : List BlockRef}
    (h : commit_blocks object_id db ordinal offset blocks = .ok db') :
    Books { db with
        object_blocks := db.object_blocks ++ committed_rows object_id ordinal offset blocks } db'
      ∧ (WellFormed db → WellFormed db')
      ∧ (∀ block ∈ blocks, block.id ∈ db.telegram_blocks.map (·.id))
      ∧ ∀ b, db'.account b = (db.account b).map (settle (times b blocks)) := by
  induction blocks generalizing db ordinal offset with
  | nil =>
      obtain rfl := Except.ok.inj h
      have hid : settle 0 = id := funext settle_zero
      refine ⟨?_, id, by simp, fun b => by simp [hid]⟩
      simpa [committed_rows] using Books.refl db
  | cons block blocks ih =>
      obtain ⟨db₁, hblock, hrest⟩ := bind_ok.mp h
      obtain ⟨hbooks₁, hwf₁, hthere₁⟩ := commit_block_ok hblock
      obtain ⟨hbooks, hwf, hthere, haccount⟩ := ih hrest
      have hids : db₁.telegram_blocks.map (·.id) = db.telegram_blocks.map (·.id) := hbooks₁.ids
      refine ⟨?_, fun hdb => hwf (hwf₁ hdb), ?_, fun b => ?_⟩
      · have hfirst := hbooks₁.append_object_blocks
          (committed_rows object_id (ordinal + 1) (offset + block.size) blocks)
        simp only [List.append_assoc, List.cons_append, List.nil_append] at hfirst
        exact hfirst.trans hbooks
      · intro b hb
        rcases List.mem_cons.mp hb with rfl | hb
        · exact hthere₁
        · exact hids ▸ hthere b hb
      · rw [haccount, account_commit_block hblock, times_cons]
        split_ifs with hid
        · rw [Option.map_map]
          congr 1
          funext a
          exact settle_settle _ _ a
        · rw [Nat.zero_add]

/-! ## Copying -/

/-- The rows the copy loop appends: those of the snapshot, as they are. -/
def copied_rows (object_id : Int) (blocks : List BlockRef) : List ObjectBlockRow :=
  blocks.map fun block =>
    { object_id := object_id, ordinal := block.ordinal, block_id := block.id,
      byte_offset := block.offset, size := block.size }

/-- The update and the delete of `copy_block`. -/
theorem account_retain_row (db : Database) (id b : Int) :
    ((db.update_block id retain_row).dequeue id).account b
      = if b = id then (db.account b).map (retain 1) else db.account b := by
  have hupdate := account_update_block db (f := retain_row) (fun _ => rfl)
    (g := fun a => { a with count := a.count + 1, staged := false }) id b
    (fun r queued => by simp [retain_row])
  rw [account_dequeue, hupdate]
  split_ifs with hid
  · rw [Option.map_map]
    rfl
  · rfl

/-- A block that is copied gets a row of the object and one count more. -/
theorem copy_block_ok {db db' : Database} {object_id : Int} {block : BlockRef}
    (h : copy_block db object_id block = .ok db') :
    Books { db with object_blocks := db.object_blocks ++ copied_rows object_id [block] } db'
      ∧ (WellFormed db → WellFormed db')
      ∧ block.id ∈ db.telegram_blocks.map (·.id)
      ∧ ∀ b, db'.account b
          = if b = block.id then (db.account b).map (retain 1) else db.account b := by
  have hrow : ∀ b, (retain_row b).frozen = b.frozen := fun _ => rfl
  have hbooks := (books_update_block db block.id hrow).trans (books_dequeue _ block.id)
  refine ⟨?_, fun hwf => ?_, ?_, fun b => ?_⟩
  · obtain ⟨rfl, -, -, -⟩ := insert_object_block_ok h
    exact hbooks.append_object_blocks _
  · exact ((hwf.update_block block.id hrow).dequeue block.id).insert_object_block h
  · exact hbooks.ids ▸ (insert_object_block_ok h).2.2.1
  · obtain ⟨rfl, -, -, -⟩ := insert_object_block_ok h
    exact account_retain_row db block.id b

/-- **The copy loop.** It appends the rows of the snapshot, and every account
takes as many counts as the block occurs. -/
theorem copy_blocks_ok {db db' : Database} {object_id : Int} {blocks : List BlockRef}
    (h : copy_blocks object_id db blocks = .ok db') :
    Books { db with object_blocks := db.object_blocks ++ copied_rows object_id blocks } db'
      ∧ (WellFormed db → WellFormed db')
      ∧ (∀ block ∈ blocks, block.id ∈ db.telegram_blocks.map (·.id))
      ∧ ∀ b, db'.account b = (db.account b).map (retain (times b blocks)) := by
  induction blocks generalizing db with
  | nil =>
      obtain rfl := Except.ok.inj h
      have hid : retain 0 = id := funext retain_zero
      refine ⟨?_, id, by simp, fun b => by simp [hid]⟩
      simpa [copied_rows] using Books.refl db
  | cons block blocks ih =>
      obtain ⟨db₁, hblock, hrest⟩ := bind_ok.mp h
      obtain ⟨hbooks₁, hwf₁, hthere₁, haccount₁⟩ := copy_block_ok hblock
      obtain ⟨hbooks, hwf, hthere, haccount⟩ := ih hrest
      have hids : db₁.telegram_blocks.map (·.id) = db.telegram_blocks.map (·.id) := hbooks₁.ids
      refine ⟨?_, fun hdb => hwf (hwf₁ hdb), ?_, fun b => ?_⟩
      · have hfirst := hbooks₁.append_object_blocks (copied_rows object_id blocks)
        simp only [copied_rows, List.append_assoc, List.map_cons, List.map_nil, List.cons_append,
          List.nil_append] at hfirst
        exact hfirst.trans hbooks
      · intro b hb
        rcases List.mem_cons.mp hb with rfl | hb
        · exact hthere₁
        · exact hids ▸ hthere b hb
      · rw [haccount, haccount₁, times_cons]
        split_ifs with hid
        · rw [Option.map_map]
          congr 1
          funext a
          exact retain_retain _ _ a
        · rw [Nat.zero_add]

/-! ## Claiming a staged block -/

/-- The guard `ref_count > 0` of the update makes no difference to the row. -/
theorem block?_abandon_block (db : Database) (id b : Int) :
    (abandon_block db id).block? b
      = if b = id then
          (db.block? b).map (fun r => if is_abandoned db r then clear_ref_count r else r)
        else db.block? b := by
  have hlookup : (abandon_block db id).block? b = (db.block? b).map (fun r =>
      if r.id = id ∧ is_abandoned db r ∧ r.ref_count > 0 then clear_ref_count r else r) :=
    lookup_updateWhere (f := clear_ref_count) (fun _ => rfl) _ b db.telegram_blocks
  rw [hlookup]
  cases hb : db.block? b with
  | none => simp
  | some r =>
      have hid : r.id = b := (lookup_mem hb).2
      simp only [Option.map_some, hid]
      by_cases hb' : b = id
      · rw [if_pos hb']
        by_cases habandoned : is_abandoned db r
        · rcases Nat.eq_zero_or_pos r.ref_count with hzero | hpos
          · have hclear : clear_ref_count r = r := by
              unfold clear_ref_count
              rw [← hzero]
            rw [if_neg (by omega), if_pos habandoned, hclear]
          · rw [if_pos ⟨hb', habandoned, hpos⟩, if_pos habandoned]
        · rw [if_neg (fun h => habandoned h.2.1), if_neg habandoned]
      · rw [if_neg hb', if_neg (fun h => hb' h.1)]

/-- The claim of a stale block changes a count. -/
theorem books_abandon_block (db : Database) (id : Int) : Books db (abandon_block db id) := by
  have hfrozen : ∀ b, (clear_ref_count b).frozen = b.frozen := fun _ => rfl
  constructor <;> first | rfl | exact map_updateWhere hfrozen _

/-- And it adds a row to the queue. -/
theorem books_enqueue_abandoned (db : Database) (now id : Int) :
    Books db (enqueue_abandoned db now id) := by
  unfold enqueue_abandoned
  split
  · split_ifs
    · exact books_enqueue db id now
    · exact Books.refl db
  · exact Books.refl db

/-- So the whole claim is a matter of the counts and the queue. -/
theorem books_queue_stale_block (db : Database) (now id : Int) :
    Books db (queue_stale_block db now id).1 :=
  (books_abandon_block db id).trans (books_enqueue_abandoned _ now id)

/-- The claim keeps the keys: it queues a block only if its row is there. -/
theorem wellFormed_queue_stale_block {db : Database} (h : WellFormed db) (now id : Int) :
    WellFormed (queue_stale_block db now id).1 := by
  have habandon := (books_abandon_block db id).wellFormed h h.queue_ids h.queue_block
  unfold queue_stale_block enqueue_abandoned
  simp only
  split
  · rename_i r hr
    split_ifs
    · exact habandon.enqueue (lookup_isSome.mp ⟨r, hr⟩) now
    · exact habandon
  · exact habandon

/-- The second statement, seen from the row before the first. -/
theorem enqueue_abandon_block {db : Database} (now : Int) {id : Int} {r : TelegramBlockRow}
    (hr : db.block? id = some r) :
    enqueue_abandoned (abandon_block db id) now id
      = if is_abandoned db r then (abandon_block db id).enqueue id now
        else abandon_block db id := by
  unfold enqueue_abandoned
  rw [block?_abandon_block, if_pos rfl, hr]
  simp only [Option.map_some]
  by_cases habandoned : is_abandoned db r
  · have h₁ : is_abandoned (abandon_block db id) (clear_ref_count r) := habandoned
    rw [if_pos habandoned, if_pos ⟨h₁, rfl⟩, if_pos habandoned]
  · have h₁ : ¬ is_abandoned (abandon_block db id) r := habandoned
    rw [if_neg habandoned, if_neg (fun h => h₁ h.1), if_neg habandoned]

/-- **Claiming.** A staged block nothing refers to is claimed; every other
account is left alone. -/
theorem account_queue_stale_block (db : Database) (now id b : Int) :
    (queue_stale_block db now id).1.account b
      = if b = id ∧ db.refs b = 0 then
          (db.account b).map (fun a => if a.staged then claim a else a)
        else db.account b := by
  have habandon : b ≠ id → (abandon_block db id).account b = db.account b := by
    intro hne
    unfold Database.account
    rw [block?_abandon_block, if_neg hne]
    rfl
  have hdef : (queue_stale_block db now id).1 = enqueue_abandoned (abandon_block db id) now id := rfl
  rw [hdef]
  -- without a row nothing is abandoned; with one it depends on whether it is
  cases hr : db.block? id with
  | none =>
      have hnone : enqueue_abandoned (abandon_block db id) now id = abandon_block db id := by
        unfold enqueue_abandoned
        rw [block?_abandon_block, if_pos rfl, hr]
        rfl
      rw [hnone]
      by_cases hid : b = id
      · subst hid
        simp [Database.account, block?_abandon_block, hr]
      · rw [if_neg (fun h => hid h.1), habandon hid]
  | some r =>
      have hrid : r.id = id := (lookup_mem hr).2
      rw [enqueue_abandon_block now hr]
      by_cases hid : b = id
      · subst hid
        have hrow : db.account b
            = some { count := r.ref_count, staged := decide (r.state = .staged),
                     queued := decide (db.queued b) } := by
          unfold Database.account
          rw [hr]
          rfl
        -- the UPDATE and the INSERT both ask for a staged block without references
        by_cases habandoned : is_abandoned db r
        · have hrefs : db.refs b = 0 := hrid ▸ habandoned.2
          rw [if_pos habandoned, if_pos ⟨rfl, hrefs⟩, account_enqueue, if_pos rfl, hrow]
          unfold Database.account
          rw [block?_abandon_block, if_pos rfl, hr]
          simp [habandoned, habandoned.1, claim, clear_ref_count]
        · rw [if_neg habandoned]
          have hsame : (abandon_block db b).account b = db.account b := by
            unfold Database.account
            rw [block?_abandon_block, if_pos rfl, hr, Option.map_some, if_neg habandoned]
            rfl
          rw [hsame]
          split_ifs with hcond
          · -- without references it was not abandoned for being committed
            have hstaged : ¬ r.state = .staged := fun h => habandoned ⟨h, hrid ▸ hcond.2⟩
            rw [hrow]
            simp [hstaged]
          · rfl
      · have hne : ¬ (b = id ∧ db.refs b = 0) := fun h => hid h.1
        rw [if_neg hne]
        split_ifs
        · rw [account_enqueue, if_neg hid, habandon hid]
        · exact habandon hid

/-- The answer of `queue_stale_block`: the block is there, staged and referred to
by nothing. -/
theorem queue_stale_block_answer (db : Database) (now id : Int) :
    (queue_stale_block db now id).2 = true
      ↔ ∃ r, db.block? id = some r ∧ is_abandoned db r := by
  unfold queue_stale_block
  dsimp only
  cases hr : db.block? id with
  | none =>
      have hnone : enqueue_abandoned (abandon_block db id) now id = abandon_block db id := by
        unfold enqueue_abandoned
        rw [block?_abandon_block, if_pos rfl, hr]
        rfl
      rw [hnone, block?_abandon_block, if_pos rfl, hr]
      simp
  | some r =>
      rw [enqueue_abandon_block now hr]
      by_cases habandoned : is_abandoned db r
      · have hblock : ((abandon_block db id).enqueue id now).block? id
            = some (clear_ref_count r) := by
          have : ((abandon_block db id).enqueue id now).block? id
              = (abandon_block db id).block? id := rfl
          rw [this, block?_abandon_block, if_pos rfl, hr, Option.map_some, if_pos habandoned]
        have hqueued : ((abandon_block db id).enqueue id now).queued id :=
          (queued_enqueue _ _ _ _).mpr (Or.inl rfl)
        have h₁ : is_abandoned ((abandon_block db id).enqueue id now) { r with ref_count := 0 } :=
          habandoned
        simp only [if_pos habandoned, hblock]
        simp [hqueued, h₁, habandoned, clear_ref_count]
      · have hblock : (abandon_block db id).block? id = some r := by
          rw [block?_abandon_block, if_pos rfl, hr, Option.map_some, if_neg habandoned]
        have h₁ : ¬ is_abandoned (abandon_block db id) r := habandoned
        simp only [if_neg habandoned, hblock]
        simp [h₁, habandoned]

/-! ## Removing a block -/

/-- `gc_success` closes the account of a block that is free, and no other. -/
theorem account_gc_success {db : Database} (h : WellFormed db) (id b : Int) :
    (gc_success db id).account b
      = if b = id ∧ db.refs b = 0 then (db.account b).filter (·.count ≠ 0) else db.account b := by
  unfold gc_success
  cases hr : db.block? id with
  | none =>
      simp only
      split_ifs with hcond
      · obtain ⟨rfl, -⟩ := hcond
        simp [Database.account, hr]
      · rfl
  | some r =>
      simp only
      -- the DELETE asks for a count of zero and for no references
      by_cases hfree : r.ref_count = 0 ∧ db.refs id = 0
      · rw [if_pos hfree]
        have hblock : (db.delete_block id).block? b
            = (db.block? b).filter (fun r => ¬ r.id = id) :=
          lookup_deleteWhere h.block_ids (·.id = id)
        -- the queue row goes with the block, the others stay
        have hqueued : b ≠ id → ((db.delete_block id).queued b ↔ db.queued b) := by
          intro hne
          have hdequeue : (db.delete_block id).queued b ↔ (db.dequeue id).queued b := Iff.rfl
          rw [hdequeue, queued_dequeue]
          exact ⟨And.left, fun hq => ⟨hq, hne⟩⟩
        unfold Database.account
        rw [hblock]
        by_cases hid : b = id
        · subst hid
          rw [if_pos ⟨rfl, hfree.2⟩, hr]
          simp [Option.filter_some, (lookup_mem hr).2, hfree.1]
        · rw [if_neg (fun hc => hid hc.1)]
          cases hb : db.block? b with
          | none => rfl
          | some r' =>
              have hne : ¬ r'.id = id := by rw [(lookup_mem hb).2]; exact hid
              simp [hne, hqueued hid]
      · rw [if_neg hfree]
        split_ifs with hcond
        · obtain ⟨rfl, hrefs⟩ := hcond
          have hcount : r.ref_count ≠ 0 := fun hz => hfree ⟨hz, hrefs⟩
          simp [Database.account, hr, hcount, Option.filter_some]
        · rfl

/-- A row that goes takes its place in the queue along, so that no foreign key is left dangling.
-/
theorem wellFormed_gc_success {db : Database} (h : WellFormed db) (id : Int) :
    WellFormed (gc_success db id) := by
  unfold gc_success
  split
  · split_ifs with hfree
    · exact h.delete_block hfree.2
    · exact h
  · exact h

/-- The references are not touched by it: the row goes only if there is none. -/
theorem refs_gc_success (db : Database) (id b : Int) :
    (gc_success db id).refs b = db.refs b := by
  unfold gc_success
  split
  · split_ifs <;> rfl
  · rfl

/-! ## Notes in the queue -/

/-- What is noted in the queue about a block that waits there is not part of its account. -/
theorem account_update_queue (db : Database) (id b : Int) {f : GcQueueRow → GcQueueRow}
    (hf : ∀ q, (f q).block_id = q.block_id) : (db.update_queue id f).account b = db.account b := by
  have hqueued : (db.update_queue id f).queued b ↔ db.queued b := by
    unfold Database.queued Database.update_queue
    rw [map_updateWhere hf]
  unfold Database.account
  have hblock : (db.update_queue id f).block? b = db.block? b := rfl
  rw [hblock]
  simp only [hqueued]

end Tg2s3
