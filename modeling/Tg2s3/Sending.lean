/-
What an upload that succeeds has sent.

The frames are cut into blocks, the blocks go to tasks, and the tasks finish as they like.
`Sound` is the account of the tasks: what was sent is running or has a result, and a block
that is reported has a row with its document. `Cut` is the account of the loop: the blocks
it has sent follow each other, and with the one that is being written they are what came
in. At the end nothing runs and nothing is open, and the blocks in the order of their
ordinals hold the body (`upload_ok`).
-/
import Tg2s3.Transfer
import Tg2s3.Reads

set_option autoImplicit false

namespace Tg2s3.Transfer

open Download (Bytes checked_add_eq_some)
open Relational Assembly Slices
open Reads (document_columns ref_stored)

/-! ## One task -/

/-- The block is what the upload of the piece led to. -/
def IsUpload (env : Env) (piece : Piece) (block : BlockRef) : Prop :=
  ∃ id document, env.upload_stream piece.1 piece.2 = .ok document
    ∧ block = uploaded_block env.config.chat_id id piece.1 document

def IsResult (env : Env) (piece : Piece) (result : Except UploadError BlockRef) : Prop :=
  ∀ block, result = .ok block → IsUpload env piece block

/-- The row of the block is there, with its document. -/
def Staged (db : Database) (block : BlockRef) : Prop :=
  (db.block? block.id).map document_columns = (ref_stored block).2

/-- Only the table of blocks differs. -/
def OnlyBlocks (db db' : Database) : Prop :=
  db' = { db with telegram_blocks := db'.telegram_blocks }

/-- Rows of blocks that are added twice are added. -/
theorem OnlyBlocks.trans {db db' db'' : Database} (h : OnlyBlocks db db')
    (h' : OnlyBlocks db' db'') : OnlyBlocks db db'' := by
  unfold OnlyBlocks at *
  rw [h'] at *
  rw [h]

/-- The message of this piece, if Telegram takes it. -/
def posted (env : Env) (piece : Piece) : Option (Int × Int) :=
  match env.upload_stream piece.1 piece.2 with
  | .error _ => none
  | .ok document =>
      if document.file_size ≠ 0 ∧ document.file_size ≠ piece.1.size then none
      else some (env.config.chat_id, document.message_id)

/-- A task adds the row of its block, or changes nothing and fails. -/
theorem upload_one_cases {env : Env} {db db' : Database} {piece : Piece}
    {result : Except UploadError BlockRef} (h : upload_one env db piece = (db', result)) :
    (db' = db ∧ ∃ e, result = .error e) ∨
    ∃ document, env.upload_stream piece.1 piece.2 = .ok document
      ∧ (∃ m, posted env piece = some m ∧ m ∉ db.telegram_blocks.map (·.message)
        ∧ m = (env.config.chat_id, document.message_id))
      ∧ result = .ok (uploaded_block env.config.chat_id db.next_block_id piece.1 document)
      ∧ db' = { db with telegram_blocks := db.telegram_blocks ++ [staged_row env.now
          (uploaded_block env.config.chat_id db.next_block_id piece.1 document)
          db.next_block_id] } := by
  unfold upload_one at h
  unfold posted
  cases hdocument : env.upload_stream piece.1 piece.2 with
  | error e =>
      rw [hdocument] at h
      obtain ⟨rfl, rfl⟩ := Prod.mk.inj h
      exact .inl ⟨rfl, e, rfl⟩
  | ok document =>
      rw [hdocument] at h
      dsimp only at h ⊢
      split_ifs at h ⊢ with hsize
      · obtain ⟨rfl, rfl⟩ := Prod.mk.inj h
        exact .inl ⟨rfl, _, rfl⟩
      · unfold add_staged_block at h
        cases hins : db.insert_block
            (staged_row env.now (uploaded_block env.config.chat_id 0 piece.1 document)) with
        | error e =>
            rw [hins] at h
            obtain ⟨rfl, rfl⟩ := Prod.mk.inj h
            exact .inl ⟨rfl, _, rfl⟩
        | ok r =>
            rw [hins] at h
            obtain ⟨rfl, hnew⟩ := insert_block_ok hins
            obtain ⟨rfl, rfl⟩ := Prod.mk.inj h
            exact .inr ⟨document, rfl, ⟨_, rfl, hnew, rfl⟩, rfl, rfl⟩

/-- A message that is not in the table yet can be inserted. -/
theorem insert_block_of_new {db : Database} {row : Int → TelegramBlockRow}
    (h : (row db.next_block_id).message ∉ db.telegram_blocks.map (·.message)) :
    db.insert_block row = .ok
      ({ db with telegram_blocks := db.telegram_blocks ++ [row db.next_block_id] },
        db.next_block_id) := by
  unfold Database.insert_block
  rw [insertUnique_eq_some.mpr ⟨h, rfl⟩]

/-- A piece with a message of its own is staged. -/
theorem upload_one_of_posted {env : Env} {db : Database} {piece : Piece} {m : Int × Int}
    (hposted : posted env piece = some m) (hnew : m ∉ db.telegram_blocks.map (·.message)) :
    ∃ block, upload_one env db piece = ({ db with telegram_blocks :=
        db.telegram_blocks ++ [staged_row env.now block db.next_block_id] }, .ok block)
      ∧ (staged_row env.now block db.next_block_id).message = m := by
  unfold posted at hposted
  split at hposted
  · cases hposted
  · rename_i document hdocument
    split_ifs at hposted with hsize
    obtain rfl := Option.some.inj hposted
    refine ⟨uploaded_block env.config.chat_id db.next_block_id piece.1 document, ?_, rfl⟩
    unfold upload_one
    rw [hdocument]
    dsimp only
    rw [if_neg hsize]
    unfold add_staged_block
    rw [insert_block_of_new hnew]
    rfl

/-- A task that fails has staged nothing; one that succeeds has staged its block, and left
the other rows alone. -/
theorem upload_one_ok {env : Env} {db db' : Database} {piece : Piece}
    {result : Except UploadError BlockRef} (h : upload_one env db piece = (db', result))
    (hwf : WellFormed db) :
    OnlyBlocks db db' ∧ WellFormed db' ∧ IsResult env piece result
      ∧ (∀ block, Staged db block → Staged db' block)
      ∧ ∀ block, result = .ok block → Staged db' block := by
  rcases upload_one_cases h with ⟨rfl, e, rfl⟩ | ⟨document, hdocument, ⟨m, -, hnew, rfl⟩, rfl, rfl⟩
  · exact ⟨rfl, hwf, fun _ h => (by cases h), fun _ h => h, fun _ h => (by cases h)⟩
  · have hwf' := hwf.insert_block (fun _ => rfl) (insert_block_of_new
      (show (staged_row env.now (uploaded_block env.config.chat_id 0 piece.1 document)
        db.next_block_id).message ∉ _ from hnew))
    have hid : db.next_block_id ∉ db.telegram_blocks.map (·.id) := nextRowid_not_mem _
    have hblock : ∀ id, ({ db with telegram_blocks := db.telegram_blocks ++
        [staged_row env.now (uploaded_block env.config.chat_id db.next_block_id piece.1 document)
          db.next_block_id] } : Database).block? id
        = if id = db.next_block_id then
            some (staged_row env.now
              (uploaded_block env.config.chat_id db.next_block_id piece.1 document) db.next_block_id)
          else db.block? id := fun id => lookup_append_singleton hid
    refine ⟨rfl, hwf', ?_, fun block hstaged => ?_, ?_⟩
    · intro block hok
      obtain rfl := Except.ok.inj hok
      exact ⟨_, document, hdocument, rfl⟩
    · -- an old row has another id
      unfold Staged at hstaged ⊢
      rw [hblock, if_neg]
      · exact hstaged
      · intro heq
        have hnone : db.block? block.id = none := heq ▸ lookup_eq_none.mpr hid
        rw [hnone] at hstaged
        cases hstaged
    · intro block hok
      obtain rfl := Except.ok.inj hok
      unfold Staged
      rw [hblock]
      exact congrArg _ (if_pos rfl)

/-! ## The tasks -/

/-- The account of the tasks: `collected` are the results the loop has taken. -/
structure Sound (env : Env) (db₀ : Database) (sent : List Piece)
    (collected : List (Except UploadError BlockRef)) (tasks : Tasks) : Prop where
  only_blocks : OnlyBlocks db₀ tasks.db
  wellFormed : WellFormed tasks.db
  staged : ∀ block, .ok block ∈ collected ++ tasks.finished → Staged tasks.db block
  registered : ((collected ++ tasks.finished).filterMap Except.toOption).Perm tasks.registered
  returned : Returned (IsResult env) sent tasks.running (collected ++ tasks.finished)

section Tasks

variable {env : Env} {db₀ : Database} {sent : List Piece}
  {collected : List (Except UploadError BlockRef)} {tasks : Tasks}

/-- Before the first piece nothing is under way and nothing has come back. -/
theorem sound_start {db : Database} (hwf : WellFormed db) :
    Sound env db [] [] { db := db } where
  only_blocks := rfl
  wellFormed := hwf
  staged := fun _ h => (by cases h)
  registered := .refl _
  returned := returned_nil

/-- A piece that is handed to a task is on its way; everything else is as it was. -/
theorem Sound.push (h : Sound env db₀ sent collected tasks) (piece : Piece) :
    Sound env db₀ (sent ++ [piece]) collected (tasks.push piece) where
  only_blocks := h.only_blocks
  wellFormed := h.wellFormed
  staged := h.staged
  registered := h.registered
  returned := h.returned.send piece

/-- **One task ends**: its piece leaves the running ones, and its block comes back for it, or an
error does. The tables have one row more for it at most. -/
theorem Sound.finish_one (h : Sound env db₀ sent collected tasks) (position : ℕ) :
    Sound env db₀ sent collected (tasks.finish_one env position) := by
  unfold Tasks.finish_one
  cases hpiece : tasks.running[position]? with
  | none => exact h
  | some piece =>
      obtain ⟨hlt, rfl⟩ := List.getElem?_eq_some_iff.mp hpiece
      obtain ⟨db', result, hone⟩ : ∃ db' result,
          upload_one env tasks.db tasks.running[position] = (db', result) := ⟨_, _, rfl⟩
      obtain ⟨honly, hwf, hresult, hkeeps, hstaged⟩ := upload_one_ok hone h.wellFormed
      dsimp only
      rw [hone]
      refine ⟨h.only_blocks.trans honly, hwf, fun block hblock => ?_, ?_, ?_⟩
      · dsimp only at hblock
        rw [← List.append_assoc] at hblock
        rcases List.mem_append.mp hblock with hold | hnew
        · exact hkeeps block (h.staged block hold)
        · exact hstaged block (List.mem_singleton.mp hnew).symm
      · dsimp only
        rw [← List.append_assoc, List.filterMap_append]
        cases result with
        | ok block => exact h.registered.append_right [block]
        | error e =>
            rw [List.filterMap_cons_none rfl, List.filterMap_nil, List.append_nil]
            exact h.registered
      · dsimp only
        rw [← List.append_assoc]
        exact h.returned.finish (List.getElem_cons_eraseIdx_perm hlt).symm hresult

/-- Several tasks end while the loop waits for one. -/
theorem Sound.settle (h : Sound env db₀ sent collected tasks) :
    Sound env db₀ sent collected (tasks.settle env) :=
  tasks.settle_keeps env (fun _ position ht => ht.finish_one position) h

/-- A result is taken. -/
theorem Sound.next (h : Sound env db₀ sent collected tasks) {tasks' : Tasks}
    {result : Except UploadError BlockRef} (hnext : tasks.next env = (tasks', some result)) :
    Sound env db₀ sent (collected ++ [result]) tasks' := by
  have hsettled := h.settle
  obtain ⟨rfl, hresult⟩ := Prod.mk.inj hnext
  obtain ⟨hlt, hget⟩ := List.getElem?_eq_some_iff.mp hresult
  have hperm : (collected ++ (tasks.settle env).finished).Perm
      ((collected ++ [result]) ++ (tasks.settle env).finished.eraseIdx
        (env.picked tasks.awaited % (tasks.settle env).finished.length)) := by
    rw [List.append_assoc, ← hget]
    exact List.Perm.append_left _ (List.getElem_cons_eraseIdx_perm hlt).symm
  exact ⟨hsettled.only_blocks, hsettled.wellFormed,
    fun block hblock => hsettled.staged block (hperm.mem_iff.mpr hblock),
    (hperm.filterMap _).symm.trans hsettled.registered, hsettled.returned.perm hperm⟩

/-- The wait gets nothing only where there is nothing left. -/
theorem Sound.next_none (h : Sound env db₀ sent collected tasks) {tasks' : Tasks}
    (hnext : tasks.next env = (tasks', none)) :
    Sound env db₀ sent collected tasks' ∧ tasks'.running = [] ∧ tasks'.finished = [] := by
  have hsettled := h.settle
  obtain ⟨hrunning, hfinished⟩ := tasks.settle_of_next_none env hnext
  obtain ⟨rfl, -⟩ := Prod.mk.inj hnext
  dsimp only
  rw [hfinished, List.eraseIdx_nil]
  refine ⟨⟨hsettled.only_blocks, hsettled.wellFormed, ?_, ?_, ?_⟩, hrunning, rfl⟩
  · dsimp only
    rw [← hfinished]
    exact hsettled.staged
  · dsimp only
    rw [← hfinished]
    exact hsettled.registered
  · dsimp only
    rw [← hfinished]
    exact hsettled.returned

end Tasks

/-! ## Collecting -/

/-- As long as nothing has failed, the collected blocks are results of what was sent. -/
def Tracks (env : Env) (db₀ : Database) (sent : List Piece) (p : Progress) : Prop :=
  p.failure = none → Sound env db₀ sent (p.uploaded.map .ok) p.tasks

section Progress

variable {env : Env} {db₀ : Database} {sent : List Piece} {p : Progress}

/-- The loop has sent one piece more. -/
theorem Tracks.push (h : Tracks env db₀ sent p) (piece : Piece) :
    Tracks env db₀ (sent ++ [piece]) (p.push piece) :=
  fun hfailure => (h hfailure).push piece

/-- One more block is collected. -/
theorem Tracks.collect (h : Tracks env db₀ sent p) {tasks : Tasks} {block : BlockRef}
    (hnext : p.tasks.next env = (tasks, some (.ok block))) :
    Tracks env db₀ sent { p with tasks := tasks, uploaded := p.uploaded ++ [block] } := by
  intro hfailure
  have hsound := (h hfailure).next hnext
  dsimp only
  rw [List.map_append]
  exact hsound

/-- What the loop takes from a task goes to its blocks, so that nothing gets lost between the two
lists. -/
theorem Tracks.reap_one (h : Tracks env db₀ sent p) : Tracks env db₀ sent (p.reap_one env) := by
  unfold Progress.reap_one
  cases hnext : p.tasks.next env with
  | mk tasks result =>
      rcases result with _ | e | block
      · exact fun hfailure => (by cases hfailure)
      · exact fun hfailure => (by cases hfailure)
      · exact h.collect hnext

/-- It does so only when there is no room. -/
theorem Tracks.reap_if_full (h : Tracks env db₀ sent p) :
    Tracks env db₀ sent (p.reap_if_full env) := by
  unfold Progress.reap_if_full
  split_ifs
  · exact h.reap_one
  · exact h

/-- An error that was there, or that comes out of a task, stays. -/
theorem failure_drain_tasks (h : (p.drain_tasks env).failure = none) : p.failure = none := by
  fun_induction Progress.drain_tasks env p with
  | case1 p tasks hnext => exact h
  | case2 p tasks block hnext ih => exact ih h
  | case3 p tasks e hnext ih => cases ih h

/-- After it every task has been collected. -/
theorem Tracks.drain_tasks (h : Tracks env db₀ sent p)
    (hfailure : (p.drain_tasks env).failure = none) :
    Sound env db₀ sent ((p.drain_tasks env).uploaded.map .ok) (p.drain_tasks env).tasks
      ∧ (p.drain_tasks env).tasks.running = [] ∧ (p.drain_tasks env).tasks.finished = [] := by
  have hfirst := failure_drain_tasks hfailure
  fun_induction Progress.drain_tasks env p with
  | case1 p tasks hnext => exact (h hfirst).next_none hnext
  | case2 p tasks block hnext ih =>
      exact ih (h.collect hnext) hfailure (failure_drain_tasks hfailure)
  | case3 p tasks e hnext ih => cases failure_drain_tasks hfailure

end Progress

/-! ## Blocks that follow each other -/

/-- Full blocks, with ordinals and offsets that count on from these. -/
def Consecutive : Int → Int → List Piece → Prop
  | _, _, [] => True
  | ordinal, offset, piece :: rest =>
      piece.1.ordinal = ordinal ∧ piece.1.offset = offset ∧ piece.1.size = piece.2.length
        ∧ 0 < piece.1.size ∧ Consecutive (ordinal + 1) (offset + piece.1.size) rest

/-- The bytes of these blocks. -/
def content (pieces : List Piece) : Bytes := pieces.flatMap (·.2)

/-- One piece more at the end of the content. -/
theorem content_append (pieces : List Piece) (piece : Piece) :
    content (pieces ++ [piece]) = content pieces ++ piece.2 := by
  simp [content]

/-- A piece that starts where the last one has ended goes on with the sequence. -/
theorem Consecutive.append {ordinal offset : Int} {pieces : List Piece}
    (h : Consecutive ordinal offset pieces) {piece : Piece}
    (hordinal : piece.1.ordinal = ordinal + pieces.length)
    (hoffset : piece.1.offset = offset + (content pieces).length)
    (hsize : piece.1.size = piece.2.length) (hpos : 0 < piece.1.size) :
    Consecutive ordinal offset (pieces ++ [piece]) := by
  induction pieces generalizing ordinal offset with
  | nil =>
      have hzero : (content []).length = 0 := rfl
      rw [hzero] at hoffset
      exact ⟨by simpa using hordinal, by simpa using hoffset, hsize, hpos, trivial⟩
  | cons first pieces ih =>
      obtain ⟨h₁, h₂, h₃, h₄, hrest⟩ := h
      refine ⟨h₁, h₂, h₃, h₄, ih hrest ?_ ?_⟩
      · rw [List.length_cons] at hordinal
        omega
      · have hlength : (content (first :: pieces)).length
            = first.2.length + (content pieces).length := List.length_append
        rw [hlength] at hoffset
        omega

/-- Ordinals go up from the first one. -/
theorem Consecutive.ordinal_le {ordinal offset : Int} {pieces : List Piece}
    (h : Consecutive ordinal offset pieces) : ∀ piece ∈ pieces, ordinal ≤ piece.1.ordinal := by
  induction pieces generalizing ordinal offset with
  | nil => exact fun _ h => (by cases h)
  | cons first pieces ih =>
      intro piece hpiece
      rcases List.mem_cons.mp hpiece with rfl | hpiece
      · exact h.1.ge
      · have := ih h.2.2.2.2 piece hpiece
        omega

/-- No piece is empty. -/
theorem Consecutive.size_pos {ordinal offset : Int} {pieces : List Piece}
    (h : Consecutive ordinal offset pieces) : ∀ piece ∈ pieces, 0 < piece.1.size := by
  induction pieces generalizing ordinal offset with
  | nil => exact fun _ h => (by cases h)
  | cons first pieces ih =>
      intro piece hpiece
      rcases List.mem_cons.mp hpiece with rfl | hpiece
      · exact h.2.2.2.1
      · exact ih h.2.2.2.2 piece hpiece

/-- Every block is as long as a block can be there. -/
def Sized (chunk_size : ℕ) (total : Int) (pieces : List Piece) : Prop :=
  ∀ piece ∈ pieces, piece.1.size = min (total - piece.1.offset) chunk_size

/-- One more piece of the size that the rest of the body asks for. -/
theorem Sized.append {chunk_size : ℕ} {total : Int} {pieces : List Piece}
    (h : Sized chunk_size total pieces) {piece : Piece}
    (hsize : piece.1.size = min (total - piece.1.offset) chunk_size) :
    Sized chunk_size total (pieces ++ [piece]) := by
  intro piece' hpiece'
  rcases List.mem_append.mp hpiece' with hold | hnew
  · exact h piece' hold
  · rw [List.mem_singleton.mp hnew]
    exact hsize

/-- The ordinals are in order. -/
theorem Consecutive.pairwise {ordinal offset : Int} {pieces : List Piece}
    (h : Consecutive ordinal offset pieces) : pieces.Pairwise (·.1.ordinal < ·.1.ordinal) := by
  induction pieces generalizing ordinal offset with
  | nil => exact List.Pairwise.nil
  | cons first pieces ih =>
      refine List.pairwise_cons.mpr ⟨fun piece hpiece => ?_, ih h.2.2.2.2⟩
      have hfirst := h.1
      have hlater := h.2.2.2.2.ordinal_le piece hpiece
      omega

/-! ## The loop over the frames -/

/-- The account of the loop: `received` went into the blocks that were sent and into the
one that is being written, which ends no later than the body. -/
structure Cut (env : Env) (expected_length : Int) (db₀ : Database) (sent : List Piece)
    (received : Bytes) (k : Known) : Prop where
  tracks : Tracks env db₀ sent k.toProgress
  consecutive : Consecutive 0 0 sent
  sized : Sized env.config.chunk_size expected_length sent
  offset : k.offset = (content sent).length
  closed : k.current = none → k.ordinal = sent.length ∧ received = content sent
  opened (pipe : Pipe) : k.current = some pipe →
    k.ordinal = sent.length + 1 ∧ pipe.spec.ordinal = sent.length ∧ pipe.spec.offset = k.offset
      ∧ pipe.spec.size = min (expected_length - k.offset) env.config.chunk_size
      ∧ received = content sent ++ pipe.written

section Known

variable {env : Env} {expected_length : Int} {db₀ : Database} {sent : List Piece}
  {received : Bytes} {k : Known}

/-- At the start nothing has been cut off, and the pipe is empty. -/
theorem cut_start {db : Database} (hwf : WellFormed db) :
    Cut env expected_length db [] [] { tasks := { db := db } } where
  tracks := fun _ => sound_start hwf
  consecutive := trivial
  sized := fun _ h => (by cases h)
  offset := rfl
  closed := fun _ => ⟨rfl, rfl⟩
  opened := fun _ h => (by cases h)

/-- The block that is written next begins where the ones before it end. -/
theorem Cut.current_block (h : Cut env expected_length db₀ sent received k) {pipe : Pipe}
    {ordinal : Int} (hblock : k.current_block env expected_length = .ok (pipe, ordinal)) :
    Cut env expected_length db₀ sent received
      { k with current := some pipe, ordinal := ordinal } := by
  refine ⟨h.tracks, h.consecutive, h.sized, h.offset, fun hnone => (by cases hnone), ?_⟩
  intro pipe' hpipe'
  obtain rfl : pipe = pipe' := Option.some.inj hpipe'
  unfold Known.current_block at hblock
  split at hblock
  · rename_i pipe' hcurrent
    obtain ⟨rfl, rfl⟩ := Prod.mk.inj (Except.ok.inj hblock)
    exact h.opened _ hcurrent
  · rename_i hcurrent
    split at hblock
    · cases hblock
    · rename_i size hsize
      obtain ⟨rfl, rfl⟩ := Prod.mk.inj (Except.ok.inj hblock)
      obtain ⟨hordinal, hreceived⟩ := h.closed hcurrent
      dsimp only
      exact ⟨by omega, hordinal, rfl, block_size_eq hsize, by rw [List.append_nil]; exact hreceived⟩

/-- A complete block follows those that were sent. -/
theorem Cut.append {pipe : Pipe}
    (h : Cut env expected_length db₀ sent received { k with current := some pipe })
    {written : Bytes} (hsize : pipe.spec.size = written.length) :
    Consecutive 0 0 (sent ++ [(pipe.spec, written)])
      ∧ Sized env.config.chunk_size expected_length (sent ++ [(pipe.spec, written)]) := by
  obtain ⟨-, hspec, hoffset, hsized, -⟩ := h.opened pipe rfl
  have hpipe := pipe.room
  have hcount := h.offset
  dsimp only at hoffset hsized hcount
  have hpos : 0 < pipe.spec.size := by omega
  refine ⟨h.consecutive.append (by simpa using hspec) ?_ hsize hpos, h.sized.append ?_⟩
  · rw [hoffset, hcount]
    omega
  · rw [hoffset]
    exact hsized

/-- A complete block is sent. -/
theorem Cut.finish_block {pipe : Pipe}
    (h : Cut env expected_length db₀ sent received { k with current := some pipe })
    (hcurrent : k.current = none) {written : Bytes} (hsize : pipe.spec.size = written.length)
    (hfailure : (k.finish_block env pipe.spec written).failure = none) :
    Cut env expected_length db₀ (sent ++ [(pipe.spec, written)]) (content sent ++ written)
      (k.finish_block env pipe.spec written) := by
  obtain ⟨hordinal, hspec, -, -, -⟩ := h.opened pipe rfl
  obtain ⟨hconsecutive, hsized⟩ := h.append hsize
  have hcount := h.offset
  dsimp only at hordinal hcount
  unfold Known.finish_block at hfailure ⊢
  -- the pipe is closed, then one task that is done is taken if there are too many
  by_cases hshutdown : env.shutdown_fails pipe.spec = true
  · rw [if_pos hshutdown] at hfailure
    cases hfailure
  rw [if_neg hshutdown] at hfailure ⊢
  dsimp only at hfailure ⊢
  by_cases hreaped : ((k.toProgress.push (pipe.spec, written)).reap_if_full env).failure = none
  swap
  · rw [if_pos hreaped] at hfailure
    exact absurd hfailure hreaped
  · rw [if_neg (not_not.mpr hreaped)] at hfailure ⊢
    have htracks : Tracks env db₀ (sent ++ [(pipe.spec, written)])
        ((k.toProgress.push (pipe.spec, written)).reap_if_full env) :=
      (h.tracks.push (pipe.spec, written)).reap_if_full
    cases hadd : checked_add k.offset pipe.spec.size with
    | none => rw [hadd] at hfailure; cases hfailure
    | some offset =>
        obtain ⟨rfl, -⟩ := checked_add_eq_some hadd
        refine ⟨htracks, hconsecutive, hsized, ?_, ?_, ?_⟩
        · dsimp only
          rw [content_append, List.length_append, hcount]
          dsimp only
          omega
        · intro _
          dsimp only
          rw [content_append, List.length_append, List.length_singleton]
          exact ⟨by omega, rfl⟩
        · intro pipe hpipe
          rw [hcurrent] at hpipe
          cases hpipe

/-- A block without room is complete. -/
theorem Pipe.complete (pipe : Pipe) {data : Bytes} {amount : ℕ}
    (hamount : amount = min (pipe.spec.size - pipe.written.length).toNat data.length)
    (hroom : ¬ ((pipe.written ++ data.take amount).length : Int) < pipe.spec.size) :
    pipe.spec.size = (pipe.written ++ data.take amount).length := by
  have hpipe := pipe.room
  have hlength : (pipe.written ++ data.take amount).length
      = pipe.written.length + min amount data.length := by
    rw [List.length_append, List.length_take]
  omega

/-- **A frame**: its bytes go into blocks one after the other, whatever the frame and the
blocks are. By induction on what is left of the frame. -/
theorem Cut.write_frame (h : Cut env expected_length db₀ sent received k) {data : Bytes}
    (hfailure : (k.write_frame env expected_length data).failure = none) :
    ∃ sent', Cut env expected_length db₀ sent' (received ++ data)
      (k.write_frame env expected_length data) := by
  fun_induction Known.write_frame env expected_length k data generalizing sent received with
  | case1 k => exact ⟨sent, by rwa [List.append_nil]⟩
  | case2 k data hdata e hblock => cases hfailure
  | case3 k data hdata pipe ordinal hblock amount => cases hfailure
  | case4 k data hdata pipe ordinal hblock amount k' hwrite written =>
      rename_i hroom ih
      -- the frame ends in this block
      have hcut := h.current_block hblock
      obtain ⟨hordinal, hspec, hoffset, hfits, hreceived⟩ := hcut.opened pipe rfl
      have hnext : Cut env expected_length db₀ sent (received ++ data.take amount)
          { k' with current := some ⟨pipe.spec, written, hroom⟩ } := by
        refine ⟨hcut.tracks, hcut.consecutive, hcut.sized, hcut.offset,
          fun hnone => (by cases hnone), ?_⟩
        intro pipe' hpipe'
        obtain rfl := Option.some.inj hpipe'
        exact ⟨hordinal, hspec, hoffset, hfits, by rw [hreceived, List.append_assoc]⟩
      obtain ⟨sent', hsent'⟩ := ih hnext hfailure
      exact ⟨sent', by rwa [List.append_assoc, List.take_append_drop] at hsent'⟩
  | case5 k data hdata pipe ordinal hblock amount k' hwrite written hroom k'' =>
      rename_i hnone ih
      -- the block is complete, and the frame goes on
      have hcut := h.current_block hblock
      obtain ⟨hordinal, hspec, hoffset, hfits, hreceived⟩ := hcut.opened pipe rfl
      have hnext := Cut.finish_block (k := { k' with current := none }) hcut rfl
        (pipe.complete rfl hroom) hnone
      obtain ⟨sent', hsent'⟩ := ih hnext hfailure
      have hbytes : content sent ++ written ++ data.drop amount = received ++ data := by
        rw [hreceived, List.append_assoc, List.append_assoc, List.append_assoc,
          List.take_append_drop]
      exact ⟨sent', hbytes ▸ hsent'⟩
  | case6 k data hdata pipe ordinal hblock amount k' hwrite written hroom =>
      rename_i k'' hsome
      exact absurd hfailure hsome

/-- Finishing a block counts no byte: that was done when its bytes came in. -/
theorem length_finish_block (spec : BlockSpec) (written : Bytes) :
    (k.finish_block env spec written).total = k.total
      ∧ (k.finish_block env spec written).digest = k.digest := by
  unfold Known.finish_block
  split_ifs
  · exact ⟨rfl, rfl⟩
  · dsimp only
    split_ifs
    · exact ⟨rfl, rfl⟩
    · split <;> exact ⟨rfl, rfl⟩

/-- Length and digest are settled before the frame is written. -/
theorem length_write_frame (data : Bytes) :
    (k.write_frame env expected_length data).total = k.total
      ∧ (k.write_frame env expected_length data).digest = k.digest := by
  fun_induction Known.write_frame env expected_length k data with
  | case1 k => exact ⟨rfl, rfl⟩
  | case2 k data hdata e hblock => exact ⟨rfl, rfl⟩
  | case3 k data hdata pipe ordinal hblock amount => exact ⟨rfl, rfl⟩
  | case4 k data hdata pipe ordinal hblock amount k' hwrite written =>
      rename_i ih
      exact ih
  | case5 k data hdata pipe ordinal hblock amount k' hwrite written hroom k'' =>
      rename_i ih
      have hblock := @length_finish_block env { k' with current := none } pipe.spec written
      exact ⟨ih.1.trans hblock.1, ih.2.trans hblock.2⟩
  | case6 k data hdata pipe ordinal hblock amount k' hwrite written hroom =>
      exact length_finish_block (k := { k' with current := none }) pipe.spec written

/-- **The frames of a body**, by induction: what has come in is in the digest, in the
length, and in the blocks. -/
theorem Cut.read_frames (h : Cut env expected_length db₀ sent received k)
    (htotal : k.total = received.length) (hdigest : k.digest = received) {body : Body}
    (hfailure : (k.read_frames env expected_length body).failure = none) :
    ∃ sent' bytes, collect body = .ok bytes
      ∧ Cut env expected_length db₀ sent' (received ++ bytes)
        (k.read_frames env expected_length body)
      ∧ (k.read_frames env expected_length body).total = (received ++ bytes).length
      ∧ (k.read_frames env expected_length body).digest = received ++ bytes := by
  induction body generalizing k sent received with
  | nil =>
      refine ⟨sent, [], rfl, ?_⟩
      rw [List.append_nil]
      exact ⟨h, htotal, hdigest⟩
  | cons frame source ih =>
      cases frame with
      | error e => cases hfailure
      | ok data =>
          unfold Known.read_frames at hfailure ⊢
          cases hadd : checked_add k.total data.length with
          | none => rw [hadd] at hfailure; cases hfailure
          | some next_total =>
              rw [hadd] at hfailure
              dsimp only at hfailure ⊢
              -- the checks before the write, each of which ends the loop with an error
              obtain ⟨rfl, -⟩ := checked_add_eq_some hadd
              split_ifs at hfailure ⊢ with hmax hexpected hthrottled hwritten
              · cases hfailure
              · cases hfailure
              · cases hfailure
              · have hcut : Cut env expected_length db₀ sent received
                    { k with digest := k.digest ++ data, total := k.total + data.length } :=
                  ⟨h.tracks, h.consecutive, h.sized, h.offset, h.closed, h.opened⟩
                obtain ⟨sent₁, hframe⟩ := hcut.write_frame hwritten
                obtain ⟨htotal', hdigest'⟩ := @length_write_frame env expected_length
                  { k with digest := k.digest ++ data, total := k.total + data.length } data
                dsimp only at htotal' hdigest'
                obtain ⟨sent', bytes, hbytes, hcut', hlength⟩ := ih hframe
                  (by rw [htotal', htotal, List.length_append]; omega)
                  (by rw [hdigest', hdigest]) hfailure
                refine ⟨sent', data ++ bytes, ?_, ?_⟩
                · rw [collect_cons_ok, hbytes]
                  rfl
                · rw [← List.append_assoc]
                  exact ⟨hcut', hlength⟩
              · exact absurd hfailure hwritten

/-- When everything has come in, no block is open: it would end behind the body. -/
theorem Cut.current_eq_none (h : Cut env expected_length db₀ sent received k)
    (hreceived : (received.length : Int) = expected_length) : k.current = none := by
  cases hcurrent : k.current with
  | none => rfl
  | some pipe =>
      obtain ⟨-, -, -, hsized, hopen⟩ := h.opened pipe hcurrent
      have hroom := pipe.room
      have hoffset := h.offset
      rw [hopen, List.length_append] at hreceived
      omega

end Known

/-! ## The whole body -/

/-- The body was cut into blocks, and every block has come back. -/
structure Delivered (env : Env) (db₀ : Database) (bytes : Bytes) (tasks : Tasks)
    (uploaded : List BlockRef) (sent : List Piece) : Prop where
  consecutive : Consecutive 0 0 sent
  sized : Sized env.config.chunk_size bytes.length sent
  content_eq : content sent = bytes
  sound : Sound env db₀ sent (uploaded.map .ok) tasks
  running : tasks.running = []
  finished : tasks.finished = []

/-- **A body of known length**, when the upload is done: the pieces that were sent are cut from
it without gaps, in the sizes that its length fixes, and each of them has come back as a block.
-/
theorem upload_known_length_ok {env : Env} {db : Database} {body : Body} {expected_length : Int}
    {tasks : Tasks} {uploaded : List BlockRef} {total : Int} {digest : Bytes}
    (h : upload_known_length env db body expected_length = (tasks, .ok (uploaded, total, digest)))
    (hwf : WellFormed db) :
    ∃ bytes sent, collect body = .ok bytes ∧ total = bytes.length ∧ digest = bytes
      ∧ Delivered env db bytes tasks uploaded sent := by
  unfold upload_known_length at h
  split_ifs at h with hnegative
  · cases h
  · dsimp only at h
    generalize hk : Known.read_frames env expected_length { tasks := { db := db } } body = k at h
    cases hfailure : ((k.close env).drain_tasks env).failure with
    | some e => rw [hfailure] at h; cases h
    | none =>
        rw [hfailure] at h
        dsimp only at h
        split_ifs at h with hexpected
        · cases h
        · obtain ⟨rfl, hok⟩ := Prod.mk.inj h
          obtain ⟨rfl, hrest⟩ := Prod.mk.inj (Except.ok.inj hok)
          obtain ⟨rfl, rfl⟩ := Prod.mk.inj hrest
          have hclose := failure_drain_tasks hfailure
          have hfirst : k.failure = none := by
            unfold Known.close at hclose
            split at hclose
            · exact hclose
            · split_ifs at hclose
              · cases hclose
              · exact hclose
          rw [← hk] at hfirst
          obtain ⟨sent, bytes, hbytes, hcut, htotal, hdigest⟩ :=
            (cut_start hwf).read_frames rfl rfl hfirst
          rw [hk, List.nil_append] at hcut htotal hdigest
          have hcurrent := hcut.current_eq_none (htotal.symm.trans (not_not.mp hexpected))
          have hprogress : k.close env = k.toProgress := by
            unfold Known.close
            rw [hcurrent]
          rw [hprogress] at hfailure ⊢
          obtain ⟨hsound, hrunning, hfinished⟩ := hcut.tracks.drain_tasks hfailure
          have hsized := hcut.sized
          rw [← not_not.mp hexpected, htotal] at hsized
          exact ⟨bytes, sent, hbytes, htotal, hdigest, hcut.consecutive, hsized,
            (hcut.closed hcurrent).2.symm, hsound, hrunning, hfinished⟩

/-- The spool file holds what has come in. -/
theorem spool_frames_ok {env : Env} {spool spool' : Spool} {body : Body}
    (h : spool_frames env spool body = .ok spool') (hsize : spool.size = spool.file.length)
    (hdigest : spool.digest = spool.file) :
    ∃ bytes, collect body = .ok bytes ∧ spool'.file = spool.file ++ bytes
      ∧ spool'.size = spool'.file.length ∧ spool'.digest = spool'.file := by
  induction body generalizing spool with
  | nil =>
      obtain rfl := Except.ok.inj h
      exact ⟨[], rfl, (List.append_nil _).symm, hsize, hdigest⟩
  | cons frame source ih =>
      cases frame with
      | error e => cases h
      | ok data =>
          unfold spool_frames at h
          cases hadd : checked_add spool.size data.length with
          | none => rw [hadd] at h; cases h
          | some next_size =>
              rw [hadd] at h
              dsimp only at h
              obtain ⟨rfl, -⟩ := checked_add_eq_some hadd
              split_ifs at h
              obtain ⟨bytes, hbytes, hfile, hrest⟩ := ih h
                (by dsimp only; rw [hsize, List.length_append]; omega) (by dsimp only; rw [hdigest])
              refine ⟨data ++ bytes, ?_, ?_, hrest⟩
              · rw [collect_cons_ok, hbytes]
                rfl
              · rw [hfile, List.append_assoc]

/-- The account of the loop over the spool file: the blocks that were sent are the file up
to the offset. -/
structure Sliced (env : Env) (spool : Spool) (db₀ : Database) (sent : List Piece) (s : Spooled) :
    Prop where
  tracks : Tracks env db₀ sent s.toProgress
  consecutive : Consecutive 0 0 sent
  sized : Sized env.config.chunk_size spool.size sent
  ordinal : s.ordinal = sent.length
  offset : 0 ≤ s.offset ∧ s.offset ≤ spool.size
  content_eq : content sent = spool.file.take s.offset.toNat

/-- The next block of the file is sent. -/
theorem Sliced.send {env : Env} {spool : Spool} {db₀ : Database} {sent : List Piece} {s : Spooled}
    (h : Sliced env spool db₀ sent s) (hsize : spool.size = spool.file.length) {size : Int}
    (hblock : block_size env.config.chunk_size s.offset spool.size = .ok size) :
    Sliced env spool db₀
      (sent ++ [(⟨s.ordinal, s.offset, size⟩, window s.offset (s.offset + size) spool.file)])
      { toProgress := (s.toProgress.push
          (⟨s.ordinal, s.offset, size⟩, window s.offset (s.offset + size) spool.file)).reap_if_full
            env
        ordinal := s.ordinal + 1, offset := s.offset + size } := by
  obtain ⟨hpos, hfits⟩ := block_size_ok hblock
  obtain ⟨hoffset₀, hoffset₁⟩ := h.offset
  have hlength : (content sent).length = s.offset.toNat := by
    rw [h.content_eq, List.length_take]
    omega
  refine ⟨(h.tracks.push _).reap_if_full, h.consecutive.append ?_ ?_ ?_ hpos,
    h.sized.append (block_size_eq hblock), ?_, ?_, ?_⟩
  · dsimp only
    rw [h.ordinal, Int.zero_add]
  · dsimp only
    omega
  · dsimp only
    rw [length_window]
    omega
  · dsimp only
    rw [h.ordinal, List.length_append, List.length_singleton]
    rfl
  · dsimp only
    omega
  · dsimp only
    rw [content_append, h.content_eq]
    have hle : s.offset.toNat ≤ (s.offset + size).toNat := by omega
    rw [← List.take_append_drop s.offset.toNat (spool.file.take (s.offset + size).toNat),
      List.take_take, min_eq_left hle]
    rfl

/-- By induction on what is left of the file. -/
theorem Sliced.send_blocks {env : Env} {spool : Spool} {db₀ : Database} {sent : List Piece}
    {s : Spooled} (h : Sliced env spool db₀ sent s) (hsize : spool.size = spool.file.length)
    (hfailure : (send_blocks env spool s).failure = none) :
    ∃ sent', Tracks env db₀ sent' (send_blocks env spool s).toProgress ∧ Consecutive 0 0 sent'
      ∧ Sized env.config.chunk_size spool.size sent' ∧ content sent' = spool.file := by
  fun_induction Transfer.send_blocks env spool s generalizing sent with
  | case1 s hoffset e hblock => cases hfailure
  | case2 s hoffset size hblock => cases hfailure
  | case3 s hoffset size hblock =>
      rename_i offset hadd s' hnone ih
      obtain ⟨rfl, -⟩ := checked_add_eq_some hadd
      exact ih (h.send hsize hblock) hfailure
  | case4 s hoffset size hblock =>
      rename_i hsome
      exact absurd hfailure hsome
  | case5 s hoffset =>
      refine ⟨sent, h.tracks, h.consecutive, h.sized, ?_⟩
      have := h.offset
      rw [h.content_eq, List.take_of_length_le]
      omega

/-- **A body of unknown length** is spooled first, and then cut in the same way; its length is
known from the file by then. -/
theorem upload_unknown_length_ok {env : Env} {db : Database} {body : Body} {tasks : Tasks}
    {uploaded : List BlockRef} {total : Int} {digest : Bytes}
    (h : upload_unknown_length env db body = (tasks, .ok (uploaded, total, digest)))
    (hwf : WellFormed db) :
    ∃ bytes sent, collect body = .ok bytes ∧ total = bytes.length ∧ digest = bytes
      ∧ Delivered env db bytes tasks uploaded sent := by
  unfold upload_unknown_length at h
  split_ifs at h with hcreate
  · cases h
  · cases hspool : spool_frames env {} body with
    | error e => rw [hspool] at h; cases h
    | ok spool =>
        rw [hspool] at h
        dsimp only at h
        cases hfailure : ((send_blocks env spool { tasks := { db := db } }).toProgress.drain_tasks
            env).failure with
        | some e => rw [hfailure] at h; cases h
        | none =>
            rw [hfailure] at h
            obtain ⟨rfl, hok⟩ := Prod.mk.inj h
            obtain ⟨rfl, hrest⟩ := Prod.mk.inj (Except.ok.inj hok)
            obtain ⟨rfl, rfl⟩ := Prod.mk.inj hrest
            obtain ⟨bytes, hbytes, hfile, hsize, hdigest⟩ := spool_frames_ok hspool rfl rfl
            have hstart : Sliced env spool db [] { tasks := { db := db } } :=
              ⟨fun _ => sound_start hwf, trivial, fun _ h => (by cases h), rfl,
                ⟨le_refl _, by dsimp only; omega⟩, rfl⟩
            obtain ⟨sent, htracks, hconsecutive, hsized, hcontent⟩ :=
              hstart.send_blocks hsize (failure_drain_tasks hfailure)
            obtain ⟨hsound, hrunning, hfinished⟩ := htracks.drain_tasks hfailure
            have hbody : spool.file = bytes := hfile
            refine ⟨bytes, sent, hbytes, ?_, ?_, hconsecutive, ?_, ?_, hsound, hrunning, hfinished⟩
            · rw [hsize, hbody]
            · rw [hdigest, hbody]
            · rw [hsize, hbody] at hsized
              exact hsized
            · rw [hcontent, hbody]

/-- Both ways leave the same: the bytes of the body in consecutive pieces, each with its block in
the tables. -/
theorem upload_body_ok {env : Env} {db : Database} {body : Body} {expected_length : Option Int}
    {tasks : Tasks} {uploaded : List BlockRef} {total : Int} {digest : Bytes}
    (h : upload_body env db body expected_length = (tasks, .ok (uploaded, total, digest)))
    (hwf : WellFormed db) :
    ∃ bytes sent, collect body = .ok bytes ∧ total = bytes.length ∧ digest = bytes
      ∧ Delivered env db bytes tasks uploaded sent := by
  cases expected_length with
  | some expected_length => exact upload_known_length_ok h hwf
  | none => exact upload_unknown_length_ok h hwf

/-! ## The part -/

/-- The blocks in the order of their ordinals stand against the pieces as they were sent. -/
theorem Delivered.sorted {env : Env} {db₀ : Database} {bytes : Bytes} {tasks : Tasks}
    {uploaded : List BlockRef} {sent : List Piece}
    (h : Delivered env db₀ bytes tasks uploaded sent) :
    List.Forall₂ (IsUpload env) sent (uploaded.insertionSort (·.ordinal ≤ ·.ordinal)) := by
  have hreturned := h.sound.returned
  rw [h.running, h.finished, List.append_nil] at hreturned
  obtain ⟨done, hperm, hresults⟩ := hreturned
  rw [List.forall₂_map_right_iff] at hresults
  have hblocks : Returned (IsUpload env) sent [] uploaded :=
    ⟨done, hperm, hresults.imp (fun piece block hresult => hresult block rfl)⟩
  have hkey : ∀ (piece : Piece) (block : BlockRef), IsUpload env piece block →
      block.ordinal = piece.1.ordinal := by
    rintro piece block ⟨id, document, -, rfl⟩
    rfl
  exact hblocks.sorted hkey h.consecutive.pairwise

/-- The blocks that were collected are those of the cleanup guard. -/
theorem Delivered.registered {env : Env} {db₀ : Database} {bytes : Bytes} {tasks : Tasks}
    {uploaded : List BlockRef} {sent : List Piece}
    (h : Delivered env db₀ bytes tasks uploaded sent) : uploaded.Perm tasks.registered := by
  have hregistered := h.sound.registered
  rw [h.finished, List.append_nil, List.filterMap_map] at hregistered
  have hall : uploaded.filterMap (Except.toOption ∘ Except.ok (ε := UploadError)) = uploaded :=
    (List.filterMap_congr fun _ _ => rfl).trans List.filterMap_some
  rwa [hall] at hregistered

/-- What an upload that succeeded has made of its body. -/
structure Uploaded (env : Env) (db : Database) (upload_id : String) (part_number : Int)
    (bytes : Bytes) (part : PartRecord) (db' : Database) : Prop where
  upload_id_eq : part.upload_id = upload_id
  part_number_eq : part.part_number = part_number
  size_eq : part.size = bytes.length
  etag_eq : part.etag = md5_etag env bytes
  only_blocks : OnlyBlocks db db'
  wellFormed : WellFormed db'
  staged : ∀ block ∈ part.blocks, Staged db' block
  pieces : ∃ sent, Consecutive 0 0 sent ∧ Sized env.config.chunk_size bytes.length sent
    ∧ content sent = bytes ∧ List.Forall₂ (IsUpload env) sent part.blocks

/-- **An upload**, whatever the frames, the schedule and the way to the chat. -/
theorem upload_ok {env : Env} {db db' : Database} {upload_id : String} {part_number : Int}
    {body : Body} {expected_length : Option Int} {part : PartRecord} {total : Int}
    (h : upload env db upload_id part_number body expected_length = (db', .ok (part, total)))
    (hwf : WellFormed db) :
    ∃ bytes, collect body = .ok bytes ∧ total = bytes.length
      ∧ Uploaded env db upload_id part_number bytes part db' := by
  obtain ⟨tasks, result, hsent⟩ : ∃ tasks result,
      upload_body env db body expected_length = (tasks, result) := ⟨_, _, rfl⟩
  unfold upload at h
  rw [hsent] at h
  rcases result with e | ⟨uploaded, total', digest⟩
  · cases h
  · obtain ⟨rfl, hok⟩ := Prod.mk.inj h
    obtain ⟨rfl, rfl⟩ := Prod.mk.inj (Except.ok.inj hok)
    obtain ⟨bytes, sent, hbytes, htotal, rfl, hdelivered⟩ := upload_body_ok hsent hwf
    refine ⟨digest, hbytes, htotal, rfl, rfl, htotal, rfl, hdelivered.sound.only_blocks,
      hdelivered.sound.wellFormed, fun block hblock => ?_,
      sent, hdelivered.consecutive, hdelivered.sized, hdelivered.content_eq, hdelivered.sorted⟩
    refine hdelivered.sound.staged block (List.mem_append_left _ ?_)
    exact List.mem_map_of_mem ((List.mem_insertionSort _).mp hblock)

end Tg2s3.Transfer
