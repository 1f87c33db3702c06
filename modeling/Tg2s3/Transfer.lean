/-
`src/transfer/upload.rs` and its modules: how a body becomes documents in the chat.

The body comes in frames of any size and is cut into blocks of `chunk_size`. With a known
length each block is sent while it comes in, through a pipe; without one the body is
spooled to disk first, and the tasks read the file. In both cases the blocks are uploaded
by tasks that run side by side, and their results are collected in the order in which they
come.

What the outside does is in `Env`: what Telegram answers to an upload, which waits are
refused and which pipes break, and when which task finishes. A task does its work at once,
when it finishes: all that it shares with the others is the table of blocks, and nobody
else looks at that before the results are collected.

A frame's time in the pipe, the slots and the upload rate only make the loop wait; they are
left out, as is the removal of the spool file.
-/
import Mathlib
import Tg2s3.Lib.Assembly
import Tg2s3.Lib.Hex
import Tg2s3.Download
import Tg2s3.Db.Gc
import Tg2s3.Engine

set_option autoImplicit false

namespace Tg2s3.Transfer

open Download (Bytes checked_add_eq_some)

/-! ## Configuration and errors -/

/-- `Config`, with what `into_config` checks. -/
structure Config where
  chat_id : Int
  chunk_size : ℕ
  upload_concurrency : ℕ
  max_object_size : Int
  chunk_size_checked : chunk_size ≠ 0 ∧ chunk_size ≤ 2000000000
  upload_concurrency_checked : upload_concurrency ≠ 0
  max_object_size_checked : 1 ≤ max_object_size ∧ max_object_size ≤ 5497558138880

inductive UploadError
  | db (error : DbError)
  /-- the stream of the body, the spool file, or the pipe of a task -/
  | io (text : String)
  | telegram (text : String)
  | invalid_request
  | entity_too_large
  | slow_down
  | incomplete_body (expected actual : Int)
  | chunk_size_zero
  | invalid_layout
  | stored_size (stored expected : Int)
  | task_disappeared
  | upload_disappeared
  deriving DecidableEq, Repr

def UploadError.message : UploadError → String
  | .db error => error.message
  | .io text => text
  | .telegram text => text
  | .invalid_request => "InvalidRequest"
  | .entity_too_large => "EntityTooLarge"
  | .slow_down => "SlowDown"
  | .incomplete_body expected actual => "IncompleteBody: request Content-Length "
      ++ toString expected ++ " does not match body length " ++ toString actual
  | .chunk_size_zero => "chunk size must be greater than zero"
  | .invalid_layout => "object storage layout is invalid"
  | .stored_size stored expected => "Telegram stored chunk with size " ++ toString stored
      ++ ", expected " ++ toString expected
  | .task_disappeared => "upload task disappeared"
  | .upload_disappeared => "upload disappeared"

/-- The frames of a request body. -/
abbrev Body := List (Except UploadError Bytes)

/-- A block and the bytes that go into it. -/
abbrev Piece := BlockSpec × Bytes

/-- `delete_message_by_id`. -/
inductive DeleteAnswer
  | deleted
  | missing
  | failed
  deriving DecidableEq, Repr

/-- The server around one upload. -/
structure Env where
  config : Config
  now : Int
  md5 : Bytes → Bytes
  /-- what Telegram answers to the upload of these bytes -/
  upload_stream : BlockSpec → Bytes → Except UploadError StoredDocument
  delete_message : BlockRef → DeleteAnswer
  /-- whether so many bytes may not pass after so many others -/
  throttled : Int → ℕ → Bool
  write_fails : BlockSpec → ℕ → Bool
  shutdown_fails : BlockSpec → Bool
  /-- creating the spool file (no bytes so far) or writing it fails -/
  spool_fails : Int → Bool
  /-- the running tasks that finish before a result is awaited for the n-th time -/
  finishing : ℕ → List ℕ
  /-- the result that the n-th wait gets, of those that are there -/
  picked : ℕ → ℕ
  /-- the queries that read an object back after its commit -/
  row_query_fails : Bool
  blocks_query_fails : Bool
  /-- the calls of the cleanup: claiming a block, removing its row, and the abort of an upload -/
  claim_fails : BlockRef → Bool := fun _ => false
  removal_fails : BlockRef → Bool := fun _ => false
  abort_fails : Bool := false

/-! ## Tasks -/

structure Tasks where
  db : Database
  running : List Piece := []
  finished : List (Except UploadError BlockRef) := []
  /-- what the cleanup guard knows -/
  registered : List BlockRef := []
  awaited : ℕ := 0

/-- `upload_one`: the document is sent, and its row is staged. -/
def upload_one (env : Env) (db : Database) (piece : Piece) :
    Database × Except UploadError BlockRef :=
  match env.upload_stream piece.1 piece.2 with
  | .error e => (db, .error e)
  | .ok document =>
      if document.file_size ≠ 0 ∧ document.file_size ≠ piece.1.size then
        (db, .error (.stored_size document.file_size piece.1.size))
      else
        match add_staged_block db env.now
            (uploaded_block env.config.chat_id 0 piece.1 document) with
        | (db', .ok id) => (db', .ok (uploaded_block env.config.chat_id id piece.1 document))
        | (db', .error e) => (db', .error (.db e))

namespace Tasks

variable (env : Env) (tasks : Tasks)

def len : ℕ := tasks.running.length + tasks.finished.length

def push (piece : Piece) : Tasks := { tasks with running := tasks.running ++ [piece] }

/-- Dropped: the tasks are aborted. -/
def aborted : Tasks := { tasks with running := [], finished := [] }

/-- The running task at this position finishes. -/
def finish_one (position : ℕ) : Tasks :=
  match tasks.running[position]? with
  | none => tasks
  | some piece =>
      let (db, result) := upload_one env tasks.db piece
      { tasks with
        db := db
        running := tasks.running.eraseIdx position
        finished := tasks.finished ++ [result]
        registered := match result with
          | .ok block => tasks.registered ++ [block]
          | .error _ => tasks.registered }

/-- Some tasks finish; if there is no result yet, the wait goes on until there is one. -/
def settle : Tasks :=
  let settled := (env.finishing tasks.awaited).foldl (finish_one env) tasks
  if settled.finished = [] then
    settled.finish_one env (env.picked tasks.awaited % settled.running.length)
  else settled

/-- `tasks.next().await`. -/
def next : Tasks × Option (Except UploadError BlockRef) :=
  let settled := tasks.settle env
  let position := env.picked tasks.awaited % settled.finished.length
  ({ settled with
      finished := settled.finished.eraseIdx position
      awaited := tasks.awaited + 1 },
    settled.finished[position]?)

theorem len_finish_one (position : ℕ) : (tasks.finish_one env position).len = tasks.len := by
  unfold finish_one
  cases hpiece : tasks.running[position]? with
  | none => rfl
  | some piece =>
      obtain ⟨hlt, -⟩ := List.getElem?_eq_some_iff.mp hpiece
      unfold len
      dsimp only
      rw [List.length_append, List.length_eraseIdx_of_lt hlt, List.length_singleton]
      omega

/-- What the end of a task keeps is kept by a wait. -/
theorem settle_keeps {P : Tasks → Prop} (hP : ∀ t position, P t → P (finish_one env t position))
    (h : P tasks) : P (tasks.settle env) := by
  have hfold : ∀ (positions : List ℕ) (t : Tasks), P t →
      P (positions.foldl (finish_one env) t) := by
    intro positions
    induction positions with
    | nil => exact fun _ h => h
    | cons position positions ih =>
        intro t ht
        rw [List.foldl_cons]
        exact ih _ (hP t position ht)
  unfold settle
  dsimp only
  split_ifs
  · exact hP _ _ (hfold _ _ h)
  · exact hfold _ _ h

theorem len_settle : (tasks.settle env).len = tasks.len :=
  tasks.settle_keeps env (P := fun t => t.len = tasks.len)
    (fun t position h => (t.len_finish_one env position).trans h) rfl

/-- A result is a task less. -/
theorem len_next {tasks' : Tasks} {result : Except UploadError BlockRef}
    (h : tasks.next env = (tasks', some result)) : tasks'.len < tasks.len := by
  obtain ⟨rfl, hresult⟩ := Prod.mk.inj h
  obtain ⟨hlt, -⟩ := List.getElem?_eq_some_iff.mp hresult
  rw [← len_settle env tasks]
  unfold len
  dsimp only
  rw [List.length_eraseIdx_of_lt hlt]
  omega

/-- A wait gets nothing only where there is nothing left. -/
theorem settle_of_next_none {tasks' : Tasks} (h : tasks.next env = (tasks', none)) :
    (tasks.settle env).running = [] ∧ (tasks.settle env).finished = [] := by
  obtain ⟨-, hresult⟩ := Prod.mk.inj h
  have hfinished : (tasks.settle env).finished = [] := by
    by_contra hne
    have hpos := List.length_pos_iff.mpr hne
    rw [List.getElem?_eq_none_iff] at hresult
    exact absurd (Nat.mod_lt (env.picked tasks.awaited) hpos) (by omega)
  refine ⟨?_, hfinished⟩
  -- a running task would have finished
  unfold settle at hfinished ⊢
  dsimp only at hfinished ⊢
  split_ifs at hfinished ⊢ with hempty
  swap
  · exact absurd hfinished hempty
  by_contra hne
  generalize (env.finishing tasks.awaited).foldl (finish_one env) tasks = t at *
  unfold finish_one at hfinished hne
  cases hpiece : t.running[env.picked tasks.awaited % t.running.length]? with
  | none =>
      rw [hpiece] at hne
      dsimp only at hne
      have hpos := List.length_pos_iff.mpr hne
      rw [List.getElem?_eq_none_iff] at hpiece
      exact absurd (Nat.mod_lt (env.picked tasks.awaited) hpos) (by omega)
  | some piece =>
      rw [hpiece] at hfinished
      dsimp only at hfinished
      exact absurd hfinished (by simp)

/-- A task that is there gives a result. -/
theorem next_ne_none (h : 0 < tasks.len) {tasks' : Tasks} : tasks.next env ≠ (tasks', none) := by
  intro hnext
  obtain ⟨hrunning, hfinished⟩ := settle_of_next_none env tasks hnext
  have hlen := len_settle env tasks
  unfold len at h hlen
  rw [hrunning, hfinished] at hlen
  simp at hlen
  omega

end Tasks

/-! ## Collecting results -/

/-- What both loops share. -/
structure Progress where
  tasks : Tasks
  uploaded : List BlockRef := []
  failure : Option UploadError := none

namespace Progress

variable (env : Env) (p : Progress)

def fail (e : UploadError) : Progress := { p with failure := some e }

/-- `failure.get_or_insert(error)`. -/
def fail_first (e : UploadError) : Progress := { p with failure := some (p.failure.getD e) }

def push (piece : Piece) : Progress := { p with tasks := p.tasks.push piece }

def reap_one : Progress :=
  match p.tasks.next env with
  | (tasks, some (.ok block)) => { p with tasks := tasks, uploaded := p.uploaded ++ [block] }
  | (tasks, some (.error e)) => { p with tasks := tasks, failure := some e }
  | (tasks, none) => { p with tasks := tasks, failure := some .task_disappeared }

/-- `if tasks.len() >= upload_concurrency { reap_one(..) }`. -/
def reap_if_full : Progress :=
  if env.config.upload_concurrency ≤ p.tasks.len then p.reap_one env else p

/-- `while let Some(result) = tasks.next().await`. -/
def drain_tasks (p : Progress) : Progress :=
  match _h : p.tasks.next env with
  | (tasks, none) => { p with tasks := tasks }
  | (tasks, some (.ok block)) =>
      drain_tasks { p with tasks := tasks, uploaded := p.uploaded ++ [block] }
  | (tasks, some (.error e)) =>
      drain_tasks { p with tasks := tasks, failure := some (p.failure.getD e) }
termination_by p.tasks.len
decreasing_by all_goals exact Tasks.len_next env p.tasks _h

end Progress

/-! ## Blocks -/

/-- `i64::checked_sub`. -/
def checked_sub (a b : Int) : Option Int :=
  if i64_min ≤ a - b ∧ a - b ≤ i64_max then some (a - b) else none

def block_size (chunk_size : ℕ) (offset total : Int) : Except UploadError Int :=
  if chunk_size = 0 then .error .chunk_size_zero
  else
    match checked_sub total offset with
    | none => .error .invalid_layout
    | some remaining =>
        if remaining ≤ 0 then .error .invalid_layout else .ok (min remaining chunk_size)

theorem block_size_ok {chunk_size : ℕ} {offset total size : Int}
    (h : block_size chunk_size offset total = .ok size) : 0 < size ∧ size ≤ total - offset := by
  unfold block_size checked_sub at h
  split_ifs at h with hzero
  · dsimp only at h
    split_ifs at h with hpos
    obtain rfl := Except.ok.inj h
    omega

/-- A block is full, or it is the last one. -/
theorem block_size_eq {chunk_size : ℕ} {offset total size : Int}
    (h : block_size chunk_size offset total = .ok size) : size = min (total - offset) chunk_size := by
  unfold block_size checked_sub at h
  split_ifs at h with hzero
  dsimp only at h
  split_ifs at h with hpos
  exact (Except.ok.inj h).symm

/-! ## A body with a known length -/

/-- `PipeTask`: a block that is being written. -/
structure Pipe where
  spec : BlockSpec
  written : Bytes
  room : (written.length : Int) < spec.size

structure Known extends Progress where
  current : Option Pipe := none
  digest : Bytes := []
  total : Int := 0
  ordinal : Int := 0
  offset : Int := 0

namespace Known

variable (env : Env) (expected_length : Int) (k : Known)

def fail (e : UploadError) : Known := { k with failure := some e }

/-- The current block, or a new one, and the next ordinal. -/
def current_block : Except UploadError (Pipe × Int) :=
  match k.current with
  | some pipe => .ok (pipe, k.ordinal)
  | none =>
      match h : block_size env.config.chunk_size k.offset expected_length with
      | .error e => .error e
      | .ok size => .ok
          ({ spec := { ordinal := k.ordinal, offset := k.offset, size := size }
             written := []
             room := (block_size_ok h).1 }, k.ordinal + 1)

/-- A complete block: its pipe is closed and its task is left to itself. -/
def finish_block (spec : BlockSpec) (written : Bytes) : Known :=
  if env.shutdown_fails spec then k.fail (.io "shutdown")
  else
    let p := (k.toProgress.push (spec, written)).reap_if_full env
    let k := ({ k with toProgress := p })
    if k.failure ≠ none then k
    else
      match checked_add k.offset spec.size with
      | none => k.fail .entity_too_large
      | some offset => { k with offset := offset }

/-- The bytes of a frame go into the current block as far as they fit, the rest into the
next ones. -/
def write_frame (k : Known) (data : Bytes) : Known :=
  if hdata : data = [] then k
  else
    match current_block env expected_length k with
    | .error e => k.fail e
    | .ok (pipe, ordinal) =>
        let amount := min (pipe.spec.size - pipe.written.length).toNat data.length
        let k := ({ k with current := some pipe, ordinal := ordinal })
        if env.write_fails pipe.spec pipe.written.length then k.fail (.io "write_all")
        else
          let written := pipe.written ++ data.take amount
          if hroom : (written.length : Int) < pipe.spec.size then
            write_frame { k with current := some ⟨pipe.spec, written, hroom⟩ } (data.drop amount)
          else
            let k := ({ k with current := none }).finish_block env pipe.spec written
            if k.failure = none then write_frame k (data.drop amount) else k
termination_by data.length
decreasing_by
  all_goals
    have hroom := pipe.room
    have hlen := List.length_pos_iff.mpr hdata
    rw [List.length_drop]
    omega

/-- The loop over the frames. -/
def read_frames : Known → Body → Known
  | k, [] => k
  | k, .error e :: _ => k.fail e
  | k, .ok data :: source =>
      match checked_add k.total data.length with
      | none => k.fail .entity_too_large
      | some next_total =>
          if env.config.max_object_size < next_total then k.fail .entity_too_large
          else if expected_length < next_total then
            k.fail (.incomplete_body expected_length next_total)
          else if data ≠ [] ∧ env.throttled k.total data.length = true then k.fail .slow_down
          else
            let k := write_frame env expected_length
              { k with digest := k.digest ++ data, total := next_total } data
            if k.failure = none then read_frames k source else k

/-- The block that the end of the body left open. -/
def close : Progress :=
  match k.current with
  | none => k.toProgress
  | some pipe =>
      if env.shutdown_fails pipe.spec then k.toProgress.fail_first (.io "shutdown")
      else k.toProgress.push (pipe.spec, pipe.written)

end Known

/-- The state after it, the blocks in the order in which they were collected, the length,
and what went into the digest. -/
abbrev Sent := Tasks × Except UploadError (List BlockRef × Int × Bytes)

def upload_known_length (env : Env) (db : Database) (body : Body) (expected_length : Int) : Sent :=
  if expected_length < 0 then ({ db := db }, .error .invalid_request)
  else
    let k := Known.read_frames env expected_length { tasks := { db := db } } body
    let p := (k.close env).drain_tasks env
    match p.failure with
    | some e => (p.tasks, .error e)
    | none =>
        if k.total ≠ expected_length then
          (p.tasks, .error (.incomplete_body expected_length k.total))
        else (p.tasks, .ok (p.uploaded, k.total, k.digest))

/-! ## A body of unknown length -/

structure Spool where
  file : Bytes := []
  size : Int := 0
  digest : Bytes := []

/-- `spool_body`, after the file was created. -/
def spool_frames (env : Env) : Spool → Body → Except UploadError Spool
  | spool, [] => .ok spool
  | _, .error e :: _ => .error e
  | spool, .ok data :: source =>
      match checked_add spool.size data.length with
      | none => .error .entity_too_large
      | some next_size =>
          if env.config.max_object_size < next_size then .error .entity_too_large
          else if data ≠ [] ∧ env.throttled spool.size data.length = true then .error .slow_down
          else if env.spool_fails spool.size then .error (.io "write_all")
          else
            spool_frames env
              { file := spool.file ++ data, size := next_size, digest := spool.digest ++ data }
              source

structure Spooled extends Progress where
  ordinal : Int := 0
  offset : Int := 0

/-- The loop of `upload_spooled`. -/
def send_blocks (env : Env) (spool : Spool) (s : Spooled) : Spooled :=
  if s.offset < spool.size then
    match _h : block_size env.config.chunk_size s.offset spool.size with
    | .error e => { s with tasks := s.tasks.aborted, failure := some e }
    | .ok size =>
        let spec : BlockSpec := { ordinal := s.ordinal, offset := s.offset, size := size }
        let p := s.toProgress.push
          (spec, Slices.window s.offset (s.offset + size) spool.file)
        match _hadd : checked_add s.offset size with
        | none => { s with toProgress := p.fail .entity_too_large, ordinal := s.ordinal + 1 }
        | some offset =>
            let s' : Spooled :=
              { toProgress := p.reap_if_full env, ordinal := s.ordinal + 1, offset := offset }
            if s'.failure = none then send_blocks env spool s' else s'
  else s
termination_by (spool.size - s.offset).toNat
decreasing_by
  have hsize := block_size_ok _h
  have hoffset := checked_add_eq_some _hadd
  omega

def upload_unknown_length (env : Env) (db : Database) (body : Body) : Sent :=
  if env.spool_fails 0 then ({ db := db }, .error (.io "create_new"))
  else
    match spool_frames env {} body with
    | .error e => ({ db := db }, .error e)
    | .ok spool =>
        let p := (send_blocks env spool { tasks := { db := db } }).toProgress.drain_tasks env
        match p.failure with
        | some e => (p.tasks, .error e)
        | none => (p.tasks, .ok (p.uploaded, spool.size, spool.digest))

def check_size (length : Option Int) (max_size : Int) : Except UploadError Unit :=
  match length with
  | some length => if length < 0 ∨ max_size < length then .error .entity_too_large else .ok ()
  | none => .ok ()

/-! ## Cleaning up -/

/-- `cleanup_untracked_block`. -/
def cleanup_untracked_block (env : Env) (db : Database) (reference : BlockRef) : Database :=
  if 0 < reference.id then
    -- without a claim the message is deleted all the same, and the row stays as it is
    if env.claim_fails reference then db
    else
      match queue_stale_block db env.now reference.id with
      | (db', false) => db'
      | (db', true) =>
          match env.delete_message reference with
          | .deleted | .missing =>
              if env.removal_fails reference then db' else gc_success db' reference.id
          | .failed => db'
  else
    match env.delete_message reference with
    | .deleted => db
    | .missing | .failed =>
        if reference.id = 0 then
          match add_staged_block db env.now reference with
          | (db', .ok id) =>
              if env.claim_fails reference then db' else (queue_stale_block db' env.now id).1
          | (db', .error _) => db'
        else db

def cleanup_block_refs (env : Env) (db : Database) (references : List BlockRef) : Database :=
  references.foldl (cleanup_untracked_block env) db

/-- The database does not fail in the cleanup of a block or in the abort of an upload. -/
def Env.CleansUp (env : Env) : Prop :=
  (∀ block, env.claim_fails block = false) ∧ env.abort_fails = false

/-- The two queries that read an object back after its commit do not fail. -/
def Env.ReadsBack (env : Env) : Prop :=
  env.row_query_fails = false ∧ env.blocks_query_fails = false

/-! ## The upload of a part -/

/-- The lower-case hexadecimal MD5 of these bytes. -/
def md5_etag (env : Env) (bytes : Bytes) : String := String.ofList (Hex.encode (env.md5 bytes))

/-- The way a body goes depends on whether its length is known. -/
def upload_body (env : Env) (db : Database) (body : Body) : Option Int → Sent
  | some expected_length => upload_known_length env db body expected_length
  | none => upload_unknown_length env db body

def upload (env : Env) (db : Database) (upload_id : String) (part_number : Int) (body : Body)
    (expected_length : Option Int) : Database × Except UploadError (PartRecord × Int) :=
  match upload_body env db body expected_length with
  | (tasks, .error e) => (cleanup_block_refs env tasks.db tasks.registered, .error e)
  | (tasks, .ok (uploaded, total, digest)) =>
      (tasks.db, .ok
        ({ upload_id := upload_id
           part_number := part_number
           size := total
           etag := md5_etag env digest
           blocks := uploaded.insertionSort (·.ordinal ≤ ·.ordinal) }, total))

end Tg2s3.Transfer
