/-
Both ways of an upload cut a body in the same way.

The streaming upload cuts blocks while the frames come in, the spooled one takes slices of
a file; they share only `block_size`. `pieces` says what both come to: the `i`-th block
begins at `i * chunk_size` and is full or the last. Whatever is cut so that the blocks
follow each other and each is as long as it can be, is a front part of `pieces`
(`take_pieces`), and that is the account both loops keep. It also tells which block is sent
next, so where Telegram takes the pieces and nothing else fails, the upload succeeds.
-/
import Tg2s3.Registry
import Tg2s3.RoundTrip

set_option autoImplicit false

namespace Tg2s3.Transfer

open Download (Bytes checked_add_eq_some)
open Relational Assembly Slices

/-! ## Where the blocks lie -/

/-- `n / chunk_size`, rounded up. -/
def block_count (chunk_size n : ℕ) : ℕ := (n + chunk_size - 1) / chunk_size

def piece_at (chunk_size : ℕ) (bytes : Bytes) (i : ℕ) : Piece :=
  ({ ordinal := i
     offset := i * chunk_size
     size := min (bytes.length - i * chunk_size : Int) chunk_size },
    (bytes.drop (i * chunk_size)).take chunk_size)

def pieces (chunk_size : ℕ) (bytes : Bytes) : List Piece :=
  (List.range (block_count chunk_size bytes.length)).map (piece_at chunk_size bytes)

/-- The pieces from the `i`-th on. -/
def pieces_from (chunk_size : ℕ) (bytes : Bytes) (i : ℕ) : List Piece :=
  (List.range' i (block_count chunk_size bytes.length - i)).map (piece_at chunk_size bytes)

/-- Block `i` is there if its first byte is. -/
theorem lt_block_count {chunk_size n i : ℕ} (hchunk : chunk_size ≠ 0) :
    i < block_count chunk_size n ↔ i * chunk_size < n := by
  unfold block_count
  rw [Nat.lt_iff_add_one_le, Nat.le_div_iff_mul_le (by omega), Nat.succ_mul]
  omega

/-- The pieces from one on are this piece and those from the next one on. -/
theorem pieces_from_eq {chunk_size : ℕ} {bytes : Bytes} {i : ℕ} (hchunk : chunk_size ≠ 0)
    (h : i * chunk_size < bytes.length) :
    pieces_from chunk_size bytes i
      = piece_at chunk_size bytes i :: pieces_from chunk_size bytes (i + 1) := by
  have hlt := (lt_block_count hchunk).mpr h
  unfold pieces_from
  obtain ⟨m, hm⟩ : ∃ m, block_count chunk_size bytes.length - i = m + 1 :=
    ⟨block_count chunk_size bytes.length - i - 1, by omega⟩
  rw [hm, List.range'_succ, List.map_cons, show block_count chunk_size bytes.length - (i + 1) = m
    by omega]

/-- No content, no pieces: each of them has a byte at least. -/
theorem Consecutive.content_eq_nil {ordinal offset : Int} {sent : List Piece}
    (h : Consecutive ordinal offset sent) (hcontent : content sent = []) : sent = [] := by
  cases sent with
  | nil => rfl
  | cons first rest =>
      obtain ⟨-, -, hlength, hpos, -⟩ := h
      have hempty : first.2 = [] := (List.append_eq_nil_iff.mp hcontent).1
      rw [hempty] at hlength
      simp at hlength
      omega

/-- Blocks that follow each other, each as long as it can be, lie where `piece_at` says. -/
theorem piece_at_of_sized {chunk_size : ℕ} {bytes : Bytes} {sent : List Piece} {i : ℕ}
    (h : Consecutive i (i * chunk_size : ℕ) sent) (hsized : Sized chunk_size bytes.length sent)
    (hcontent : content sent <+: bytes.drop (i * chunk_size)) :
    sent = (List.range' i sent.length).map (piece_at chunk_size bytes) := by
  induction sent generalizing i with
  | nil => rfl
  | cons first rest ih =>
      obtain ⟨hordinal, hoffset, hlength, hpos, hrest⟩ := h
      have hsize := hsized first List.mem_cons_self
      obtain ⟨behind, hbehind⟩ := hcontent
      change first.2 ++ content rest ++ behind = _ at hbehind
      rw [List.append_assoc] at hbehind
      have htotal := congrArg List.length hbehind
      rw [List.length_append, List.length_append, List.length_drop] at htotal
      have hspec : first.1 = (piece_at chunk_size bytes i).1 := by
        rw [show first.1 = ⟨first.1.ordinal, first.1.offset, first.1.size⟩ from rfl, hordinal,
          hsize, hoffset]
        push_cast
        rfl
      rw [List.length_cons, List.range'_succ, List.map_cons]
      -- after a full block the next one begins a chunk further on
      by_cases hfull : first.2.length = chunk_size
      · have hbytes : first.2 = (piece_at chunk_size bytes i).2 := by
          unfold piece_at
          dsimp only
          rw [← hbehind, List.take_left' hfull]
        have hdrop : bytes.drop ((i + 1) * chunk_size) = content rest ++ behind := by
          rw [Nat.succ_mul, ← List.drop_drop, ← hbehind, List.drop_left' hfull]
        have hnext : (i * chunk_size : ℕ) + first.1.size = ((i + 1) * chunk_size : ℕ) := by
          rw [Nat.succ_mul]
          omega
        refine List.cons_eq_cons.mpr ⟨Prod.ext hspec hbytes, ih ?_ ?_ ?_⟩
        · rw [hnext] at hrest
          exact hrest
        · exact fun piece hpiece => hsized piece (List.mem_cons_of_mem _ hpiece)
        · rw [hdrop]
          exact List.prefix_append _ _
      · -- a block that is not full is the last one
        have hnothing : content rest ++ behind = [] := List.eq_nil_of_length_eq_zero (by
          rw [List.length_append]
          omega)
        obtain rfl := hrest.content_eq_nil (List.append_eq_nil_iff.mp hnothing).1
        have hbytes : first.2 = (piece_at chunk_size bytes i).2 := by
          unfold piece_at
          dsimp only
          rw [← hbehind, hnothing, List.append_nil, List.take_of_length_le (by omega)]
        exact List.cons_eq_cons.mpr ⟨Prod.ext hspec hbytes, rfl⟩

/-- The number of blocks that follow each other up to the end. -/
theorem length_of_sized {chunk_size : ℕ} {total ordinal offset : Int} {sent : List Piece}
    (hchunk : chunk_size ≠ 0) (h : Consecutive ordinal offset sent)
    (hsized : Sized chunk_size total sent) (hcontent : offset + (content sent).length = total) :
    sent.length = block_count chunk_size (content sent).length := by
  induction sent generalizing ordinal offset with
  | nil =>
      change 0 = block_count chunk_size 0
      unfold block_count
      rw [Nat.zero_add, Nat.div_eq_of_lt (by omega)]
  | cons first rest ih =>
      obtain ⟨-, hoffset, hlength, hpos, hrest⟩ := h
      have hsize := hsized first List.mem_cons_self
      have hcons : (content (first :: rest)).length = first.2.length + (content rest).length :=
        List.length_append
      have htail := ih hrest (fun piece hpiece => hsized piece (List.mem_cons_of_mem _ hpiece))
        (by omega)
      rw [List.length_cons, htail, hcons]
      unfold block_count
      by_cases hfull : first.2.length = chunk_size
      · rw [hfull, show chunk_size + (content rest).length + chunk_size - 1
            = (content rest).length + chunk_size - 1 + chunk_size by omega,
          Nat.add_div_right _ (by omega)]
      · obtain hzero : (content rest).length = 0 := by omega
        rw [hzero, Nat.div_eq_of_lt (by omega), eq_comm, Nat.div_eq_iff (by omega)]
        omega

/-- What has been cut so far is the front of the pieces. -/
theorem piece_at_of_cut {chunk_size : ℕ} {bytes : Bytes} {sent : List Piece}
    (h : Consecutive 0 0 sent) (hsized : Sized chunk_size bytes.length sent)
    (hcontent : content sent <+: bytes) :
    sent = (List.range sent.length).map (piece_at chunk_size bytes) := by
  rw [List.range_eq_range']
  refine piece_at_of_sized ?_ hsized ?_
  · rw [Nat.zero_mul]
    exact h
  · rw [Nat.zero_mul]
    exact hcontent

/-- The whole body is cut into the pieces. -/
theorem eq_pieces {chunk_size : ℕ} {bytes : Bytes} {sent : List Piece} (hchunk : chunk_size ≠ 0)
    (h : Consecutive 0 0 sent) (hsized : Sized chunk_size bytes.length sent)
    (hcontent : content sent = bytes) : sent = pieces chunk_size bytes := by
  have hlength := length_of_sized hchunk h hsized (by rw [hcontent, Int.zero_add])
  have hcut := piece_at_of_cut h hsized (hcontent ▸ List.prefix_refl _)
  rw [hlength, hcontent] at hcut
  exact hcut

/-! ## Where nothing fails -/

/-- Telegram takes these pieces, each as a message of its own. -/
structure Accepts (env : Env) (db : Database) (pieces : List Piece) : Prop where
  taken : ∀ piece ∈ pieces, posted env piece ≠ none
  distinct : (pieces.map (posted env) ++ db.telegram_blocks.map (some ·.message)).Nodup

/-- No wait is refused, and pipes and files can be written. -/
structure Smooth (env : Env) : Prop where
  passes : ∀ before count, env.throttled before count = false
  writes : ∀ spec written, env.write_fails spec written = false
  closes : ∀ spec, env.shutdown_fails spec = false
  spools : ∀ size, env.spool_fails size = false

/-- Telegram does not mind the order in which the pieces come. -/
theorem Accepts.perm {env : Env} {db : Database} {pieces pieces' : List Piece}
    (h : Accepts env db pieces) (hperm : pieces.Perm pieces') : Accepts env db pieces' where
  taken := fun piece hpiece => h.taken piece (hperm.mem_iff.mpr hpiece)
  distinct := ((hperm.map (posted env)).append_right _).nodup_iff.mp h.distinct

/-- A piece that is accepted is staged, and the others are accepted after it. -/
theorem Accepts.upload_one {env : Env} {db : Database} {piece : Piece} {rest : List Piece}
    (h : Accepts env db (piece :: rest)) :
    ∃ db' block, Transfer.upload_one env db piece = (db', .ok block) ∧ Accepts env db' rest := by
  cases hposted : posted env piece with
  | none => exact absurd hposted (h.taken piece List.mem_cons_self)
  | some m =>
      have hdistinct := h.distinct
      rw [List.map_cons, List.cons_append, List.nodup_cons, hposted] at hdistinct
      obtain ⟨hnew, hrest⟩ := hdistinct
      have hfresh : m ∉ db.telegram_blocks.map (·.message) := by
        intro hmem
        obtain ⟨row, hrow, rfl⟩ := List.mem_map.mp hmem
        exact hnew (List.mem_append_right _ (List.mem_map.mpr ⟨row, hrow, rfl⟩))
      obtain ⟨block, hone, hmessage⟩ := upload_one_of_posted hposted hfresh
      refine ⟨_, block, hone, fun piece' hpiece' => h.taken piece' (List.mem_cons_of_mem _ hpiece'),
        ?_⟩
      dsimp only
      rw [List.map_append, ← List.append_assoc]
      refine List.nodup_append.mpr ⟨hrest, List.nodup_singleton _, fun a ha b hb heq => ?_⟩
      obtain rfl := List.mem_singleton.mp hb
      subst heq
      dsimp only at ha
      rw [hmessage] at ha
      exact hnew ha

/-- The account of the tasks where nothing fails: `unsent` is what comes after them. -/
structure Ready (env : Env) (unsent : List Piece) (tasks : Tasks) : Prop where
  results : ∀ result ∈ tasks.finished, ∃ block, result = .ok block
  accepts : Accepts env tasks.db (tasks.running ++ unsent)

namespace Ready

variable {env : Env} {unsent : List Piece} {tasks : Tasks}

/-- The first piece that has not been sent is handed over. -/
theorem push {piece : Piece} (h : Ready env (piece :: unsent) tasks) :
    Ready env unsent (tasks.push piece) where
  results := h.results
  accepts := by
    have haccepts := h.accepts
    rw [List.append_cons] at haccepts
    exact haccepts

/-- A task of a piece that Telegram accepts ends well, so that no error gets into the results. -/
theorem finish_one (h : Ready env unsent tasks) (position : ℕ) :
    Ready env unsent (tasks.finish_one env position) := by
  unfold Tasks.finish_one
  cases hpiece : tasks.running[position]? with
  | none => exact h
  | some piece =>
      obtain ⟨hlt, rfl⟩ := List.getElem?_eq_some_iff.mp hpiece
      have haccepts : Accepts env tasks.db
          (tasks.running[position] :: (tasks.running.eraseIdx position ++ unsent)) :=
        h.accepts.perm ((List.getElem_cons_eraseIdx_perm hlt).symm.append_right unsent)
      obtain ⟨db', block, hone, hrest⟩ := haccepts.upload_one
      dsimp only
      rw [hone]
      refine ⟨fun result hresult => ?_, hrest⟩
      rcases List.mem_append.mp hresult with hold | hnew
      · exact h.results result hold
      · exact ⟨block, List.mem_singleton.mp hnew⟩

/-- So all tasks end well that end while the loop waits. -/
theorem settle (h : Ready env unsent tasks) : Ready env unsent (tasks.settle env) :=
  tasks.settle_keeps env (fun _ position ht => ht.finish_one position) h

/-- And what the loop gets from them is a block. -/
theorem next (h : Ready env unsent tasks) : Ready env unsent (tasks.next env).1 :=
  ⟨fun result hresult => h.settle.results result (List.mem_of_mem_eraseIdx hresult),
    h.settle.accepts⟩

end Ready

/-! ## Collecting where nothing fails -/

/-- Nothing has failed, and nothing will. -/
def Going (env : Env) (unsent : List Piece) (p : Progress) : Prop :=
  p.failure = none ∧ Ready env unsent p.tasks

namespace Going

variable {env : Env} {unsent : List Piece} {p : Progress}

/-- The loop has a piece less to send, and a task more. -/
theorem push {piece : Piece} (h : Going env (piece :: unsent) p) : Going env unsent (p.push piece) :=
  ⟨h.1, h.2.push⟩

/-- The results that come are blocks. -/
theorem next (h : Going env unsent p) {tasks : Tasks} {result : Except UploadError BlockRef}
    (hnext : p.tasks.next env = (tasks, some result)) :
    ∃ block, result = .ok block
      ∧ Going env unsent { p with tasks := tasks, uploaded := p.uploaded ++ [block] } := by
  have hready := h.2.next
  rw [hnext] at hready
  obtain ⟨-, hresult⟩ := Prod.mk.inj hnext
  obtain ⟨block, rfl⟩ := h.2.settle.results result (List.mem_of_getElem? hresult)
  exact ⟨block, rfl, h.1, hready⟩

/-- The loop takes a block and goes on. There is one to wait for, since a task is running or has
ended. -/
theorem reap_one (h : Going env unsent p) (hlen : 0 < p.tasks.len) :
    Going env unsent (p.reap_one env) := by
  unfold Progress.reap_one
  cases hnext : p.tasks.next env with
  | mk tasks result =>
      cases result with
      | none => exact absurd hnext (p.tasks.next_ne_none env hlen)
      | some result =>
          obtain ⟨block, rfl, hgoing⟩ := h.next hnext
          exact hgoing

/-- With the room full there is a task to wait for. -/
theorem reap_if_full (h : Going env unsent p) : Going env unsent (p.reap_if_full env) := by
  have hpos := env.config.upload_concurrency_checked
  unfold Progress.reap_if_full
  split_ifs with hfull
  · exact h.reap_one (by omega)
  · exact h

/-- When all tasks have ended nothing has failed, by induction on how many there were. -/
theorem drain_tasks (h : Going env unsent p) : Going env unsent (p.drain_tasks env) := by
  fun_induction Progress.drain_tasks env p with
  | case1 p tasks hnext =>
      have hready := h.2.next
      rw [hnext] at hready
      exact ⟨h.1, hready⟩
  | case2 p tasks block hnext ih =>
      obtain ⟨_, hok, hgoing⟩ := h.next hnext
      obtain rfl := Except.ok.inj hok
      exact ih hgoing
  | case3 p tasks e hnext ih =>
      obtain ⟨_, hok, -⟩ := h.next hnext
      cases hok

end Going

/-! ## The loops where nothing fails -/

/-- The size of a block can be computed for each offset in the body: the subtraction and the sum
stay in the range of an `i64`. -/
theorem block_size_isOk {chunk_size : ℕ} {offset total : Int} (hchunk : chunk_size ≠ 0)
    (hoffset : 0 ≤ offset) (hlt : offset < total) (hmax : total ≤ i64_max) (e : UploadError) :
    block_size chunk_size offset total ≠ .error e := by
  have hsub : checked_sub total offset = some (total - offset) := by
    unfold checked_sub
    rw [if_pos]
    unfold i64_min
    omega
  unfold block_size
  rw [if_neg hchunk, hsub]
  dsimp only
  rw [if_neg (by omega)]
  exact fun h => (by cases h)

/-- A sum in the range is computed. -/
theorem checked_add_of_le {a b : Int} (hpos : 0 ≤ a + b) (hmax : a + b ≤ i64_max) :
    checked_add a b = some (a + b) := by
  unfold checked_add
  rw [if_pos]
  unfold i64_min
  omega

/-- The piece that is cut next is the next one of the pieces. -/
theorem piece_of_cut {chunk_size : ℕ} {bytes : Bytes} {sent : List Piece} {piece : Piece}
    (h : Consecutive 0 0 (sent ++ [piece]))
    (hsized : Sized chunk_size bytes.length (sent ++ [piece]))
    (hcontent : content sent ++ piece.2 <+: bytes) :
    piece = piece_at chunk_size bytes sent.length ∧ sent.length * chunk_size < bytes.length := by
  have hcut := piece_at_of_cut h hsized (by rwa [content_append])
  rw [List.length_append, List.length_singleton, List.range_succ, List.map_append] at hcut
  obtain ⟨-, hpiece⟩ := List.append_inj' hcut rfl
  have hpiece : piece = piece_at chunk_size bytes sent.length := (List.cons.inj hpiece).1
  refine ⟨hpiece, ?_⟩
  have hpos : 0 < piece.1.size := h.size_pos piece (List.mem_append_right _ List.mem_cons_self)
  rw [hpiece] at hpos
  unfold piece_at at hpos
  dsimp only at hpos
  omega

section Known

variable {env : Env} {bytes : Bytes} {db₀ : Database} {sent : List Piece} {received : Bytes}
  {k : Known}

/-- A complete block is sent. -/
theorem Going.finish_block {pipe : Pipe} (hsmooth : Smooth env)
    (hmax : (bytes.length : Int) ≤ i64_max)
    (h : Going env (pieces_from env.config.chunk_size bytes sent.length) k.toProgress)
    (hcut : Cut env bytes.length db₀ sent received { k with current := some pipe })
    {written : Bytes} (hsize : pipe.spec.size = written.length)
    (hcontent : content sent ++ written <+: bytes) :
    Going env (pieces_from env.config.chunk_size bytes (sent.length + 1))
      (k.finish_block env pipe.spec written).toProgress := by
  obtain ⟨hconsecutive, hsized⟩ := hcut.append hsize
  obtain ⟨hpiece, hlt⟩ := piece_of_cut hconsecutive hsized hcontent
  rw [pieces_from_eq env.config.chunk_size_checked.1 hlt, ← hpiece] at h
  have hreaped := h.push.reap_if_full
  have hlength := hcontent.length_le
  have hoffset := hcut.offset
  rw [List.length_append] at hlength
  dsimp only at hoffset
  unfold Known.finish_block
  rw [if_neg (by rw [hsmooth.closes]; exact Bool.false_ne_true)]
  dsimp only
  rw [if_neg (not_not.mpr hreaped.1), checked_add_of_le (by omega) (by omega)]
  exact hreaped

/-- A frame, where nothing fails. -/
theorem Going.write_frame (hsmooth : Smooth env) (hmax : (bytes.length : Int) ≤ i64_max)
    (h : Going env (pieces_from env.config.chunk_size bytes sent.length) k.toProgress)
    (hcut : Cut env bytes.length db₀ sent received k) {data : Bytes}
    (hbytes : received ++ data <+: bytes) :
    ∃ sent', Cut env bytes.length db₀ sent' (received ++ data) (k.write_frame env bytes.length data)
      ∧ Going env (pieces_from env.config.chunk_size bytes sent'.length)
        (k.write_frame env bytes.length data).toProgress := by
  fun_induction Known.write_frame env bytes.length k data generalizing sent received with
  | case1 k => exact ⟨sent, by rwa [List.append_nil], h⟩
  | case2 k data hdata e hblock =>
      -- a new block fits before the end of the body
      exfalso
      unfold Known.current_block at hblock
      split at hblock
      · cases hblock
      · rename_i hcurrent
        split at hblock
        · rename_i e' hsize
          obtain ⟨-, hreceived⟩ := hcut.closed hcurrent
          have hoffset := hcut.offset
          have hlength := hbytes.length_le
          have hpos := List.length_pos_iff.mpr hdata
          rw [List.length_append, hreceived] at hlength
          exact block_size_isOk env.config.chunk_size_checked.1 (by omega) (by omega) hmax e' hsize
        · cases hblock
  | case3 k data hdata pipe ordinal hblock amount =>
      rename_i hwrite
      rw [hsmooth.writes] at hwrite
      cases hwrite
  | case4 k data hdata pipe ordinal hblock amount k' hwrite written =>
      rename_i hroom ih
      have hcurrent := hcut.current_block hblock
      obtain ⟨hordinal, hspec, hoffset, hsized, hreceived⟩ := hcurrent.opened pipe rfl
      have hnext : Cut env bytes.length db₀ sent (received ++ data.take amount)
          { k' with current := some ⟨pipe.spec, written, hroom⟩ } := by
        refine ⟨hcurrent.tracks, hcurrent.consecutive, hcurrent.sized, hcurrent.offset,
          fun hnone => (by cases hnone), ?_⟩
        intro pipe' hpipe'
        obtain rfl := Option.some.inj hpipe'
        exact ⟨hordinal, hspec, hoffset, hsized, by rw [hreceived, List.append_assoc]⟩
      obtain ⟨sent', hsent', hgoing⟩ := ih h hnext
        (by rwa [List.append_assoc, List.take_append_drop])
      exact ⟨sent', by rwa [List.append_assoc, List.take_append_drop] at hsent', hgoing⟩
  | case5 k data hdata pipe ordinal hblock amount k' hwrite written hroom k'' =>
      rename_i hnone ih
      have hcurrent := hcut.current_block hblock
      have hbytes' : content sent ++ written ++ data.drop amount = received ++ data := by
        obtain ⟨-, -, -, -, hreceived⟩ := hcurrent.opened pipe rfl
        rw [hreceived, List.append_assoc, List.append_assoc, List.append_assoc,
          List.take_append_drop]
      have hwritten := pipe.complete rfl hroom
      have hfinished := Going.finish_block (k := { k' with current := none }) hsmooth hmax h
        hcurrent hwritten ((List.prefix_append _ _).trans (hbytes' ▸ hbytes))
      have hnext := Cut.finish_block (k := { k' with current := none }) hcurrent rfl hwritten hnone
      have hlength : (sent ++ [(pipe.spec, written)]).length = sent.length + 1 := List.length_append
      obtain ⟨sent', hsent', hgoing⟩ := ih (hlength ▸ hfinished) hnext (hbytes' ▸ hbytes)
      exact ⟨sent', hbytes' ▸ hsent', hgoing⟩
  | case6 k data hdata pipe ordinal hblock amount k' hwrite written hroom =>
      rename_i k'' hsome
      have hcurrent := hcut.current_block hblock
      have hbytes' : content sent ++ written ++ data.drop amount = received ++ data := by
        obtain ⟨-, -, -, -, hreceived⟩ := hcurrent.opened pipe rfl
        rw [hreceived, List.append_assoc, List.append_assoc, List.append_assoc,
          List.take_append_drop]
      have hfinished := Going.finish_block (k := { k' with current := none }) hsmooth hmax h
        hcurrent (pipe.complete rfl hroom) ((List.prefix_append _ _).trans (hbytes' ▸ hbytes))
      exact absurd hfinished.1 hsome

/-- The frames of a body, where nothing fails. By induction on the frames. -/
theorem Going.read_frames (hsmooth : Smooth env)
    (hmax : (bytes.length : Int) ≤ env.config.max_object_size)
    (h : Going env (pieces_from env.config.chunk_size bytes sent.length) k.toProgress)
    (hcut : Cut env bytes.length db₀ sent received k) (htotal : k.total = received.length)
    {body : Body} {rest : Bytes} (hbody : collect body = .ok rest) (hbytes : received ++ rest = bytes) :
    (k.read_frames env bytes.length body).failure = none
      ∧ (k.read_frames env bytes.length body).total = bytes.length
      ∧ ∃ sent', Cut env bytes.length db₀ sent' bytes (k.read_frames env bytes.length body)
        ∧ Going env (pieces_from env.config.chunk_size bytes sent'.length)
          (k.read_frames env bytes.length body).toProgress := by
  have hlimit := env.config.max_object_size_checked.2
  have hword : (5497558138880 : Int) ≤ i64_max := by decide
  induction body generalizing k sent received rest with
  | nil =>
      obtain rfl := Except.ok.inj hbody
      rw [List.append_nil] at hbytes
      subst hbytes
      exact ⟨h.1, htotal, sent, hcut, h⟩
  | cons frame source ih =>
      -- a body that can be read has no frame with an error
      obtain ⟨data, rest', rfl, hsource, rfl⟩ := collect_cons_eq_ok hbody
      have hfits := congrArg List.length hbytes
      rw [List.length_append, List.length_append] at hfits
      unfold Known.read_frames
      rw [checked_add_of_le (by omega) (by omega)]
      dsimp only
      -- neither too large, nor longer than announced, nor throttled
      rw [if_neg (by omega), if_neg (by omega),
        if_neg (by rw [hsmooth.passes]; exact fun hthrottled => Bool.false_ne_true hthrottled.2)]
      have hcut' : Cut env bytes.length db₀ sent received
          { k with digest := k.digest ++ data, total := k.total + data.length } :=
        ⟨hcut.tracks, hcut.consecutive, hcut.sized, hcut.offset, hcut.closed, hcut.opened⟩
      rw [← List.append_assoc] at hbytes
      obtain ⟨sent', hframe, hgoing⟩ := Going.write_frame
        (k := { k with digest := k.digest ++ data, total := k.total + data.length })
        hsmooth (by omega) h hcut' ⟨rest', hbytes⟩
      rw [if_pos hgoing.1]
      refine ih hgoing hframe ?_ hsource hbytes
      rw [(length_write_frame data).1, List.length_append]
      dsimp only
      omega

end Known

/-- At the start all pieces are unsent, and Telegram will accept them. -/
theorem going_start {env : Env} {db : Database} {bytes : Bytes}
    (h : Accepts env db (pieces env.config.chunk_size bytes)) :
    Going env (pieces_from env.config.chunk_size bytes ([] : List Piece).length)
      { tasks := { db := db } } := by
  refine ⟨rfl, fun _ h => (by cases h), ?_⟩
  rw [List.nil_append]
  unfold pieces_from
  rw [List.length_nil, ← List.range_eq_range', Nat.sub_zero]
  exact h

/-- A streamed body, where nothing fails. -/
theorem upload_known_length_isOk {env : Env} {db : Database} {body : Body} {bytes : Bytes}
    (hbody : collect body = .ok bytes) (hwf : WellFormed db) (hsmooth : Smooth env)
    (hmax : (bytes.length : Int) ≤ env.config.max_object_size)
    (haccepts : Accepts env db (pieces env.config.chunk_size bytes)) :
    ∃ tasks result, upload_known_length env db body bytes.length = (tasks, .ok result) := by
  have hstart := going_start haccepts
  obtain ⟨hfailure, htotal, sent, hcut, hgoing⟩ := hstart.read_frames
    (k := { tasks := { db := db } }) hsmooth hmax (cut_start hwf) rfl hbody (List.nil_append _)
  generalize hk : Known.read_frames env bytes.length { tasks := { db := db } } body = k at *
  have hcurrent := hcut.current_eq_none rfl
  have hprogress : k.close env = k.toProgress := by
    unfold Known.close
    rw [hcurrent]
  unfold upload_known_length
  rw [if_neg (by omega), hk]
  dsimp only
  rw [hprogress, hgoing.drain_tasks.1]
  dsimp only
  rw [if_neg (not_not.mpr htotal)]
  exact ⟨_, _, rfl⟩

/-- Spooling goes well as long as the file can be written and the body is not longer than an
object may be. The induction is on the frames, with the bytes so far in the size. -/
theorem spool_frames_isOk {env : Env} {spool : Spool} {body : Body} {rest : Bytes}
    (hsmooth : Smooth env) (hbody : collect body = .ok rest)
    (hmax : spool.size + rest.length ≤ env.config.max_object_size) (hpos : 0 ≤ spool.size) :
    ∃ spool', spool_frames env spool body = .ok spool' := by
  have hlimit := env.config.max_object_size_checked.2
  have hword : (5497558138880 : Int) ≤ i64_max := by decide
  induction body generalizing spool rest with
  | nil => exact ⟨spool, rfl⟩
  | cons frame source ih =>
      obtain ⟨data, rest', rfl, hsource, rfl⟩ := collect_cons_eq_ok hbody
      rw [List.length_append] at hmax
      unfold spool_frames
      rw [checked_add_of_le (by omega) (by omega)]
      dsimp only
      rw [if_neg (by omega),
        if_neg (by rw [hsmooth.passes]; exact fun hthrottled => Bool.false_ne_true hthrottled.2),
        if_neg (by rw [hsmooth.spools]; exact Bool.false_ne_true)]
      refine ih hsource ?_ ?_
      · dsimp only
        omega
      · dsimp only
        omega

/-- The next block of the file is the next piece. -/
theorem Going.send_block {env : Env} {spool : Spool} {db₀ : Database} {sent : List Piece}
    {s : Spooled} (hsize : spool.size = spool.file.length)
    (h : Going env (pieces_from env.config.chunk_size spool.file sent.length) s.toProgress)
    (hsliced : Sliced env spool db₀ sent s) {size : Int}
    (hblock : block_size env.config.chunk_size s.offset spool.size = .ok size) :
    Going env (pieces_from env.config.chunk_size spool.file (sent.length + 1))
      ((s.toProgress.push (⟨s.ordinal, s.offset, size⟩,
        window s.offset (s.offset + size) spool.file)).reap_if_full env) := by
  have hnext := hsliced.send hsize hblock
  have hcontent := hnext.content_eq
  rw [content_append] at hcontent
  have hsized := hnext.sized
  rw [hsize] at hsized
  obtain ⟨hpiece, hlt⟩ := piece_of_cut hnext.consecutive hsized (hcontent ▸ List.take_prefix _ _)
  rw [pieces_from_eq env.config.chunk_size_checked.1 hlt, ← hpiece] at h
  exact h.push.reap_if_full

/-- The loop over the spool file, where nothing fails. By induction on what is left of it. -/
theorem Going.send_blocks {env : Env} {spool : Spool} {db₀ : Database} {sent : List Piece}
    {s : Spooled} (hsize : spool.size = spool.file.length) (hmax : spool.size ≤ i64_max)
    (h : Going env (pieces_from env.config.chunk_size spool.file sent.length) s.toProgress)
    (hsliced : Sliced env spool db₀ sent s) :
    ∃ unsent, Going env unsent (Transfer.send_blocks env spool s).toProgress := by
  fun_induction Transfer.send_blocks env spool s generalizing sent with
  | case1 s hoffset e hblock =>
      exact absurd hblock (block_size_isOk env.config.chunk_size_checked.1 hsliced.offset.1 hoffset
        hmax e)
  | case2 s hoffset size hblock =>
      rename_i spec p hadd _
      have := block_size_ok hblock
      have := hsliced.offset.1
      rw [checked_add_of_le (by omega) (by omega)] at hadd
      cases hadd
  | case3 s hoffset size hblock =>
      rename_i spec p offset hadd s' hnone ih
      obtain ⟨rfl, -⟩ := checked_add_eq_some hadd
      have hlength : ∀ piece, (sent ++ [piece]).length = sent.length + 1 :=
        fun _ => List.length_append
      refine ih ?_ (hsliced.send hsize hblock)
      rw [hlength]
      exact h.send_block hsize hsliced hblock
  | case4 s hoffset size hblock =>
      rename_i hsome
      exact absurd (h.send_block hsize hsliced hblock).1 hsome
  | case5 s hoffset => exact ⟨_, h⟩

/-- A spooled body, where nothing fails. -/
theorem upload_unknown_length_isOk {env : Env} {db : Database} {body : Body} {bytes : Bytes}
    (hbody : collect body = .ok bytes) (hwf : WellFormed db) (hsmooth : Smooth env)
    (hmax : (bytes.length : Int) ≤ env.config.max_object_size)
    (haccepts : Accepts env db (pieces env.config.chunk_size bytes)) :
    ∃ tasks result, upload_unknown_length env db body = (tasks, .ok result) := by
  have hlimit := env.config.max_object_size_checked.2
  have hword : (5497558138880 : Int) ≤ i64_max := by decide
  have hempty : ({} : Spool).size + bytes.length ≤ env.config.max_object_size := by
    dsimp only
    omega
  obtain ⟨spool, hspool⟩ := spool_frames_isOk hsmooth hbody hempty (le_refl _)
  obtain ⟨bytes', hbytes', hfile, hsize, -⟩ := spool_frames_ok hspool rfl rfl
  obtain rfl : bytes' = bytes := Except.ok.inj (hbytes'.symm.trans hbody)
  obtain rfl : spool.file = bytes' := hfile
  have hstart : Sliced env spool db [] { tasks := { db := db } } :=
    ⟨fun _ => sound_start hwf, trivial, fun _ h => (by cases h), rfl,
      ⟨le_refl _, by dsimp only; omega⟩, rfl⟩
  obtain ⟨unsent, hgoing⟩ := (going_start haccepts).send_blocks
    (s := { tasks := { db := db } }) hsize (by omega) hstart
  unfold upload_unknown_length
  rw [if_neg (by rw [hsmooth.spools]; exact Bool.false_ne_true), hspool]
  dsimp only
  rw [hgoing.drain_tasks.1]
  exact ⟨_, _, rfl⟩

/-- **Where Telegram takes the pieces and nothing else fails, the upload succeeds.** -/
theorem upload_isOk {env : Env} {db : Database} {body : Body} {bytes : Bytes}
    (upload_id : String) (part_number : Int) (expected_length : Option Int)
    (hbody : collect body = .ok bytes) (hexpected : ∀ n, expected_length = some n → n = bytes.length)
    (hwf : WellFormed db) (hsmooth : Smooth env)
    (hmax : (bytes.length : Int) ≤ env.config.max_object_size)
    (haccepts : Accepts env db (pieces env.config.chunk_size bytes)) :
    ∃ db' part total,
      upload env db upload_id part_number body expected_length = (db', .ok (part, total)) := by
  have hsent : ∃ tasks result, upload_body env db body expected_length = (tasks, .ok result) := by
    cases expected_length with
    | some n =>
        obtain rfl := hexpected n rfl
        exact upload_known_length_isOk hbody hwf hsmooth hmax haccepts
    | none => exact upload_unknown_length_isOk hbody hwf hsmooth hmax haccepts
  obtain ⟨tasks, ⟨uploaded, total, digest⟩, hsent⟩ := hsent
  unfold upload
  rw [hsent]
  exact ⟨_, _, _, rfl⟩

/-! ## The part that comes out -/

/-- The blocks have the layout that the writers check. -/
theorem validate_blocks_of_pieces {env : Env} {ordinal offset : Int} {sent : List Piece}
    {blocks : List BlockRef} {seen : List Int} (h : Consecutive ordinal offset sent)
    (hblocks : List.Forall₂ (IsUpload env) sent blocks) (hids : (blocks.map (·.id)).Nodup)
    (hseen : ∀ block ∈ blocks, block.id ∉ seen) (hpos : 0 ≤ offset)
    (hmax : offset + (content sent).length ≤ i64_max) :
    ∃ ids, validate_blocks blocks offset seen = .ok (offset + (content sent).length, ids) := by
  induction hblocks generalizing ordinal offset seen with
  | nil => exact ⟨seen, by rw [validate_blocks]; simp [content]⟩
  | @cons piece block sent blocks hblock _ ih =>
      obtain ⟨-, hoffset, hsize, hsize_pos, hrest⟩ := h
      obtain ⟨id, document, -, rfl⟩ := hblock
      obtain ⟨hnew, hnodup⟩ := List.nodup_cons.mp hids
      have hlength : (content (piece :: sent)).length = piece.2.length + (content sent).length :=
        List.length_append
      rw [hlength] at hmax ⊢
      have hnext : ∀ block ∈ blocks, block.id ∉ id :: seen := by
        intro block hblock hmem
        rcases List.mem_cons.mp hmem with heq | hold
        · exact hnew (List.mem_map.mpr ⟨block, hblock, heq⟩)
        · exact hseen block (List.mem_cons_of_mem _ hblock) hold
      obtain ⟨ids, hvalid⟩ := ih hrest hnodup hnext (by omega) (by omega)
      refine ⟨ids, ?_⟩
      unfold validate_blocks
      rw [if_neg]
      · have hadd : checked_add offset piece.1.size = some (offset + piece.1.size) :=
          checked_add_of_le (by omega) (by omega)
        rw [show (uploaded_block env.config.chat_id id piece.1 document).size = piece.1.size from rfl,
          hadd]
        refine hvalid.trans ?_
        rw [show offset + piece.1.size + ((content sent).length : Int)
          = offset + ((piece.2.length + (content sent).length : ℕ) : Int) by omega]
      · rintro (hle | hne | hmem)
        · change piece.1.size ≤ 0 at hle
          omega
        · exact hne hoffset
        · exact hseen _ List.mem_cons_self hmem

/-- The blocks of a part have ids of their own. -/
theorem upload_ids {env : Env} {db db' : Database} {upload_id : String} {part_number : Int}
    {body : Body} {expected_length : Option Int} {part : PartRecord} {total : Int}
    (h : upload env db upload_id part_number body expected_length = (db', .ok (part, total)))
    (hwf : WellFormed db) : (part.blocks.map (·.id)).Nodup := by
  obtain ⟨tasks, result, hsent⟩ : ∃ tasks result,
      upload_body env db body expected_length = (tasks, result) := ⟨_, _, rfl⟩
  have hbooked : Booked env db (upload_body env db body expected_length).1 :=
    upload_body_booked hwf body expected_length
  unfold upload at h
  rw [hsent] at h hbooked
  rcases result with e | ⟨uploaded, total', digest⟩
  · cases h
  · obtain ⟨-, hok⟩ := Prod.mk.inj h
    obtain ⟨rfl, -⟩ := Prod.mk.inj (Except.ok.inj hok)
    obtain ⟨_, _, -, -, -, hdelivered⟩ := upload_body_ok hsent hwf
    have hperm := (List.perm_insertionSort (fun a b : BlockRef => a.ordinal ≤ b.ordinal)
      uploaded).trans hdelivered.registered
    exact (hperm.map (·.id)).nodup_iff.mpr (List.nodup_append.mp hbooked.ids).2.1

/-- **The layout is fixed by the length**: block `i` has the ordinal `i` and starts at `i`
chunks, and each but the last one has the size of a chunk. -/
theorem block_of_pieces {env : Env} {chunk_size : ℕ} {bytes : Bytes} {blocks : List BlockRef}
    (hchunk : chunk_size ≠ 0) (h : List.Forall₂ (IsUpload env) (pieces chunk_size bytes) blocks)
    {i : ℕ} (hi : i < blocks.length) :
    blocks[i].ordinal = i ∧ blocks[i].offset = i * chunk_size
      ∧ (i + 1 < blocks.length → blocks[i].size = chunk_size)
      ∧ 1 ≤ blocks[i].size ∧ blocks[i].size ≤ chunk_size := by
  have hlength := h.length_eq
  have hcount : (pieces chunk_size bytes).length = block_count chunk_size bytes.length := by
    unfold pieces
    rw [List.length_map, List.length_range]
  have hpiece : (pieces chunk_size bytes).get ⟨i, hlength ▸ hi⟩ = piece_at chunk_size bytes i := by
    unfold pieces
    rw [List.get_eq_getElem, List.getElem_map, List.getElem_range]
  obtain ⟨id, document, -, hblock⟩ := h.get (i := i) (hlength ▸ hi) hi
  rw [List.get_eq_getElem, hpiece] at hblock
  rw [hblock]
  have hbegins := (lt_block_count hchunk).mp (show i < block_count chunk_size bytes.length by omega)
  refine ⟨rfl, rfl, fun hnext => ?_, ?_, ?_⟩
  · have hends := (lt_block_count hchunk).mp
      (show i + 1 < block_count chunk_size bytes.length by omega)
    rw [Nat.succ_mul] at hends
    change min (bytes.length - i * chunk_size : Int) chunk_size = chunk_size
    omega
  · change 1 ≤ min (bytes.length - i * chunk_size : Int) chunk_size
    omega
  · exact min_le_right _ _

/-- What either way makes of a body: blocks that are full up to the last, each with the bytes
that lie there. -/
structure Canonical (env : Env) (bytes : Bytes) (part : PartRecord) : Prop where
  size_eq : part.size = bytes.length
  etag_eq : part.etag = md5_etag env bytes
  count : part.blocks.length = block_count env.config.chunk_size bytes.length
  block (i : ℕ) (hi : i < part.blocks.length) :
    part.blocks[i].ordinal = i ∧ part.blocks[i].offset = i * env.config.chunk_size
      ∧ (i + 1 < part.blocks.length → part.blocks[i].size = env.config.chunk_size)
      ∧ 1 ≤ part.blocks[i].size ∧ part.blocks[i].size ≤ env.config.chunk_size
  sent : List.Forall₂ (IsUpload env) (pieces env.config.chunk_size bytes) part.blocks
  layout : validate_parts_layout [part] = .ok bytes.length

/-- An upload that succeeds has cut its body in the one way. -/
theorem upload_canonical {env : Env} {db db' : Database} {upload_id : String} {part_number : Int}
    {body : Body} {bytes : Bytes} {expected_length : Option Int} {part : PartRecord} {total : Int}
    (h : upload env db upload_id part_number body expected_length = (db', .ok (part, total)))
    (hwf : WellFormed db) (hbody : collect body = .ok bytes)
    (hmax : (bytes.length : Int) ≤ i64_max) :
    total = bytes.length ∧ Canonical env bytes part := by
  obtain ⟨bytes', hbytes, htotal, hpart⟩ := upload_ok h hwf
  obtain rfl : bytes' = bytes := Except.ok.inj (hbytes.symm.trans hbody)
  obtain ⟨sent, hconsecutive, hsized, hcontent, hblocks⟩ := hpart.pieces
  have hchunk := env.config.chunk_size_checked.1
  have hids := upload_ids h hwf
  obtain ⟨ids, hvalid⟩ := validate_blocks_of_pieces hconsecutive hblocks hids
    (fun _ _ => List.not_mem_nil) (le_refl 0) (by rw [hcontent]; omega)
  have hlayout : validate_parts_layout [part] = .ok bytes'.length := by
    rw [hcontent, Int.zero_add] at hvalid
    refine bind_ok.mpr ⟨(bytes'.length, ids), hvalid, ?_⟩
    refine bind_ok.mpr ⟨(), require_ok.mpr hpart.size_eq.symm, ?_⟩
    rw [checked_add_of_le (by omega) (by omega), Int.zero_add]
    rfl
  rw [eq_pieces hchunk hconsecutive hsized hcontent] at hblocks
  refine ⟨htotal, hpart.size_eq, hpart.etag_eq, ?_, fun i hi => block_of_pieces hchunk hblocks hi,
    hblocks, hlayout⟩
  rw [← hblocks.length_eq]
  unfold pieces
  rw [List.length_map, List.length_range]

/-- Ordinals, offsets and sizes of the blocks. -/
def layout (part : PartRecord) : List BlockSpec :=
  part.blocks.map fun block =>
    { ordinal := block.ordinal, offset := block.offset, size := block.size }

/-- The blocks have the specifications of the pieces that they came from. -/
theorem layout_of_pieces {env : Env} {sent : List Piece} {part : PartRecord}
    (h : List.Forall₂ (IsUpload env) sent part.blocks) : layout part = sent.map (·.1) := by
  unfold layout
  generalize part.blocks = blocks at h
  induction h with
  | nil => rfl
  | cons hblock _ ih =>
      obtain ⟨id, document, -, rfl⟩ := hblock
      rw [List.map_cons, List.map_cons, ih]
      rfl

/-- **The streaming and the spooled upload agree**, whatever the frames, the concurrency and
the order in which the tasks end: both succeed, with the same size and ETag and the same
blocks. -/
theorem streaming_spooled_agree (env env' : Env) (db db' : Database) (upload_id upload_id' : String)
    (part_number part_number' : Int) (body body' : Body) (bytes : Bytes)
    (hbody : collect body = .ok bytes) (hbody' : collect body' = .ok bytes)
    (hchunk : env'.config.chunk_size = env.config.chunk_size) (hmd5 : env'.md5 = env.md5)
    (hwf : WellFormed db) (hwf' : WellFormed db')
    (hmax : (bytes.length : Int) ≤ env.config.max_object_size)
    (hmax' : (bytes.length : Int) ≤ env'.config.max_object_size)
    (hsmooth : Smooth env) (hsmooth' : Smooth env')
    (haccepts : Accepts env db (pieces env.config.chunk_size bytes))
    (haccepts' : Accepts env' db' (pieces env.config.chunk_size bytes)) :
    ∃ db₁ part db₁' part',
      upload env db upload_id part_number body (some bytes.length)
          = (db₁, .ok (part, bytes.length))
      ∧ upload env' db' upload_id' part_number' body' none = (db₁', .ok (part', bytes.length))
      ∧ Canonical env bytes part ∧ Canonical env' bytes part'
      ∧ part'.size = part.size ∧ part'.etag = part.etag ∧ layout part' = layout part := by
  have hlimit := env.config.max_object_size_checked.2
  have hword : (5497558138880 : Int) ≤ i64_max := by decide
  obtain ⟨db₁, part, total, hstreamed⟩ := upload_isOk upload_id part_number
    (some (bytes.length : Int)) hbody (fun n hn => (Option.some.inj hn).symm) hwf hsmooth hmax haccepts
  obtain ⟨db₁', part', total', hspooled⟩ := upload_isOk upload_id' part_number' none
    hbody' (fun n hn => (by cases hn)) hwf' hsmooth' hmax' (hchunk ▸ haccepts')
  obtain ⟨rfl, hcanonical⟩ := upload_canonical hstreamed hwf hbody (by omega)
  obtain ⟨rfl, hcanonical'⟩ := upload_canonical hspooled hwf' hbody' (by omega)
  refine ⟨db₁, part, db₁', part', hstreamed, hspooled, hcanonical, hcanonical', ?_, ?_, ?_⟩
  · rw [hcanonical'.size_eq, hcanonical.size_eq]
  · rw [hcanonical'.etag_eq, hcanonical.etag_eq]
    unfold md5_etag
    rw [hmd5]
  · rw [layout_of_pieces hcanonical'.sent, layout_of_pieces hcanonical.sent, hchunk]

/-- In the sample environment no pipe and no file fails, and nothing has to wait. -/
theorem sample_smooth : Smooth sample_env :=
  ⟨fun _ _ => rfl, fun _ _ => rfl, fun _ => rfl, fun _ => rfl⟩

/-- Five bytes in two frames, and the same bytes in three others. -/
theorem streaming_spooled_agree_sample :
    ∃ db part db' part',
      upload sample_env (after [.create_bucket 1 "b"]) "u" 1 [.ok [1, 2, 3], .ok [4, 5]] (some 5)
          = (db, .ok (part, 5))
      ∧ upload sample_env (after []) "v" 2 [.ok [], .ok [1], .ok [2, 3, 4, 5]] none
          = (db', .ok (part', 5))
      ∧ layout part' = layout part := by
  obtain ⟨db, part, db', part', hstreamed, hspooled, -, -, -, -, hlayout⟩ :=
    streaming_spooled_agree sample_env sample_env (after [.create_bucket 1 "b"]) (after []) "u" "v"
      1 2 [.ok [1, 2, 3], .ok [4, 5]] [.ok [], .ok [1], .ok [2, 3, 4, 5]] [1, 2, 3, 4, 5] rfl rfl rfl
      rfl (wellFormed_after _) (wellFormed_after _) (by decide) (by decide) sample_smooth
      sample_smooth ⟨by decide, by decide⟩ ⟨by decide, by decide⟩
  exact ⟨db, part, db', part', hstreamed, hspooled, hlayout⟩

end Tg2s3.Transfer
