/-
`src/transfer/download.rs`, `src/telegram/`: how the bytes of a range come back.

What Telegram answers is a parameter: a file of the Bot API from the disk of a local
server or over HTTP, whole or in part, and the chunks of a document by MTProto. Each is a
stream in chunks of any size. `Holds` says that Telegram has a document and serves any
range of it; whatever the chunks are, the body of a range is then that window of the
object, block by block.

Slots and the download rate only make the stream wait; they are left out.
-/
import Mathlib.Tactic.Common
import Tg2s3.Lib.Slices
import Tg2s3.Db.Object

set_option autoImplicit false

namespace Tg2s3.Download

open Slices

abbrev Bytes := List UInt8

/-! ## What Telegram answers -/

inductive DownloadError
  | invalid_range
  | range_too_large
  | message_id_too_large
  | offset_too_large
  | range_exceeds_document
  | short_stream (remaining : ℕ)
  | telegram (text : String)
  deriving DecidableEq, Repr

abbrev Stream := List (Except DownloadError Bytes)

/-- A file of the Bot API, from the start of the range unless it is `whole`. -/
inductive FileAnswer
  /-- the local server has it on disk; reading stops at the end of the range -/
  | on_disk (source : Stream)
  /-- status 206 -/
  | partial_content (source : Stream)
  /-- any other success -/
  | whole (source : Stream)
  deriving DecidableEq

/-- The two ways to read a document. -/
structure Telegram where
  /-- `getFile` and the download of the file at that path -/
  file (file_id : String) (start stop : Int) : Except DownloadError FileAnswer
  /-- the size of the document of a message, if it is known, and `iter_download` with a
  number of chunks to skip -/
  document (message_id : Int) : Except DownloadError (Option Int × (Int → Stream))

def DOWNLOAD_CHUNK_SIZE : Int := 524288

/-! ## The stream of a range -/

/-- The loop of `exact_range_stream`: so many bytes after the first `skip` ones. -/
def exact_range_stream : Stream → ℕ → ℕ → Stream
  | _, _, 0 => []
  | [], _, remaining => [.error (.short_stream remaining)]
  | .error e :: _, _, _ => [.error e]
  | .ok chunk :: source, skip, remaining =>
      if chunk = [] then exact_range_stream source skip remaining
      else if chunk.length ≤ skip then exact_range_stream source (skip - chunk.length) remaining
      else
        let chunk := (chunk.drop skip).take remaining
        .ok chunk :: exact_range_stream source 0 (remaining - chunk.length)

/-- `download_stream` of the Bot API client. -/
def bot_api_download_stream (telegram : Telegram) (file_id : String) (start stop : Int) :
    Except DownloadError Stream :=
  if start < 0 ∨ stop < start then .error .invalid_range
  else
    match telegram.file file_id start stop with
    | .error e => .error e
    | .ok answer =>
        if i64_max < stop - start + 1 then .error .range_too_large
        else
          match answer with
          | .on_disk source => .ok (exact_range_stream source 0 (stop - start + 1).toNat)
          | .partial_content source => .ok (exact_range_stream source 0 (stop - start + 1).toNat)
          | .whole source =>
              .ok (exact_range_stream source start.toNat (stop - start + 1).toNat)

/-- `download_stream` of the MTProto client: it starts at a multiple of the chunk size. -/
def grammers_download_stream (telegram : Telegram) (message_id start stop : Int) :
    Except DownloadError Stream :=
  if start < 0 ∨ stop < start then .error .invalid_range
  else if message_id < -2147483648 ∨ 2147483647 < message_id then .error .message_id_too_large
  else
    match telegram.document message_id with
    | .error e => .error e
    | .ok (size, iter_download) =>
        if size.any (· ≤ stop) then .error .range_exceeds_document
        else
          let skip := start / DOWNLOAD_CHUNK_SIZE
          if 2147483647 < skip then .error .offset_too_large
          else if i64_max < stop - start + 1 then .error .range_too_large
          else
            .ok (exact_range_stream (iter_download skip) (start - skip * DOWNLOAD_CHUNK_SIZE).toNat
              (stop - start + 1).toNat)

def download_stream (telegram : Telegram) (block : BlockRef) (start stop : Int) :
    Except DownloadError Stream :=
  match block.backend with
  | .bot_api => bot_api_download_stream telegram block.file_id start stop
  | .grammers => grammers_download_stream telegram block.message_id start stop

/-- The chunks of the current block, then the rest; an error ends everything. -/
def forward : Stream → Stream → Stream
  | [], rest => rest
  | .error e :: _, _ => [.error e]
  | .ok chunk :: current, rest =>
      if chunk = [] then forward current rest else .ok chunk :: forward current rest

/-- The blocks that meet the range, each with the part of it that does. -/
def range_stream (telegram : Telegram) : List BlockRef → Int → Int → Stream
  | [], _, _ => []
  | block :: blocks, start, stop =>
      let block_end := block.offset + block.size - 1
      if block_end < start ∨ stop < block.offset then range_stream telegram blocks start stop
      else
        match download_stream telegram block (max start block.offset - block.offset)
            (min stop block_end - block.offset) with
        | .ok current => forward current (range_stream telegram blocks start stop)
        | .error e => [.error e]

/-! ## A document that Telegram has -/

/-- Telegram has the document of this block, and serves any range of it, in any chunks.
A document has at most 4 GiB. -/
def Holds (telegram : Telegram) (block : BlockRef) (content : Bytes) : Prop :=
  content.length ≤ 4294967296
    ∧ match block.backend with
      | .bot_api => ∀ start stop : Int, 0 ≤ start → start ≤ stop → stop < content.length →
          ∃ answer, telegram.file block.file_id start stop = .ok answer
            ∧ match answer with
              | .on_disk source => collect source = .ok (window start (stop + 1) content)
              | .partial_content source => collect source = .ok (window start (stop + 1) content)
              | .whole source => collect source = .ok content
      | .grammers => -2147483648 ≤ block.message_id ∧ block.message_id ≤ 2147483647
          ∧ ∃ size iter_download, telegram.document block.message_id = .ok (size, iter_download)
            ∧ (∀ n, size = some n → n = content.length)
            ∧ ∀ skip : Int, 0 ≤ skip → skip * DOWNLOAD_CHUNK_SIZE < content.length →
                collect (iter_download skip)
                  = .ok (content.drop (skip * DOWNLOAD_CHUNK_SIZE).toNat)

theorem exact_range_stream_cons (chunk : Bytes) (source : Stream) (skip remaining : ℕ) :
    exact_range_stream (.ok chunk :: source) skip (remaining + 1)
      = if chunk = [] then exact_range_stream source skip (remaining + 1)
        else if chunk.length ≤ skip then
          exact_range_stream source (skip - chunk.length) (remaining + 1)
        else .ok ((chunk.drop skip).take (remaining + 1))
          :: exact_range_stream source 0
            (remaining + 1 - ((chunk.drop skip).take (remaining + 1)).length) := rfl

/-- The error with which the stream of a range ends: the source's own, or that the source was
short by so many bytes. -/
def stop_error (source : Stream) (remaining : ℕ) : DownloadError :=
  (failure source).getD (.short_stream remaining)

/-- **The cut is exact.** The chunks that come out are the bytes of the range that arrived, and
an error follows if and only if they are not all of them. By induction on the chunks of the
source. -/
theorem exact_range_stream_eq (source : Stream) (skip length : ℕ) :
    ∃ chunks : List Bytes, (∀ chunk ∈ chunks, chunk ≠ [])
      ∧ chunks.flatten = ((arrived source).drop skip).take length
      ∧ exact_range_stream source skip length = chunks.map .ok
          ++ if length ≤ chunks.flatten.length then []
            else [.error (stop_error source (length - chunks.flatten.length))] := by
  induction source generalizing skip length with
  | nil =>
      refine ⟨[], by simp, by simp, ?_⟩
      cases length with
      | zero => rfl
      | succ length => rfl
  | cons item source ih =>
      cases length with
      | zero =>
          refine ⟨[], by simp, by simp, ?_⟩
          unfold exact_range_stream
          rfl
      | succ remaining =>
          cases item with
          | error e => exact ⟨[], by simp, by simp, rfl⟩
          | ok chunk =>
              rw [exact_range_stream_cons, arrived_cons_ok]
              have hfailure : ∀ n, stop_error (.ok chunk :: source) n = stop_error source n :=
                fun _ => rfl
              simp only [hfailure]
              by_cases hempty : chunk = []
              · rw [if_pos hempty, hempty, List.nil_append]
                exact ih skip (remaining + 1)
              · rw [if_neg hempty]
                by_cases hskip : chunk.length ≤ skip
                · rw [if_pos hskip, List.drop_append, List.drop_of_length_le hskip, List.nil_append]
                  exact ih _ (remaining + 1)
                · rw [if_neg hskip]
                  -- the first chunk that reaches into the range
                  obtain ⟨chunks, hsome, hflatten, heq⟩ :=
                    ih 0 (remaining + 1 - ((chunk.drop skip).take (remaining + 1)).length)
                  have htaken : ((chunk.drop skip).take (remaining + 1)).length
                      = min (remaining + 1) (chunk.length - skip) := by
                    rw [List.length_take, List.length_drop]
                  refine ⟨(chunk.drop skip).take (remaining + 1) :: chunks, ?_, ?_, ?_⟩
                  · intro c hc
                    rcases List.mem_cons.mp hc with rfl | hc
                    · rw [← List.length_pos_iff, htaken]
                      omega
                    · exact hsome c hc
                  · rw [List.flatten_cons, hflatten, htaken, List.drop_zero, List.drop_append,
                      List.take_append, List.length_drop]
                    have hdrop : skip - chunk.length = 0 := by omega
                    have hleft : remaining + 1 - min (remaining + 1) (chunk.length - skip)
                        = remaining + 1 - (chunk.length - skip) := by omega
                    rw [hdrop, List.drop_zero, hleft]
                  · rw [heq, List.map_cons, List.cons_append, List.flatten_cons, List.length_append]
                    congr 2
                    rw [htaken]
                    generalize chunks.flatten.length = n
                    by_cases hlong : remaining + 1 - min (remaining + 1) (chunk.length - skip) ≤ n
                    · rw [if_pos hlong, if_pos (by omega)]
                    · rw [if_neg hlong, if_neg (by omega), Nat.sub_sub]

/-- **The exact range**: of a source that is long enough, these bytes come out, however it
is cut. -/
theorem collect_exact_range_stream {source : Stream} {skip remaining : ℕ} {content : Bytes}
    (hsource : collect source = .ok content) (hlong : skip + remaining ≤ content.length) :
    collect (exact_range_stream source skip remaining) = .ok ((content.drop skip).take remaining) := by
  obtain ⟨chunks, -, hflatten, heq⟩ := exact_range_stream_eq source skip remaining
  rw [arrived_of_collect hsource] at hflatten
  have hlength : chunks.flatten.length = remaining := by
    rw [hflatten, List.length_take, List.length_drop]
    omega
  rw [heq, if_pos hlength.ge, List.append_nil, collect_map_ok, hflatten]

theorem collect_forward {current rest : Stream} {content content' : Bytes}
    (hcurrent : collect current = .ok content) (hrest : collect rest = .ok content') :
    collect (forward current rest) = .ok (content ++ content') := by
  induction current generalizing content with
  | nil =>
      obtain rfl := Except.ok.inj hcurrent
      rw [List.nil_append]
      exact hrest
  | cons item current ih =>
      obtain ⟨chunk, tail, rfl, htail, rfl⟩ := collect_cons_eq_ok hcurrent
      unfold forward
      by_cases hempty : chunk = []
      · rw [if_pos hempty, hempty, List.nil_append]
        exact ih htail
      · rw [if_neg hempty, collect_cons_ok, ih htail, List.append_assoc]
        rfl

/-- A window as the exact range sees it. -/
theorem take_drop_eq_window {start stop : Int} (content : Bytes) (hstart : 0 ≤ start)
    (hle : start ≤ stop) :
    (content.drop start.toNat).take (stop - start + 1).toNat = window start (stop + 1) content := by
  unfold window
  rw [List.drop_take]
  congr 1
  omega

/-- What Telegram holds comes back, from either client. -/
theorem collect_download_stream {telegram : Telegram} {block : BlockRef} {content : Bytes}
    (hholds : Holds telegram block content) (start stop : Int) (hstart : 0 ≤ start)
    (hle : start ≤ stop) (hstop : stop < content.length) :
    ∃ stream, download_stream telegram block start stop = .ok stream
      ∧ collect stream = .ok (window start (stop + 1) content) := by
  obtain ⟨hlimit, hserves⟩ := hholds
  have hrange : ¬ (start < 0 ∨ stop < start) := by omega
  have hsmall : ¬ i64_max < stop - start + 1 := by
    unfold i64_max
    omega
  have hwindow := take_drop_eq_window content hstart hle
  have hpart : (window start (stop + 1) content).length = (stop - start + 1).toNat := by
    rw [length_window]
    omega
  unfold download_stream
  cases hbackend : block.backend with
  | bot_api =>
      rw [hbackend] at hserves
      obtain ⟨answer, hanswer, hsource⟩ := hserves start stop hstart hle hstop
      unfold bot_api_download_stream
      dsimp only
      rw [if_neg hrange, hanswer]
      dsimp only
      rw [if_neg hsmall]
      -- three kinds of answer: what is skipped of each is what comes before the range
      cases answer with
      | on_disk source =>
          refine ⟨_, rfl, ?_⟩
          rw [collect_exact_range_stream hsource (by rw [hpart]; omega), List.drop_zero, ← hpart,
            List.take_length]
      | partial_content source =>
          refine ⟨_, rfl, ?_⟩
          rw [collect_exact_range_stream hsource (by rw [hpart]; omega), List.drop_zero, ← hpart,
            List.take_length]
      | whole source =>
          refine ⟨_, rfl, ?_⟩
          rw [collect_exact_range_stream hsource (by omega), hwindow]
  | grammers =>
      rw [hbackend] at hserves
      obtain ⟨hlo, hhi, size, iter_download, hdocument, hsize, hiter⟩ := hserves
      -- the client delivers whole chunks from the one that holds the start
      have hskip : start / DOWNLOAD_CHUNK_SIZE * DOWNLOAD_CHUNK_SIZE ≤ start := by
        unfold DOWNLOAD_CHUNK_SIZE
        omega
      have hskip₀ : 0 ≤ start / DOWNLOAD_CHUNK_SIZE := by
        unfold DOWNLOAD_CHUNK_SIZE
        omega
      have hskip₁ : 0 ≤ start / DOWNLOAD_CHUNK_SIZE * DOWNLOAD_CHUNK_SIZE := by
        unfold DOWNLOAD_CHUNK_SIZE
        omega
      have hskip₂ : ¬ 2147483647 < start / DOWNLOAD_CHUNK_SIZE := by
        unfold DOWNLOAD_CHUNK_SIZE
        omega
      -- a document whose size is known reaches past the end of the range
      have hknown : ¬ size.any (· ≤ stop) = true := by
        cases size with
        | none => simp
        | some n =>
            have := hsize n rfl
            simp only [Option.any_some, decide_eq_true_eq]
            omega
      unfold grammers_download_stream
      dsimp only
      rw [if_neg hrange, if_neg (by omega), hdocument]
      dsimp only
      rw [if_neg hknown, if_neg hskip₂, if_neg hsmall]
      refine ⟨_, rfl, ?_⟩
      have hsource := hiter _ hskip₀ (by omega)
      rw [collect_exact_range_stream hsource (by rw [List.length_drop]; omega), List.drop_drop,
        ← hwindow]
      congr 3
      omega

/-- The blocks follow each other from this offset on, and Telegram holds each of them. -/
inductive Stored (telegram : Telegram) : Int → List BlockRef → Bytes → Prop
  | nil (offset : Int) : Stored telegram offset [] []
  | cons {offset : Int} {block : BlockRef} {blocks : List BlockRef} {content rest : Bytes}
      (hoffset : block.offset = offset) (hsize : block.size = content.length)
      (hpos : 0 < block.size) (hholds : Holds telegram block content)
      (hrest : Stored telegram (offset + block.size) blocks rest) :
      Stored telegram offset (block :: blocks) (content ++ rest)

/-- **A range of the object**, by induction on the blocks: each gives its part of the
window. -/
theorem collect_range_stream {telegram : Telegram} {offset : Int} {blocks : List BlockRef}
    {content : Bytes} (h : Stored telegram offset blocks content) {start stop : Int}
    (hle : start ≤ stop) :
    collect (range_stream telegram blocks start stop)
      = .ok (window (start - offset) (stop + 1 - offset) content) := by
  induction h with
  | nil offset => rw [window_nil]; rfl
  | @cons offset block blocks content rest hoffset hsize hpos hholds hrest ih =>
      unfold range_stream
      dsimp only
      have htail : window (start - offset - content.length) (stop + 1 - offset - content.length) rest
          = window (start - (offset + block.size)) (stop + 1 - (offset + block.size)) rest := by
        rw [hsize, Int.sub_sub, Int.sub_sub]
      rw [window_append, htail]
      by_cases hmiss : block.offset + block.size - 1 < start ∨ stop < block.offset
      · rw [if_pos hmiss, ih]
        have hempty : window (start - offset) (stop + 1 - offset) content = [] := by
          rcases hmiss with hbefore | hafter
          · exact window_of_length_le (by omega)
          · exact window_of_nonpos (by omega) _
        rw [hempty, List.nil_append]
      · rw [if_neg hmiss]
        obtain ⟨current, hcurrent, hcollect⟩ := collect_download_stream hholds
          (max start block.offset - block.offset)
          (min stop (block.offset + block.size - 1) - block.offset) (by omega) (by omega)
          (by omega)
        rw [hcurrent]
        dsimp only
        rw [collect_forward hcollect ih, ← window_clip (start - offset)]
        congr 3 <;> omega

/-! ## A valid layout -/

theorem checked_add_eq_some {a b c : Int} (h : checked_add a b = some c) :
    c = a + b ∧ c ≤ i64_max := by
  unfold checked_add at h
  split_ifs at h with hcond
  obtain rfl := Option.some.inj h
  exact ⟨rfl, hcond.2⟩

theorem stored_of_validate_blocks {telegram : Telegram} {blocks : List BlockRef} {offset total : Int}
    {ids ids' : List Int} (h : validate_blocks blocks offset ids = .ok (total, ids'))
    (hmax : offset ≤ i64_max)
    (hholds : ∀ block ∈ blocks, ∃ content : Bytes,
      (content.length : Int) = block.size ∧ Holds telegram block content) :
    ∃ content, Stored telegram offset blocks content ∧ total = offset + content.length
      ∧ total ≤ i64_max := by
  induction blocks generalizing offset ids with
  | nil =>
      obtain ⟨rfl, -⟩ := Prod.mk.inj (Except.ok.inj h)
      exact ⟨[], .nil _, by simp, hmax⟩
  | cons block blocks ih =>
      unfold validate_blocks at h
      split_ifs at h with hbad
      rw [not_or, not_or] at hbad
      cases hnext : checked_add offset block.size with
      | none => rw [hnext] at h; cases h
      | some next =>
          rw [hnext] at h
          obtain ⟨rfl, hfits⟩ := checked_add_eq_some hnext
          obtain ⟨content, hlength, hcontent⟩ := hholds block List.mem_cons_self
          obtain ⟨rest, hrest, htotal, htotal'⟩ :=
            ih h hfits (fun b hb => hholds b (List.mem_cons_of_mem _ hb))
          refine ⟨content ++ rest, .cons (not_not.mp hbad.2.1) hlength.symm (not_le.mp hbad.1)
            hcontent hrest, ?_, htotal'⟩
          rw [htotal, List.length_append, ← hlength]
          omega

/-- An object that passes the layout check, on documents that Telegram has. -/
theorem stored_of_layout {telegram : Telegram} {object : ObjectRecord}
    (h : validate_object_layout object = .ok ())
    (hholds : ∀ block ∈ object.blocks, ∃ content : Bytes,
      (content.length : Int) = block.size ∧ Holds telegram block content) :
    ∃ content : Bytes, Stored telegram 0 object.blocks content
      ∧ (content.length : Int) = object.size ∧ object.size ≤ i64_max := by
  unfold validate_object_layout at h
  obtain ⟨-, -, h⟩ := bind_ok.mp h
  obtain ⟨⟨total, ids⟩, hblocks, h⟩ := bind_ok.mp h
  obtain ⟨content, hstored, htotal, hmax⟩ := stored_of_validate_blocks hblocks (by decide) hholds
  have hsize : total = object.size := require_ok.mp h
  exact ⟨content, hstored, by omega, by omega⟩

end Tg2s3.Download
