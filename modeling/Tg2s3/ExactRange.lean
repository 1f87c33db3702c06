/-
`src/telegram/download.rs`, poll by poll.

`exact_range_stream` of `Download` is the whole stream at once. The source builds it with
`stream::unfold` from a state that is polled: `RangeState.next` is that closure, with its loop
over the source, and `items` is what comes out until it says `None`. The two agree
(`items_eq`), so what holds of the list holds of the polls.

How the chunks of the source lie does not matter: wholly before the range, across its start,
across its end, empty, or all of this at once. What comes out depends on the bytes that arrive
and on whether they suffice. One case is a matter of its own: a range of no bytes asks the
source for nothing, so it ends without an error also where the source is too short to reach
its start. The two clients ask for at least one byte.
-/
import Tg2s3.Download

set_option autoImplicit false

namespace Tg2s3.Download

open Slices

/-! ## The closure -/

structure RangeState where
  source : Stream
  skip : ℕ
  remaining : ℕ
  terminated : Bool := false
  deriving DecidableEq

namespace RangeState

/-- At most the remaining bytes of a chunk. -/
def take (state : RangeState) (chunk : Bytes) : Bytes × RangeState :=
  let length := min state.remaining chunk.length
  (if length = chunk.length then chunk else chunk.take length,
    { state with remaining := state.remaining - length })

/-- The loop: the source is pulled until there is something to yield. -/
def pull : Stream → ℕ → ℕ → Except DownloadError Bytes × RangeState
  | [], skip, remaining =>
      (.error (.short_stream remaining),
        { source := [], skip := skip, remaining := remaining, terminated := true })
  | .error e :: source, skip, remaining =>
      (.error e, { source := source, skip := skip, remaining := remaining, terminated := true })
  | .ok chunk :: source, skip, remaining =>
      if chunk = [] then pull source skip remaining
      else if chunk.length ≤ skip then pull source (skip - chunk.length) remaining
      else if 0 < skip then
        let (chunk, state) :=
          take { source := source, skip := 0, remaining := remaining } (chunk.drop skip)
        (.ok chunk, state)
      else
        let (chunk, state) := take { source := source, skip := skip, remaining := remaining } chunk
        (.ok chunk, state)

/-- One poll. -/
def next (state : RangeState) : Option (Except DownloadError Bytes × RangeState) :=
  if state.terminated = true ∨ state.remaining = 0 then none
  else some (pull state.source state.skip state.remaining)

/-- How many polls can still give something. -/
def polls (state : RangeState) : ℕ := if state.terminated = true then 0 else state.source.length + 1

theorem polls_pull (source : Stream) (skip remaining : ℕ) :
    (pull source skip remaining).2.polls ≤ source.length := by
  induction source generalizing skip with
  | nil => exact Nat.le_refl 0
  | cons item source ih =>
      rw [List.length_cons]
      cases item with
      | error e => exact Nat.zero_le _
      | ok chunk =>
          unfold pull
          split_ifs
          · exact (ih skip).trans (Nat.le_succ _)
          · exact (ih _).trans (Nat.le_succ _)
          · exact Nat.le_refl _
          · exact Nat.le_refl _

theorem polls_next {state state' : RangeState} {item : Except DownloadError Bytes}
    (h : state.next = some (item, state')) : state'.polls < state.polls := by
  unfold next at h
  split_ifs at h with hend
  rw [not_or] at hend
  have hpull := polls_pull state.source state.skip state.remaining
  rw [Option.some.inj h] at hpull
  dsimp only at hpull
  have hpolls : state.polls = state.source.length + 1 := if_neg hend.1
  omega

/-- What `unfold` yields. -/
def items (state : RangeState) : Stream :=
  match _h : state.next with
  | none => []
  | some (item, state') => item :: items state'
termination_by state.polls
decreasing_by exact polls_next _h

/-- After an error comes the end. -/
theorem next_of_error {state state' : RangeState} {e : DownloadError}
    (h : state.next = some (.error e, state')) : state'.next = none := by
  have hpull : ∀ source skip remaining,
      pull source skip remaining = (.error e, state') → state'.terminated = true := by
    intro source
    induction source with
    | nil =>
        intro skip remaining hpull
        rw [← (Prod.mk.inj hpull).2]
    | cons item source ih =>
        intro skip remaining hpull
        cases item with
        | error e' => rw [← (Prod.mk.inj hpull).2]
        | ok chunk =>
            unfold pull at hpull
            split_ifs at hpull
            · exact ih _ _ hpull
            · exact ih _ _ hpull
            · exact absurd (Prod.mk.inj hpull).1 (by simp)
            · exact absurd (Prod.mk.inj hpull).1 (by simp)
  unfold next at h
  split_ifs at h
  exact if_pos (Or.inl (hpull _ _ _ (Option.some.inj h)))

end RangeState

open RangeState

/-- What is left of the stream after a poll. -/
def rest (state : RangeState) : Stream :=
  if state.terminated = true then [] else exact_range_stream state.source state.skip state.remaining

/-- The list is what the loop yields, and then what the state after it yields. -/
theorem exact_range_stream_pull (source : Stream) (skip : ℕ) {remaining : ℕ} (h : remaining ≠ 0) :
    exact_range_stream source skip remaining
      = (pull source skip remaining).1 :: rest (pull source skip remaining).2 := by
  obtain ⟨remaining, rfl⟩ := Nat.exists_eq_succ_of_ne_zero h
  induction source generalizing skip with
  | nil => rfl
  | cons item source ih =>
      cases item with
      | error e => rfl
      | ok chunk =>
          rw [Nat.succ_eq_add_one, exact_range_stream_cons]
          unfold pull
          by_cases hempty : chunk = []
          · rw [if_pos hempty, if_pos hempty]
            exact ih skip
          · rw [if_neg hempty, if_neg hempty]
            by_cases hskip : chunk.length ≤ skip
            · rw [if_pos hskip, if_pos hskip]
              exact ih _
            · rw [if_neg hskip, if_neg hskip]
              have htake : ∀ c : Bytes,
                  (if min (remaining + 1) c.length = c.length then c
                    else c.take (min (remaining + 1) c.length)) = c.take (remaining + 1) := by
                intro c
                split_ifs with hall
                · rw [List.take_of_length_le (by omega)]
                · rw [← List.take_eq_take_min]
              by_cases hpos : 0 < skip
              · rw [if_pos hpos]
                unfold take rest
                dsimp only
                rw [htake, List.length_take]
                rfl
              · obtain rfl : skip = 0 := by omega
                rw [if_neg hpos]
                unfold take rest
                dsimp only
                rw [htake, List.length_take, List.drop_zero]
                rfl

/-- **The polls yield the list.** By induction on the polls that can still give something. -/
theorem items_eq_rest (state : RangeState) : state.items = rest state := by
  induction hpolls : state.polls using Nat.strong_induction_on generalizing state with
  | _ n ih =>
      unfold items
      split
      · rename_i hnone
        unfold next at hnone
        split_ifs at hnone with hend
        unfold rest
        split_ifs with hterminated
        · rfl
        · rw [hend.resolve_left hterminated]
          unfold exact_range_stream
          rfl
      · rename_i item state' hsome
        rw [ih _ (hpolls ▸ polls_next hsome) state' rfl]
        unfold next at hsome
        split_ifs at hsome with hend
        rw [not_or] at hend
        unfold rest
        rw [if_neg hend.1, exact_range_stream_pull _ _ hend.2, Option.some.inj hsome]
        rfl

theorem items_eq (source : Stream) (skip length : ℕ) :
    items { source := source, skip := skip, remaining := length }
      = exact_range_stream source skip length := by
  rw [items_eq_rest]
  rfl

/-! ## What comes out -/

/-- **What `exact_range_stream` yields.** Where the source brings all bytes up to the end of the
range, or the range is empty, these are the chunks of the range and then the end. Where it
brings less, these are the bytes from the start of the range to where the source stopped, one
error, and then the end. -/
theorem exact_range_cut (source : Stream) (skip length : ℕ) :
    ∃ chunks : List Bytes, (∀ chunk ∈ chunks, chunk ≠ []) ∧ chunks.flatten.length ≤ length
      ∧ (length = 0 ∨ skip + length ≤ (arrived source).length →
        items { source := source, skip := skip, remaining := length } = chunks.map .ok
          ∧ chunks.flatten = ((arrived source).drop skip).take length)
      ∧ (0 < length → (arrived source).length < skip + length →
        items { source := source, skip := skip, remaining := length }
            = chunks.map .ok ++ [.error (stop_error source (length - chunks.flatten.length))]
          ∧ chunks.flatten = (arrived source).drop skip) := by
  obtain ⟨chunks, hsome, hflatten, heq⟩ := exact_range_stream_eq source skip length
  have hlength : chunks.flatten.length = min length ((arrived source).length - skip) := by
    rw [hflatten, List.length_take, List.length_drop]
  rw [items_eq, heq]
  refine ⟨chunks, hsome, by omega, fun henough => ?_, fun hpos hshort => ?_⟩
  · rw [if_pos (by omega), List.append_nil]
    exact ⟨rfl, hflatten⟩
  · rw [if_neg (by omega)]
    refine ⟨rfl, hflatten.trans (List.take_of_length_le ?_)⟩
    rw [List.length_drop]
    omega

/-- A range of no bytes that starts behind the end of the source ends without an error. -/
theorem empty_range_of_short_source :
    ¬ ∀ (source : Stream) (skip length : ℕ), (arrived source).length < skip + length →
      ∃ (chunks : List Bytes) (e : DownloadError),
        items { source := source, skip := skip, remaining := length }
          = chunks.map .ok ++ [.error e] := by
  intro h
  obtain ⟨chunks, e, heq⟩ := h [] 1 0 (by decide)
  rw [items_eq] at heq
  exact absurd heq.symm (List.append_ne_nil_of_right_ne_nil _ (List.cons_ne_nil _ _))

example : items ⟨[.ok [48, 49, 50], .ok [51, 52, 53, 54], .ok [55, 56, 57]], 2, 5, false⟩
    = [.ok [50], .ok [51, 52, 53, 54]] := by
  rw [items_eq]
  decide

end Tg2s3.Download
