/-
`src/limits.rs`: the bandwidth schedule.

A schedule is the instant from which the line is free. A reservation starts there, or now
if that is later, and moves the instant on by the time its bytes take at the rate; one
that would wait too long is refused and moves nothing. Time is exact and rational, and a
call comes with its instant; the lock only puts the calls in an order.
-/
import Tg2s3.Lib.Pacing
import Mathlib.Data.Rat.Defs
import Mathlib.Algebra.Order.Ring.Rat
import Mathlib.Algebra.Field.Rat
import Mathlib.Tactic.FieldSimp
import Mathlib.Tactic.Common

set_option autoImplicit false

namespace Tg2s3.Limits

open Pacing

/-! ## The schedule -/

structure RateSchedule where
  next : Option ℚ := none
  deriving DecidableEq

/-- `reserve`: the wait, or none if it would exceed `max_wait`. -/
def reserve (schedule : RateSchedule) (rate bytes : ℕ) (now : ℚ) (max_wait : Option ℚ) :
    RateSchedule × Option ℚ :=
  if rate = 0 then (schedule, some 0)
  else
    let duration : ℚ := bytes / rate
    let start := max (schedule.next.getD now) now
    -- `saturating_duration_since`
    let wait := max (start - now) 0
    if max_wait.any (· < wait) then (schedule, none)
    else ({ next := some (start + duration) }, some wait)

/-- One call of `reserve`. -/
structure Call where
  now : ℚ
  bytes : ℕ
  max_wait : Option ℚ
  deriving DecidableEq

/-- The state after these calls, and each call with its answer. -/
def run (rate : ℕ) : RateSchedule → List Call → RateSchedule × List (Call × Option ℚ)
  | schedule, [] => (schedule, [])
  | schedule, call :: calls =>
      let (schedule, answer) := reserve schedule rate call.bytes call.now call.max_wait
      let (schedule, answers) := run rate schedule calls
      (schedule, (call, answer) :: answers)

def answers (rate : ℕ) (calls : List Call) : List (Call × Option ℚ) := (run rate {} calls).2

/-- A granted reservation: when it starts, and its bytes. -/
structure Reservation where
  start : ℚ
  bytes : ℕ
  deriving DecidableEq

def granted (answers : List (Call × Option ℚ)) : List Reservation :=
  answers.filterMap fun p => p.2.map fun wait => { start := p.1.now + wait, bytes := p.1.bytes }

/-! ## One call -/

section Reserve

variable {rate : ℕ} (hrate : 0 < rate)

include hrate

/-- A call is refused and changes nothing, or it starts where the schedule is free, waits
for no longer than its bound, and takes its time. -/
theorem reserve_cases (schedule : RateSchedule) (call : Call) :
    (reserve schedule rate call.bytes call.now call.max_wait = (schedule, none))
      ∨ ∃ wait, reserve schedule rate call.bytes call.now call.max_wait
          = ({ next := some (call.now + wait + call.bytes / rate) }, some wait)
        ∧ 0 ≤ wait ∧ (∀ bound ∈ call.max_wait, wait ≤ bound)
        ∧ ∀ next ∈ schedule.next, next ≤ call.now + wait := by
  unfold reserve
  rw [if_neg hrate.ne']
  dsimp only
  set start := max (schedule.next.getD call.now) call.now with hstart
  have hnow : call.now ≤ start := le_max_right _ _
  have hwait : max (start - call.now) 0 = start - call.now := max_eq_left (by linarith)
  have hsum : call.now + (start - call.now) = start := add_sub_cancel _ _
  rw [hwait]
  split_ifs with hlong
  · exact Or.inl rfl
  · refine Or.inr ⟨start - call.now, ?_, by linarith, fun bound hbound => ?_, fun next hnext => ?_⟩
    · rw [hsum]
    · rw [Option.mem_def.mp hbound, Option.any_some, decide_eq_true_eq] at hlong
      exact not_lt.mp hlong
    · rw [hsum, hstart, Option.mem_def.mp hnext]
      exact le_max_left _ _

/-- A refusal is free. -/
theorem reserve_refused {schedule : RateSchedule} {call : Call}
    (h : (reserve schedule rate call.bytes call.now call.max_wait).2 = none) :
    (reserve schedule rate call.bytes call.now call.max_wait).1 = schedule := by
  rcases reserve_cases hrate schedule call with hno | ⟨wait, hyes, -⟩
  · rw [hno]
  · rw [hyes] at h
    cases h

end Reserve

/-! ## A sequence of calls -/

theorem run_cons {rate : ℕ} {schedule schedule' : RateSchedule} {call : Call} {answer : Option ℚ}
    (h : reserve schedule rate call.bytes call.now call.max_wait = (schedule', answer))
    (calls : List Call) :
    run rate schedule (call :: calls)
      = ((run rate schedule' calls).1, (call, answer) :: (run rate schedule' calls).2) := by
  conv_lhs => unfold run
  dsimp only
  rw [h]

section Run

variable {rate : ℕ} (hrate : 0 < rate)

include hrate

/-- Every reservation starts where the ones before it leave the line free: by induction on
the calls, the schedule being the instant from which the rest may start. -/
theorem run_spaced (schedule : RateSchedule) (calls : List Call) :
    (∀ next ∈ schedule.next, ∀ g ∈ granted (run rate schedule calls).2, next ≤ g.start)
      ∧ (granted (run rate schedule calls).2).Pairwise
          fun g g' => g.start + (g.bytes : ℚ) / rate ≤ g'.start := by
  induction calls generalizing schedule with
  | nil => exact ⟨fun _ _ _ hg => (by cases hg), List.Pairwise.nil⟩
  | cons call calls ih =>
      rcases reserve_cases hrate schedule call with hno | ⟨wait, hyes, hwait, -, hfree⟩
      · rw [run_cons hno]
        exact ih schedule
      · rw [run_cons hyes]
        obtain ⟨hlater, hspaced⟩ := ih { next := some (call.now + wait + call.bytes / rate) }
        have hspan : (0 : ℚ) ≤ call.bytes / rate := by positivity
        refine ⟨fun next hnext g hg => ?_, List.pairwise_cons.mpr ⟨fun g hg => ?_, hspaced⟩⟩
        · have hstart := hfree next hnext
          rcases List.mem_cons.mp hg with rfl | hg
          · exact hstart
          · have := hlater _ rfl g hg
            linarith
        · exact hlater _ rfl g hg

theorem run_bounded (schedule : RateSchedule) (calls : List Call) :
    ∀ p ∈ (run rate schedule calls).2, ∀ wait ∈ p.2, ∀ bound ∈ p.1.max_wait, wait ≤ bound := by
  induction calls generalizing schedule with
  | nil => exact fun _ h => (by cases h)
  | cons call calls ih =>
      intro p hp
      rcases reserve_cases hrate schedule call with hno | ⟨wait, hyes, -, hbounded, -⟩
      · rw [run_cons hno] at hp
        rcases List.mem_cons.mp hp with rfl | hp
        · exact fun _ hwait => (by cases hwait)
        · exact ih _ p hp
      · rw [run_cons hyes] at hp
        rcases List.mem_cons.mp hp with rfl | hp
        · intro wait' hwait' bound hbound
          obtain rfl := Option.some.inj (Option.mem_def.mp hwait')
          exact hbounded bound hbound
        · exact ih _ p hp

/-- Without the refused calls the others get the same answers. -/
theorem run_granted (schedule : RateSchedule) (calls : List Call) :
    run rate schedule (((run rate schedule calls).2.filter (·.2.isSome)).map (·.1))
      = ((run rate schedule calls).1, (run rate schedule calls).2.filter (·.2.isSome)) := by
  induction calls generalizing schedule with
  | nil => rfl
  | cons call calls ih =>
      rcases reserve_cases hrate schedule call with hno | ⟨wait, hyes, -⟩
      · rw [run_cons hno, List.filter_cons_of_neg (by simp)]
        exact ih schedule
      · rw [run_cons hyes, List.filter_cons_of_pos rfl, List.map_cons, run_cons hyes, ih]

end Run

/-! ## The rate -/

/-- **The schedule enforces its rate, and refusals are free.** -/
structure Enforced (rate : ℕ) (calls : List Call) : Prop where
  spaced : (granted (answers rate calls)).Pairwise
    fun g g' => g.start + (g.bytes : ℚ) / rate ≤ g'.start
  interval (first length : ℚ) (largest : ℕ) : 0 ≤ length →
    (∀ g ∈ granted (answers rate calls), g.bytes ≤ largest) →
      ((((granted (answers rate calls)).filter
          (fun g => first ≤ g.start ∧ g.start ≤ first + length)).map (·.bytes)).sum : ℚ)
        ≤ rate * length + largest
  bounded : ∀ p ∈ answers rate calls, ∀ wait ∈ p.2, ∀ bound ∈ p.1.max_wait, wait ≤ bound
  refused (schedule : RateSchedule) (call : Call) :
    (reserve schedule rate call.bytes call.now call.max_wait).2 = none →
      (reserve schedule rate call.bytes call.now call.max_wait).1 = schedule
  deleted : answers rate (((answers rate calls).filter (·.2.isSome)).map (·.1))
    = (answers rate calls).filter (·.2.isSome)

/-- A reservation takes the line for as long as its bytes take at the rate. -/
def Reservation.grant (rate : ℕ) (g : Reservation) : Grant ℚ where
  start := g.start
  span := g.bytes / rate

theorem sum_bytes {rate : ℕ} (hrate : 0 < rate) (reservations : List Reservation) :
    ((reservations.map (·.bytes)).sum : ℚ)
      = rate * ((reservations.map (Reservation.grant rate)).map (·.span)).sum := by
  have hrate' : (rate : ℚ) ≠ 0 := Nat.cast_ne_zero.mpr hrate.ne'
  induction reservations with
  | nil => simp
  | cons g rest ih =>
      simp only [List.map_cons, List.sum_cons, Reservation.grant] at ih ⊢
      rw [ih, mul_add, mul_div_cancel₀ _ hrate']

theorem bandwidth_enforced (rate : ℕ) (calls : List Call) (hrate : 0 < rate) :
    Enforced rate calls where
  spaced := (run_spaced hrate {} calls).2
  bounded := run_bounded hrate {} calls
  refused := fun _ _ => reserve_refused hrate
  deleted := by
    unfold answers
    rw [run_granted hrate]
  interval first length largest hlength hlargest := by
    have hspaced := (run_spaced hrate {} calls).2
    have hpos : (0 : ℚ) < rate := Nat.cast_pos.mpr hrate
    set reservations := (granted (answers rate calls)).filter
      (fun g => first ≤ g.start ∧ g.start ≤ first + length) with hreservations
    have hgrants : Spaced (reservations.map (Reservation.grant rate)) :=
      List.pairwise_map.mpr (hspaced.filter _)
    have hin : ∀ g ∈ reservations.map (Reservation.grant rate),
        first ≤ g.start ∧ g.start ≤ first + length := by
      intro g hg
      obtain ⟨reservation, hreservation, rfl⟩ := List.mem_map.mp hg
      exact of_decide_eq_true (List.mem_filter.mp hreservation).2
    have hspan : ∀ g ∈ reservations.map (Reservation.grant rate),
        g.span ≤ (largest : ℚ) / rate := by
      intro g hg
      obtain ⟨reservation, hreservation, rfl⟩ := List.mem_map.mp hg
      have hbytes := hlargest reservation (List.mem_filter.mp hreservation).1
      exact (div_le_div_iff_of_pos_right hpos).mpr (Nat.cast_le.mpr hbytes)
    have hsum := sum_span_le hgrants (by linarith : first ≤ first + length)
      (by positivity : (0 : ℚ) ≤ (largest : ℚ) / rate) hin hspan
    rw [sum_bytes hrate]
    calc (rate : ℚ) * ((reservations.map (Reservation.grant rate)).map (·.span)).sum
        ≤ rate * ((first + length - first) + largest / rate) :=
          mul_le_mul_of_nonneg_left hsum hpos.le
      _ = rate * length + largest := by
          rw [add_sub_cancel_left, mul_add, mul_div_cancel₀ _ hpos.ne']

/-- A bounded call is refused in a burst at 1000 bytes a second; the others go on. -/
theorem bandwidth_enforced_burst :
    Enforced 1000 [⟨0, 1000, some 5⟩, ⟨0, 10000, some 0⟩, ⟨0, 500, some 2⟩, ⟨10, 1, none⟩] :=
  bandwidth_enforced 1000 _ (by decide)

end Tg2s3.Limits
