/-
`parse_range` of `src/s3.rs`: the interval that a Range header asks for.

`RangeForm` is the grammar: `bytes=a-b`, `bytes=a-` and `bytes=-n`, with decimal digits of
any number, and the interval each means in an object of a given size. The function agrees
with it on almost every text. `Plain` is the exact condition: no suffix is longer than the
object (the start of the interval would be negative), no last position is beyond `i64`,
and no number has a sign, which `str::parse` takes, unless the text means no interval with
it either.
-/
import Mathlib.Tactic.Common
import Tg2s3.S3.Request

set_option autoImplicit false

namespace Tg2s3.S3

/-! ## The function -/

/-- `i64::saturating_sub`. -/
def saturating_sub (a b : Int) : Int := max i64_min (min i64_max (a - b))

/-- `i64::saturating_add`. -/
def saturating_add (a b : Int) : Int := max i64_min (min i64_max (a + b))

/-- The two sides of the first hyphen, after `bytes=`; no comma may follow. -/
def range_ends (value : List Char) : Option (List Char × List Char) :=
  match "bytes=".toList.isPrefixOf? value with
  | none => none
  | some value => if ',' ∈ value then none else split_once '-' value

/-- The interval for these two sides. -/
def range_of_ends (start stop : List Char) (size : Int) : Except S3Error (Int × Int × Bool) :=
  if start = [] then
    match parse_i64 stop with
    | none => .error .invalid_range
    | some suffix =>
        if suffix ≤ 0 then .error .invalid_range
        else .ok (saturating_sub size suffix, size - 1, true)
  else
    match parse_i64 start with
    | none => .error .invalid_range
    | some start =>
        if start < 0 ∨ size ≤ start then .error .invalid_range
        else
          match (if stop = [] then some (size - 1) else (parse_i64 stop).map (min · (size - 1))) with
          | none => .error .invalid_range
          | some stop => if stop < start then .error .invalid_range else .ok (start, stop, true)

def parse_range (value : Option String) (size : Int) : Except S3Error (Int × Int × Bool) :=
  if size = 0 then .ok (0, -1, false)
  else
    match value with
    | none => .ok (0, size - 1, false)
    | some value =>
        match range_ends value.toList with
        | none => .error .invalid_range
        | some (start, stop) => range_of_ends start stop size

/-! ## The grammar -/

/-- Decimal digits, at least one. -/
def Digits (s : List Char) : Prop := s ≠ [] ∧ s.all is_digit = true

instance (s : List Char) : Decidable (Digits s) := inferInstanceAs (Decidable (_ ∧ _))

/-- The text asks for the bytes `lo`, .., `hi` of an object of this size. -/
inductive RangeForm (size : Int) : List Char → Int → Int → Prop
  | closed {a b : List Char} (ha : Digits a) (hb : Digits b) (hle : of_digits a ≤ of_digits b)
      (hsize : of_digits a < size) :
      RangeForm size ("bytes=".toList ++ (a ++ '-' :: b)) (of_digits a)
        (min (of_digits b : Int) (size - 1))
  | from_start {a : List Char} (ha : Digits a) (hsize : of_digits a < size) :
      RangeForm size ("bytes=".toList ++ (a ++ ['-'])) (of_digits a) (size - 1)
  | suffix {n : List Char} (hn : Digits n) (hpos : 1 ≤ of_digits n) :
      RangeForm size ("bytes=".toList ++ '-' :: n) (size - min (of_digits n : Int) size) (size - 1)

/-! ## Numbers -/

/-- Digits have no other character among them. -/
theorem Digits.not_mem {s : List Char} (h : Digits s) {c : Char} (hc : is_digit c = false) :
    c ∉ s := by
  intro hmem
  have := List.all_eq_true.mp h.2 c hmem
  rw [hc] at this
  cases this

/-- Plain digits parse to their number if the type has it. -/
theorem parse_i64_digits {s : List Char} (h : Digits s) :
    parse_i64 s = if (of_digits s : Int) ≤ i64_max then some (of_digits s : Int) else none := by
  have hparse : parse_i64 s = parse_digits 1 i64_min i64_max s := by
    unfold parse_i64 parse_int
    split
    · exact absurd List.mem_cons_self (h.not_mem (by decide))
    · exact absurd List.mem_cons_self (h.not_mem (by decide))
    · rfl
  rw [hparse]
  unfold parse_digits
  have hlow : i64_min ≤ (of_digits s : Int) := by
    unfold i64_min
    omega
  rw [Int.one_mul]
  by_cases hhigh : (of_digits s : Int) ≤ i64_max
  · rw [if_pos hhigh, if_pos ⟨h.1, h.2, hlow, hhigh⟩]
  · rw [if_neg hhigh, if_neg (fun hc => hhigh hc.2.2.2)]

/-- An empty text is no number. -/
@[simp] theorem parse_i64_nil : parse_i64 [] = none := rfl

/-! ## The ends of a text -/

/-- **When the header has two ends**: it is in bytes, has one range and no comma, and the first
minus sign is between the ends. -/
theorem range_ends_eq_some_iff {value start stop : List Char} :
    range_ends value = some (start, stop)
      ↔ value = "bytes=".toList ++ (start ++ '-' :: stop) ∧ '-' ∉ start
        ∧ ',' ∉ start ++ '-' :: stop := by
  unfold range_ends
  constructor
  · intro h
    split at h
    · cases h
    · rename_i rest hrest
      have hvalue := List.isPrefixOf?_eq_some_iff_append_eq.mp hrest
      split_ifs at h with hcomma
      obtain ⟨rfl, hhyphen⟩ := split_once_eq_some_iff.mp h
      exact ⟨hvalue.symm, hhyphen, hcomma⟩
  · rintro ⟨rfl, hhyphen, hcomma⟩
    rw [List.isPrefixOf?_eq_some_iff_append_eq.mpr rfl]
    dsimp only
    rw [if_neg hcomma, split_once_eq_some_iff.mpr ⟨rfl, hhyphen⟩]

/-- The text of a form has its numbers as ends. -/
theorem range_ends_of_digits {a b : List Char} (ha : a = [] ∨ Digits a) (hb : b = [] ∨ Digits b) :
    range_ends ("bytes=".toList ++ (a ++ '-' :: b)) = some (a, b) := by
  have hno : ∀ (c : Char) (s : List Char), is_digit c = false → s = [] ∨ Digits s → c ∉ s := by
    rintro c s hc (rfl | hs)
    · exact List.not_mem_nil
    · exact hs.not_mem hc
  refine range_ends_eq_some_iff.mpr ⟨rfl, hno '-' a (by decide) ha, ?_⟩
  rw [List.mem_append, List.mem_cons, not_or, not_or]
  exact ⟨hno ',' a (by decide) ha, by decide, hno ',' b (by decide) hb⟩

/-- The forms, by the ends of the text. -/
theorem rangeForm_iff {size : Int} {value start stop : List Char}
    (hends : range_ends value = some (start, stop)) (lo hi : Int) :
    RangeForm size value lo hi
      ↔ (Digits start ∧ Digits stop ∧ of_digits start ≤ of_digits stop ∧ of_digits start < size
          ∧ lo = of_digits start ∧ hi = min (of_digits stop : Int) (size - 1))
        ∨ (Digits start ∧ stop = [] ∧ of_digits start < size ∧ lo = of_digits start ∧ hi = size - 1)
        ∨ (start = [] ∧ Digits stop ∧ 1 ≤ of_digits stop
          ∧ lo = size - min (of_digits stop : Int) size ∧ hi = size - 1) := by
  constructor
  · intro h
    cases h with
    | @closed a b ha hb hle hsize =>
        rw [range_ends_of_digits (Or.inr ha) (Or.inr hb)] at hends
        obtain ⟨rfl, rfl⟩ := Prod.mk.inj (Option.some.inj hends)
        exact Or.inl ⟨ha, hb, hle, hsize, rfl, rfl⟩
    | @from_start a ha hsize =>
        rw [range_ends_of_digits (Or.inr ha) (Or.inl rfl)] at hends
        obtain ⟨rfl, rfl⟩ := Prod.mk.inj (Option.some.inj hends)
        exact Or.inr (Or.inl ⟨ha, rfl, hsize, rfl, rfl⟩)
    | @suffix n hn hpos =>
        have := range_ends_of_digits (Or.inl rfl) (Or.inr hn)
        rw [List.nil_append] at this
        rw [this] at hends
        obtain ⟨rfl, rfl⟩ := Prod.mk.inj (Option.some.inj hends)
        exact Or.inr (Or.inr ⟨rfl, hn, hpos, rfl, rfl⟩)
  · obtain ⟨rfl, -, -⟩ := range_ends_eq_some_iff.mp hends
    rintro (⟨ha, hb, hle, hsize, rfl, rfl⟩ | ⟨ha, rfl, hsize, rfl, rfl⟩ | ⟨rfl, hn, hpos, rfl, rfl⟩)
    · exact .closed ha hb hle hsize
    · exact .from_start ha hsize
    · exact .suffix hn hpos

/-- A text without ends has no form. -/
theorem not_rangeForm_of_none {size : Int} {value : List Char} (hends : range_ends value = none)
    (lo hi : Int) : ¬ RangeForm size value lo hi := by
  intro h
  cases h with
  | @closed a b ha hb =>
      rw [range_ends_of_digits (Or.inr ha) (Or.inr hb)] at hends
      cases hends
  | @from_start a ha =>
      rw [range_ends_of_digits (Or.inr ha) (Or.inl rfl)] at hends
      cases hends
  | @suffix n hn =>
      have := range_ends_of_digits (Or.inl rfl) (Or.inr hn)
      rw [List.nil_append] at this
      rw [this] at hends
      cases hends

/-! ## Where the function agrees with the grammar -/

/-- **The exact condition** on the two ends, see the head of the file. -/
structure Plain (start stop : List Char) (size : Int) : Prop where
  /-- a suffix is no longer than the object -/
  suffix : start = [] → Digits stop → of_digits stop ≤ size
  /-- a signed suffix is not positive -/
  suffix_sign (n : Int) : start = [] → ¬ Digits stop → parse_i64 stop = some n → n ≤ 0
  /-- the last position is an `i64`, if the interval begins in the object -/
  last : Digits start → Digits stop → of_digits start ≤ of_digits stop → of_digits start < size →
    of_digits stop ≤ i64_max
  /-- signed positions mean no interval in the object -/
  sign (a : Int) : start ≠ [] → ¬ (Digits start ∧ (stop = [] ∨ Digits stop)) →
    parse_i64 start = some a → 0 ≤ a → a < size →
      stop ≠ [] ∧ ∀ b, parse_i64 stop = some b → b < a

/-- The interval of a text is that of its form, and a text without a form is refused. -/
structure Agrees (value : List Char) (size : Int) (interval : Except S3Error (Int × Int × Bool)) :
    Prop where
  bounds (lo hi : Int) (partial_content : Bool) : interval = .ok (lo, hi, partial_content) →
    0 ≤ lo ∧ lo ≤ hi ∧ hi ≤ size - 1
  forms (lo hi : Int) : RangeForm size value lo hi → interval = .ok (lo, hi, true)
  rejected : (¬ ∃ lo hi, RangeForm size value lo hi) → interval = .error .invalid_range

section Ends

variable {value start stop : List Char} {size : Int}

/-- Without a start the number is that of the last bytes. -/
theorem range_of_ends_suffix {n : Int} (hparse : parse_i64 stop = some n) :
    range_of_ends [] stop size = if n ≤ 0 then .error .invalid_range
      else .ok (saturating_sub size n, size - 1, true) := by
  unfold range_of_ends
  rw [if_pos rfl, hparse]

/-- An end that is no number is refused. -/
theorem range_of_ends_of_none (hparse : parse_i64 (if start = [] then stop else start) = none) :
    range_of_ends start stop size = .error .invalid_range := by
  unfold range_of_ends
  split_ifs at hparse ⊢ <;> rw [hparse]

/-- The last position of an interval with a first one. -/
def last_position (stop : List Char) (size : Int) : Option Int :=
  if stop = [] then some (size - 1) else (parse_i64 stop).map (min · (size - 1))

/-- A start in the object goes on to the last position, which may be cut off at the end. -/
theorem range_of_ends_of_some (hstart : start ≠ []) {a : Int} (hparse : parse_i64 start = some a)
    (ha : 0 ≤ a) (hsize : a < size) :
    range_of_ends start stop size
      = match last_position stop size with
        | none => .error .invalid_range
        | some b => if b < a then .error .invalid_range else .ok (a, b, true) := by
  unfold range_of_ends last_position
  rw [if_neg hstart, hparse]
  dsimp only
  rw [if_neg (by omega)]

/-- A start outside the object is refused. -/
theorem range_of_ends_outside (hstart : start ≠ []) {a : Int} (hparse : parse_i64 start = some a)
    (hout : a < 0 ∨ size ≤ a) : range_of_ends start stop size = .error .invalid_range := by
  unfold range_of_ends
  rw [if_neg hstart, hparse]
  dsimp only
  rw [if_pos hout]

/-- In the range of the sizes nothing saturates. -/
theorem saturating_sub_eq {n : Int} (h₀ : 0 ≤ size) (h₁ : size ≤ i64_max) (h₂ : 0 ≤ n)
    (h₃ : n ≤ i64_max) : saturating_sub size n = size - n := by
  unfold saturating_sub i64_min
  unfold i64_max at *
  omega

variable (hends : range_ends value = some (start, stop)) (hsize : 0 < size)
  (hmax : size ≤ i64_max)

include hends hsize hmax

/-- The function agrees with the grammar only on plain ends: each part of the condition is
read off one kind of text. -/
theorem plain_of_agrees (h : Agrees value size (range_of_ends start stop size)) :
    Plain start stop size where
  suffix := by
    rintro rfl hdigits
    by_contra hlong
    have hform : RangeForm size value (size - min (of_digits stop : Int) size) (size - 1) :=
      (rangeForm_iff hends _ _).mpr (Or.inr (Or.inr ⟨rfl, hdigits, by omega, rfl, rfl⟩))
    have hinterval := h.forms _ _ hform
    have hparse := parse_i64_digits hdigits
    by_cases hfits : (of_digits stop : Int) ≤ i64_max
    · -- the suffix is longer than the object: the code starts below zero
      rw [if_pos hfits] at hparse
      rw [range_of_ends_suffix hparse, if_neg (by omega),
        saturating_sub_eq hsize.le hmax (by omega) hfits] at hinterval
      have := (Prod.mk.inj (Except.ok.inj hinterval)).1
      omega
    · -- it does not even fit a number of 64 bits: the code refuses it
      rw [if_neg hfits] at hparse
      rw [range_of_ends_of_none (by rw [if_pos rfl, hparse])] at hinterval
      cases hinterval
  suffix_sign n := by
    rintro rfl hdigits hparse
    by_contra hpos
    -- a signed number has no form of the grammar, and the code takes it
    have hinterval := h.rejected (by
      rintro ⟨lo, hi, hform⟩
      rcases (rangeForm_iff hends _ _).mp hform with hf | hf | hf
      · exact hf.1.1 rfl
      · exact hf.1.1 rfl
      · exact hdigits hf.2.1)
    rw [range_of_ends_suffix hparse, if_neg hpos] at hinterval
    cases hinterval
  last hstart hstop hle hlt := by
    by_contra hbig
    have hform := (rangeForm_iff hends _ _).mpr (Or.inl ⟨hstart, hstop, hle, hlt, rfl, rfl⟩)
    have hinterval := h.forms _ _ hform
    have hparse := parse_i64_digits hstart
    rw [if_pos (by omega)] at hparse
    have hparse' := parse_i64_digits hstop
    rw [if_neg hbig] at hparse'
    -- the last position is within the grammar, and no number of 64 bits
    have hlast : last_position stop size = none := by
      unfold last_position
      rw [if_neg hstop.1, hparse', Option.map_none]
    rw [range_of_ends_of_some hstart.1 hparse (by omega) hlt, hlast] at hinterval
    cases hinterval
  sign a hne hsigned hparse ha hlt := by
    have hinterval := h.rejected (by
      rintro ⟨lo, hi, hform⟩
      rcases (rangeForm_iff hends _ _).mp hform with hf | hf | hf
      · exact hsigned ⟨hf.1, Or.inr hf.2.1⟩
      · exact hsigned ⟨hf.1, Or.inl hf.2.1⟩
      · exact hne hf.1)
    rw [range_of_ends_of_some hne hparse ha hlt] at hinterval
    unfold last_position at hinterval
    by_cases hstop : stop = []
    · rw [if_pos hstop] at hinterval
      dsimp only at hinterval
      rw [if_neg (by omega)] at hinterval
      cases hinterval
    · refine ⟨hstop, fun b hb => ?_⟩
      by_contra hba
      rw [if_neg hstop, hb, Option.map_some] at hinterval
      dsimp only at hinterval
      rw [if_neg (by omega)] at hinterval
      cases hinterval

/-- An interval that is given out lies in the object and is not empty. -/
theorem bounds_of_plain (h : Plain start stop size) {lo hi : Int} {partial_content : Bool}
    (hinterval : range_of_ends start stop size = .ok (lo, hi, partial_content)) :
    0 ≤ lo ∧ lo ≤ hi ∧ hi ≤ size - 1 := by
  by_cases hstart : start = []
  · subst hstart
    cases hparse : parse_i64 stop with
    | none =>
        rw [range_of_ends_of_none (by rw [if_pos rfl, hparse])] at hinterval
        cases hinterval
    | some n =>
        rw [range_of_ends_suffix hparse] at hinterval
        split_ifs at hinterval with hpos
        by_cases hdigits : Digits stop
        · have hshort := h.suffix rfl hdigits
          have hplain := parse_i64_digits hdigits
          rw [if_pos (by omega), hparse] at hplain
          obtain rfl := Option.some.inj hplain
          obtain ⟨rfl, hrest⟩ := Prod.mk.inj (Except.ok.inj hinterval)
          obtain ⟨rfl, -⟩ := Prod.mk.inj hrest
          -- a suffix that is not longer than the object
          rw [saturating_sub_eq hsize.le hmax (by omega) (by omega)]
          omega
        · exact absurd (h.suffix_sign n rfl hdigits hparse) hpos
  · cases hparse : parse_i64 start with
    | none =>
        rw [range_of_ends_of_none (by rw [if_neg hstart, hparse])] at hinterval
        cases hinterval
    | some a =>
        by_cases hin : 0 ≤ a ∧ a < size
        · rw [range_of_ends_of_some hstart hparse hin.1 hin.2] at hinterval
          unfold last_position at hinterval
          split at hinterval
          · cases hinterval
          · rename_i b hb
            split_ifs at hinterval with hlt
            obtain ⟨rfl, hrest⟩ := Prod.mk.inj (Except.ok.inj hinterval)
            obtain ⟨rfl, -⟩ := Prod.mk.inj hrest
            split_ifs at hb with hstop
            · have := Option.some.inj hb
              omega
            · obtain ⟨c, -, rfl⟩ := Option.map_eq_some_iff.mp hb
              omega
        · rw [range_of_ends_outside hstart hparse (by omega)] at hinterval
          cases hinterval

/-- Each of the three forms gets the interval that it asks for. -/
theorem forms_of_plain (h : Plain start stop size) {lo hi : Int}
    (hform : RangeForm size value lo hi) : range_of_ends start stop size = .ok (lo, hi, true) := by
  rcases (rangeForm_iff hends _ _).mp hform with ⟨hstart, hstop, hle, hlt, rfl, rfl⟩
    | ⟨hstart, rfl, hlt, rfl, rfl⟩ | ⟨rfl, hstop, hpos, rfl, rfl⟩
  · have hparse := parse_i64_digits hstart
    rw [if_pos (by omega)] at hparse
    have hparse' := parse_i64_digits hstop
    rw [if_pos (h.last hstart hstop hle hlt)] at hparse'
    rw [range_of_ends_of_some hstart.1 hparse (by omega) hlt]
    unfold last_position
    rw [if_neg hstop.1, hparse', Option.map_some]
    dsimp only
    rw [if_neg (by omega)]
  · have hparse := parse_i64_digits hstart
    rw [if_pos (by omega)] at hparse
    rw [range_of_ends_of_some hstart.1 hparse (by omega) hlt]
    unfold last_position
    rw [if_pos rfl]
    dsimp only
    rw [if_neg (by omega)]
  · have hshort := h.suffix rfl hstop
    have hparse := parse_i64_digits hstop
    rw [if_pos (by omega)] at hparse
    rw [range_of_ends_suffix hparse, if_neg (by omega),
      saturating_sub_eq hsize.le hmax (by omega) (by omega), min_eq_left hshort]

omit hsize in
/-- And what has none of these forms is refused. -/
theorem rejected_of_plain (h : Plain start stop size)
    (hno : ¬ ∃ lo hi, RangeForm size value lo hi) :
    range_of_ends start stop size = .error .invalid_range := by
  by_cases hstart : start = []
  · subst hstart
    cases hparse : parse_i64 stop with
    | none => exact range_of_ends_of_none (by rw [if_pos rfl, hparse])
    | some n =>
        rw [range_of_ends_suffix hparse]
        by_cases hpos : n ≤ 0
        · rw [if_pos hpos]
        · by_cases hdigits : Digits stop
          · -- plain digits would be a suffix of the grammar
            have hplain := parse_i64_digits hdigits
            have hshort := h.suffix rfl hdigits
            rw [if_pos (by omega), hparse] at hplain
            obtain rfl := Option.some.inj hplain
            exact absurd ⟨_, _, (rangeForm_iff hends _ _).mpr
              (Or.inr (Or.inr ⟨rfl, hdigits, by omega, rfl, rfl⟩))⟩ hno
          · exact absurd (h.suffix_sign n rfl hdigits hparse) hpos
  · cases hparse : parse_i64 start with
    | none => exact range_of_ends_of_none (by rw [if_neg hstart, hparse])
    | some a =>
        by_cases hin : 0 ≤ a ∧ a < size
        · rw [range_of_ends_of_some hstart hparse hin.1 hin.2]
          unfold last_position
          by_cases hplain : Digits start ∧ (stop = [] ∨ Digits stop)
          · obtain ⟨hdigits, hstop⟩ := hplain
            have hvalue := parse_i64_digits hdigits
            rw [hparse] at hvalue
            split_ifs at hvalue
            obtain rfl := Option.some.inj hvalue
            rcases hstop with rfl | hstop
            · exact absurd ⟨_, _, (rangeForm_iff hends _ _).mpr
                (Or.inr (Or.inl ⟨hdigits, rfl, hin.2, rfl, rfl⟩))⟩ hno
            · rw [if_neg hstop.1, parse_i64_digits hstop]
              -- first and last in order would be an interval of the grammar
              have hlt : of_digits stop < of_digits start := by
                by_contra hle
                exact hno ⟨_, _, (rangeForm_iff hends _ _).mpr
                  (Or.inl ⟨hdigits, hstop, by omega, hin.2, rfl, rfl⟩)⟩
              rw [if_pos (by omega), Option.map_some]
              dsimp only
              rw [if_pos (by omega)]
          · obtain ⟨hstop, hbelow⟩ := h.sign a hstart hplain hparse hin.1 hin.2
            rw [if_neg hstop]
            cases hb : parse_i64 stop with
            | none => rfl
            | some b =>
                have := hbelow b hb
                rw [Option.map_some]
                dsimp only
                rw [if_pos (by omega)]
        · exact range_of_ends_outside hstart hparse (by omega)

/-- **The function agrees with the grammar** if and only if the ends are plain. -/
theorem agrees_iff : Agrees value size (range_of_ends start stop size) ↔ Plain start stop size :=
  ⟨plain_of_agrees hends hsize hmax, fun h =>
    { bounds := fun _ _ _ hinterval => bounds_of_plain hends hsize hmax h hinterval
      forms := fun _ _ hform => forms_of_plain hends hsize hmax h hform
      rejected := fun hno => rejected_of_plain hends hmax h hno }⟩

end Ends

end Tg2s3.S3
