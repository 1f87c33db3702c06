/-
Hexadecimal text of bytes.

`encode` writes lower-case digits, two for each byte; `decode` reads digits of
either case and refuses an odd number of them and every other character. Text is a
list of characters here. What is written is read back (`decode_encode`), and it
consists of digits (`isDigit_of_mem_encode`), which is what a caller needs who
strips quotes or blanks before decoding.
-/
import Mathlib.Data.List.Basic
import Mathlib.Tactic.Common

set_option autoImplicit false

namespace Hex

/-- The value of a digit. -/
def value (c : Char) : Option ℕ :=
  if '0' ≤ c ∧ c ≤ '9' then some (c.toNat - 48)
  else if 'a' ≤ c ∧ c ≤ 'f' then some (c.toNat - 87)
  else if 'A' ≤ c ∧ c ≤ 'F' then some (c.toNat - 55)
  else none

def encode : List UInt8 → List Char
  | [] => []
  | b :: bs => Nat.digitChar (b.toNat / 16) :: Nat.digitChar (b.toNat % 16) :: encode bs

def decode : List Char → Option (List UInt8)
  | [] => some []
  | [_] => none
  | a :: b :: rest => do
      let high ← value a
      let low ← value b
      let bytes ← decode rest
      pure (UInt8.ofNat (16 * high + low) :: bytes)

theorem value_digitChar {n : ℕ} (h : n < 16) : value (Nat.digitChar n) = some n := by
  revert n
  decide

/-- **Round trip.** -/
theorem decode_encode (bs : List UInt8) : decode (encode bs) = some bs := by
  induction bs with
  | nil => rfl
  | cons b bs ih =>
      have hb : b.toNat < 256 := b.toNat_lt
      have hhigh := value_digitChar (show b.toNat / 16 < 16 by omega)
      have hlow := value_digitChar (show b.toNat % 16 < 16 by omega)
      have hbyte : UInt8.ofNat (16 * (b.toNat / 16) + b.toNat % 16) = b := by
        rw [show 16 * (b.toNat / 16) + b.toNat % 16 = b.toNat by omega]
        exact UInt8.ofNat_toNat
      simp only [encode, decode, hhigh, hlow, ih, Option.bind_eq_bind, Option.bind_some, hbyte]
      rfl

/-- Only digits are written. -/
theorem isDigit_of_mem_encode {bs : List UInt8} : ∀ c ∈ encode bs, value c ≠ none := by
  induction bs with
  | nil => simp [encode]
  | cons b bs ih =>
      intro c hc
      have hb : b.toNat < 256 := b.toNat_lt
      rcases List.mem_cons.mp hc with rfl | hc
      · rw [value_digitChar (by omega)]
        exact Option.some_ne_none _
      · rcases List.mem_cons.mp hc with rfl | hc
        · rw [value_digitChar (by omega)]
          exact Option.some_ne_none _
        · exact ih c hc

end Hex
