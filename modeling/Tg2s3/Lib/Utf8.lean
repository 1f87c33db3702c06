/-
UTF-8 keeps the order.

A database that compares two texts as bytes and a program that compares them character by
character agree, because UTF-8 was made so: a greater code point has a greater encoding, and
no encoding is the start of another one. `encode_lt_iff` says it for whole texts, with the
lexicographic order on both sides.

The one thing to check is two single characters (`encodeChar_lt`). The encodings of one
length are numbers in base 64 with a head, and the heads grow with the length.
-/
import Mathlib.Data.Char
import Mathlib.Data.List.Lex

set_option autoImplicit false

namespace Tg2s3.Utf8

/-- The bytes of a text. -/
def encode (s : List Char) : List UInt8 := s.flatMap String.utf8EncodeChar

@[simp] theorem encode_nil : encode [] = [] := rfl

@[simp] theorem encode_cons (c : Char) (s : List Char) :
    encode (c :: s) = String.utf8EncodeChar c ++ encode s := rfl

/-! ## Two characters -/

theorem ofNat_lt_iff {m n : ℕ} (hm : m < 256) (hn : n < 256) :
    UInt8.ofNat m < UInt8.ofNat n ↔ m < n := by
  rw [UInt8.lt_iff_toNat_lt, UInt8.toNat_ofNat', UInt8.toNat_ofNat', Nat.mod_eq_of_lt hm,
    Nat.mod_eq_of_lt hn]

theorem ofNat_eq_iff {m n : ℕ} (hm : m < 256) (hn : n < 256) :
    UInt8.ofNat m = UInt8.ofNat n ↔ m = n := by
  rw [← UInt8.toNat_inj, UInt8.toNat_ofNat', UInt8.toNat_ofNat', Nat.mod_eq_of_lt hm,
    Nat.mod_eq_of_lt hn]

/-- The greater character has the greater bytes, whatever follows. The cases are the lengths
of the two encodings. -/
theorem encodeChar_lt {c d : Char} (h : c < d) (s t : List UInt8) :
    String.utf8EncodeChar c ++ s < String.utf8EncodeChar d ++ t := by
  have hlt : c.val.toNat < d.val.toNat := h
  have hmax : d.val.toNat < 1114112 := by
    have := d.valid
    unfold UInt32.isValidChar Nat.isValidChar at this
    omega
  -- the digits, each from the one below
  have hsecond (v : ℕ) : v / 4096 = v / 64 / 64 := by omega
  have hthird (v : ℕ) : v / 262144 = v / 64 / 64 / 64 := by omega
  unfold String.utf8EncodeChar
  simp only [hsecond, hthird]
  generalize c.val.toNat = m at *
  generalize d.val.toNat = n at *
  split_ifs <;> try omega
  all_goals
    simp only [List.cons_append, List.nil_append, List.cons_lt_cons_iff]
    repeat rw [ofNat_lt_iff (by omega) (by omega)]
    repeat rw [ofNat_eq_iff (by omega) (by omega)]
    omega

/-! ## Texts -/

theorem append_lt_append (p : List UInt8) {s t : List UInt8} (h : s < t) : p ++ s < p ++ t := by
  induction p with
  | nil => exact h
  | cons b p ih => exact List.cons_lt_cons_iff.mpr (Or.inr ⟨rfl, ih⟩)

theorem encode_lt {s t : List Char} (h : s < t) : encode s < encode t := by
  induction s generalizing t with
  | nil =>
      cases t with
      | nil => exact absurd h (List.not_lt_nil [])
      | cons d t =>
          obtain ⟨b, bytes, hbytes⟩ :=
            List.exists_cons_of_ne_nil (String.utf8EncodeChar_ne_nil (c := d))
          rw [encode_nil, encode_cons, hbytes, List.cons_append]
          exact List.nil_lt_cons b _
  | cons c s ih =>
      cases t with
      | nil => exact absurd h (List.not_lt_nil _)
      | cons d t =>
          rw [encode_cons, encode_cons]
          rcases List.cons_lt_cons_iff.mp h with hlt | ⟨rfl, hlt⟩
          · exact encodeChar_lt hlt _ _
          · exact append_lt_append _ (ih hlt)

/-- **The order of the bytes is the order of the characters.** -/
theorem encode_lt_iff {s t : List Char} : encode s < encode t ↔ s < t := by
  refine ⟨fun h => ?_, encode_lt⟩
  rcases lt_trichotomy s t with hlt | rfl | hgt
  · exact hlt
  · exact absurd h (List.lt_irrefl _)
  · exact absurd (List.lt_trans h (encode_lt hgt)) (List.lt_irrefl _)

theorem encode_le_iff {s t : List Char} : encode s ≤ encode t ↔ s ≤ t := by
  rw [← not_lt (a := t), ← List.not_lt, encode_lt_iff]

end Tg2s3.Utf8
