/-
SHA-256 and the HMAC made from it, as functions on lists of bytes.

The message is filled up to blocks of 64 bytes, each block is sixteen words of 32 bits
that are extended to sixty-four, and each of these words turns the eight words of the
state round once. Nothing is proved about the function here beyond two of its published
values: what is wanted is a function that one can sign with.
-/
import Mathlib.Data.List.Basic
import Mathlib.Tactic.Common

set_option autoImplicit false

namespace Sha256

/-! ## Words -/

def round_constants : List UInt32 :=
  [0x428a2f98, 0x71374491, 0xb5c0fbcf, 0xe9b5dba5, 0x3956c25b, 0x59f111f1, 0x923f82a4, 0xab1c5ed5,
    0xd807aa98, 0x12835b01, 0x243185be, 0x550c7dc3, 0x72be5d74, 0x80deb1fe, 0x9bdc06a7, 0xc19bf174,
    0xe49b69c1, 0xefbe4786, 0x0fc19dc6, 0x240ca1cc, 0x2de92c6f, 0x4a7484aa, 0x5cb0a9dc, 0x76f988da,
    0x983e5152, 0xa831c66d, 0xb00327c8, 0xbf597fc7, 0xc6e00bf3, 0xd5a79147, 0x06ca6351, 0x14292967,
    0x27b70a85, 0x2e1b2138, 0x4d2c6dfc, 0x53380d13, 0x650a7354, 0x766a0abb, 0x81c2c92e, 0x92722c85,
    0xa2bfe8a1, 0xa81a664b, 0xc24b8b70, 0xc76c51a3, 0xd192e819, 0xd6990624, 0xf40e3585, 0x106aa070,
    0x19a4c116, 0x1e376c08, 0x2748774c, 0x34b0bcb5, 0x391c0cb3, 0x4ed8aa4a, 0x5b9cca4f, 0x682e6ff3,
    0x748f82ee, 0x78a5636f, 0x84c87814, 0x8cc70208, 0x90befffa, 0xa4506ceb, 0xbef9a3f7, 0xc67178f2]

/-- The eight words of the state. -/
structure Hash where
  a : UInt32
  b : UInt32
  c : UInt32
  d : UInt32
  e : UInt32
  f : UInt32
  g : UInt32
  h : UInt32
  deriving DecidableEq, Repr

def initial : Hash :=
  ⟨0x6a09e667, 0xbb67ae85, 0x3c6ef372, 0xa54ff53a, 0x510e527f, 0x9b05688c, 0x1f83d9ab, 0x5be0cd19⟩

def rotate (x n : UInt32) : UInt32 := (x >>> n) ||| (x <<< (32 - n))

def word (a b c d : UInt8) : UInt32 :=
  (a.toUInt32 <<< 24) ||| (b.toUInt32 <<< 16) ||| (c.toUInt32 <<< 8) ||| d.toUInt32

def words : List UInt8 → List UInt32
  | a :: b :: c :: d :: rest => word a b c d :: words rest
  | _ => []

def bytes (x : UInt32) : List UInt8 :=
  [(x >>> 24).toUInt8, (x >>> 16).toUInt8, (x >>> 8).toUInt8, x.toUInt8]

/-! ## Blocks -/

/-- A one bit, zeros, and the length in bits. -/
def fill (message : List UInt8) : List UInt8 :=
  let bits := UInt64.ofNat (8 * message.length)
  message ++ (0x80 : UInt8) :: List.replicate ((119 - message.length % 64) % 64) (0 : UInt8)
    ++ (bytes (bits >>> 32).toUInt32 ++ bytes bits.toUInt32)

/-- `n` words more; the last word comes first. -/
def extend : ℕ → List UInt32 → List UInt32
  | 0, ws => ws
  | n + 1, ws =>
      let w₁ := ws.getD 14 0
      let w₂ := ws.getD 1 0
      let s₁ := rotate w₁ 7 ^^^ rotate w₁ 18 ^^^ (w₁ >>> 3)
      let s₂ := rotate w₂ 17 ^^^ rotate w₂ 19 ^^^ (w₂ >>> 10)
      extend n ((ws.getD 15 0 + s₁ + ws.getD 6 0 + s₂) :: ws)

def round (s : Hash) (k w : UInt32) : Hash :=
  let t₁ := s.h + (rotate s.e 6 ^^^ rotate s.e 11 ^^^ rotate s.e 25)
    + ((s.e &&& s.f) ^^^ ((~~~ s.e) &&& s.g)) + k + w
  let t₂ := (rotate s.a 2 ^^^ rotate s.a 13 ^^^ rotate s.a 22)
    + ((s.a &&& s.b) ^^^ (s.a &&& s.c) ^^^ (s.b &&& s.c))
  ⟨t₁ + t₂, s.a, s.b, s.c, s.d + t₁, s.e, s.f, s.g⟩

def compress (s : Hash) (block : List UInt8) : Hash :=
  let ws := (extend 48 (words block).reverse).reverse
  let t := (round_constants.zip ws).foldl (fun s p => round s p.1 p.2) s
  ⟨s.a + t.a, s.b + t.b, s.c + t.c, s.d + t.d, s.e + t.e, s.f + t.f, s.g + t.g, s.h + t.h⟩

/-- Every block of 64 bytes in turn. -/
def compress_blocks : ℕ → Hash → List UInt8 → Hash
  | 0, s, _ => s
  | n + 1, s, message => compress_blocks n (compress s (message.take 64)) (message.drop 64)

def sha256 (message : List UInt8) : List UInt8 :=
  let filled := fill message
  let s := compress_blocks (filled.length / 64) initial filled
  [s.a, s.b, s.c, s.d, s.e, s.f, s.g, s.h].flatMap bytes

/-! ## HMAC -/

/-- The key as one block: a long one is hashed first. -/
def key_block (key : List UInt8) : List UInt8 :=
  let key := if key.length > 64 then sha256 key else key
  key ++ List.replicate (64 - key.length) 0

def hmac (key message : List UInt8) : List UInt8 :=
  let block := key_block key
  sha256 (block.map (0x5c ^^^ ·) ++ sha256 (block.map (0x36 ^^^ ·) ++ message))

/-- `abc` -/
example : (sha256 [97, 98, 99]).take 4 = [0xba, 0x78, 0x16, 0xbf] := by decide +kernel

/-- The key `Jefe`, and `what do ya want for nothing?` -/
example : (hmac [74, 101, 102, 101] [119, 104, 97, 116, 32, 100, 111, 32, 121, 97, 32, 119, 97, 110,
    116, 32, 102, 111, 114, 32, 110, 111, 116, 104, 105, 110, 103, 63]).take 4
      = [0x5b, 0xdc, 0xc1, 0x46] := by decide +kernel

end Sha256
