/-
Internet socket addresses and their texts.

The text of an address is what a program keeps where the address has to survive it,
and what it reads back must be the address it wrote. `to_string` is `Display` of
Rust's `std::net`, `parse` is its `FromStr`. An IPv6 address is written with its
longest row of zero groups folded into `::`, or with the IPv4 address that it maps at
its end; a reader that goes from group to group has to find out from the text alone
where a group ends, where the zeros were, and that `12:` is no beginning of an IPv4
address.

A reader takes the characters that are left and gives a value with the characters
behind it, or fails and has taken nothing, so trying the next alternative is going on
with the same list.

One part of an IPv6 socket address is not in its text: the flow information. It is
read back as zero (`parse_to_string_v6`).
-/
import Mathlib.Data.List.Basic
import Mathlib.Data.List.Induction
import Mathlib.Tactic.Common
import Mathlib.Tactic.SplitIfs

set_option autoImplicit false

namespace Inet

/-! ## Addresses -/

structure Ipv4Addr where
  octets : List UInt8
  length_octets : octets.length = 4
  deriving DecidableEq

structure Ipv6Addr where
  segments : List UInt16
  length_segments : segments.length = 8
  deriving DecidableEq

structure SocketAddrV4 where
  ip : Ipv4Addr
  port : UInt16
  deriving DecidableEq

structure SocketAddrV6 where
  ip : Ipv6Addr
  port : UInt16
  flowinfo : UInt32
  scope_id : UInt32
  deriving DecidableEq

/-! ## Writing -/

def decimal (n : ℕ) : List Char := Nat.toDigits 10 n

def hex (n : ℕ) : List Char := Nat.toDigits 16 n

/-- Pieces with a separator between them. -/
def separated (sep : Char) : List (List Char) → List Char
  | [] => []
  | piece :: pieces => piece ++ pieces.flatMap (sep :: ·)

def Ipv4Addr.text (ip : Ipv4Addr) : List Char :=
  separated '.' (ip.octets.map fun octet => decimal octet.toNat)

/-- The colon-separated groups of a part of an address. -/
def fmt_subslice (chunk : List UInt16) : List Char :=
  separated ':' (chunk.map fun segment => hex segment.toNat)

def to_ipv4_mapped : List UInt16 → Option (List UInt8)
  | [0, 0, 0, 0, 0, 0xffff, high, low] =>
      some [UInt8.ofNat (high.toNat / 256), UInt8.ofNat high.toNat,
        UInt8.ofNat (low.toNat / 256), UInt8.ofNat low.toNat]
  | _ => none

structure Span where
  start : ℕ := 0
  len : ℕ := 0
  deriving DecidableEq

/-- One step of the search for the longest row of zeros: where it is, the longest so far and
the one that reaches up to here. -/
def span_step (s : ℕ × Span × Span) (segment : UInt16) : ℕ × Span × Span :=
  let (i, longest, current) := s
  if segment = 0 then
    let current : Span :=
      { start := if current.len = 0 then i else current.start, len := current.len + 1 }
    (i + 1, if current.len > longest.len then current else longest, current)
  else (i + 1, longest, {})

/-- The first of the longest rows of zero groups. -/
def zeroes (segments : List UInt16) : Span :=
  (segments.foldl span_step (0, {}, {})).2.1

def Ipv6Addr.text (ip : Ipv6Addr) : List Char :=
  match to_ipv4_mapped ip.segments with
  | some octets =>
      "::ffff:".toList ++ separated '.' (octets.map fun octet => decimal octet.toNat)
  | none =>
      let zeroes := zeroes ip.segments
      if zeroes.len > 1 then
        fmt_subslice (ip.segments.take zeroes.start) ++ "::".toList
          ++ fmt_subslice (ip.segments.drop (zeroes.start + zeroes.len))
      else fmt_subslice ip.segments

def SocketAddrV4.to_string (addr : SocketAddrV4) : String :=
  String.ofList (addr.ip.text ++ ':' :: decimal addr.port.toNat)

def SocketAddrV6.to_string (addr : SocketAddrV6) : String :=
  if addr.scope_id = 0 then
    String.ofList ('[' :: (addr.ip.text ++ ']' :: ':' :: decimal addr.port.toNat))
  else
    String.ofList ('[' :: (addr.ip.text ++ '%' :: (decimal addr.scope_id.toNat
      ++ ']' :: ':' :: decimal addr.port.toNat)))

/-! ## Reading -/

/-- `char::to_digit`. -/
def to_digit (radix : ℕ) (c : Char) : Option ℕ :=
  let value :=
    if '0' ≤ c ∧ c ≤ '9' then some (c.toNat - '0'.toNat)
    else if 'a' ≤ c ∧ c ≤ 'z' then some (c.toNat - 'a'.toNat + 10)
    else if 'A' ≤ c ∧ c ≤ 'Z' then some (c.toNat - 'A'.toNat + 10)
    else none
  value.filter (· < radix)

/-- The digits that the text starts with, and what is behind them. -/
def read_digits (radix : ℕ) : List Char → List ℕ × List Char
  | [] => ([], [])
  | c :: text =>
      match to_digit radix c with
      | some digit => (digit :: (read_digits radix text).1, (read_digits radix text).2)
      | none => ([], c :: text)

/-- A number below `bound`, with at most `max_digits` digits. -/
def read_number (radix bound : ℕ) (max_digits : Option ℕ) (allow_leading_zero : Bool)
    (text : List Char) : Option (ℕ × List Char) :=
  let (digits, rest) := read_digits radix text
  let value := digits.foldl (fun value digit => value * radix + digit) 0
  if digits = [] ∨ max_digits.any (· < digits.length) = true
      ∨ (allow_leading_zero = false ∧ text.head? = some '0' ∧ 1 < digits.length)
      ∨ bound ≤ value then none
  else some (value, rest)

def read_given_char (target : Char) : List Char → Option (List Char)
  | [] => none
  | c :: text => if c = target then some text else none

/-- The separator, except in front of the first piece. -/
def read_separator (sep : Char) (index : ℕ) (text : List Char) : Option (List Char) :=
  if 0 < index then read_given_char sep text else some text

/-- Octets from place `i` on, `count` of them. -/
def read_octets (i : ℕ) : ℕ → List Char → Option (List UInt8 × List Char)
  | 0, text => some ([], text)
  | count + 1, text => do
      let text ← read_separator '.' i text
      let (octet, text) ← read_number 10 256 (some 3) false text
      let (octets, text) ← read_octets (i + 1) count text
      pure (UInt8.ofNat octet :: octets, text)

def read_ipv4_addr (text : List Char) : Option (List UInt8 × List Char) := read_octets 0 4 text

/-- `u16::from_be_bytes` for two octets at a time. -/
def be_groups : List UInt8 → List UInt16
  | high :: low :: octets => UInt16.ofNat (high.toNat * 256 + low.toNat) :: be_groups octets
  | _ => []

/-- The groups from place `i` on, at most `left` of them, and whether they end with an IPv4
address; it takes the place of two groups. -/
def read_groups (i : ℕ) : ℕ → List Char → (List UInt16 × Bool) × List Char
  | 0, text => (([], false), text)
  | left + 1, text =>
      let ipv4 := if 0 < left then (read_separator ':' i text).bind read_ipv4_addr else none
      match ipv4 with
      | some (octets, rest) => ((be_groups octets, true), rest)
      | none =>
          match (read_separator ':' i text).bind (read_number 16 65536 (some 4) true) with
          | some (group, rest) =>
              let ((groups, ipv4), rest) := read_groups (i + 1) left rest
              ((UInt16.ofNat group :: groups, ipv4), rest)
          | none => (([], false), text)

def read_ipv6_addr (text : List Char) : Option (List UInt16 × List Char) :=
  let ((head, head_ipv4), text) := read_groups 0 8 text
  if head.length = 8 then some (head, text)
  else if head_ipv4 then none
  else do
    let text ← read_given_char ':' text
    let text ← read_given_char ':' text
    let ((tail, _), text) := read_groups 0 (8 - (head.length + 1)) text
    pure (head ++ List.replicate (8 - tail.length - head.length) 0 ++ tail, text)

def read_port (text : List Char) : Option (UInt16 × List Char) := do
  let text ← read_given_char ':' text
  let (port, text) ← read_number 10 65536 none true text
  pure (UInt16.ofNat port, text)

def read_scope_id (text : List Char) : Option (UInt32 × List Char) := do
  let text ← read_given_char '%' text
  let (scope_id, text) ← read_number 10 4294967296 none true text
  pure (UInt32.ofNat scope_id, text)

def ipv4_of (octets : List UInt8) : Option Ipv4Addr :=
  if h : octets.length = 4 then some ⟨octets, h⟩ else none

def ipv6_of (segments : List UInt16) : Option Ipv6Addr :=
  if h : segments.length = 8 then some ⟨segments, h⟩ else none

def read_socket_addr_v4 (text : List Char) : Option (SocketAddrV4 × List Char) := do
  let (octets, text) ← read_ipv4_addr text
  let ip ← ipv4_of octets
  let (port, text) ← read_port text
  pure ({ ip := ip, port := port }, text)

def read_socket_addr_v6 (text : List Char) : Option (SocketAddrV6 × List Char) := do
  let text ← read_given_char '[' text
  let (segments, text) ← read_ipv6_addr text
  let ip ← ipv6_of segments
  let (scope_id, text) := (read_scope_id text).getD (0, text)
  let text ← read_given_char ']' text
  let (port, text) ← read_port text
  pure ({ ip := ip, port := port, flowinfo := 0, scope_id := scope_id }, text)

/-- A reader's value, if it has read the whole text. -/
def parse_with {α : Type} (reader : List Char → Option (α × List Char)) (text : String) :
    Option α :=
  (reader text.toList).bind fun result => if result.2 = [] then some result.1 else none

def SocketAddrV4.parse (text : String) : Option SocketAddrV4 := parse_with read_socket_addr_v4 text

def SocketAddrV6.parse (text : String) : Option SocketAddrV6 := parse_with read_socket_addr_v6 text

/-! ## Numbers -/

/-- The text does not go on with a digit. -/
def NoDigit (radix : ℕ) (text : List Char) : Prop := ∀ c ∈ text.head?, to_digit radix c = none

theorem to_digit_digitChar {radix d : ℕ} (hradix : radix ≤ 16) (hd : d < radix) :
    to_digit radix d.digitChar = some d := by
  have hvalue : ∀ d < 16, to_digit 16 (Nat.digitChar d) = some d := by decide
  have h16 := hvalue d (by omega)
  unfold to_digit at h16 ⊢
  rw [(Option.filter_eq_some_iff.mp h16).1, Option.filter_some, if_pos (decide_eq_true hd)]

theorem NoDigit.mono {radix radix' : ℕ} {text : List Char} (h : NoDigit radix text)
    (hle : radix' ≤ radix) : NoDigit radix' text := by
  intro c hc
  have hnone := h c hc
  unfold to_digit at hnone ⊢
  rw [Option.filter_eq_none_iff] at hnone ⊢
  intro value hvalue hlt
  refine hnone value hvalue ?_
  rw [decide_eq_true_eq] at hlt ⊢
  omega

theorem noDigit_cons {radix : ℕ} {c : Char} (h : to_digit radix c = none) (text : List Char) :
    NoDigit radix (c :: text) := by
  intro c' hc'
  obtain rfl : c = c' := by simpa using hc'
  exact h

theorem read_digits_stop {radix : ℕ} {text : List Char} (h : NoDigit radix text) :
    read_digits radix text = ([], text) := by
  cases text with
  | nil => rfl
  | cons c text =>
      unfold read_digits
      rw [h c rfl]

theorem read_number_none {radix : ℕ} {text : List Char} (h : NoDigit radix text) (bound : ℕ)
    (max_digits : Option ℕ) (allow_leading_zero : Bool) :
    read_number radix bound max_digits allow_leading_zero text = none := by
  unfold read_number
  rw [read_digits_stop h]
  exact if_pos (Or.inl rfl)

theorem rest_read_number {radix bound : ℕ} {max_digits : Option ℕ} {allow_leading_zero : Bool}
    {text : List Char} {result : ℕ × List Char}
    (h : read_number radix bound max_digits allow_leading_zero text = some result) :
    result.2 = (read_digits radix text).2 := by
  unfold read_number at h
  dsimp only at h
  split_ifs at h
  rw [← Option.some.inj h]

theorem read_digits_append {radix : ℕ} (hradix : radix ≤ 16) {digits : List ℕ}
    (hdigits : ∀ d ∈ digits, d < radix) {rest : List Char} (hrest : NoDigit radix rest) :
    read_digits radix (digits.map Nat.digitChar ++ rest) = (digits, rest) := by
  induction digits with
  | nil => exact read_digits_stop hrest
  | cons d digits ih =>
      have hd := to_digit_digitChar hradix (hdigits d List.mem_cons_self)
      rw [List.map_cons, List.cons_append]
      unfold read_digits
      rw [hd, ih fun d' hd' => hdigits d' (List.mem_cons_of_mem d hd')]

/-- The digits of a number, and their value. -/
theorem toDigits_digits {radix : ℕ} (hradix : 1 < radix) (n : ℕ) :
    ∃ digits : List ℕ, Nat.toDigits radix n = digits.map Nat.digitChar
      ∧ (∀ d ∈ digits, d < radix)
      ∧ digits.foldl (fun value digit => value * radix + digit) 0 = n := by
  induction n using Nat.strongRecOn with
  | _ n ih =>
      by_cases hn : n < radix
      · refine ⟨[n], Nat.toDigits_of_lt_base hn, ?_, ?_⟩
        · intro d hd
          rw [List.mem_singleton.mp hd]
          exact hn
        · simp
      · obtain ⟨digits, htext, hlt, hvalue⟩ :=
          ih (n / radix) (Nat.div_lt_self (by omega) hradix)
        have hmod : n % radix < radix := Nat.mod_lt n (by omega)
        refine ⟨digits ++ [n % radix], ?_, ?_, ?_⟩
        · rw [Nat.toDigits_of_base_le hradix (by omega), htext, List.map_append,
            List.map_singleton]
        · intro d hd
          rcases List.mem_append.mp hd with hd | hd
          · exact hlt d hd
          · rw [List.mem_singleton.mp hd]
            exact hmod
        · rw [List.foldl_append, hvalue, List.foldl_cons, List.foldl_nil, Nat.mul_comm]
          exact Nat.div_add_mod n radix

/-- Only the number zero starts with a zero. -/
theorem eq_zero_of_head {radix : ℕ} (hradix : 1 < radix) (hle : radix ≤ 16) (n : ℕ)
    (h : (Nat.toDigits radix n).head? = some '0') : n = 0 := by
  induction n using Nat.strongRecOn with
  | _ n ih =>
      by_cases hn : n < radix
      · rw [Nat.toDigits_of_lt_base hn] at h
        exact Nat.digitChar_eq_zero.mp (Option.some.inj h)
      · rw [Nat.toDigits_of_base_le hradix (by omega),
          List.head?_append_of_ne_nil _ Nat.toDigits_ne_nil] at h
        have hzero := ih (n / radix) (Nat.div_lt_self (by omega) hradix) h
        have hpos := Nat.div_pos (Nat.le_of_not_lt hn) (Nat.zero_lt_of_lt hradix)
        omega

/-- **A number is read back**, when no digit stands behind it. -/
theorem read_number_toDigits {radix bound n : ℕ} {max_digits : Option ℕ} {rest : List Char}
    (hradix : 1 < radix) (hle : radix ≤ 16) (hn : n < bound)
    (hmax : ∀ m ∈ max_digits, (Nat.toDigits radix n).length ≤ m) (allow_leading_zero : Bool)
    (hrest : NoDigit radix rest) :
    read_number radix bound max_digits allow_leading_zero (Nat.toDigits radix n ++ rest)
      = some (n, rest) := by
  obtain ⟨digits, htext, hlt, hvalue⟩ := toDigits_digits hradix n
  have hlength : digits.length = (Nat.toDigits radix n).length := by
    rw [htext, List.length_map]
  have hpos : 0 < digits.length := by
    rw [hlength]
    exact Nat.length_toDigits_pos
  unfold read_number
  rw [htext, read_digits_append hle hlt hrest, ← htext]
  dsimp only
  rw [hvalue, if_neg]
  rintro (h | h | ⟨-, h, h1⟩ | h)
  · rw [h] at hpos
    exact Nat.lt_irrefl 0 hpos
  · obtain ⟨m, hm, hlong⟩ := (Option.any_eq_true _ _).mp h
    have hshort := hmax m hm
    rw [decide_eq_true_eq] at hlong
    omega
  · rw [List.head?_append_of_ne_nil _ Nat.toDigits_ne_nil] at h
    rw [hlength, eq_zero_of_head hradix hle n h, Nat.toDigits_zero] at h1
    exact Nat.lt_irrefl 1 h1
  · omega

/-! ## IPv4 -/

/-- Pieces from place `i` on, with the separator in front of every one but the first. -/
def written (sep : Char) (i : ℕ) : List (List Char) → List Char
  | [] => []
  | piece :: pieces => (if 0 < i then [sep] else []) ++ (piece ++ written sep (i + 1) pieces)

theorem written_succ (sep : Char) (i : ℕ) (pieces : List (List Char)) :
    written sep (i + 1) pieces = pieces.flatMap (sep :: ·) := by
  induction pieces generalizing i with
  | nil => rfl
  | cons piece pieces ih =>
      unfold written
      rw [if_pos (Nat.succ_pos i), ih (i + 1)]
      rfl

theorem separated_eq (sep : Char) (pieces : List (List Char)) :
    separated sep pieces = written sep 0 pieces := by
  cases pieces with
  | nil => rfl
  | cons piece pieces =>
      unfold separated written
      rw [written_succ, if_neg (Nat.lt_irrefl 0)]
      rfl

@[simp] theorem read_given_char_self (c : Char) (text : List Char) :
    read_given_char c (c :: text) = some text := if_pos rfl

theorem read_given_char_none {c : Char} {text : List Char} (h : text.head? ≠ some c) :
    read_given_char c text = none := by
  cases text with
  | nil => rfl
  | cons c' text =>
      refine if_neg fun heq => h ?_
      rw [heq]
      rfl

theorem read_separator_written (sep : Char) (i : ℕ) (text : List Char) :
    read_separator sep i ((if 0 < i then [sep] else []) ++ text) = some text := by
  unfold read_separator
  by_cases hi : 0 < i
  · rw [if_pos hi, if_pos hi]
    exact if_pos rfl
  · rw [if_neg hi, if_neg hi]
    rfl

/-- Behind a piece stands the separator, or what follows the pieces. -/
theorem head_written {P : Char → Prop} {sep : Char} (hsep : P sep) {rest : List Char}
    (hrest : ∀ c ∈ rest.head?, P c) (i : ℕ) (pieces : List (List Char)) :
    ∀ c ∈ (written sep (i + 1) pieces ++ rest).head?, P c := by
  cases pieces with
  | nil => exact hrest
  | cons piece pieces =>
      unfold written
      rw [if_pos (Nat.succ_pos i)]
      intro c hc
      obtain rfl : sep = c := by simpa using hc
      exact hsep

theorem read_octet (octet : UInt8) {rest : List Char} (hrest : NoDigit 10 rest) :
    read_number 10 256 (some 3) false (decimal octet.toNat ++ rest) = some (octet.toNat, rest) := by
  have hlt : octet.toNat < 256 := octet.toNat_lt
  refine read_number_toDigits (by decide) (by decide) hlt ?_ false hrest
  intro m hm
  obtain rfl : 3 = m := by simpa using hm
  exact (Nat.length_toDigits_le_iff (by decide) (by decide)).mpr (by omega)

theorem read_octets_written (octets : List UInt8) (i : ℕ) {rest : List Char}
    (hrest : NoDigit 10 rest) :
    read_octets i octets.length
        (written '.' i (octets.map fun octet => decimal octet.toNat) ++ rest)
      = some (octets, rest) := by
  induction octets generalizing i with
  | nil => rfl
  | cons octet octets ih =>
      have hbehind : NoDigit 10
          (written '.' (i + 1) (octets.map fun octet => decimal octet.toNat) ++ rest) :=
        head_written (by decide) hrest i _
      rw [List.length_cons, List.map_cons]
      unfold read_octets written
      rw [List.append_assoc, List.append_assoc, read_separator_written]
      simp only [Option.bind_eq_bind, Option.bind_some]
      rw [read_octet octet hbehind, Option.bind_some]
      dsimp only
      rw [ih (i + 1), Option.bind_some, UInt8.ofNat_toNat]
      rfl

theorem read_ipv4_text (ip : Ipv4Addr) {rest : List Char} (hrest : NoDigit 10 rest) :
    read_ipv4_addr (ip.text ++ rest) = some (ip.octets, rest) := by
  unfold read_ipv4_addr Ipv4Addr.text
  rw [separated_eq, ← ip.length_octets]
  exact read_octets_written ip.octets 0 hrest

/-! ## IPv6 -/

theorem hex_digits (n : ℕ) : ∃ digits : List ℕ, hex n = digits.map Nat.digitChar
    ∧ ∀ d ∈ digits, d < 16 := by
  obtain ⟨digits, htext, hlt, -⟩ := toDigits_digits (show 1 < 16 by decide) n
  exact ⟨digits, htext, hlt⟩

theorem read_group (segment : UInt16) {rest : List Char} (hrest : NoDigit 16 rest) :
    read_number 16 65536 (some 4) true (hex segment.toNat ++ rest)
      = some (segment.toNat, rest) := by
  have hlt : segment.toNat < 65536 := segment.toNat_lt
  refine read_number_toDigits (by decide) (by decide) hlt ?_ true hrest
  intro m hm
  obtain rfl : 4 = m := by simpa using hm
  exact (Nat.length_toDigits_le_iff (by decide) (by decide)).mpr (by omega)

/-- Reading decimal digits off a group never comes to a dot. -/
theorem no_dot_behind {digits : List ℕ} (hlt : ∀ d ∈ digits, d < 16) {rest : List Char}
    (hrest : NoDigit 16 rest) (hdot : rest.head? ≠ some '.') :
    (read_digits 10 (digits.map Nat.digitChar ++ rest)).2.head? ≠ some '.' := by
  have hno : ∀ d < 16, Nat.digitChar d ≠ '.' := by decide
  induction digits with
  | nil =>
      rw [List.map_nil, List.nil_append, read_digits_stop (hrest.mono (by decide))]
      exact hdot
  | cons d digits ih =>
      rw [List.map_cons, List.cons_append]
      unfold read_digits
      cases to_digit 10 (Nat.digitChar d) with
      | some digit => exact ih fun d' hd' => hlt d' (List.mem_cons_of_mem d hd')
      | none =>
          intro h
          exact hno d (hlt d List.mem_cons_self) (Option.some.inj h)

/-- A group is not taken for the first octet of an IPv4 address. -/
theorem read_ipv4_none (n : ℕ) {rest : List Char} (hrest : NoDigit 16 rest)
    (hdot : rest.head? ≠ some '.') : read_ipv4_addr (hex n ++ rest) = none := by
  obtain ⟨digits, htext, hlt⟩ := hex_digits n
  have hbehind := no_dot_behind hlt hrest hdot
  rw [← htext] at hbehind
  unfold read_ipv4_addr read_octets read_separator
  rw [if_neg (Nat.lt_irrefl 0)]
  simp only [Option.bind_eq_bind, Option.bind_some]
  cases hnumber : read_number 10 256 (some 3) false (hex n ++ rest) with
  | none => rfl
  | some result =>
      rw [← rest_read_number hnumber] at hbehind
      rw [Option.bind_some]
      unfold read_octets read_separator
      rw [if_pos (Nat.succ_pos 0)]
      rw [read_given_char_none hbehind]
      rfl

/-- Where no digit stands behind the separator there is no further group. -/
theorem read_groups_none {i : ℕ} {text : List Char}
    (h : ∀ rest, read_separator ':' i text = some rest → NoDigit 16 rest) (left : ℕ) :
    read_groups i left text = (([], false), text) := by
  cases left with
  | zero => rfl
  | succ left =>
      unfold read_groups
      cases hsep : read_separator ':' i text with
      | none =>
          simp only [Option.bind_none, ite_self]
      | some rest =>
          have hno := h rest hsep
          have hipv4 : read_ipv4_addr rest = none := by
            unfold read_ipv4_addr read_octets read_separator
            rw [if_neg (Nat.lt_irrefl 0)]
            simp only [Option.bind_eq_bind, Option.bind_some]
            rw [read_number_none (hno.mono (by decide)), Option.bind_none]
          simp only [Option.bind_some, hipv4, read_number_none hno, ite_self]

/-- **The groups of a part are read back**, and then whatever follows them. -/
theorem read_groups_written (segments : List UInt16) (i left : ℕ) {rest rest' : List Char}
    {groups : List UInt16} {ipv4 : Bool}
    (hnext : read_groups (i + segments.length) left rest = ((groups, ipv4), rest'))
    (hrest : NoDigit 16 rest) (hdot : rest.head? ≠ some '.') :
    read_groups i (segments.length + left)
        (written ':' i (segments.map fun segment => hex segment.toNat) ++ rest)
      = ((segments ++ groups, ipv4), rest') := by
  induction segments generalizing i with
  | nil =>
      rw [List.length_nil, Nat.zero_add]
      exact hnext
  | cons segment segments ih =>
      have hbehind : NoDigit 16
          (written ':' (i + 1) (segments.map fun segment => hex segment.toNat) ++ rest) :=
        head_written (by decide) hrest i _
      have hdot' : (written ':' (i + 1) (segments.map fun segment => hex segment.toNat)
          ++ rest).head? ≠ some '.' := by
        intro h
        refine head_written (P := (· ≠ '.')) (by decide) ?_ i _ '.' h rfl
        intro c hc heq
        rw [heq] at hc
        exact hdot hc
      have hrec := ih (i + 1) (by rw [Nat.add_assoc, Nat.add_comm 1]; exact hnext)
      have hlength : (segment :: segments).length + left = (segments.length + left) + 1 := by
        rw [List.length_cons]
        omega
      rw [hlength, List.map_cons]
      unfold read_groups written
      rw [List.append_assoc, List.append_assoc, read_separator_written]
      simp only [Option.bind_some]
      rw [read_ipv4_none _ hbehind hdot', ite_self]
      dsimp only
      rw [read_group segment hbehind]
      dsimp only
      rw [hrec, UInt16.ofNat_toNat]
      rfl

/-- The two halves of an IPv4-mapped address. -/
theorem to_ipv4_mapped_eq {segments : List UInt16} {octets : List UInt8}
    (h : to_ipv4_mapped segments = some octets) :
    octets.length = 4 ∧ segments = List.replicate 5 0 ++ 0xffff :: be_groups octets := by
  unfold to_ipv4_mapped at h
  split at h
  · rename_i high low
    obtain rfl := Option.some.inj h
    have hbytes : ∀ segment : UInt16, UInt16.ofNat ((UInt8.ofNat (segment.toNat / 256)).toNat * 256
        + (UInt8.ofNat segment.toNat).toNat) = segment := by
      intro segment
      have hlt : segment.toNat < 65536 := segment.toNat_lt
      have hsum : (UInt8.ofNat (segment.toNat / 256)).toNat * 256
          + (UInt8.ofNat segment.toNat).toNat = segment.toNat := by
        simp only [UInt8.toNat_ofNat']
        omega
      rw [hsum, UInt16.ofNat_toNat]
    refine ⟨rfl, ?_⟩
    unfold be_groups
    rw [hbytes high]
    unfold be_groups
    rw [hbytes low]
    rfl
  · cases h

/-- A row of zeros of a list. -/
def ZeroRow (segments : List UInt16) (span : Span) : Prop :=
  ∃ before after, segments = before ++ (List.replicate span.len 0 ++ after)
    ∧ (span.len ≠ 0 → before.length = span.start)

/-- What the search knows after a part of the groups: the longest row lies in the part, and
the current one, if there is one, reaches up to its end. -/
def Searched (segments : List UInt16) (s : ℕ × Span × Span) : Prop :=
  s.1 = segments.length ∧ ZeroRow segments s.2.1
    ∧ (s.2.2.len = 0 ∨ ∃ before, segments = before ++ List.replicate s.2.2.len 0
        ∧ before.length = s.2.2.start)

theorem searched_step {segments : List UInt16} {s : ℕ × Span × Span} (h : Searched segments s)
    (segment : UInt16) : Searched (segments ++ [segment]) (span_step s segment) := by
  obtain ⟨i, longest, current⟩ := s
  obtain ⟨hi, ⟨before, after, hrow, hstart⟩, hcurrent⟩ := h
  dsimp only at hi hrow hstart hcurrent
  have hlongest : ZeroRow (segments ++ [segment]) longest :=
    ⟨before, after ++ [segment], by rw [hrow]; simp only [List.append_assoc], hstart⟩
  have hlength : i + 1 = (segments ++ [segment]).length := by
    rw [hi, List.length_append, List.length_singleton]
  unfold span_step
  dsimp only
  by_cases hzero : segment = 0
  · rw [if_pos hzero]
    -- the row that ends with this zero: a new one, or the current one a group longer
    have hend : ∃ front, segments ++ [segment] = front ++ List.replicate (current.len + 1) 0
        ∧ front.length = if current.len = 0 then i else current.start := by
      rw [List.replicate_succ', hzero]
      by_cases hnew : current.len = 0
      · rw [if_pos hnew, hnew]
        exact ⟨segments, rfl, hi.symm⟩
      · rw [if_neg hnew]
        obtain ⟨front, hfront, hlen⟩ := hcurrent.resolve_left hnew
        exact ⟨front, by rw [hfront, List.append_assoc], hlen⟩
    refine ⟨hlength, ?_, Or.inr hend⟩
    dsimp only
    by_cases hlonger : current.len + 1 > longest.len
    · rw [if_pos hlonger]
      obtain ⟨front, hfront, hlen⟩ := hend
      exact ⟨front, [], by rw [List.append_nil]; exact hfront, fun _ => hlen⟩
    · rw [if_neg hlonger]
      exact hlongest
  · rw [if_neg hzero]
    exact ⟨hlength, hlongest, Or.inl rfl⟩

theorem zeroes_row (segments : List UInt16) : ZeroRow segments (zeroes segments) := by
  have hsearched : Searched segments (segments.foldl span_step (0, {}, {})) := by
    induction segments using List.reverseRecOn with
    | nil => exact ⟨rfl, ⟨[], [], rfl, fun _ => rfl⟩, Or.inl rfl⟩
    | append_singleton segments segment ih =>
        rw [List.foldl_append]
        exact searched_step ih segment
  exact hsearched.2.1

/-- What the folded row leaves of an address. -/
theorem zeroes_split {segments : List UInt16} (h : 1 < (zeroes segments).len) :
    segments = segments.take (zeroes segments).start ++ List.replicate (zeroes segments).len 0
        ++ segments.drop ((zeroes segments).start + (zeroes segments).len)
      ∧ (zeroes segments).start + (zeroes segments).len ≤ segments.length := by
  obtain ⟨before, after, hrow, hstart⟩ := zeroes_row segments
  have hbefore := hstart (by omega)
  generalize zeroes segments = span at *
  have hlength : segments.length = span.start + (span.len + after.length) := by
    rw [hrow, List.length_append, List.length_append, List.length_replicate, hbefore]
  refine ⟨?_, by omega⟩
  have htake : segments.take span.start = before := by
    rw [hrow, ← hbefore, List.take_left]
  have hdrop : segments.drop (span.start + span.len) = after := by
    rw [← List.drop_drop, hrow, ← hbefore, List.drop_left,
      List.drop_left' List.length_replicate]
  rw [htake, hdrop, List.append_assoc]
  exact hrow

/-- What may stand behind an address: no digit, no dot and no colon. -/
structure Ends (rest : List Char) : Prop where
  no_digit : NoDigit 16 rest
  no_dot : rest.head? ≠ some '.'
  no_colon : rest.head? ≠ some ':'

theorem ends_cons {c : Char} (hdigit : to_digit 16 c = none) (hdot : c ≠ '.') (hcolon : c ≠ ':')
    (text : List Char) : Ends (c :: text) where
  no_digit := noDigit_cons hdigit text
  no_dot h := hdot (Option.some.inj h)
  no_colon h := hcolon (Option.some.inj h)

/-- Behind the last group of a part there is none. -/
theorem Ends.read_groups {rest : List Char} (h : Ends rest) (i left : ℕ) :
    read_groups i left rest = (([], false), rest) := by
  refine read_groups_none (fun rest' hsep => ?_) left
  unfold read_separator at hsep
  split_ifs at hsep with hi
  · rw [read_given_char_none h.no_colon] at hsep
    cases hsep
  · rw [← Option.some.inj hsep]
    exact h.no_digit

/-- In front of `::` there is none either. -/
theorem read_groups_colons (i left : ℕ) (text : List Char) :
    read_groups i left (':' :: ':' :: text) = (([], false), ':' :: ':' :: text) := by
  refine read_groups_none (fun rest hsep => ?_) left
  unfold read_separator at hsep
  split_ifs at hsep with hi
  · rw [read_given_char_self] at hsep
    rw [← Option.some.inj hsep]
    exact noDigit_cons (by decide) text
  · rw [← Option.some.inj hsep]
    exact noDigit_cons (by decide) _

/-- The part in front of `::`. -/
theorem read_head {head : List UInt16} (hlength : head.length ≤ 8) (text : List Char) :
    read_groups 0 8 (fmt_subslice head ++ (':' :: ':' :: text))
      = ((head, false), ':' :: ':' :: text) := by
  have h := read_groups_written head 0 (8 - head.length) (read_groups_colons _ _ text)
    (noDigit_cons (by decide) _) (fun hdot => absurd (Option.some.inj hdot) (by decide))
  rw [Nat.add_sub_cancel' hlength, List.append_nil] at h
  unfold fmt_subslice
  rw [separated_eq]
  exact h

/-- The part at the end. -/
theorem read_tail {tail : List UInt16} {limit : ℕ} (hlength : tail.length ≤ limit)
    {rest : List Char} (hrest : Ends rest) :
    read_groups 0 limit (fmt_subslice tail ++ rest) = ((tail, false), rest) := by
  have h := read_groups_written tail 0 (limit - tail.length) (hrest.read_groups _ _)
    hrest.no_digit hrest.no_dot
  rw [Nat.add_sub_cancel' hlength, List.append_nil] at h
  unfold fmt_subslice
  rw [separated_eq]
  exact h

/-- An address that is read in two parts gets its zeros back. -/
theorem read_ipv6_folded {head : List UInt16} (hhead : head.length < 8) {text rest : List Char}
    {tail : List UInt16} {ipv4 : Bool}
    (htail : read_groups 0 (8 - (head.length + 1)) text = ((tail, ipv4), rest)) :
    read_ipv6_addr (fmt_subslice head ++ (':' :: ':' :: text))
      = some (head ++ List.replicate (8 - tail.length - head.length) 0 ++ tail, rest) := by
  unfold read_ipv6_addr
  rw [read_head (Nat.le_of_lt hhead) text]
  dsimp only
  rw [if_neg (Nat.ne_of_lt hhead), if_neg (Bool.false_ne_true)]
  simp only [read_given_char_self, Option.bind_eq_bind, Option.bind_some]
  rw [htail]
  rfl

theorem read_ipv6_text (ip : Ipv6Addr) {rest : List Char} (hrest : Ends rest) :
    read_ipv6_addr (ip.text ++ rest) = some (ip.segments, rest) := by
  have hlength := ip.length_segments
  unfold Ipv6Addr.text
  cases hmapped : to_ipv4_mapped ip.segments with
  | some octets =>
      obtain ⟨hoctets, heq⟩ := to_ipv4_mapped_eq hmapped
      -- a mapped address: ::ffff: and the four octets, which read as two groups
      have hipv4 : read_groups 1 6 (':' :: (separated '.'
          (octets.map fun octet => decimal octet.toNat) ++ rest))
          = ((be_groups octets, true), rest) := by
        have hread := read_ipv4_text ⟨octets, hoctets⟩ (hrest.no_digit.mono (by decide))
        unfold Ipv4Addr.text at hread
        unfold read_groups read_separator
        rw [if_pos (by decide), if_pos (by decide), read_given_char_self, Option.bind_some, hread]
      have htail : read_groups 0 7 ("ffff".toList ++ ':' :: (separated '.'
          (octets.map fun octet => decimal octet.toNat) ++ rest))
          = ((0xffff :: be_groups octets, true), rest) :=
        read_groups_written [0xffff] 0 6 hipv4 (noDigit_cons (by decide) _)
          (fun hdot => absurd (Option.some.inj hdot) (by decide))
      have hgroups : (be_groups octets).length = 2 := by
        rw [heq, List.length_append, List.length_replicate, List.length_cons] at hlength
        omega
      have h := read_ipv6_folded (show ([] : List UInt16).length < 8 by decide) htail
      rw [List.length_cons, hgroups] at h
      dsimp only
      rw [List.append_assoc]
      exact h.trans (by rw [heq]; rfl)
  | none =>
      dsimp only
      by_cases hfold : (zeroes ip.segments).len > 1
      · rw [if_pos hfold]
        -- the longest run of zeros is left out, and read back from the length
        obtain ⟨heq, hle⟩ := zeroes_split hfold
        have hhead : (ip.segments.take (zeroes ip.segments).start).length
            = (zeroes ip.segments).start := by
          rw [List.length_take]
          omega
        have htail : (ip.segments.drop ((zeroes ip.segments).start
            + (zeroes ip.segments).len)).length
            = 8 - ((zeroes ip.segments).start + (zeroes ip.segments).len) := by
          rw [List.length_drop, hlength]
        have hfits : (ip.segments.drop ((zeroes ip.segments).start
            + (zeroes ip.segments).len)).length ≤ 8 - ((ip.segments.take
            (zeroes ip.segments).start).length + 1) := by omega
        have hread := read_tail hfits hrest
        have h := read_ipv6_folded (by omega) hread
        have hzeros : 8 - (ip.segments.drop ((zeroes ip.segments).start
            + (zeroes ip.segments).len)).length - (ip.segments.take
            (zeroes ip.segments).start).length = (zeroes ip.segments).len := by omega
        rw [hzeros, ← heq] at h
        simp only [List.append_assoc] at h ⊢
        exact h
      · rw [if_neg hfold]
        -- all eight groups are written
        have h := read_tail (Nat.le_of_eq hlength) hrest
        unfold read_ipv6_addr
        rw [h]
        exact if_pos hlength

/-! ## Socket addresses -/

theorem read_port_text (port : UInt16) :
    read_port (':' :: decimal port.toNat) = some (port, []) := by
  have hlt : port.toNat < 65536 := port.toNat_lt
  have hnumber := read_number_toDigits (show 1 < 10 by decide) (by decide) hlt
    (fun m (hm : m ∈ none) => by cases hm) true (show NoDigit 10 [] from fun c hc => by cases hc)
  rw [List.append_nil] at hnumber
  unfold read_port decimal
  simp only [read_given_char_self, Option.bind_eq_bind, Option.bind_some]
  rw [hnumber, Option.bind_some, UInt16.ofNat_toNat]
  rfl

theorem read_scope_id_text (scope_id : UInt32) {rest : List Char} (hrest : NoDigit 10 rest) :
    read_scope_id ('%' :: (decimal scope_id.toNat ++ rest)) = some (scope_id, rest) := by
  have hlt : scope_id.toNat < 4294967296 := scope_id.toNat_lt
  have hnumber := read_number_toDigits (show 1 < 10 by decide) (by decide) hlt
    (fun m (hm : m ∈ none) => by cases hm) true hrest
  unfold read_scope_id decimal
  simp only [read_given_char_self, Option.bind_eq_bind, Option.bind_some]
  rw [hnumber, Option.bind_some, UInt32.ofNat_toNat]
  rfl

/-- **An IPv4 socket address comes back from its text.** -/
theorem parse_to_string_v4 (addr : SocketAddrV4) :
    SocketAddrV4.parse addr.to_string = some addr := by
  unfold SocketAddrV4.parse parse_with SocketAddrV4.to_string read_socket_addr_v4
  rw [String.toList_ofList, read_ipv4_text addr.ip (noDigit_cons (by decide) _)]
  simp only [Option.bind_eq_bind, Option.bind_some]
  have hip : ipv4_of addr.ip.octets = some addr.ip := dif_pos addr.ip.length_octets
  rw [hip, Option.bind_some, read_port_text, Option.bind_some]
  rfl

/-- **An IPv6 socket address comes back from its text** without its flow information. -/
theorem parse_to_string_v6 (addr : SocketAddrV6) :
    SocketAddrV6.parse addr.to_string = some { addr with flowinfo := 0 } := by
  have hip : ipv6_of addr.ip.segments = some addr.ip := dif_pos addr.ip.length_segments
  unfold SocketAddrV6.parse parse_with SocketAddrV6.to_string read_socket_addr_v6
  by_cases hscope : addr.scope_id = 0
  · rw [if_pos hscope, String.toList_ofList]
    simp only [read_given_char_self, Option.bind_eq_bind, Option.bind_some]
    rw [read_ipv6_text addr.ip (ends_cons (by decide) (by decide) (by decide) _)]
    have hnone : read_scope_id (']' :: ':' :: decimal addr.port.toNat) = none := rfl
    simp only [Option.bind_some, hip, hnone, Option.getD_none, read_given_char_self,
      read_port_text]
    rw [← hscope]
    rfl
  · rw [if_neg hscope, String.toList_ofList]
    simp only [read_given_char_self, Option.bind_eq_bind, Option.bind_some]
    rw [read_ipv6_text addr.ip (ends_cons (by decide) (by decide) (by decide) _)]
    simp only [Option.bind_some, hip]
    rw [read_scope_id_text addr.scope_id (noDigit_cons (by decide) _)]
    simp only [Option.getD_some, read_given_char_self, Option.bind_some, read_port_text]
    rfl

end Inet
