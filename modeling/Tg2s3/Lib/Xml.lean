/-
XML 1.0, as far as a document without comments, processing instructions, CDATA
sections and a document type goes: the productions for characters, names, attributes,
tags and content, as a relation between a text and the tree it says; and a writer for
such trees, with the proof that what it writes reads back.

The relation is the grammar and not a parser. A text that stands for no tree is one
without a derivation, and the proofs of that go through the first tag only, which is
where a name is cut off from what follows it in just one way.

A processor folds line ends, and blanks in entry values, before it hands them on.
The trees here hold the characters as they are written.
-/
import Mathlib.Data.List.Basic
import Mathlib.Data.List.Infix
import Mathlib.Tactic.Common

set_option autoImplicit false

namespace Xml

/-! ## Characters and names -/

def in_ranges (ranges : List (ℕ × ℕ)) (c : Char) : Bool :=
  ranges.any fun range => range.1 ≤ c.toNat && c.toNat ≤ range.2

/-- Production `Char`. -/
def is_char : Char → Bool :=
  in_ranges [(0x9, 0xA), (0xD, 0xD), (0x20, 0xD7FF), (0xE000, 0xFFFD), (0x10000, 0x10FFFF)]

/-- Production `S`, one character of it. -/
def is_blank (c : Char) : Bool := c = ' ' || c = '\t' || c = '\n' || c = '\r'

/-- Production `NameStartChar`. -/
def name_start : Char → Bool :=
  in_ranges [(0x3A, 0x3A), (0x41, 0x5A), (0x5F, 0x5F), (0x61, 0x7A), (0xC0, 0xD6), (0xD8, 0xF6),
    (0xF8, 0x2FF), (0x370, 0x37D), (0x37F, 0x1FFF), (0x200C, 0x200D), (0x2070, 0x218F),
    (0x2C00, 0x2FEF), (0x3001, 0xD7FF), (0xF900, 0xFDCF), (0xFDF0, 0xFFFD), (0x10000, 0xEFFFF)]

/-- Production `NameChar`. -/
def name_char (c : Char) : Bool :=
  name_start c
    || in_ranges [(0x2D, 0x2E), (0x30, 0x39), (0xB7, 0xB7), (0x300, 0x36F), (0x203F, 0x2040)] c

/-- Production `Name`. -/
def is_name : List Char → Bool
  | [] => false
  | c :: rest => name_start c && rest.all name_char

theorem is_char_of_name_char {c : Char} (h : name_char c = true) : is_char c = true := by
  simp only [name_char, name_start, in_ranges, List.any_cons, List.any_nil, Bool.or_false,
    Bool.or_eq_true, Bool.and_eq_true, decide_eq_true_eq] at h
  simp only [is_char, in_ranges, List.any_cons, List.any_nil, Bool.or_false, Bool.or_eq_true,
    Bool.and_eq_true, decide_eq_true_eq]
  omega

theorem name_chars_of_is_name {name : List Char} (h : is_name name = true) :
    ∀ c ∈ name, name_char c = true := by
  cases name with
  | nil => simp
  | cons c rest =>
      simp only [is_name, Bool.and_eq_true, List.all_eq_true] at h
      intro x hx
      rcases List.mem_cons.mp hx with rfl | hx
      · simp [name_char, h.1]
      · exact h.2 x hx

theorem not_mem_name {name : List Char} (h : is_name name = true) {c : Char}
    (hc : name_char c = false) : c ∉ name := by
  intro hmem
  rw [name_chars_of_is_name h c hmem] at hc
  exact absurd hc (by decide)

/-- A name is cut off from what follows it in one way: the first character that cannot stand in
a name. -/
theorem name_append_inj {n n' x y : List Char} (hn : ∀ c ∈ n, name_char c = true)
    (hn' : ∀ c ∈ n', name_char c = true)
    (hx : ∀ c ∈ x.head?, name_char c = false) (hy : ∀ c ∈ y.head?, name_char c = false)
    (h : n ++ x = n' ++ y) : n = n' ∧ x = y := by
  induction n generalizing n' with
  | nil =>
      cases n' with
      | nil => exact ⟨rfl, h⟩
      | cons c n' =>
          subst h
          have hc := hx c rfl
          rw [hn' c List.mem_cons_self] at hc
          exact absurd hc (by decide)
  | cons c n ih =>
      cases n' with
      | nil =>
          have h' : c :: (n ++ x) = y := h
          subst h'
          have hc := hy c rfl
          rw [hn c List.mem_cons_self] at hc
          exact absurd hc (by decide)
      | cons c' n' =>
          obtain ⟨rfl, h⟩ := List.cons.inj h
          obtain ⟨rfl, rfl⟩ := ih (fun d hd => hn d (List.mem_cons_of_mem _ hd))
            (fun d hd => hn' d (List.mem_cons_of_mem _ hd)) (by simpa using h)
          exact ⟨rfl, rfl⟩

/-! ## The grammar -/

/-- The entities every processor knows. -/
def entity (name : List Char) : Option Char :=
  if name = ['a', 'm', 'p'] then some '&'
  else if name = ['l', 't'] then some '<'
  else if name = ['g', 't'] then some '>'
  else if name = ['q', 'u', 'o', 't'] then some '"'
  else if name = ['a', 'p', 'o', 's'] then some '\''
  else none

/-- Characters and references, and what they stand for. -/
inductive Says : List Char → List Char → Prop where
  | nil : Says [] []
  | char {c : Char} {m s : List Char} (hlt : c ≠ '<') (hamp : c ≠ '&') (h : Says m s) :
      Says (c :: m) (c :: s)
  | reference {name m s : List Char} {c : Char} (hentity : entity name = some c)
      (h : Says m s) : Says ('&' :: (name ++ ';' :: m)) (c :: s)

/-- Production `(S Attribute)* S?`, with the rule that no attribute stands twice in a tag. -/
inductive Attributes : List Char → List (String × String) → Prop where
  | nil {m : List Char} (hblank : ∀ c ∈ m, is_blank c = true) : Attributes m []
  | cons {blanks before after raw m : List Char} {name value : String} {quote : Char}
      {rest : List (String × String)}
      (hsome : blanks ≠ []) (hblanks : ∀ c ∈ blanks, is_blank c = true)
      (hname : is_name name.toList = true) (hnew : name ∉ rest.map (·.1))
      (hbefore : ∀ c ∈ before, is_blank c = true) (hafter : ∀ c ∈ after, is_blank c = true)
      (hquote : quote = '"' ∨ quote = '\'') (hraw : quote ∉ raw) (hvalue : Says raw value.toList)
      (h : Attributes m rest) :
      Attributes
        (blanks ++ (name.toList ++ (before ++ '=' :: (after ++ quote :: (raw ++ quote :: m)))))
        ((name, value) :: rest)

/-- Content, an element with what follows it at its level. -/
inductive Content where
  | nil
  | text (value : String) (rest : Content)
  | element (name : String) (attributes : List (String × String)) (inner rest : Content)
deriving DecidableEq, Repr

def Content.starts_text : Content → Bool
  | .text _ _ => true
  | _ => false

/-- Production `content`: two texts never stand side by side, `]]>` never in one. -/
inductive Reads : List Char → Content → Prop where
  | nil : Reads [] .nil
  | text {raw m : List Char} {value : String} {rest : Content}
      (hraw : Says raw value.toList) (hsome : raw ≠ []) (hend : ¬ [']', ']', '>'] <:+: raw)
      (hrest : rest.starts_text = false) (h : Reads m rest) : Reads (raw ++ m) (.text value rest)
  | empty {a m : List Char} {name : String} {attributes : List (String × String)}
      {rest : Content}
      (hname : is_name name.toList = true) (hattributes : Attributes a attributes)
      (h : Reads m rest) :
      Reads ('<' :: (name.toList ++ (a ++ '/' :: '>' :: m))) (.element name attributes .nil rest)
  | element {a mi blanks m : List Char} {name : String} {attributes : List (String × String)}
      {inner rest : Content}
      (hname : is_name name.toList = true) (hattributes : Attributes a attributes)
      (hinner : Reads mi inner) (hblanks : ∀ c ∈ blanks, is_blank c = true) (h : Reads m rest) :
      Reads
        ('<' :: (name.toList ++ (a ++ '>' ::
          (mi ++ '<' :: '/' :: (name.toList ++ (blanks ++ '>' :: m))))))
        (.element name attributes inner rest)

/-- The declaration a document may start with. -/
def declaration : List Char := "<?xml version=\"1.0\" encoding=\"UTF-8\"?>".toList

/-- A well-formed document: its characters are characters of XML, and it is one element, after
the declaration or without it. -/
structure Document (m : List Char) (name : String) (attributes : List (String × String))
    (content : Content) : Prop where
  chars : ∀ c ∈ m, is_char c = true
  reads : ∃ body, (m = body ∨ m = declaration ++ body)
    ∧ Reads body (.element name attributes content .nil)

/-- What stands after a name in a tag: nothing, or a blank first. -/
theorem Attributes.head {a : List Char} {attributes : List (String × String)}
    (h : Attributes a attributes) : ∀ c ∈ a.head?, is_blank c = true := by
  cases h with
  | nil hblank => exact fun c hc => hblank c (List.mem_of_mem_head? hc)
  | @cons blanks _ _ _ _ _ _ _ _ hsome hblanks =>
      cases blanks with
      | nil => exact absurd rfl hsome
      | cons b blanks =>
          intro c hc
          cases hc
          exact hblanks _ List.mem_cons_self

/-- An element starts with `<`, its name and the attributes, then `/>` or `>`. -/
theorem reads_tag {m : List Char} {name : String} {attributes : List (String × String)}
    {inner rest : Content} (h : Reads m (.element name attributes inner rest)) :
    is_name name.toList = true ∧ ∃ a t, Attributes a attributes
      ∧ (m = '<' :: (name.toList ++ (a ++ '/' :: '>' :: t))
        ∨ m = '<' :: (name.toList ++ (a ++ '>' :: t))) := by
  cases h with
  | empty hname hattributes => exact ⟨hname, _, _, hattributes, .inl rfl⟩
  | element hname hattributes => exact ⟨hname, _, _, hattributes, .inr rfl⟩

/-- A tag that goes on after `/` with anything but `>` is no tag. -/
theorem not_reads_slash {n t : List Char} {c : Char} (hn : is_name n = true) (hc : c ≠ '>')
    {name : String} {attributes : List (String × String)} {inner rest : Content} :
    ¬ Reads ('<' :: (n ++ '/' :: c :: t)) (.element name attributes inner rest) := by
  intro h
  obtain ⟨hname, a, t', hattributes, heq⟩ := reads_tag h
  have hafter : ∃ y : List Char, '/' :: c :: t = a ++ y
      ∧ ((∃ u, y = '/' :: '>' :: u) ∨ ∃ u, y = '>' :: u) := by
    have hcut : ∀ y, (∀ d ∈ y.head?, name_char d = false) →
        '<' :: (n ++ '/' :: c :: t) = '<' :: (name.toList ++ (a ++ y)) → '/' :: c :: t = a ++ y := by
      intro y hy heq
      refine (name_append_inj (name_chars_of_is_name hn) (name_chars_of_is_name hname) ?_ ?_
        (List.cons.inj heq).2).2
      · intro d hd
        cases hd
        decide
      · intro d hd
        cases a with
        | nil => exact hy d hd
        | cons b a =>
            cases hd
            have hb := hattributes.head d rfl
            simp only [is_blank, Bool.or_eq_true, decide_eq_true_eq] at hb
            rcases hb with ((rfl | rfl) | rfl) | rfl <;> decide
    rcases heq with heq | heq
    · exact ⟨_, hcut _ (by rintro d ⟨⟩; decide) heq, .inl ⟨t', rfl⟩⟩
    · exact ⟨_, hcut _ (by rintro d ⟨⟩; decide) heq, .inr ⟨t', rfl⟩⟩
  obtain ⟨y, heq, hy⟩ := hafter
  cases a with
  | cons b a =>
      obtain ⟨rfl, -⟩ := List.cons.inj heq
      exact absurd (hattributes.head '/' rfl) (by decide)
  | nil =>
      rcases hy with ⟨u, rfl⟩ | ⟨u, rfl⟩
      · exact hc (List.cons.inj (List.cons.inj heq).2).1
      · exact absurd (List.cons.inj heq).1 (by decide)

/-- The declaration is no element. -/
theorem not_reads_declaration (t : List Char) {name : String}
    {attributes : List (String × String)} {inner rest : Content} :
    ¬ Reads (declaration ++ t) (.element name attributes inner rest) := by
  intro h
  obtain ⟨hname, a, t', -, heq⟩ := reads_tag h
  cases hn : name.toList with
  | nil =>
      rw [hn] at hname
      exact absurd hname (by decide)
  | cons c n =>
      have hc : c = '?' := by
        rcases heq with heq | heq <;> rw [hn] at heq
        · exact (List.cons.inj (List.cons.inj heq).2).1.symm
        · exact (List.cons.inj (List.cons.inj heq).2).1.symm
      rw [hn, hc] at hname
      simp only [is_name, Bool.and_eq_true] at hname
      exact absurd hname.1 (by decide)

/-- A text that starts as an element does is the document's element itself. -/
theorem document_iff_of_name {n t : List Char} (hn : is_name n = true) {name : String}
    {attributes : List (String × String)} {content : Content} :
    Document ('<' :: (n ++ t)) name attributes content
      ↔ (∀ c ∈ '<' :: (n ++ t), is_char c = true)
        ∧ Reads ('<' :: (n ++ t)) (.element name attributes content .nil) := by
  constructor
  · rintro ⟨hchars, body, rfl | heq, hreads⟩
    · exact ⟨hchars, hreads⟩
    · cases n with
      | nil => exact absurd hn (by decide)
      | cons c n =>
          have hc : c = '?' := (List.cons.inj (List.cons.inj heq).2).1
          subst hc
          exact absurd hn (by simp [is_name, show name_start '?' = false by decide])
  · rintro ⟨hchars, hreads⟩
    exact ⟨hchars, _, .inl rfl, hreads⟩

/-- The declaration before an element changes nothing. -/
theorem document_declaration {n t : List Char} (hn : is_name n = true) {name : String}
    {attributes : List (String × String)} {content : Content} :
    Document (declaration ++ '<' :: (n ++ t)) name attributes content
      ↔ Document ('<' :: (n ++ t)) name attributes content := by
  rw [document_iff_of_name hn]
  constructor
  · rintro ⟨hchars, body, rfl | heq, hreads⟩
    · exact absurd hreads (not_reads_declaration _)
    · obtain rfl := List.append_cancel_left heq
      exact ⟨fun c hc => hchars c (List.mem_append_right _ hc), hreads⟩
  · rintro ⟨hchars, hreads⟩
    refine ⟨fun c hc => ?_, _, .inr rfl, hreads⟩
    rcases List.mem_append.mp hc with hc | hc
    · exact List.all_eq_true.mp (show declaration.all is_char = true by decide) c hc
    · exact hchars c hc

/-! ## A writer -/

/-- How a writer puts a character into a text: as it is or as a reference to it, and what markup
is made of never as it is. -/
def Escapes (escape : Char → List Char) : Prop :=
  ∀ c, (escape c = [c] ∧ c ≠ '<' ∧ c ≠ '>' ∧ c ≠ '&')
    ∨ ∃ name, entity name = some c ∧ escape c = '&' :: (name ++ [';'])

def write_attributes (escape : Char → List Char) (attributes : List (String × String)) :
    List Char :=
  attributes.flatMap fun entry =>
    ' ' :: (entry.1.toList ++ '=' :: '"' :: (entry.2.toList.flatMap escape ++ ['"']))

/-- `<Name>children</Name>`, and `<Name/>` for an element whose children come to no text. -/
def write (escape : Char → List Char) : Content → List Char
  | .nil => []
  | .text value rest => value.toList.flatMap escape ++ write escape rest
  | .element name attributes inner rest =>
      let children := write escape inner
      '<' :: (name.toList ++ (write_attributes escape attributes
        ++ if children = [] then '/' :: '>' :: write escape rest
          else '>' :: (children ++ '<' :: '/' :: (name.toList ++ '>' :: write escape rest))))

/-- Attributes that can stand in a tag, between double quotes. -/
def Named (attributes : List (String × String)) : Prop :=
  (∀ entry ∈ attributes, is_name entry.1.toList = true ∧ '"' ∉ entry.2.toList)
    ∧ (attributes.map (·.1)).Nodup

/-- A tree in which every name is one, no text is empty and no two texts meet. -/
def Content.Writable : Content → Prop
  | .nil => True
  | .text value rest => value.toList ≠ [] ∧ rest.starts_text = false ∧ rest.Writable
  | .element name attributes inner rest =>
      is_name name.toList = true ∧ Named attributes ∧ inner.Writable ∧ rest.Writable

/-- All characters of the texts and of the entry values are characters of XML. -/
def Content.Legal : Content → Prop
  | .nil => True
  | .text value rest => (∀ c ∈ value.toList, is_char c = true) ∧ rest.Legal
  | .element _ attributes inner rest =>
      (∀ entry ∈ attributes, ∀ c ∈ entry.2.toList, is_char c = true)
        ∧ inner.Legal ∧ rest.Legal

theorem entity_eq_some {name : List Char} {c : Char} (h : entity name = some c) :
    c ∈ ['&', '<', '>', '"', '\'']
      ∧ ∀ x ∈ name, x ∈ ['a', 'm', 'p', 'l', 't', 'g', 'q', 'u', 'o', 's'] := by
  unfold entity at h
  split_ifs at h with h1 h2 h3 h4 h5 <;> obtain rfl := Option.some.inj h <;> subst name <;> simp

section Escape

variable {escape : Char → List Char} (hescape : Escapes escape)

include hescape

theorem says_escape (s : List Char) : Says (s.flatMap escape) s := by
  induction s with
  | nil => exact .nil
  | cons c s ih =>
      rw [List.flatMap_cons]
      rcases hescape c with ⟨heq, hlt, -, hamp⟩ | ⟨name, hentity, heq⟩
      · rw [heq]
        exact .char hlt hamp ih
      · rw [heq, List.cons_append, List.append_assoc]
        exact .reference hentity ih

theorem escape_ne_nil (c : Char) : escape c ≠ [] := by
  rcases hescape c with ⟨heq, -⟩ | ⟨name, -, heq⟩ <;> rw [heq] <;> exact List.cons_ne_nil _ _

theorem escaped_eq_nil {s : List Char} : s.flatMap escape = [] ↔ s = [] := by
  rw [List.flatMap_eq_nil_iff]
  constructor
  · intro h
    cases s with
    | nil => rfl
    | cons c s => exact absurd (h c List.mem_cons_self) (escape_ne_nil hescape c)
  · rintro rfl
    simp

/-- A character of the markup comes out of its own escape only when it stands for itself. -/
theorem mem_escape {c x : Char} (h : x ∈ escape c) :
    x = c ∧ c ≠ '<' ∧ c ≠ '>' ∧ c ≠ '&'
      ∨ x ∈ ['&', ';', 'a', 'm', 'p', 'l', 't', 'g', 'q', 'u', 'o', 's']
        ∧ c ∈ ['&', '<', '>', '"', '\''] := by
  rcases hescape c with ⟨heq, hc⟩ | ⟨name, hentity, heq⟩
  · rw [heq, List.mem_singleton] at h
    exact .inl ⟨h, hc⟩
  · obtain ⟨hc, hname⟩ := entity_eq_some hentity
    refine .inr ⟨?_, hc⟩
    rw [heq] at h
    rcases List.mem_cons.mp h with rfl | h
    · decide
    · rcases List.mem_append.mp h with h | h
      · have hx := hname x h
        simp only [List.mem_cons, List.not_mem_nil, or_false] at hx ⊢
        tauto
      · rw [List.mem_singleton.mp h]
        decide

theorem gt_not_mem_escaped (s : List Char) : '>' ∉ s.flatMap escape := by
  intro h
  obtain ⟨c, -, hc⟩ := List.mem_flatMap.mp h
  rcases mem_escape hescape hc with ⟨rfl, -, hgt, -⟩ | ⟨hx, -⟩
  · exact hgt rfl
  · exact absurd hx (by decide)

theorem quote_not_mem_escaped {s : List Char} (hs : '"' ∉ s) : '"' ∉ s.flatMap escape := by
  intro h
  obtain ⟨c, hmem, hc⟩ := List.mem_flatMap.mp h
  rcases mem_escape hescape hc with ⟨rfl, -⟩ | ⟨hx, -⟩
  · exact hs hmem
  · exact absurd hx (by decide)

/-- References are made of characters of XML and stand for such. -/
theorem legal_escaped {s : List Char} :
    (∀ c ∈ s.flatMap escape, is_char c = true) ↔ ∀ c ∈ s, is_char c = true := by
  have hmarkup : ∀ x ∈ ['&', ';', 'a', 'm', 'p', 'l', 't', 'g', 'q', 'u', 'o', 's'],
      is_char x = true := List.all_eq_true.mp (by decide)
  have hmeant : ∀ x ∈ ['&', '<', '>', '"', '\''], is_char x = true :=
    List.all_eq_true.mp (by decide)
  constructor
  · intro h c hc
    rcases hescape c with ⟨heq, -⟩ | ⟨name, hentity, -⟩
    · exact h c (List.mem_flatMap.mpr ⟨c, hc, by rw [heq]; exact List.mem_singleton.mpr rfl⟩)
    · exact hmeant c (entity_eq_some hentity).1
  · intro h x hx
    obtain ⟨c, hc, hx⟩ := List.mem_flatMap.mp hx
    rcases mem_escape hescape hx with ⟨rfl, -⟩ | ⟨hx, -⟩
    · exact h x hc
    · exact hmarkup x hx

theorem write_eq_nil {content : Content} (hcontent : content.Writable) :
    write escape content = [] ↔ content = .nil := by
  cases content with
  | nil => simp [write]
  | text value rest => simp [write, escaped_eq_nil hescape, hcontent.1]
  | element => simp [write]

theorem attributes_write {attributes : List (String × String)} (h : Named attributes) :
    Attributes (write_attributes escape attributes) attributes := by
  induction attributes with
  | nil => exact .nil (fun c hc => absurd hc List.not_mem_nil)
  | cons entry rest ih =>
      obtain ⟨name, value⟩ := entry
      obtain ⟨hnames, hnodup⟩ := h
      rw [List.map_cons, List.nodup_cons] at hnodup
      obtain ⟨hname, hquote⟩ := hnames _ List.mem_cons_self
      have hrest := ih ⟨fun a ha => hnames a (List.mem_cons_of_mem _ ha), hnodup.2⟩
      have hcons := @Attributes.cons [' '] [] [] _ _ name value '"' rest (by simp)
        (by simp [is_blank]) hname hnodup.1 (by simp) (by simp) (.inl rfl)
        (quote_not_mem_escaped hescape hquote) (says_escape hescape value.toList) hrest
      simpa [write_attributes] using hcons

/-- **What the writer writes reads back** as the tree it was given. -/
theorem reads_write {content : Content} (h : content.Writable) :
    Reads (write escape content) content := by
  induction content with
  | nil => exact .nil
  | text value rest ih =>
      obtain ⟨hsome, hstarts, hrest⟩ := h
      refine .text (says_escape hescape _) (mt (escaped_eq_nil hescape).mp hsome) ?_ hstarts
        (ih hrest)
      intro hend
      exact gt_not_mem_escaped hescape _ (hend.subset (by decide))
  | element name attributes inner rest ihinner ihrest =>
      obtain ⟨hname, hattributes, hinner, hrest⟩ := h
      rw [write]
      by_cases hnil : write escape inner = []
      · rw [if_pos hnil]
        obtain rfl := (write_eq_nil hescape hinner).mp hnil
        exact .empty hname (attributes_write hescape hattributes) (ihrest hrest)
      · rw [if_neg hnil]
        exact @Reads.element _ _ [] _ _ _ _ _ hname (attributes_write hescape hattributes)
          (ihinner hinner) (by simp) (ihrest hrest)

theorem legal_attributes {attributes : List (String × String)} (h : Named attributes) :
    (∀ c ∈ write_attributes escape attributes, is_char c = true)
      ↔ ∀ entry ∈ attributes, ∀ c ∈ entry.2.toList, is_char c = true := by
  constructor
  · intro hall entry hmem
    refine (legal_escaped hescape).mp fun c hc => hall c (List.mem_flatMap.mpr ⟨entry, hmem, ?_⟩)
    simp [hc]
  · intro hall c hc
    obtain ⟨entry, hmem, hc⟩ := List.mem_flatMap.mp hc
    have hvalue := (legal_escaped hescape).mpr (hall entry hmem)
    simp only [List.mem_cons, List.mem_append, List.not_mem_nil, or_false] at hc
    rcases hc with rfl | hc | rfl | rfl | hc | rfl
    · decide
    · exact is_char_of_name_char (name_chars_of_is_name (h.1 entry hmem).1 c hc)
    · decide
    · decide
    · exact hvalue c hc
    · decide

/-- What is written consists of characters of XML when the texts do. -/
theorem legal_write {content : Content} (h : content.Writable) :
    (∀ c ∈ write escape content, is_char c = true) ↔ content.Legal := by
  induction content with
  | nil => simp [write, Content.Legal]
  | text value rest ih =>
      rw [write, List.forall_mem_append, legal_escaped hescape, ih h.2.2, Content.Legal]
  | element name attributes inner rest ihinner ihrest =>
      obtain ⟨hname, hattributes, hinner, hrest⟩ := h
      have hchars : ∀ c ∈ name.toList, is_char c = true := fun c hc =>
        is_char_of_name_char (name_chars_of_is_name hname c hc)
      have hmarks : is_char '<' = true ∧ is_char '>' = true ∧ is_char '/' = true := by decide
      rw [write, Content.Legal, ← legal_attributes hescape hattributes, ← ihinner hinner,
        ← ihrest hrest]
      by_cases hnil : write escape inner = []
      · rw [if_pos hnil, hnil]
        simp only [List.forall_mem_cons, List.forall_mem_append, hmarks, true_and,
          List.not_mem_nil, false_implies, implies_true, iff_true_intro hchars]
      · rw [if_neg hnil]
        simp only [List.forall_mem_cons, List.forall_mem_append, hmarks, true_and,
          iff_true_intro hchars]

end Escape

end Xml
