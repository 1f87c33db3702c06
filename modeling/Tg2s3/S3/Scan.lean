/-
`src/s3/list.rs`: the scan that makes a page of a listing.

It reads the index in batches of 1000 rows. A key with a delimiter after the prefix
shows only its common prefix, and the scan passes the rest of that group with one
bound. The marker of the request, `after`, is a key or a common prefix that was the last
on the page before.

The texts shown so far are always the first ones after the marker, and the bound stands
between them and the rest (`Ordered`). So the scan ends with a page in the sense of
`Paging.IsPage`, whatever the marker is.
-/
import Mathlib
import Tg2s3.Lib.Paging
import Tg2s3.Listing
import Tg2s3.S3.Request

set_option autoImplicit false

namespace Tg2s3.S3

open Relational

/-! ## The request -/

structure ListRequest where
  bucket : String
  start : String
  delimiter : String
  max_keys : ℕ
  is_v2 : Bool
  start_after : Option String
  marker : Option String
  continuation_token : Option String
  after : String
  deriving DecidableEq, Repr

/-! ## The scan -/

/-- The key up to the first delimiter after the prefix. -/
def common_prefix_of (key start delimiter : String) : Option String :=
  if delimiter = "" then none
  else
    let rest := (start.toList.isPrefixOf? key.toList).getD key.toList
    (Prefixes.find delimiter.toList rest).map fun index =>
      String.ofList (start.toList ++ rest.take (index + delimiter.toList.length))

structure Scan where
  contents : List ListingRecord := []
  common_prefixes : List String := []
  seen : List String := []
  lower : String
  lower_inclusive : Bool := false
  truncated : Bool := false
  next_cursor : Option String := none
  /-- `break 'scan` -/
  finished : Bool := false
  deriving DecidableEq, Repr

def SCAN_BATCH_SIZE : ℕ := 1000

namespace Scan

variable (db : Database) (r : ListRequest) (s : Scan)

def show_common (common : String) : Scan :=
  if r.after < common ∧ common ∉ s.seen then
    { s with common_prefixes := s.common_prefixes ++ [common], seen := common :: s.seen }
  else s

/-- Past every key of the group. -/
def seek (common key : String) : Scan :=
  match key_successor common with
  | some bound => { s with lower := bound, lower_inclusive := true }
  | none => { s with lower := key, lower_inclusive := false }

def show_key (entry : ListingRecord) : Scan :=
  { s with lower := entry.key, lower_inclusive := false, contents := s.contents ++ [entry] }

/-- The page is full: is there more after the bound? -/
def stop_if_full (cursor : String) : Scan :=
  if r.max_keys ≤ s.contents.length + s.common_prefixes.length then
    let truncated := !(list_objects db r.bucket r.start s.lower s.lower_inclusive 1).isEmpty
    { s with
      truncated := truncated, next_cursor := if truncated then some cursor else none,
      finished := true }
  else s

def scan_entry (entry : ListingRecord) : Scan :=
  if in_bound s.lower s.lower_inclusive entry.key then
    match common_prefix_of entry.key r.start r.delimiter with
    | some common => ((s.show_common r common).seek common entry.key).stop_if_full db r common
    | none => (s.show_key entry).stop_if_full db r entry.key
  else s

def scan_entries : Scan → List ListingRecord → Scan
  | s, [] => s
  | s, entry :: entries =>
      let s := s.scan_entry db r entry
      if s.finished then s else scan_entries s entries

/-- The loop over the batches, for so many batches at most. -/
def scan : ℕ → Scan → Option Scan
  | 0, _ => none
  | fuel + 1, s =>
      let entries := list_objects db r.bucket r.start s.lower s.lower_inclusive SCAN_BATCH_SIZE
      if entries = [] then some s
      else
        let s := s.scan_entries db r entries
        if s.finished ∨ entries.length < SCAN_BATCH_SIZE then some s else scan fuel s

/-- The same loop with batches of another size. -/
def scan_by (batch : ℕ) : ℕ → Scan → Option Scan
  | 0, _ => none
  | fuel + 1, s =>
      let entries := list_objects db r.bucket r.start s.lower s.lower_inclusive batch
      if entries = [] then some s
      else
        let s := s.scan_entries db r entries
        if s.finished ∨ entries.length < batch then some s else scan_by batch fuel s

/-- The loop of the source reads a fixed number of rows at a time; nothing below depends on how
many. -/
theorem scan_eq_scan_by (fuel : ℕ) (s : Scan) :
    s.scan db r fuel = s.scan_by db r SCAN_BATCH_SIZE fuel := by
  induction fuel generalizing s with
  | zero => rfl
  | succ fuel ih =>
      unfold scan scan_by
      simp only [ih]

end Scan

/-! ## Common prefixes -/

/-- The key up to the first delimiter after the prefix, in words of the text alone. -/
def IsCommonPrefix (key start delimiter common : String) : Prop :=
  delimiter ≠ "" ∧ ∃ x y,
    key.toList = start.toList ++ x ++ delimiter.toList ++ y
      ∧ common.toList = start.toList ++ x ++ delimiter.toList
      ∧ ∀ x' y', key.toList = start.toList ++ x' ++ delimiter.toList ++ y' → x.length ≤ x'.length

/-- **What a common prefix is**, without the search for the delimiter: the key up to and with its
first occurrence after the prefix that is asked for. -/
theorem common_prefix_of_eq_some_iff {key start delimiter common : String}
    (hstart : start.toList <+: key.toList) :
    common_prefix_of key start delimiter = some common
      ↔ IsCommonPrefix key start delimiter common := by
  obtain ⟨rest, hrest⟩ := hstart
  unfold common_prefix_of IsCommonPrefix
  by_cases hdel : delimiter = ""
  · simp [hdel]
  have hstrip : (start.toList.isPrefixOf? key.toList).getD key.toList = rest := by
    rw [List.isPrefixOf?_eq_some_iff_append_eq.mpr hrest, Option.getD_some]
  rw [if_neg hdel, hstrip]
  simp only [Option.map_eq_some_iff, Prefixes.find_eq_some_iff, ← hrest,
    List.append_assoc, List.append_cancel_left_eq, ne_eq, hdel, not_false_eq_true, true_and]
  constructor
  · rintro ⟨i, ⟨⟨x, y, rfl, rfl⟩, hmin⟩, rfl⟩
    refine ⟨x, y, rfl, ?_, fun x' y' h => hmin x' y' h⟩
    rw [String.toList_ofList, ← List.append_assoc x, ← List.length_append,
      List.take_left]
  · rintro ⟨x, y, rfl, hcommon, hmin⟩
    refine ⟨x.length, ⟨⟨x, y, rfl, rfl⟩, fun x' y' h => hmin x' y' h⟩, ?_⟩
    rw [String.ofList_eq, hcommon, ← List.append_assoc x, ← List.length_append,
      List.take_left]

/-- A common prefix begins its key. -/
theorem IsCommonPrefix.isPrefix {key start delimiter common : String}
    (h : IsCommonPrefix key start delimiter common) : common.toList <+: key.toList := by
  obtain ⟨-, x, y, hkey, hcommon, -⟩ := h
  exact ⟨y, by rw [hcommon, hkey]⟩

/-- And it begins with the prefix that is asked for. -/
theorem IsCommonPrefix.starts_with {key start delimiter common : String}
    (h : IsCommonPrefix key start delimiter common) : start.toList <+: common.toList := by
  obtain ⟨-, x, y, -, hcommon, -⟩ := h
  exact ⟨x ++ delimiter.toList, by rw [hcommon, List.append_assoc]⟩

/-- A key that starts with a common prefix has it: an earlier delimiter would lie
inside. -/
theorem IsCommonPrefix.of_isPrefix {key key' start delimiter common : String}
    (h : IsCommonPrefix key start delimiter common) (hkey' : common.toList <+: key'.toList) :
    IsCommonPrefix key' start delimiter common := by
  obtain ⟨hdel, x, y, hkey, hcommon, hmin⟩ := h
  obtain ⟨y', hy'⟩ := hkey'
  refine ⟨hdel, x, y', by rw [← hy', hcommon], hcommon, fun x₁ y₁ h₁ => ?_⟩
  by_contra hlt
  have hinside : start.toList ++ x₁ ++ delimiter.toList <+: common.toList := by
    have hfirst : start.toList ++ x₁ ++ delimiter.toList <+: key'.toList := ⟨y₁, h₁.symm⟩
    refine List.prefix_of_prefix_length_le hfirst ⟨y', hy'⟩ ?_
    rw [hcommon]
    simp only [List.length_append]
    omega
  obtain ⟨z, hz⟩ := hinside
  have := hmin x₁ (z ++ y) (by rw [hkey, ← hcommon, ← hz, List.append_assoc])
  omega

/-- **The common prefixes of the keys with a given start are a grouping.** -/
theorem grouping (start delimiter : String) :
    Paging.Grouping {key | start.toList <+: key.toList}
      (fun key => common_prefix_of key start delimiter) key_successor where
  closed {key common} hkey hcommon :=
    ((common_prefix_of_eq_some_iff hkey).mp hcommon).starts_with
  interval {key common} hkey hcommon x hx := by
    have hspec := (common_prefix_of_eq_some_iff hkey).mp hcommon
    rw [← starts_with_iff, common_prefix_of_eq_some_iff hx]
    exact ⟨fun h => h.isPrefix, fun h => hspec.of_isPrefix h⟩

/-! ## The whole listing -/

/-- What a listing shows in place of a key: its common prefix, or itself. -/
def text_of (start delimiter key : String) : String :=
  Paging.text (fun key => common_prefix_of key start delimiter) key

/-- A key outside the groups is shown as it is. -/
theorem text_of_none {key start delimiter : String}
    (h : common_prefix_of key start delimiter = none) : text_of start delimiter key = key := by
  unfold text_of Paging.text
  dsimp only
  rw [h, Option.getD_none]

/-- A key of a group is shown as its common prefix. -/
theorem text_of_some {key start delimiter common : String}
    (h : common_prefix_of key start delimiter = some common) :
    text_of start delimiter key = common := by
  unfold text_of Paging.text
  dsimp only
  rw [h, Option.getD_some]

/-- Every text to show, in order. -/
def all_texts (db : Database) (bucket start delimiter : String) : List String :=
  ((db.objects.filter fun row =>
      row.bucket = bucket && start.toList.isPrefixOf row.object_key.toList).map
    fun row => text_of start delimiter row.object_key).toFinset.sort (· ≤ ·)

/-- Texts in order, each once. -/
def sorted_texts (texts : List String) : List String := texts.toFinset.sort (· ≤ ·)

/-- The texts are those of the matching keys. -/
theorem mem_all_texts {db : Database} {bucket start delimiter t : String} :
    t ∈ all_texts db bucket start delimiter
      ↔ ∃ key ∈ matching db bucket start, text_of start delimiter key = t := by
  unfold all_texts
  rw [Finset.mem_sort, List.mem_toFinset, List.mem_map]
  constructor
  · rintro ⟨row, hrow, rfl⟩
    obtain ⟨hrow, hcond⟩ := List.mem_filter.mp hrow
    rw [Bool.and_eq_true, decide_eq_true_eq, List.isPrefixOf_iff_prefix] at hcond
    exact ⟨row.object_key, ⟨⟨row, hrow, hcond.1, rfl⟩, hcond.2⟩, rfl⟩
  · rintro ⟨key, ⟨⟨row, hrow, hbucket, rfl⟩, hstart⟩, rfl⟩
    refine ⟨row, List.mem_filter.mpr ⟨hrow, ?_⟩, rfl⟩
    rw [Bool.and_eq_true, decide_eq_true_eq, List.isPrefixOf_iff_prefix]
    exact ⟨hbucket, hstart⟩

/-- They are in order, and each comes once. -/
theorem all_texts_pairwise (db : Database) (bucket start delimiter : String) :
    (all_texts db bucket start delimiter).Pairwise (· < ·) :=
  (Finset.sortedLT_sort _).pairwise

/-- A text stands in the column of the common prefixes. -/
def is_common (start delimiter t : String) : Bool := (common_prefix_of t start delimiter).isSome

namespace ListRequest

variable (r : ListRequest)

def text (key : String) : String := text_of r.start r.delimiter key

def texts (db : Database) : List String := all_texts db r.bucket r.start r.delimiter

def is_common (t : String) : Bool := Tg2s3.S3.is_common r.start r.delimiter t

/-- The texts that come after the marker. -/
def remaining (db : Database) : List String := Paging.remaining (r.texts db) r.after

variable {r}

/-- What is left after the marker is in order as well. -/
theorem remaining_pairwise (db : Database) : (r.remaining db).Pairwise (· < ·) :=
  Paging.remaining_pairwise (all_texts_pairwise _ _ _ _) _

/-- It consists of the texts after the marker. -/
theorem mem_remaining {db : Database} {t : String} :
    t ∈ r.remaining db
      ↔ (∃ key ∈ matching db r.bucket r.start, r.text key = t) ∧ r.after < t := by
  unfold remaining texts
  rw [Paging.mem_remaining, mem_all_texts]
  rfl

/-- The same under the prefix and the delimiter of the request. -/
theorem text_of_none {key : String} (h : common_prefix_of key r.start r.delimiter = none) :
    r.text key = key :=
  Tg2s3.S3.text_of_none h

/-- And so for a key of one of its groups. -/
theorem text_of_some {key common : String}
    (h : common_prefix_of key r.start r.delimiter = some common) : r.text key = common :=
  Tg2s3.S3.text_of_some h

/-- **Texts go up with their keys**: keys of one group are next to each other, so that the group
can stand for all of them. -/
theorem text_mono {key key' : String} (hkey : r.start.toList <+: key.toList)
    (hkey' : r.start.toList <+: key'.toList) (h : key ≤ key') : r.text key ≤ r.text key' :=
  (grouping r.start r.delimiter).text_mono hkey hkey' h

/-- A text is not after its key. -/
theorem text_le {key : String} (hkey : r.start.toList <+: key.toList) : r.text key ≤ key :=
  (grouping r.start r.delimiter).text_le hkey

end ListRequest

/-! ## A step of the scan -/

/-- The bound has passed this key and what shows its text, and nothing else. -/
structure Passes (r : ListRequest) (s : Scan) (key : String) : Prop where
  progress {x : String} : r.start.toList <+: x.toList →
    in_bound s.lower s.lower_inclusive x = true → key < x
  kept {x : String} : r.start.toList <+: x.toList → key ≤ x → r.text x ≠ r.text key →
    in_bound s.lower s.lower_inclusive x = true

/-- The texts shown so far are the first ones after the marker, and the bound stands
between them and the rest. -/
structure Ordered (db : Database) (r : ListRequest) (s : Scan) (shown : List String) : Prop where
  first : shown <+: r.remaining db
  kept {x : String} : x ∈ matching db r.bucket r.start → r.after < r.text x → r.text x ∉ shown →
    in_bound s.lower s.lower_inclusive x = true
  ahead {x : String} : x ∈ matching db r.bucket r.start →
    in_bound s.lower s.lower_inclusive x = true →
    r.after < x ∧ ∀ t ∈ shown, t < x ∧ t ≤ r.text x

/-- The two columns of the page. -/
structure Columns (r : ListRequest) (s : Scan) (shown : List String) : Prop where
  contents : s.contents.map (·.key) = shown.filter (fun t => !r.is_common t)
  common_prefixes : s.common_prefixes = shown.filter r.is_common
  seen (c : String) : c ∈ s.seen ↔ c ∈ s.common_prefixes

section Order

variable {db : Database} {r : ListRequest} {s s' : Scan} {shown : List String} {key : String}

/-- What is ahead of the new bound was ahead of the old one. -/
theorem Ordered.ahead_of_passes (h : Ordered db r s shown)
    (hkey : key ∈ matching db r.bucket r.start)
    (hbound : in_bound s.lower s.lower_inclusive key = true) (hpass : Passes r s' key) {x : String}
    (hx : x ∈ matching db r.bucket r.start)
    (hin : in_bound s'.lower s'.lower_inclusive x = true) :
    r.after < x ∧ (∀ t ∈ shown, t < x ∧ t ≤ r.text x) ∧ r.text key < x ∧ r.text key ≤ r.text x := by
  have hlt := hpass.progress hx.2 hin
  have hmono := ListRequest.text_mono hkey.2 hx.2 hlt.le
  obtain ⟨hafter, hshown⟩ := h.ahead hkey hbound
  refine ⟨hafter.trans hlt, fun t ht => ?_, (ListRequest.text_le hkey.2).trans_lt hlt, hmono⟩
  obtain ⟨hbelow, htext⟩ := hshown t ht
  exact ⟨hbelow.trans hlt, htext.trans hmono⟩

/-- The least key in bound shows a new text. -/
theorem Ordered.extend (h : Ordered db r s shown) (hkey : key ∈ matching db r.bucket r.start)
    (hbound : in_bound s.lower s.lower_inclusive key = true)
    (hleast : ∀ x ∈ matching db r.bucket r.start,
      in_bound s.lower s.lower_inclusive x = true → key ≤ x)
    (hafter : r.after < r.text key) (hnew : r.text key ∉ shown) (hpass : Passes r s' key) :
    Ordered db r s' (shown ++ [r.text key]) where
  first := by
    refine Paging.isPrefix_concat (ListRequest.remaining_pairwise db) h.first
      (ListRequest.mem_remaining.mpr ⟨⟨key, hkey, rfl⟩, hafter⟩) hnew (fun t ht hmissing => ?_)
    obtain ⟨⟨x, hx, rfl⟩, hlt⟩ := ListRequest.mem_remaining.mp ht
    exact ListRequest.text_mono hkey.2 hx.2 (hleast x hx (h.kept hx hlt hmissing))
  kept {x} hx hlt hmissing := by
    rw [List.mem_append, List.mem_singleton, not_or] at hmissing
    exact hpass.kept hx.2 (hleast x hx (h.kept hx hlt hmissing.1)) hmissing.2
  ahead {x} hx hin := by
    obtain ⟨hlt, hshown, hkeylt, htext⟩ := h.ahead_of_passes hkey hbound hpass hx hin
    refine ⟨hlt, fun t ht => ?_⟩
    rcases List.mem_append.mp ht with ht | ht
    · exact hshown t ht
    · rw [List.mem_singleton.mp ht]
      exact ⟨hkeylt, htext⟩

/-- The least key in bound shows nothing new. -/
theorem Ordered.skip (h : Ordered db r s shown) (hkey : key ∈ matching db r.bucket r.start)
    (hbound : in_bound s.lower s.lower_inclusive key = true)
    (hleast : ∀ x ∈ matching db r.bucket r.start,
      in_bound s.lower s.lower_inclusive x = true → key ≤ x)
    (hold : r.after < r.text key → r.text key ∈ shown) (hpass : Passes r s' key) :
    Ordered db r s' shown where
  first := h.first
  kept {x} hx hlt hmissing := by
    refine hpass.kept hx.2 (hleast x hx (h.kept hx hlt hmissing)) (fun heq => ?_)
    rw [heq] at hlt hmissing
    exact hmissing (hold hlt)
  ahead {x} hx hin := by
    obtain ⟨hlt, hshown, -⟩ := h.ahead_of_passes hkey hbound hpass hx hin
    exact ⟨hlt, hshown⟩

end Order

/-! ## One entry -/

/-- `scan_entry` up to the question whether the page is full. -/
def Scan.advance (r : ListRequest) (s : Scan) (entry : ListingRecord) : Scan :=
  match common_prefix_of entry.key r.start r.delimiter with
  | some common => (s.show_common r common).seek common entry.key
  | none => s.show_key entry

/-- One entry in the bound: the scan moves on past it, and stops if the page is full. -/
theorem Scan.scan_entry_eq (db : Database) (r : ListRequest) {s : Scan} {entry : ListingRecord}
    (hbound : in_bound s.lower s.lower_inclusive entry.key = true) :
    s.scan_entry db r entry = (s.advance r entry).stop_if_full db r (r.text entry.key) := by
  unfold Scan.scan_entry Scan.advance
  rw [if_pos hbound]
  cases hcommon : common_prefix_of entry.key r.start r.delimiter with
  | none =>
      dsimp only
      rw [ListRequest.text_of_none hcommon]
  | some common =>
      dsimp only
      rw [ListRequest.text_of_some hcommon]

section Columns

variable (r : ListRequest) (s : Scan) (common key : String)

/-- To seek shows nothing. -/
@[simp] theorem contents_seek : (s.seek common key).contents = s.contents := by
  unfold Scan.seek
  split <;> rfl

/-- Nor does it show a common prefix. -/
@[simp] theorem common_prefixes_seek :
    (s.seek common key).common_prefixes = s.common_prefixes := by
  unfold Scan.seek
  split <;> rfl

/-- To stop does not move the bound. -/
@[simp] theorem lower_stop_if_full (db : Database) (cursor : String) :
    (s.stop_if_full db r cursor).lower = s.lower := by
  unfold Scan.stop_if_full
  split_ifs <;> rfl

/-- In either of its two columns. -/
@[simp] theorem lower_inclusive_stop_if_full (db : Database) (cursor : String) :
    (s.stop_if_full db r cursor).lower_inclusive = s.lower_inclusive := by
  unfold Scan.stop_if_full
  split_ifs <;> rfl

/-- And the keys that were counted stay counted. -/
@[simp] theorem seen_seek : (s.seek common key).seen = s.seen := by
  unfold Scan.seek
  split <;> rfl

/-- The scan goes on after a step, unless it stops. -/
def Scan.goes_on : Prop := s.finished = false ∧ s.truncated = false ∧ s.next_cursor = none

/-- A scan that goes on is not stopped by moving on. -/
theorem Scan.goes_on.advance {r : ListRequest} {s : Scan} (h : s.goes_on) (entry : ListingRecord) :
    (s.advance r entry).goes_on := by
  unfold Scan.advance Scan.show_common Scan.seek Scan.show_key
  split
  · split_ifs <;> split <;> exact h
  · exact h

end Columns

section Advance

variable {db : Database} {r : ListRequest} {s : Scan} {shown : List String}
  {entry : ListingRecord} {common : String}

/-- Moving on passes the key: it is behind the new bound. -/
theorem passes_advance (hkey : r.start.toList <+: entry.key.toList) :
    Passes r (s.advance r entry) entry.key := by
  have hgroups := grouping r.start r.delimiter
  unfold Scan.advance
  -- a bound at the key itself passes it alone
  have hself : ∀ s' : Scan, s'.lower = entry.key → s'.lower_inclusive = false →
      Passes r s' entry.key := by
    intro s' hlower hinclusive
    constructor
    · intro x _ hin
      rw [hlower, hinclusive] at hin
      exact of_decide_eq_true hin
    · intro x _ hle hne
      rw [hlower, hinclusive]
      exact decide_eq_true (lt_of_le_of_ne hle (fun h => hne (by rw [h])))
  cases hcommon : common_prefix_of entry.key r.start r.delimiter with
  | none => exact hself _ rfl rfl
  | some common =>
      dsimp only
      unfold Scan.seek
      cases hbound : key_successor common with
      | none => exact hself _ rfl rfl
      | some bound =>
          have htext := ListRequest.text_of_some hcommon
          constructor
          · intro x _ hin
            exact (((hgroups.interval hkey hcommon entry.key hkey).mp hcommon).2 bound hbound).trans_le
              (of_decide_eq_true hin)
          · intro x hx hle hne
            have hmono := ListRequest.text_mono hkey hx hle
            rw [htext] at hmono hne
            exact decide_eq_true ((hgroups.upper_le_iff hkey hcommon hbound hx).mpr
              (lt_of_le_of_ne hmono (Ne.symm hne)))

/-- A text that is a common prefix is known as one, because it ends with the delimiter. -/
theorem is_common_of_some (hkey : r.start.toList <+: entry.key.toList)
    (hcommon : common_prefix_of entry.key r.start r.delimiter = some common) :
    r.is_common common = true := by
  have := (grouping r.start r.delimiter).group_name hkey hcommon
  unfold ListRequest.is_common is_common
  rw [this]
  rfl

/-- **One entry**: what is shown afterwards. -/
theorem advance_shown (hordered : Ordered db r s shown) (hcolumns : Columns r s shown)
    (hkey : entry.key ∈ matching db r.bucket r.start)
    (hbound : in_bound s.lower s.lower_inclusive entry.key = true)
    (hleast : ∀ x ∈ matching db r.bucket r.start,
      in_bound s.lower s.lower_inclusive x = true → entry.key ≤ x) :
    ∃ shown', Ordered db r (s.advance r entry) shown' ∧ Columns r (s.advance r entry) shown'
      ∧ (shown' = shown ∨ shown' = shown ++ [r.text entry.key]) := by
  have hpass := passes_advance (s := s) hkey.2
  obtain ⟨hafter, hbelow⟩ := hordered.ahead hkey hbound
  cases hcommon : common_prefix_of entry.key r.start r.delimiter with
  | none =>
      have htext := ListRequest.text_of_none hcommon
      have hcolumn : r.is_common entry.key = false := by
        unfold ListRequest.is_common is_common
        rw [hcommon]
        rfl
      refine ⟨_, hordered.extend hkey hbound hleast (by rwa [htext]) ?_ hpass, ?_, Or.inr rfl⟩
      · rw [htext]
        exact fun h => lt_irrefl _ (hbelow _ h).1
      · unfold Scan.advance
        rw [hcommon, htext]
        refine ⟨?_, ?_, hcolumns.seen⟩
        · simp [Scan.show_key, hcolumns.contents, List.filter_append, hcolumn]
        · simp [Scan.show_key, hcolumns.common_prefixes, List.filter_append, hcolumn]
  | some common =>
      have htext := ListRequest.text_of_some hcommon
      have hcolumn := is_common_of_some hkey.2 hcommon
      -- `seen` knows exactly the common prefixes shown so far
      have hseen : common ∈ s.seen ↔ common ∈ shown := by
        rw [hcolumns.seen, hcolumns.common_prefixes, List.mem_filter, hcolumn]
        simp
      by_cases hnew : r.after < common ∧ common ∉ s.seen
      · refine ⟨_, hordered.extend hkey hbound hleast (by rw [htext]; exact hnew.1) ?_ hpass, ?_,
          Or.inr rfl⟩
        · rw [htext, ← hseen]
          exact hnew.2
        · have hshow : s.show_common r common = { s with
              common_prefixes := s.common_prefixes ++ [common], seen := common :: s.seen } :=
            if_pos hnew
          unfold Scan.advance
          rw [hcommon, htext]
          dsimp only
          rw [hshow]
          refine ⟨?_, ?_, ?_⟩
          · simp [hcolumns.contents, List.filter_append, hcolumn]
          · simp [hcolumns.common_prefixes, List.filter_append, hcolumn]
          · intro c
            simp [hcolumns.seen, or_comm]
      · refine ⟨shown, hordered.skip hkey hbound hleast ?_ hpass, ?_, Or.inl rfl⟩
        · intro hlt
          rw [htext] at hlt ⊢
          rw [← hseen]
          by_contra hmissing
          exact hnew ⟨hlt, hmissing⟩
        · have hshow : s.show_common r common = s := if_neg hnew
          unfold Scan.advance
          rw [hcommon]
          dsimp only
          rw [hshow]
          refine ⟨?_, ?_, ?_⟩
          · simp [hcolumns.contents]
          · simp [hcolumns.common_prefixes]
          · intro c
            simp [hcolumns.seen]

end Advance

/-! ## The scan -/

/-- The scan is under way, and the page has room. -/
structure Running (db : Database) (r : ListRequest) (s : Scan) (shown : List String) : Prop where
  ordered : Ordered db r s shown
  columns : Columns r s shown
  room : shown.length < r.max_keys
  goes_on : s.goes_on

/-- The columns hold a page, and the cursor is its next marker. -/
structure Complete (db : Database) (r : ListRequest) (s : Scan) (shown : List String) : Prop where
  page : Paging.IsPage (r.texts db) r.max_keys r.after shown s.next_cursor
  columns : Columns r s shown
  truncated : s.truncated = s.next_cursor.isSome

/-- Where the bound stands after a key: at the end of its group if strings have one, behind the
key itself otherwise. -/
def Behind (r : ListRequest) (key x : String) : Prop :=
  match (common_prefix_of key r.start r.delimiter).bind key_successor with
  | some bound => bound ≤ x
  | none => key < x

/-- A full page: the key the scan stopped at, and what the look for one more row found. -/
structure Stopped (db : Database) (r : ListRequest) (s : Scan) (shown : List String)
    (key : String) : Prop where
  found : key ∈ matching db r.bucket r.start
  last : shown.getLast? = some (r.text key)
  least : ∀ x ∈ matching db r.bucket r.start, r.text x = r.text key → key ≤ x
  probed : s.truncated = true ↔ ∃ x ∈ matching db r.bucket r.start, Behind r key x

/-- The scan is over. -/
structure Ended (db : Database) (r : ListRequest) (s : Scan) (shown : List String) : Prop where
  complete : Complete db r s shown
  stopped : shown.length = r.max_keys → ∃ key, Stopped db r s shown key
  short : shown.length < r.max_keys → s.truncated = false

section Scan

variable {db : Database} {r : ListRequest} {s : Scan} {shown : List String}

/-- **What is in the new bound** is what the source would still list: beyond the key, and outside
its group if there is one. Where the group has no successor the bound stays at the key. -/
theorem in_bound_advance (r : ListRequest) (s : Scan) (entry : ListingRecord) (x : String) :
    in_bound (s.advance r entry).lower (s.advance r entry).lower_inclusive x = true
      ↔ Behind r entry.key x := by
  unfold Scan.advance Behind
  cases common_prefix_of entry.key r.start r.delimiter with
  | none => simp [Scan.show_key, in_bound]
  | some common =>
      dsimp only [Option.bind_some]
      unfold Scan.seek
      cases key_successor common <;> simp [in_bound]

/-- The two lists of a page have as many entries as were shown. -/
theorem Columns.length_eq (h : Columns r s shown) :
    s.contents.length + s.common_prefixes.length = shown.length := by
  have hcontents := congrArg List.length h.contents
  rw [List.length_map] at hcontents
  rw [hcontents, h.common_prefixes, Nat.add_comm]
  exact (List.length_eq_length_filter_add _).symm

/-- Nothing is in bound any more: everything has been shown. -/
theorem Ordered.eq_remaining (h : Ordered db r s shown)
    (hend : ∀ x ∈ matching db r.bucket r.start, in_bound s.lower s.lower_inclusive x = false) :
    shown = r.remaining db := by
  refine Paging.eq_of_isPrefix (ListRequest.remaining_pairwise db) h.first (fun t ht => ?_)
  obtain ⟨⟨x, hx, rfl⟩, hlt⟩ := ListRequest.mem_remaining.mp ht
  by_contra hmissing
  have := h.kept hx hlt hmissing
  rw [hend x hx] at this
  cases this

/-- If nothing is left in the bound, the page is complete. -/
theorem Running.complete (h : Running db r s shown)
    (hend : ∀ x ∈ matching db r.bucket r.start, in_bound s.lower s.lower_inclusive x = false) :
    Complete db r s shown := by
  obtain ⟨-, htruncated, hcursor⟩ := h.goes_on
  have hall := h.ordered.eq_remaining hend
  refine ⟨⟨?_, fun _ => hall, fun hm => ?_⟩, h.columns, ?_⟩
  · have hroom := h.room
    rw [hall] at hroom ⊢
    exact (List.take_of_length_le hroom.le).symm
  · rw [hcursor] at hm
    cases hm
  · rw [htruncated, hcursor]
    rfl

/-- A look for one more row tells whether anything is in bound. -/
theorem list_one_eq_nil_iff :
    list_objects db r.bucket r.start s.lower s.lower_inclusive 1 = []
      ↔ ∀ x ∈ matching db r.bucket r.start, in_bound s.lower s.lower_inclusive x = false := by
  unfold list_objects
  rw [List.take_eq_nil_iff]
  constructor
  · rintro (h | h) x hx
    · cases h
    · by_contra hin
      obtain ⟨e, he, -⟩ := exists_mem_list_rows hx (Bool.not_eq_false _ ▸ hin)
      rw [h] at he
      cases he
  · intro h
    right
    refine List.eq_nil_iff_forall_not_mem.mpr (fun e he => ?_)
    obtain ⟨hkey, hin⟩ := matching_of_mem he
    rw [h _ hkey] at hin
    cases hin

/-- The page is full, or the scan goes on with the same columns and the same bound. -/
theorem stop_if_full_spec {cursor : String} (hordered : Ordered db r s shown)
    (hcolumns : Columns r s shown) (hgoes : s.goes_on) (hlength : shown.length ≤ r.max_keys)
    (hlast : shown.length = r.max_keys → shown.getLast? = some cursor) :
    (s.stop_if_full db r cursor = s ∧ Running db r s shown)
      ∨ ((s.stop_if_full db r cursor).finished = true
        ∧ Complete db r (s.stop_if_full db r cursor) shown ∧ shown.length = r.max_keys
        ∧ ((s.stop_if_full db r cursor).truncated = true
          ↔ ∃ x ∈ matching db r.bucket r.start, in_bound s.lower s.lower_inclusive x = true)) := by
  unfold Scan.stop_if_full
  rw [hcolumns.length_eq]
  by_cases hfull : r.max_keys ≤ shown.length
  · right
    rw [if_pos hfull]
    have hlength := le_antisymm hlength hfull
    refine ⟨rfl, ⟨⟨?_, fun hnone => ?_, fun hsome => ?_⟩, ⟨hcolumns.contents,
      hcolumns.common_prefixes, hcolumns.seen⟩, ?_⟩, hlength, ?_⟩
    · rw [← hlength]
      exact List.prefix_iff_eq_take.mp hordered.first
    · dsimp only at hnone
      split_ifs at hnone with hmore
      refine hordered.eq_remaining (list_one_eq_nil_iff.mp ?_)
      simpa using hmore
    · dsimp only at hsome
      split_ifs at hsome with hmore
      obtain rfl := Option.some.inj hsome
      exact hlast hlength
    · dsimp only
      split_ifs with hmore <;> simp [hmore]
    · have hprobe : list_objects db r.bucket r.start s.lower s.lower_inclusive 1 = [] ↔ _ :=
        list_one_eq_nil_iff
      dsimp only
      rw [Bool.not_eq_true', List.isEmpty_eq_false_iff, Ne, hprobe]
      simp
  · left
    rw [if_neg hfull]
    exact ⟨rfl, hordered, hcolumns, not_le.mp hfull, hgoes⟩

/-- **A step**: the scan goes on behind the entry, or the page is complete. -/
theorem scan_entry_spec (h : Running db r s shown) {entry : ListingRecord}
    (hkey : entry.key ∈ matching db r.bucket r.start)
    (hbound : in_bound s.lower s.lower_inclusive entry.key = true)
    (hleast : ∀ x ∈ matching db r.bucket r.start,
      in_bound s.lower s.lower_inclusive x = true → entry.key ≤ x) :
    ∃ shown', (Running db r (s.scan_entry db r entry) shown'
        ∧ Passes r (s.scan_entry db r entry) entry.key)
      ∨ ((s.scan_entry db r entry).finished = true
        ∧ Ended db r (s.scan_entry db r entry) shown') := by
  obtain ⟨shown', hordered, hcolumns, hshown⟩ :=
    advance_shown h.ordered h.columns hkey hbound hleast
  rw [Scan.scan_entry_eq db r hbound]
  have hroom := h.room
  have hgoes : (s.advance r entry).goes_on := h.goes_on.advance entry
  have hlength : shown'.length ≤ r.max_keys := by
    rcases hshown with rfl | rfl
    · exact hroom.le
    · rw [List.length_append]
      exact hroom
  have hlast : shown'.length = r.max_keys → shown'.getLast? = some (r.text entry.key) := by
    rcases hshown with rfl | rfl
    · exact fun heq => absurd heq hroom.ne
    · exact fun _ => List.getLast?_concat
  refine ⟨shown', ?_⟩
  rcases stop_if_full_spec hordered hcolumns hgoes hlength hlast
    with ⟨heq, hrunning⟩ | hdone
  · left
    rw [heq]
    exact ⟨hrunning, passes_advance hkey.2⟩
  · right
    obtain ⟨hfinished, hcomplete, hfull, hprobed⟩ := hdone
    refine ⟨hfinished, hcomplete,
      fun _ => ⟨entry.key, hkey, hlast hfull, fun x hx htext => ?_, ?_⟩,
      fun hlt => absurd hfull hlt.ne⟩
    · -- the text is new, so every key that shows it was in bound before
      obtain rfl | rfl := hshown
      · exact absurd hfull hroom.ne
      have hsorted := (ListRequest.remaining_pairwise (r := r) db).sublist hordered.first.sublist
      rw [List.pairwise_append] at hsorted
      have hnew : r.text entry.key ∉ shown := fun hmem =>
        lt_irrefl _ (hsorted.2.2 _ hmem _ (List.mem_singleton.mpr rfl))
      have hafter := (ListRequest.mem_remaining.mp
        (hordered.first.subset (List.mem_append_right _ (List.mem_singleton.mpr rfl)))).2
      rw [← htext] at hnew hafter
      exact hleast x hx (h.ordered.kept hx hafter hnew)
    · rw [hprobed]
      simp only [in_bound_advance]

/-- The rows `rows` hold every key in bound, in order. -/
structure Covers (db : Database) (r : ListRequest) (s : Scan) (rows : List ListingRecord) : Prop where
  sorted : rows.Pairwise (·.key < ·.key)
  matching {e : ListingRecord} : e ∈ rows → e.key ∈ matching db r.bucket r.start
  all {x : String} : x ∈ Tg2s3.matching db r.bucket r.start →
    in_bound s.lower s.lower_inclusive x = true → ∃ e ∈ rows, e.key = x

/-- The query gives the matching keys in the bound, in their order, and leaves none out. -/
theorem covers_list_rows (hwf : WellFormed db) :
    Covers db r s (list_rows db r.bucket r.start s.lower s.lower_inclusive) where
  sorted := list_rows_pairwise hwf _ _ _ _
  matching he := (matching_of_mem he).1
  all hx hin := exists_mem_list_rows hx hin

/-- A batch: by induction on its entries, what is in bound is what lies beyond them. -/
theorem scan_entries_spec {entries rest : List ListingRecord} (h : Running db r s shown)
    (hcovers : Covers db r s (entries ++ rest)) :
    ∃ shown', (Running db r (s.scan_entries db r entries) shown'
        ∧ Covers db r (s.scan_entries db r entries) rest)
      ∨ ((s.scan_entries db r entries).finished = true
        ∧ Ended db r (s.scan_entries db r entries) shown') := by
  induction entries generalizing s shown with
  | nil => exact ⟨shown, Or.inl ⟨h, hcovers⟩⟩
  | cons entry entries ih =>
      have hsorted := hcovers.sorted
      rw [List.cons_append, List.pairwise_cons] at hsorted
      have hkey := hcovers.matching (e := entry) List.mem_cons_self
      unfold Scan.scan_entries
      by_cases hbound : in_bound s.lower s.lower_inclusive entry.key = true
      · have hleast : ∀ x ∈ matching db r.bucket r.start,
            in_bound s.lower s.lower_inclusive x = true → entry.key ≤ x := by
          intro x hx hin
          obtain ⟨e, he, rfl⟩ := hcovers.all hx hin
          rcases List.mem_cons.mp he with rfl | he
          · exact le_rfl
          · exact (hsorted.1 e he).le
        obtain ⟨shown', ⟨hrunning, hpass⟩ | ⟨hfinished, hcomplete⟩⟩ :=
          scan_entry_spec h hkey hbound hleast
        · dsimp only
          rw [hrunning.goes_on.1]
          refine ih hrunning ⟨hsorted.2, fun he => hcovers.matching (List.mem_cons_of_mem _ he),
            fun {x} hx hin => ?_⟩
          have hlt := hpass.progress hx.2 hin
          obtain ⟨e, he, rfl⟩ := hcovers.all hx (in_bound_mono hbound hlt.le)
          rcases List.mem_cons.mp he with rfl | he
          · exact absurd hlt (lt_irrefl _)
          · exact ⟨e, he, rfl⟩
        · refine ⟨shown', Or.inr ?_⟩
          dsimp only
          rw [hfinished]
          exact ⟨hfinished, hcomplete⟩
      · -- an earlier seek has passed the entry
        have hskip : s.scan_entry db r entry = s := if_neg hbound
        dsimp only
        rw [hskip, h.goes_on.1]
        refine ih h ⟨hsorted.2, fun he => hcovers.matching (List.mem_cons_of_mem _ he),
          fun {x} hx hin => ?_⟩
        obtain ⟨e, he, rfl⟩ := hcovers.all hx hin
        rcases List.mem_cons.mp he with rfl | he
        · exact absurd hin hbound
        · exact ⟨e, he, rfl⟩

end Scan

/-! ## The scan ends -/

section Ends

variable (db : Database) (r : ListRequest)

/-- How many there are is counted on the rows of the bucket. -/
theorem length_list_rows (lower : String) (inclusive : Bool) :
    (list_rows db r.bucket r.start lower inclusive).length
      = (db.objects.filter fun row => row.bucket = r.bucket
          && (r.start.toList.isPrefixOf row.object_key.toList
            && in_bound lower inclusive row.object_key)).length := by
  unfold list_rows
  rw [List.length_insertionSort, List.length_map]
  refine congrArg List.length (List.filter_congr (fun row _ => ?_))
  rw [Bool.and_assoc]
  congr 1
  rw [Bool.eq_iff_iff, bounds_iff, Bool.and_eq_true, List.isPrefixOf_iff_prefix]

variable {db r}

/-- What is in the bound after an entry was in it before: the bound only goes up. And what is
passed is at or before the key, or in its group. -/
theorem passed_scan_entry {s : Scan} {entry : ListingRecord}
    (hkey : r.start.toList <+: entry.key.toList) {x : String} (hx : r.start.toList <+: x.toList)
    (hin : in_bound (s.scan_entry db r entry).lower
      (s.scan_entry db r entry).lower_inclusive x = true) :
    in_bound s.lower s.lower_inclusive x = true
      ∧ (in_bound s.lower s.lower_inclusive entry.key = true → entry.key < x) := by
  by_cases hbound : in_bound s.lower s.lower_inclusive entry.key = true
  · rw [Scan.scan_entry_eq db r hbound, lower_stop_if_full, lower_inclusive_stop_if_full] at hin
    have hlt := (passes_advance hkey).progress hx hin
    exact ⟨in_bound_mono hbound hlt.le, fun _ => hlt⟩
  · have hskip : s.scan_entry db r entry = s := if_neg hbound
    rw [hskip] at hin
    exact ⟨hin, fun h => absurd h hbound⟩

/-- The bound only moves on. -/
theorem passed_scan_entries {s : Scan} {entries : List ListingRecord}
    (hkeys : ∀ e ∈ entries, r.start.toList <+: e.key.toList) {x : String}
    (hx : r.start.toList <+: x.toList)
    (hin : in_bound (s.scan_entries db r entries).lower
      (s.scan_entries db r entries).lower_inclusive x = true) :
    in_bound s.lower s.lower_inclusive x = true := by
  induction entries generalizing s with
  | nil => exact hin
  | cons entry entries ih =>
      unfold Scan.scan_entries at hin
      dsimp only at hin
      have hkey := hkeys entry List.mem_cons_self
      split_ifs at hin with hfinished
      · exact (passed_scan_entry hkey hx hin).1
      · have := ih (fun e he => hkeys e (List.mem_cons_of_mem _ he)) hin
        exact (passed_scan_entry hkey hx this).1

/-- A batch is behind the bound from its first entry on. -/
theorem passed_first {s : Scan} {entry : ListingRecord} {entries : List ListingRecord}
    (hkeys : ∀ e ∈ entry :: entries, r.start.toList <+: e.key.toList)
    (hbound : in_bound s.lower s.lower_inclusive entry.key = true) :
    in_bound (s.scan_entries db r (entry :: entries)).lower
      (s.scan_entries db r (entry :: entries)).lower_inclusive entry.key = false := by
  by_contra hin
  rw [Bool.not_eq_false] at hin
  have hkey := hkeys entry List.mem_cons_self
  unfold Scan.scan_entries at hin
  dsimp only at hin
  split_ifs at hin with hfinished
  · exact lt_irrefl _ ((passed_scan_entry hkey hkey hin).2 hbound)
  · have := passed_scan_entries (fun e he => hkeys e (List.mem_cons_of_mem _ he)) hkey hin
    exact lt_irrefl _ ((passed_scan_entry hkey hkey this).2 hbound)

/-- **Each batch leaves fewer rows**: its first entry at least is passed. This is what the fuel
is measured by. -/
theorem length_list_rows_lt {s : Scan} {entry : ListingRecord} {entries : List ListingRecord}
    (hentries : ∀ e ∈ entry :: entries,
      e ∈ list_rows db r.bucket r.start s.lower s.lower_inclusive) :
    (list_rows db r.bucket r.start (s.scan_entries db r (entry :: entries)).lower
        (s.scan_entries db r (entry :: entries)).lower_inclusive).length
      < (list_rows db r.bucket r.start s.lower s.lower_inclusive).length := by
  have hkeys : ∀ e ∈ entry :: entries, r.start.toList <+: e.key.toList :=
    fun e he => (matching_of_mem (hentries e he)).1.2
  obtain ⟨row, hrow, hbucket, hstart, hbound, rfl⟩ :=
    mem_list_rows.mp (hentries entry List.mem_cons_self)
  rw [length_list_rows, length_list_rows]
  have hsub : (db.objects.filter fun row' => row'.bucket = r.bucket
      && (r.start.toList.isPrefixOf row'.object_key.toList
        && in_bound (s.scan_entries db r (row.listing :: entries)).lower
          (s.scan_entries db r (row.listing :: entries)).lower_inclusive row'.object_key)).Sublist
      (db.objects.filter fun row' => row'.bucket = r.bucket
        && (r.start.toList.isPrefixOf row'.object_key.toList
          && in_bound s.lower s.lower_inclusive row'.object_key)) := by
    refine List.monotone_filter_right _ (fun row' h => ?_)
    simp only [Bool.and_eq_true, decide_eq_true_eq, List.isPrefixOf_iff_prefix] at h ⊢
    exact ⟨h.1, h.2.1, passed_scan_entries hkeys h.2.1 h.2.2⟩
  refine lt_of_le_of_ne hsub.length_le (fun heq => ?_)
  -- the first row of the batch is in bound before it, and not after it
  have hmem : row ∈ db.objects.filter fun row' => row'.bucket = r.bucket
      && (r.start.toList.isPrefixOf row'.object_key.toList
        && in_bound s.lower s.lower_inclusive row'.object_key) := by
    refine List.mem_filter.mpr ⟨hrow, ?_⟩
    simp only [Bool.and_eq_true, decide_eq_true_eq, List.isPrefixOf_iff_prefix]
    exact ⟨hbucket, hstart, hbound⟩
  rw [← hsub.eq_of_length heq, List.mem_filter] at hmem
  simp only [Bool.and_eq_true] at hmem
  have hpassed : in_bound (s.scan_entries db r (row.listing :: entries)).lower
      (s.scan_entries db r (row.listing :: entries)).lower_inclusive row.object_key = false :=
    passed_first hkeys hbound
  exact absurd hmem.2.2.2 (by rw [Bool.not_eq_true]; exact hpassed)

/-- The fuel is enough: every batch but the last moves the bound past a row. -/
theorem scan_by_finishes (batch fuel : ℕ) (s : Scan)
    (h : (list_rows db r.bucket r.start s.lower s.lower_inclusive).length < fuel) :
    (s.scan_by db r batch fuel).isSome = true := by
  induction fuel generalizing s with
  | zero => exact absurd h (Nat.not_lt_zero _)
  | succ fuel ih =>
      unfold Scan.scan_by
      dsimp only
      cases hentries : list_objects db r.bucket r.start s.lower s.lower_inclusive batch with
      | nil => rfl
      | cons entry entries =>
          rw [if_neg (List.cons_ne_nil _ _)]
          split_ifs with hlast
          · rfl
          · have hrows : ∀ e ∈ entry :: entries,
                e ∈ list_rows db r.bucket r.start s.lower s.lower_inclusive := by
              intro e he
              rw [← hentries] at he
              exact List.mem_of_mem_take he
            have := length_list_rows_lt hrows
            exact ih _ (by omega)

/-- So the loop ends, with more fuel than there are rows in the bound. -/
theorem scan_finishes (fuel : ℕ) (s : Scan)
    (h : (list_rows db r.bucket r.start s.lower s.lower_inclusive).length < fuel) :
    (s.scan db r fuel).isSome = true := by
  rw [Scan.scan_eq_scan_by]
  exact scan_by_finishes _ fuel s h

/-- The contents of a page are rows of the bucket. -/
theorem contents_scan_entry {s : Scan} {entry e : ListingRecord}
    (h : e ∈ (s.scan_entry db r entry).contents) : e ∈ s.contents ∨ e = entry := by
  have hstop : ∀ (s : Scan) (cursor : String),
      (s.stop_if_full db r cursor).contents = s.contents := by
    intro s cursor
    unfold Scan.stop_if_full
    split_ifs <;> rfl
  have hshow : ∀ (s : Scan) (common : String),
      (s.show_common r common).contents = s.contents := by
    intro s common
    unfold Scan.show_common
    split_ifs <;> rfl
  unfold Scan.scan_entry at h
  split_ifs at h
  · split at h
    · rw [hstop, contents_seek, hshow] at h
      exact .inl h
    · rw [hstop, Scan.show_key, List.mem_append, List.mem_singleton] at h
      exact h
  · exact .inl h

/-- What is shown after some entries was shown before or is one of them. -/
theorem contents_scan_entries {s : Scan} {entries : List ListingRecord} {e : ListingRecord}
    (h : e ∈ (s.scan_entries db r entries).contents) : e ∈ s.contents ∨ e ∈ entries := by
  induction entries generalizing s with
  | nil => exact .inl h
  | cons entry entries ih =>
      have hhere (h : e ∈ (s.scan_entry db r entry).contents) :
          e ∈ s.contents ∨ e ∈ entry :: entries := by
        rcases contents_scan_entry h with h | rfl
        · exact .inl h
        · exact .inr List.mem_cons_self
      unfold Scan.scan_entries at h
      dsimp only at h
      split_ifs at h
      · exact hhere h
      · rcases ih h with h | h
        · exact hhere h
        · exact .inr (List.mem_cons_of_mem _ h)

/-- And so everything that is shown is a row of the bucket, by induction on the batches. -/
theorem contents_scan_by {batch fuel : ℕ} {s s' : Scan} {e : ListingRecord}
    (hscan : s.scan_by db r batch fuel = some s') (h : e ∈ s'.contents) :
    e ∈ s.contents ∨ ∃ row ∈ db.objects, row.bucket = r.bucket ∧ row.listing = e := by
  induction fuel generalizing s with
  | zero => cases hscan
  | succ fuel ih =>
      have hentries : ∀ e, e ∈ (s.scan_entries db r (list_objects db r.bucket r.start s.lower
          s.lower_inclusive batch)).contents →
          e ∈ s.contents ∨ ∃ row ∈ db.objects, row.bucket = r.bucket ∧ row.listing = e := by
        intro e he
        rcases contents_scan_entries he with he | he
        · exact .inl he
        · obtain ⟨row, hrow, hbucket, -, -, hlisting⟩ := mem_list_rows.mp (List.mem_of_mem_take he)
          exact .inr ⟨row, hrow, hbucket, hlisting⟩
      unfold Scan.scan_by at hscan
      dsimp only at hscan
      split_ifs at hscan
      · obtain rfl := Option.some.inj hscan
        exact .inl h
      · obtain rfl := Option.some.inj hscan
        exact hentries e h
      · rcases ih hscan with h | h
        · exact hentries e h
        · exact .inr h

/-- There are no more rows in the bound than objects in the table. -/
theorem length_list_rows_le (lower : String) (inclusive : Bool) :
    (list_rows db r.bucket r.start lower inclusive).length < db.objects.length + 1 := by
  rw [length_list_rows]
  exact Nat.lt_succ_of_le (List.length_filter_le _ _)

end Ends

def ListRequest.begin (r : ListRequest) : Scan := { lower := r.after }

/-- The scan of a page, to its end. -/
def scanned (db : Database) (r : ListRequest) : Scan :=
  if 0 < r.max_keys then
    (r.begin.scan db r (db.objects.length + 1)).get
      (scan_finishes _ _ (length_list_rows_le _ _))
  else r.begin

/-! ## A page -/

section Page

variable {db : Database} {r : ListRequest}

/-- No row is left: the page is complete. -/
theorem Running.ended_of_covers_nil {s : Scan} {shown : List String}
    (h : Running db r s shown) (hcovers : Covers db r s []) : Ended db r s shown := by
  refine ⟨h.complete (fun x hx => ?_), fun hfull => absurd hfull h.room.ne,
    fun _ => h.goes_on.2.1⟩
  by_contra hin
  obtain ⟨e, he, -⟩ := hcovers.all hx ((Bool.not_eq_false _).mp hin)
  cases he

/-- A scan that ends has a page, by induction on the batches. -/
theorem scan_by_ended (hwf : WellFormed db) {batch : ℕ} (hbatch : 0 < batch) (fuel : ℕ)
    {s s' : Scan} {shown : List String} (h : Running db r s shown)
    (hscan : s.scan_by db r batch fuel = some s') : ∃ shown', Ended db r s' shown' := by
  induction fuel generalizing s shown with
  | zero => cases hscan
  | succ fuel ih =>
      have hcovers := covers_list_rows (r := r) (s := s) hwf
      unfold Scan.scan_by at hscan
      dsimp only at hscan
      unfold Tg2s3.list_objects at hscan
      generalize list_rows db r.bucket r.start s.lower s.lower_inclusive = rows at hcovers hscan
      by_cases hnil : rows.take batch = []
      · rw [if_pos hnil] at hscan
        obtain rfl := Option.some.inj hscan
        have : rows = [] := (List.take_eq_nil_iff.mp hnil).resolve_left hbatch.ne'
        exact ⟨shown, h.ended_of_covers_nil (this ▸ hcovers)⟩
      · rw [if_neg hnil] at hscan
        rw [← List.take_append_drop batch rows] at hcovers
        obtain ⟨shown', ⟨hrunning, hrest⟩ | ⟨hfinished, hcomplete⟩⟩ := scan_entries_spec h hcovers
        · split_ifs at hscan with hlast
          · obtain rfl := Option.some.inj hscan
            have hshort : (rows.take batch).length < batch :=
              hlast.resolve_left (by rw [hrunning.goes_on.1]; decide)
            rw [List.length_take] at hshort
            rw [List.drop_of_length_le (by omega)] at hrest
            exact ⟨shown', hrunning.ended_of_covers_nil hrest⟩
          · exact ih hrunning hscan
        · rw [if_pos (Or.inl hfinished)] at hscan
          obtain rfl := Option.some.inj hscan
          exact ⟨shown', hcomplete⟩

/-- At the start nothing is shown, and the bound is the marker. -/
theorem running_begin (hmax : 0 < r.max_keys) : Running db r r.begin [] where
  ordered :=
    { first := List.nil_prefix
      kept := fun {x} hx hlt _ =>
        decide_eq_true (hlt.trans_le (ListRequest.text_le hx.2))
      ahead := fun {x} _ hin => ⟨of_decide_eq_true hin, by simp⟩ }
  columns := ⟨rfl, rfl, fun c => Iff.rfl⟩
  room := hmax
  goes_on := ⟨rfl, rfl, rfl⟩

/-- The scan of a request, with the fuel that is always enough. -/
theorem scanned_eq (hmax : 0 < r.max_keys) :
    r.begin.scan_by db r SCAN_BATCH_SIZE (db.objects.length + 1) = some (scanned db r) := by
  unfold scanned
  rw [if_pos hmax, ← Scan.scan_eq_scan_by]
  exact (Option.some_get _).symm

/-- **A page** is the first texts after the marker. -/
theorem scanned_complete (hwf : WellFormed db) (hmax : 0 < r.max_keys) :
    ∃ shown, Complete db r (scanned db r) shown := by
  have hbatch : 0 < SCAN_BATCH_SIZE := by decide
  obtain ⟨shown, hended⟩ := scan_by_ended hwf hbatch _ (running_begin hmax) (scanned_eq hmax)
  exact ⟨shown, hended.complete⟩

end Page

end Tg2s3.S3
