/-
What a range of the index holds.

`list_objects` asks for the keys from a bound on that are below the successor of the
prefix. By the order of strings these are the keys with the prefix that are in bound,
so the two conditions of the query are one condition on the text and one on the bound.
-/
import Mathlib.Data.String.Basic
import Tg2s3.Lib.Utf8
import Tg2s3.Db.Object

set_option autoImplicit false

namespace Tg2s3

open Relational

/-! ## Strings with a given start -/

/-- The number of a character is a valid one. -/
theorem isValidChar_toNat (c : Char) : c.toNat.isValidChar := c.valid

/-- A character made from a number has this number. -/
theorem toNat_of_from_u32 {n : ℕ} {c : Char} (h : from_u32 n = some c) : c.toNat = n := by
  unfold from_u32 at h
  split_ifs at h with hvalid
  obtain rfl := Option.some.inj h
  rw [Char.ofNat, dif_pos hvalid]
  rfl

/-- **The next character** is a successor in the order: it skips the gap of the surrogates, and
the last one has none. This is all that the bounds of a prefix need. -/
theorem successor_next_char : Prefixes.Successor next_char where
  above {a b} h x := by
    unfold next_char at h
    have hb := toNat_of_from_u32 h
    have hx := isValidChar_toNat x
    have ha := isValidChar_toNat a
    unfold Nat.isValidChar at hx ha
    change a.toNat < x.toNat ↔ b.toNat ≤ x.toNat
    rw [hb]
    split_ifs <;> omega
  greatest {a} h x := by
    unfold next_char from_u32 at h
    have hx := isValidChar_toNat x
    have ha := isValidChar_toNat a
    unfold Nat.isValidChar at hx ha
    change x.toNat ≤ a.toNat
    dsimp only at h
    split_ifs at h with hgap hvalid hvalid <;> unfold Nat.isValidChar at hvalid <;> omega

/-- The keys under a prefix are an interval: from the prefix on, up to the successor of its last
character, if there is one. -/
theorem starts_with_iff (start key : String) :
    start.toList <+: key.toList
      ↔ start ≤ key ∧ ∀ bound, key_successor start = some bound → key < bound := by
  rw [Prefixes.isPrefix_iff successor_next_char, ← String.le_iff_toList_le]
  refine and_congr_right' ?_
  simp only [key_successor, Option.map_eq_some_iff]
  constructor
  · rintro h bound ⟨u, hu, rfl⟩
    rw [String.lt_iff_toList_lt, String.toList_ofList]
    exact h u hu
  · intro h u hu
    have := h _ ⟨u, hu, rfl⟩
    rwa [String.lt_iff_toList_lt, String.toList_ofList] at this

/-! ## The order of the keys -/

/-- What SQLite compares. -/
def key_bytes (key : String) : List UInt8 := Utf8.encode key.toList

/-- The database compares bytes, which is the order of the characters. -/
theorem key_bytes_lt_iff {s t : String} : key_bytes s < key_bytes t ↔ s < t := by
  rw [String.lt_iff_toList_lt]
  exact Utf8.encode_lt_iff

/-- With equality as well. -/
theorem key_bytes_le_iff {s t : String} : key_bytes s ≤ key_bytes t ↔ s ≤ t := by
  rw [String.le_iff_toList_le]
  exact Utf8.encode_le_iff

/-! ## Rows -/

/-- The keys of a bucket that start with the prefix. -/
def matching (db : Database) (bucket start : String) : Set String :=
  {key | (∃ row ∈ db.objects, row.bucket = bucket ∧ row.object_key = key)
    ∧ start.toList <+: key.toList}

/-- What is in the bound is not before it. -/
theorem le_of_in_bound {lower key : String} {inclusive : Bool}
    (h : in_bound lower inclusive key = true) : lower ≤ key := by
  unfold in_bound at h
  split_ifs at h
  · exact of_decide_eq_true h
  · exact (of_decide_eq_true h).le

/-- What is after the bound is in it, inclusive or not. -/
theorem in_bound_of_lt {lower key : String} (inclusive : Bool) (h : lower < key) :
    in_bound lower inclusive key = true := by
  unfold in_bound
  split_ifs
  · exact decide_eq_true h.le
  · exact decide_eq_true h

/-- And so is what comes later. -/
theorem in_bound_mono {lower key key' : String} {inclusive : Bool}
    (h : in_bound lower inclusive key = true) (hle : key ≤ key') :
    in_bound lower inclusive key' = true := by
  unfold in_bound at h ⊢
  split_ifs at h ⊢
  · exact decide_eq_true ((of_decide_eq_true h).trans hle)
  · exact decide_eq_true ((of_decide_eq_true h).trans_le hle)

/-- The two bounds of the query are the prefix and the marker. -/
theorem bounds_iff (start lower key : String) (inclusive : Bool) :
    (in_bound (if lower < start then (start, true) else (lower, inclusive)).1
        (if lower < start then (start, true) else (lower, inclusive)).2 key
      && (if start = "" then none else key_successor start).all (key < ·)) = true
      ↔ start.toList <+: key.toList ∧ in_bound lower inclusive key = true := by
  have hupper : (if start = "" then none else key_successor start) = key_successor start := by
    split_ifs with h
    · rw [h]; rfl
    · rfl
  rw [hupper, starts_with_iff, Bool.and_eq_true, Option.all_eq_true]
  simp only [decide_eq_true_eq]
  by_cases hlower : lower < start
  · rw [if_pos hlower]
    constructor
    · rintro ⟨hbound, hbelow⟩
      have hle := le_of_in_bound hbound
      exact ⟨⟨hle, hbelow⟩, in_bound_of_lt inclusive (hlower.trans_le hle)⟩
    · rintro ⟨⟨hle, hbelow⟩, -⟩
      exact ⟨decide_eq_true hle, hbelow⟩
  · rw [if_neg hlower]
    constructor
    · rintro ⟨hbound, hbelow⟩
      exact ⟨⟨(not_lt.mp hlower).trans (le_of_in_bound hbound), hbelow⟩, hbound⟩
    · rintro ⟨⟨-, hbelow⟩, hbound⟩
      exact ⟨hbound, hbelow⟩

/-- **The rows of a listing**: those of the bucket, with the prefix, in the bound. -/
theorem mem_list_rows {db : Database} {bucket start lower : String} {inclusive : Bool}
    {e : ListingRecord} :
    e ∈ list_rows db bucket start lower inclusive
      ↔ ∃ row ∈ db.objects, row.bucket = bucket ∧ start.toList <+: row.object_key.toList
        ∧ in_bound lower inclusive row.object_key = true ∧ row.listing = e := by
  unfold list_rows
  simp only [List.mem_insertionSort, List.mem_map, List.mem_filter, Bool.and_assoc]
  constructor
  · rintro ⟨row, ⟨hrow, hcond⟩, rfl⟩
    rw [Bool.and_eq_true, bounds_iff] at hcond
    exact ⟨row, hrow, of_decide_eq_true hcond.1, hcond.2.1, hcond.2.2, rfl⟩
  · rintro ⟨row, hrow, hbucket, hstart, hbound, rfl⟩
    refine ⟨row, ⟨hrow, ?_⟩, rfl⟩
    rw [Bool.and_eq_true, bounds_iff]
    exact ⟨decide_eq_true hbucket, hstart, hbound⟩

/-- Their keys match. -/
theorem matching_of_mem {db : Database} {bucket start lower : String} {inclusive : Bool}
    {e : ListingRecord} (h : e ∈ list_rows db bucket start lower inclusive) :
    e.key ∈ matching db bucket start ∧ in_bound lower inclusive e.key = true := by
  obtain ⟨row, hrow, hbucket, hstart, hbound, rfl⟩ := mem_list_rows.mp h
  exact ⟨⟨⟨row, hrow, hbucket, rfl⟩, hstart⟩, hbound⟩

/-- And every matching key in the bound has its row. -/
theorem exists_mem_list_rows {db : Database} {bucket start lower key : String} {inclusive : Bool}
    (hkey : key ∈ matching db bucket start) (hbound : in_bound lower inclusive key = true) :
    ∃ e ∈ list_rows db bucket start lower inclusive, e.key = key := by
  obtain ⟨⟨row, hrow, hbucket, rfl⟩, hstart⟩ := hkey
  exact ⟨row.listing, mem_list_rows.mpr ⟨row, hrow, hbucket, hstart, hbound, rfl⟩, rfl⟩

/-- The rows are in the order of their keys, without repetition. -/
theorem list_rows_pairwise {db : Database} (hwf : WellFormed db) (bucket start lower : String)
    (inclusive : Bool) :
    (list_rows db bucket start lower inclusive).Pairwise (·.key < ·.key) := by
  have hsorted : (list_rows db bucket start lower inclusive).Pairwise (·.key ≤ ·.key) :=
    List.pairwise_insertionSort _ _
  have hdistinct : (list_rows db bucket start lower inclusive).Pairwise (·.key ≠ ·.key) := by
    refine (List.Perm.pairwise_iff (fun h => h.symm) (List.perm_insertionSort _ _)).mpr ?_
    rw [List.pairwise_map, List.pairwise_filter]
    refine List.Pairwise.imp ?_ (List.pairwise_map.mp hwf.object_names)
    intro row row' hne hcond hcond' hkey
    simp only [Bool.and_assoc, Bool.and_eq_true, decide_eq_true_eq] at hcond hcond'
    exact hne (Prod.ext (hcond.1.trans hcond'.1.symm) hkey)
  exact (hsorted.and hdistinct).imp fun h => lt_of_le_of_ne h.1 h.2

/-! ## The successor is exact -/

/-- Nothing smaller bounds the keys with this start: it would have the start itself. -/
theorem key_successor_least {start bound other : String} (h : key_successor start = some bound)
    (hother : ∀ key : String, start.toList <+: key.toList → key < other) : bound ≤ other := by
  by_contra hlt
  rw [not_le] at hlt
  have habove : start < other := hother start (List.prefix_refl _)
  have hstart : start.toList <+: other.toList := by
    rw [starts_with_iff]
    refine ⟨habove.le, fun bound' hbound' => ?_⟩
    rw [h] at hbound'
    exact Option.some.inj hbound' ▸ hlt
  exact lt_irrefl _ (hother other hstart)

/-- What the query selects, in terms of the start alone. -/
theorem list_objects_eq (db : Database) (bucket start lower : String) (inclusive : Bool)
    (limit : ℕ) :
    list_objects db bucket start lower inclusive limit
      = (((db.objects.filter fun row => row.bucket = bucket
            && start.toList.isPrefixOf row.object_key.toList
            && in_bound lower inclusive row.object_key).map (·.listing)).insertionSort
          (·.key ≤ ·.key)).take limit := by
  unfold list_objects list_rows
  dsimp only
  congr 3
  refine List.filter_congr fun row _ => ?_
  rw [Bool.and_assoc, Bool.and_assoc]
  congr 1
  rw [Bool.eq_iff_iff, bounds_iff, Bool.and_eq_true, List.isPrefixOf_iff_prefix]

/-- **The successor of a prefix is its exact upper bound**, in the order of the bytes; and
where there is none, nothing above the prefix is without it. So the two bounds of the query
select the keys with the prefix and no others. That the bound is a text at all is in its
type: `from_u32` gives no other character. -/
theorem key_successor_exact (start : String) :
    (∀ bound, key_successor start = some bound →
      (∀ key : String, start.toList <+: key.toList
        ↔ key_bytes start ≤ key_bytes key ∧ key_bytes key < key_bytes bound)
      ∧ ∀ other : String,
          (∀ key : String, start.toList <+: key.toList → key_bytes key < key_bytes other) →
          key_bytes bound ≤ key_bytes other)
    ∧ (key_successor start = none →
      ∀ key : String, start.toList <+: key.toList ↔ key_bytes start ≤ key_bytes key)
    ∧ ∀ (db : Database) (bucket lower : String) (inclusive : Bool) (limit : ℕ),
        list_objects db bucket start lower inclusive limit
          = (((db.objects.filter fun row => row.bucket = bucket
                && start.toList.isPrefixOf row.object_key.toList
                && in_bound lower inclusive row.object_key).map (·.listing)).insertionSort
              (·.key ≤ ·.key)).take limit := by
  simp only [key_bytes_lt_iff, key_bytes_le_iff]
  refine ⟨fun bound hbound => ⟨fun key => ?_, fun other => key_successor_least hbound⟩,
    fun hnone key => ?_, fun db bucket lower => list_objects_eq db bucket start lower⟩
  · rw [starts_with_iff, hbound]
    exact and_congr_right' ⟨fun h => h bound rfl, fun h u hu => Option.some.inj hu ▸ h⟩
  · rw [starts_with_iff, hnone]
    exact ⟨fun h => h.1, fun h => ⟨h, fun u hu => (by cases hu)⟩⟩

end Tg2s3
