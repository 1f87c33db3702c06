/-
One page of a listing against the plain listing.

The plain listing takes every key with the prefix, puts in place of the keys of a group
their common prefix, sorts, and takes what comes first after the marker. The scan sees a
group at its first key and passes the rest with one bound.

A group has no such bound when no string comes after all of those that start with its
name, which is when the name consists of the greatest character alone. The scan then
passes the first key of the group and nothing else. As long as the page has room that is
only slower: the other keys show nothing new. But if the group is the last of a page, the
look for one more row finds the second key of the group, and the page says that there is
more. `Overlooked` is that case; in all others the page is the plain one, whatever the size
of the batches.
-/
import Mathlib
import Tg2s3.S3.Scan

set_option autoImplicit false

namespace Tg2s3.S3

open Relational

/-! ## The plain listing -/

/-- The keys of the bucket that start with the prefix. -/
def matching_keys (db : Database) (bucket start : String) : List String :=
  (db.objects.filter fun row =>
    row.bucket = bucket && start.toList.isPrefixOf row.object_key.toList).map (·.object_key)

/-- All matching keys without a delimiter after the prefix, and all common prefixes, each once
and in order. -/
def naive_listing (db : Database) (bucket start delimiter : String) : List String :=
  sorted_texts
    ((matching_keys db bucket start).filter (fun key => common_prefix_of key start delimiter = none)
      ++ (matching_keys db bucket start).filterMap (common_prefix_of · start delimiter))

/-- What of it comes after the marker. -/
def naive_after (db : Database) (r : ListRequest) : List String :=
  (naive_listing db r.bucket r.start r.delimiter).filter (r.after < ·)

structure Page where
  contents : List ListingRecord
  common_prefixes : List String
  truncated : Bool
  next_cursor : Option String
  deriving DecidableEq, Repr

def Scan.page (s : Scan) : Page where
  contents := s.contents
  common_prefixes := s.common_prefixes
  truncated := s.truncated
  next_cursor := s.next_cursor

def listing_of (db : Database) (bucket key : String) : Option ListingRecord :=
  (db.object? bucket key).map (·.listing)

/-- The first elements, whether there are more, and the last element as the cursor then. -/
def naive_page (db : Database) (r : ListRequest) : Page :=
  let first := (naive_after db r).take r.max_keys
  { contents := (first.filter fun t => !r.is_common t).filterMap (listing_of db r.bucket)
    common_prefixes := first.filter r.is_common
    truncated := r.max_keys < (naive_after db r).length
    next_cursor := if r.max_keys < (naive_after db r).length then first.getLast? else none }

/-- The page has the whole listing, which ends with a group without an upper bound and with a
second key. -/
def Overlooked (db : Database) (r : ListRequest) : Prop :=
  (naive_after db r).length = r.max_keys
    ∧ ∃ common, (naive_after db r).getLast? = some common ∧ key_successor common = none
      ∧ ∃ key ∈ matching_keys db r.bucket r.start, ∃ key' ∈ matching_keys db r.bucket r.start,
        key ≠ key' ∧ common_prefix_of key r.start r.delimiter = some common
          ∧ common_prefix_of key' r.start r.delimiter = some common

/-- The keys of the plain listing are the matching ones. -/
theorem mem_matching_keys {db : Database} {bucket start key : String} :
    key ∈ matching_keys db bucket start ↔ key ∈ matching db bucket start := by
  unfold matching_keys
  rw [List.mem_map]
  constructor
  · rintro ⟨row, hrow, rfl⟩
    obtain ⟨hrow, hcond⟩ := List.mem_filter.mp hrow
    rw [Bool.and_eq_true, decide_eq_true_eq, List.isPrefixOf_iff_prefix] at hcond
    exact ⟨⟨row, hrow, hcond.1, rfl⟩, hcond.2⟩
  · rintro ⟨⟨row, hrow, hbucket, rfl⟩, hstart⟩
    refine ⟨row, List.mem_filter.mpr ⟨hrow, ?_⟩, rfl⟩
    rw [Bool.and_eq_true, decide_eq_true_eq, List.isPrefixOf_iff_prefix]
    exact ⟨hbucket, hstart⟩

/-- The plain listing is what the keys show, each text once. -/
theorem naive_listing_eq (db : Database) (bucket start delimiter : String) :
    naive_listing db bucket start delimiter = all_texts db bucket start delimiter := by
  unfold naive_listing sorted_texts
  have hset : ((matching_keys db bucket start).filter
        (fun key => common_prefix_of key start delimiter = none)
      ++ (matching_keys db bucket start).filterMap (common_prefix_of · start delimiter)).toFinset
      = (all_texts db bucket start delimiter).toFinset := by
    ext t
    rw [List.mem_toFinset, List.mem_toFinset, mem_all_texts, List.mem_append, List.mem_filter,
      List.mem_filterMap, decide_eq_true_eq]
    constructor
    · rintro (⟨hkey, hnone⟩ | ⟨key, hkey, hsome⟩)
      · exact ⟨t, mem_matching_keys.mp hkey, text_of_none hnone⟩
      · exact ⟨key, mem_matching_keys.mp hkey, text_of_some hsome⟩
    · rintro ⟨key, hkey, rfl⟩
      cases hcommon : common_prefix_of key start delimiter with
      | none =>
          left
          rw [text_of_none hcommon]
          exact ⟨mem_matching_keys.mpr hkey, hcommon⟩
      | some common =>
          right
          rw [text_of_some hcommon]
          exact ⟨key, mem_matching_keys.mpr hkey, hcommon⟩
  rw [hset]
  exact List.toFinset_sort (· ≤ ·) ((all_texts_pairwise db bucket start delimiter).imp ne_of_lt)
    |>.mpr ((all_texts_pairwise db bucket start delimiter).imp le_of_lt)

/-- Its texts are what is left after the marker. -/
theorem naive_after_eq (db : Database) (r : ListRequest) : naive_after db r = r.remaining db := by
  unfold naive_after
  rw [naive_listing_eq]
  rfl

/-- An entry is shown with the columns of its row. -/
theorem listing_of_row {db : Database} (hwf : WellFormed db) {row : ObjectRow} {bucket : String}
    (hrow : row ∈ db.objects) (hbucket : row.bucket = bucket) :
    listing_of db bucket row.listing.key = some row.listing := by
  have hlookup : db.object? bucket row.object_key = some row :=
    lookup_eq_some hwf.object_names hrow (by rw [← hbucket]; rfl)
  unfold listing_of
  change (db.object? bucket row.object_key).map (·.listing) = _
  rw [hlookup]
  rfl

/-! ## The page of a scan that is over -/

section Page

variable {db : Database} {r : ListRequest} {s : Scan} {shown : List String} {key x : String}

/-- What lies behind a key is greater. -/
theorem Behind.lt (hkey : r.start.toList <+: key.toList) (hx : r.start.toList <+: x.toList)
    (h : Behind r key x) : key < x := by
  have hpass : Passes r (r.begin.advance r ⟨key, 0, "", 0⟩) key := passes_advance hkey
  exact hpass.progress hx ((in_bound_advance r r.begin _ x).mpr h)

/-- What lies behind a group and still shows its name: the group has no upper bound. -/
theorem Behind.same_text (hkey : r.start.toList <+: key.toList) (hx : r.start.toList <+: x.toList)
    (h : Behind r key x) (htext : r.text x = r.text key) :
    ∃ common, r.text key = common ∧ key_successor common = none
      ∧ common_prefix_of key r.start r.delimiter = some common
      ∧ common_prefix_of x r.start r.delimiter = some common := by
  have hgroups := grouping r.start r.delimiter
  have hlt := h.lt hkey hx
  cases hcommon : common_prefix_of key r.start r.delimiter with
  | none =>
      -- a key of its own is shown by no other
      have hkeytext := ListRequest.text_of_none hcommon
      rw [hkeytext] at htext
      cases hother : common_prefix_of x r.start r.delimiter with
      | none =>
          rw [ListRequest.text_of_none hother] at htext
          exact absurd hlt (by rw [htext]; exact lt_irrefl key)
      | some common =>
          rw [ListRequest.text_of_some hother] at htext
          have hname := hgroups.group_name hx hother
          rw [htext, hcommon] at hname
          cases hname
  | some common =>
      have hkeytext := ListRequest.text_of_some hcommon
      have hother : common_prefix_of x r.start r.delimiter = some common :=
        hgroups.group_of_text hkey hcommon (htext.trans hkeytext)
      refine ⟨common, hkeytext, ?_, rfl, hother⟩
      cases hsuccessor : key_successor common with
      | none => rfl
      | some bound =>
          unfold Behind at h
          rw [hcommon, Option.bind_some, hsuccessor] at h
          have hbelow := ((hgroups.interval hkey hcommon x hx).mp hother).2 bound hsuccessor
          exact absurd hbelow (not_lt.mpr h)

variable (h : Ended db r s shown)

include h

/-- **A page that has ended** shows the first of what is left, as many as asked for. -/
theorem Ended.shown_eq : shown = (naive_after db r).take r.max_keys := by
  rw [naive_after_eq]
  exact h.complete.page.taken

/-- **More is announced** when there is more, and in the overlooked case. -/
theorem Ended.truncated_iff :
    s.truncated = true ↔ r.max_keys < (naive_after db r).length ∨ Overlooked db r := by
  have hpair := ListRequest.remaining_pairwise (r := r) db
  have hshown := h.shown_eq
  have hremaining := naive_after_eq db r
  have hlength : shown.length = min r.max_keys (naive_after db r).length := by
    rw [hshown, List.length_take]
  constructor
  · intro htruncated
    have hfull : shown.length = r.max_keys := by
      by_contra hne
      have hshort := h.short (by omega)
      rw [htruncated] at hshort
      cases hshort
    obtain ⟨key, hstopped⟩ := h.stopped hfull
    obtain ⟨x, hx, hbehind⟩ := hstopped.probed.mp htruncated
    have hkey := hstopped.found
    by_cases hmore : r.max_keys < (naive_after db r).length
    · exact .inl hmore
    right
    have hall : (naive_after db r).length = r.max_keys := by omega
    have hwhole : shown = naive_after db r := by
      rw [hshown, List.take_of_length_le hall.le]
    have hlast : (naive_after db r).getLast? = some (r.text key) := by
      rw [← hwhole]
      exact hstopped.last
    -- what the look found shows a text that is on the page, the last one
    obtain ⟨front, hfront⟩ := List.getLast?_eq_some_iff.mp hlast
    have hmem : r.text key ∈ naive_after db r := by
      rw [hfront]
      exact List.mem_append_right _ (List.mem_singleton.mpr rfl)
    have hle : r.text key ≤ r.text x :=
      ListRequest.text_mono hkey.2 hx.2 (hbehind.lt hkey.2 hx.2).le
    have hafter : r.after < r.text key := by
      rw [hremaining] at hmem
      exact (ListRequest.mem_remaining.mp hmem).2
    have hxmem : r.text x ∈ naive_after db r := by
      rw [hremaining]
      exact ListRequest.mem_remaining.mpr ⟨⟨x, hx, rfl⟩, hafter.trans_le hle⟩
    have hsame : r.text x = r.text key := by
      rw [hfront] at hxmem
      rcases List.mem_append.mp hxmem with hin | hin
      · rw [← hremaining, hfront, List.pairwise_append] at hpair
        have hlt := hpair.2.2 _ hin _ (List.mem_singleton.mpr rfl)
        exact absurd hle (not_le.mpr hlt)
      · exact List.mem_singleton.mp hin
    obtain ⟨common, htext, hsuccessor, hcommon, hother⟩ := hbehind.same_text hkey.2 hx.2 hsame
    exact ⟨hall, common, by rw [hlast, htext], hsuccessor, key, mem_matching_keys.mpr hkey, x,
      mem_matching_keys.mpr hx, (hbehind.lt hkey.2 hx.2).ne, hcommon, hother⟩
  · rintro (hmore | ⟨hall, common, hlast, hsuccessor, k, hk, k', hk', hne, hgroup, hgroup'⟩)
    · by_contra hno
      have hnone : s.next_cursor = none := by
        have htruncated := h.complete.truncated
        rw [Bool.not_eq_true _ |>.mp hno] at htruncated
        cases hcursor : s.next_cursor with
        | none => rfl
        | some m =>
            rw [hcursor] at htruncated
            cases htruncated
      have hcomplete := h.complete.page.complete hnone
      have heq : shown.length = (naive_after db r).length := by
        rw [hremaining, hcomplete]
        rfl
      omega
    · have hwhole : shown = naive_after db r := by
        rw [hshown, List.take_of_length_le hall.le]
      obtain ⟨key, hstopped⟩ := h.stopped (by rw [hwhole, hall])
      have htext : r.text key = common := by
        have hlast' := hstopped.last
        rw [hwhole, hlast] at hlast'
        exact (Option.some.inj hlast').symm
      have hk := mem_matching_keys.mp hk
      have hk' := mem_matching_keys.mp hk'
      have hcommon : common_prefix_of key r.start r.delimiter = some common :=
        (grouping r.start r.delimiter).group_of_text hk.2 hgroup htext
      -- one of the two keys is not the one the scan stopped at
      have hbehind : ∀ y ∈ matching db r.bucket r.start,
          common_prefix_of y r.start r.delimiter = some common → y ≠ key → Behind r key y := by
        intro y hy hcommony hney
        have hle := hstopped.least y hy (by rw [htext, ListRequest.text_of_some hcommony])
        unfold Behind
        rw [hcommon, Option.bind_some, hsuccessor]
        exact lt_of_le_of_ne hle (Ne.symm hney)
      refine hstopped.probed.mpr ?_
      by_cases heq : k = key
      · exact ⟨k', hk', hbehind k' hk' hgroup' fun h => hne (heq.trans h.symm)⟩
      · exact ⟨k, hk, hbehind k hk hgroup heq⟩

/-- The cursor is the last element, when more is announced. -/
theorem Ended.cursor_eq :
    s.next_cursor
      = if s.truncated then ((naive_after db r).take r.max_keys).getLast? else none := by
  rw [h.complete.truncated]
  cases hcursor : s.next_cursor with
  | none => rfl
  | some m =>
      have hlast := h.complete.page.cursor hcursor
      rw [h.shown_eq] at hlast
      rw [hlast]
      rfl

/-- The columns are those of the plain page. -/
theorem Ended.columns (hwf : WellFormed db)
    (hrows : ∀ e ∈ s.contents, ∃ row ∈ db.objects, row.bucket = r.bucket ∧ row.listing = e) :
    s.contents = (naive_page db r).contents
      ∧ s.common_prefixes = (naive_page db r).common_prefixes := by
  have hlistings : ∀ l : List ListingRecord,
      (∀ e ∈ l, ∃ row ∈ db.objects, row.bucket = r.bucket ∧ row.listing = e) →
      (l.map (·.key)).filterMap (listing_of db r.bucket) = l := by
    intro l hl
    induction l with
    | nil => rfl
    | cons e l ih =>
        obtain ⟨row, hrow, hbucket, rfl⟩ := hl e List.mem_cons_self
        rw [List.map_cons, List.filterMap_cons, listing_of_row hwf hrow hbucket,
          ih fun e he => hl e (List.mem_cons_of_mem _ he)]
  unfold naive_page
  dsimp only
  rw [← h.shown_eq, ← h.complete.columns.contents, hlistings _ hrows]
  exact ⟨rfl, h.complete.columns.common_prefixes⟩

/-- **The page is the plain one** unless the end of the listing is overlooked. -/
theorem Ended.page_iff (hwf : WellFormed db)
    (hrows : ∀ e ∈ s.contents, ∃ row ∈ db.objects, row.bucket = r.bucket ∧ row.listing = e) :
    s.page = naive_page db r ↔ ¬ Overlooked db r := by
  obtain ⟨hcontents, hcommon⟩ := h.columns hwf hrows
  have htruncated := h.truncated_iff
  constructor
  · intro hpage hoverlooked
    have hflag : s.truncated = decide (r.max_keys < (naive_after db r).length) :=
      congrArg Page.truncated hpage
    rw [htruncated.mpr (.inr hoverlooked)] at hflag
    have hlt := of_decide_eq_true hflag.symm
    rw [hoverlooked.1] at hlt
    exact lt_irrefl _ hlt
  · intro hno
    have hflag : s.truncated = decide (r.max_keys < (naive_after db r).length) := by
      rw [Bool.eq_iff_iff, htruncated, decide_eq_true_eq, or_iff_left hno]
    have hcursor := h.cursor_eq
    rw [hflag] at hcursor
    unfold Scan.page
    rw [hcontents, hcommon, hcursor, hflag]
    unfold naive_page
    simp

end Page

/-- **One page equals the plain listing's**, with batches of any size, exactly when the end of the
listing is not overlooked; and the page does not depend on the size in any case. -/
theorem page_is_naive_iff {db : Database} {r : ListRequest} {batch fuel : ℕ} (hwf : WellFormed db)
    (hmax : 0 < r.max_keys) (hbatch : 0 < batch) (hfuel : db.objects.length < fuel) :
    ∃ s, r.begin.scan_by db r batch fuel = some s ∧ s.page = (scanned db r).page
      ∧ (s.page = naive_page db r ↔ ¬ Overlooked db r) := by
  have hrows : ∀ {batch fuel : ℕ} {s : Scan}, r.begin.scan_by db r batch fuel = some s →
      ∀ e ∈ s.contents, ∃ row ∈ db.objects, row.bucket = r.bucket ∧ row.listing = e := by
    intro batch fuel s hscan e he
    exact (contents_scan_by hscan he).resolve_left List.not_mem_nil
  have hrows_le : (list_rows db r.bucket r.start r.after false).length < db.objects.length + 1 :=
    length_list_rows_le r.after false
  have hfinishes : (r.begin.scan_by db r batch fuel).isSome = true :=
    scan_by_finishes batch fuel r.begin ((Nat.lt_succ_iff.mp hrows_le).trans_lt hfuel)
  obtain ⟨s, hscan⟩ := Option.isSome_iff_exists.mp hfinishes
  obtain ⟨shown, hended⟩ := scan_by_ended hwf hbatch fuel (running_begin hmax) hscan
  have hactual : r.begin.scan_by db r SCAN_BATCH_SIZE (db.objects.length + 1)
      = some (scanned db r) := scanned_eq hmax
  have hsize : 0 < SCAN_BATCH_SIZE := by decide
  obtain ⟨shown', hended'⟩ := scan_by_ended hwf hsize _ (running_begin hmax) hactual
  refine ⟨s, hscan, ?_, hended.page_iff hwf (hrows hscan)⟩
  obtain ⟨hcontents, hcommon⟩ := hended.columns hwf (hrows hscan)
  obtain ⟨hcontents', hcommon'⟩ := hended'.columns hwf (hrows hactual)
  have hflag : s.truncated = (scanned db r).truncated := by
    rw [Bool.eq_iff_iff, hended.truncated_iff, hended'.truncated_iff]
  have hcursor : s.next_cursor = (scanned db r).next_cursor := by
    rw [hended.cursor_eq, hended'.cursor_eq, hflag]
  unfold Scan.page
  rw [hcontents, hcontents', hcommon, hcommon', hflag, hcursor]

/-- An object with this key. -/
def object_at (id : Int) (bucket key : String) : ObjectRow where
  id := id
  bucket := bucket
  object_key := key
  size := 0
  etag := ""
  metadata := {}
  created_at := 0
  modified_at := 0

def folder : Database where
  buckets := [{ name := "b", created_at := 0 }]
  objects := [object_at 1 "b" "a/x", object_at 2 "b" "a/y", object_at 3 "b" "c"]

/-- A request for the first elements of the bucket `b`. -/
def first_of (delimiter : String) (max_keys : ℕ) : ListRequest where
  bucket := "b"
  start := ""
  delimiter := delimiter
  max_keys := max_keys
  is_v2 := true
  start_after := none
  marker := none
  continuation_token := none
  after := ""

/-- A page with one group, read row by row. -/
theorem page_is_naive_folder :
    ∃ s, (first_of "/" 1).begin.scan_by folder (first_of "/" 1) 1 4 = some s
      ∧ s.page = naive_page folder (first_of "/" 1) := by
  have hwf : WellFormed folder := by constructor <;> decide
  obtain ⟨s, hscan, -, hiff⟩ := page_is_naive_iff (r := first_of "/" 1) hwf (by decide)
    Nat.one_pos (show folder.objects.length < 4 by decide)
  refine ⟨s, hscan, hiff.mpr ?_⟩
  rintro ⟨-, common, -, hnone, key, hkey, key', -, -, hgroup, -⟩
  have hbounded : ∀ key ∈ matching_keys folder "b" "",
      (common_prefix_of key "" "/").bind key_successor = none →
      common_prefix_of key "" "/" = none := by decide
  change common_prefix_of key "" "/" = some common at hgroup
  have hno := hbounded key hkey (by rw [hgroup, Option.bind_some, hnone])
  rw [hgroup] at hno
  cases hno

/-- The greatest character. -/
def max_char : Char := Char.ofNat 0x10FFFF

def last_group : Database where
  buckets := [{ name := "b", created_at := 0 }]
  objects := [object_at 1 "b" (String.ofList [max_char, 'x']),
    object_at 2 "b" (String.ofList [max_char, 'y'])]

/-- **Failing input**: two keys below the greatest character as the delimiter. The listing has one
element, and a page of one element says that there is more. -/
theorem last_group_overlooked :
    (scanned last_group (first_of (String.ofList [max_char]) 1)).page
        = { contents := [], common_prefixes := [String.ofList [max_char]], truncated := true,
            next_cursor := some (String.ofList [max_char]) }
      ∧ naive_after last_group (first_of (String.ofList [max_char]) 1)
        = [String.ofList [max_char]]
      ∧ (scanned last_group (first_of (String.ofList [max_char]) 1)).page
        ≠ naive_page last_group (first_of (String.ofList [max_char]) 1) := by
  decide +kernel

end Tg2s3.S3
