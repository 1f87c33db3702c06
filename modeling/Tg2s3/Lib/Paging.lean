/-
Listings in pages, of elements and of groups of elements.

A *grouping* of an ordered set is a partial function whose fibres are intervals, each
with its name at its lower end. `text` is what a listing shows of an element: the name
of its group, or the element itself. It is monotone, and an element lies beyond a group
if and only if it shows a greater text: so a search can pass a group with one
comparison, and a listing can go on from a text it has shown.

A *page* of a strictly sorted listing is what comes first after a marker. The marker of
the next page is the last text of this one.
-/
import Mathlib.Data.List.Sort

set_option autoImplicit false

namespace Tg2s3.Paging

/-! ## Groups -/

section Text

variable {β : Type*}

/-- What a listing shows of an element. -/
def text (group : β → Option β) (k : β) : β := (group k).getD k

theorem text_of_none {group : β → Option β} {k : β} (h : group k = none) : text group k = k := by
  rw [text, h, Option.getD_none]

theorem text_of_some {group : β → Option β} {k c : β} (h : group k = some c) :
    text group k = c := by
  rw [text, h, Option.getD_some]

end Text

variable {β : Type*} [LinearOrder β]

/-- The elements of a group are an interval that starts at its name; `upper` bounds it. -/
structure Grouping (S : Set β) (group upper : β → Option β) : Prop where
  closed {k c : β} : k ∈ S → group k = some c → c ∈ S
  interval {k c : β} : k ∈ S → group k = some c →
    ∀ x ∈ S, group x = some c ↔ c ≤ x ∧ ∀ u, upper c = some u → x < u

namespace Grouping

variable {S : Set β} {group upper : β → Option β} (h : Grouping S group upper)

include h

theorem name_le {k c : β} (hk : k ∈ S) (hc : group k = some c) : c ≤ k :=
  ((h.interval hk hc k hk).mp hc).1

theorem group_name {k c : β} (hk : k ∈ S) (hc : group k = some c) : group c = some c := by
  have hbelow := ((h.interval hk hc k hk).mp hc).2
  exact (h.interval hk hc c (h.closed hk hc)).mpr
    ⟨le_rfl, fun u hu => (h.name_le hk hc).trans_lt (hbelow u hu)⟩

theorem text_le {k : β} (hk : k ∈ S) : text group k ≤ k := by
  cases hc : group k with
  | none => rw [text_of_none hc]
  | some c => rw [text_of_some hc]; exact h.name_le hk hc

theorem text_mono {k k' : β} (hk : k ∈ S) (hk' : k' ∈ S) (hle : k ≤ k') :
    text group k ≤ text group k' := by
  cases hc : group k' with
  | none => rw [text_of_none hc]; exact (h.text_le hk).trans hle
  | some c =>
      rw [text_of_some hc]
      by_cases hck : c ≤ k
      · -- `k` lies in the group of `k'`
        have hbelow := ((h.interval hk' hc k' hk').mp hc).2
        have := (h.interval hk' hc k hk).mpr ⟨hck, fun u hu => hle.trans_lt (hbelow u hu)⟩
        rw [text_of_some this]
      · exact (h.text_le hk).trans (not_le.mp hck).le

/-- What shows the name of a group is in it. -/
theorem group_of_text {k c x : β} (hk : k ∈ S) (hc : group k = some c)
    (hx : text group x = c) : group x = some c := by
  cases hgx : group x with
  | none =>
      rw [text_of_none hgx] at hx
      rw [hx, h.group_name hk hc] at hgx
      cases hgx
  | some d => rw [← hx, text_of_some hgx]

/-- Beyond the bound of a group is what shows a greater text. -/
theorem upper_le_iff {k c u x : β} (hk : k ∈ S) (hc : group k = some c)
    (hu : upper c = some u) (hx : x ∈ S) : u ≤ x ↔ c < text group x := by
  have hmem := h.interval hk hc
  constructor
  · intro hux
    have hkx : k ≤ x := ((hmem k hk).mp hc |>.2 u hu).le.trans hux
    have hle : c ≤ text group x := by
      rw [← text_of_some hc]
      exact h.text_mono hk hx hkx
    refine lt_of_le_of_ne hle (fun heq => ?_)
    have hgx := h.group_of_text hk hc heq.symm
    exact absurd (((hmem x hx).mp hgx).2 u hu) (not_lt_of_ge hux)
  · intro hlt
    by_contra hxu
    by_cases hcx : c ≤ x
    · have hgx := (hmem x hx).mpr ⟨hcx, fun u' hu' => by
        rw [hu] at hu'
        obtain rfl := Option.some.inj hu'
        exact not_le.mp hxu⟩
      rw [text_of_some hgx] at hlt
      exact lt_irrefl c hlt
    · exact absurd (h.text_le hx) (not_le_of_gt ((not_le.mp hcx).trans hlt))

end Grouping

/-! ## Pages -/

/-- What of a listing comes after a marker. -/
def remaining (all : List β) (marker : β) : List β := all.filter (marker < ·)

theorem mem_remaining {all : List β} {marker t : β} :
    t ∈ remaining all marker ↔ t ∈ all ∧ marker < t := by
  simp [remaining]

theorem remaining_pairwise {all : List β} (hsorted : all.Pairwise (· < ·)) (marker : β) :
    (remaining all marker).Pairwise (· < ·) :=
  hsorted.filter _

/-- The first `n` texts after the marker; the next marker, if there is one, is the last
of them. -/
structure IsPage (all : List β) (n : ℕ) (marker : β) (page : List β) (next : Option β) : Prop where
  taken : page = (remaining all marker).take n
  complete : next = none → page = remaining all marker
  cursor {m : β} : next = some m → page.getLast? = some m

/-- Where a page ends, the next one goes on. -/
theorem IsPage.remaining_eq {all page : List β} {n : ℕ} {marker m : β}
    (hsorted : all.Pairwise (· < ·)) (h : IsPage all n marker page (some m)) :
    remaining all marker = page ++ remaining all m := by
  obtain ⟨rest, hrest⟩ : page <+: remaining all marker := h.taken ▸ List.take_prefix n _
  obtain ⟨front, hfront⟩ := List.getLast?_eq_some_iff.mp (h.cursor rfl)
  have hpair := remaining_pairwise hsorted marker
  rw [← hrest, hfront, List.pairwise_append] at hpair
  obtain ⟨hpage, -, hcross⟩ := hpair
  rw [List.pairwise_append] at hpage
  have hm : marker < m := by
    have : m ∈ remaining all marker := by rw [← hrest, hfront]; simp
    exact (mem_remaining.mp this).2
  have hagain : remaining all m = (remaining all marker).filter (m < ·) := by
    unfold remaining
    rw [List.filter_filter]
    refine List.filter_congr (fun t _ => ?_)
    by_cases hlt : m < t
    · simp [hlt, hm.trans hlt]
    · simp [hlt]
  have hpassed : page.filter (m < ·) = [] := by
    refine List.filter_eq_nil_iff.mpr (fun t ht => ?_)
    rw [hfront] at ht
    rcases List.mem_append.mp ht with ht | ht
    · simpa using (hpage.2.2 t ht m (by simp)).le
    · simpa using (List.mem_singleton.mp ht).le
  have hkept : rest.filter (m < ·) = rest :=
    List.filter_eq_self.mpr (fun t ht => by simpa using hcross m (by simp) t ht)
  rw [hagain, ← hrest, List.filter_append, hpassed, hkept, List.nil_append]

/-- The next text of a sorted listing is the least one that is still missing. -/
theorem isPrefix_concat {done all : List β} {t : β} (hsorted : all.Pairwise (· < ·))
    (hdone : done <+: all) (ht : t ∈ all) (hnew : t ∉ done)
    (hleast : ∀ x ∈ all, x ∉ done → t ≤ x) : done ++ [t] <+: all := by
  obtain ⟨rest, rfl⟩ := hdone
  rw [List.pairwise_append] at hsorted
  obtain ⟨-, hrest, hcross⟩ := hsorted
  have ht' : t ∈ rest := (List.mem_append.mp ht).resolve_left hnew
  cases rest with
  | nil => cases ht'
  | cons d rest =>
      have hd : d ∉ done := fun hd => lt_irrefl d (hcross d hd d List.mem_cons_self)
      have htd := hleast d (by simp) hd
      have hdt : d ≤ t := by
        rcases List.mem_cons.mp ht' with rfl | ht'
        · exact le_rfl
        · exact (List.rel_of_pairwise_cons hrest ht').le
      obtain rfl := le_antisymm htd hdt
      exact ⟨rest, by simp⟩

/-- Nothing is missing. -/
theorem eq_of_isPrefix {done all : List β} (hsorted : all.Pairwise (· < ·))
    (hdone : done <+: all) (hall : ∀ x ∈ all, x ∈ done) : done = all := by
  obtain ⟨rest, rfl⟩ := hdone
  rw [List.pairwise_append] at hsorted
  cases rest with
  | nil => rw [List.append_nil]
  | cons d rest =>
      have hd := hall d (by simp)
      exact absurd (hsorted.2.2 d hd d List.mem_cons_self) (lt_irrefl d)

/-- Two columns of a sorted listing, put together again. -/
theorem insertionSort_columns {all : List β} (hsorted : all.Pairwise (· < ·)) (p : β → Bool) :
    (all.filter (fun t => !p t) ++ all.filter p).insertionSort (· ≤ ·) = all := by
  have hperm : (all.filter (fun t => !p t) ++ all.filter p).insertionSort (· ≤ ·) |>.Perm all :=
    (List.perm_insertionSort _ _).trans
      (List.perm_append_comm.trans (List.filter_append_perm p all))
  refine hperm.eq_of_pairwise (fun a b _ _ => le_antisymm) ?_ (hsorted.imp le_of_lt)
  exact List.pairwise_insertionSort _ _

end Tg2s3.Paging
