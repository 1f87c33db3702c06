/-
Relational tables as lists of rows.

A table is the list of its rows in insertion order. The four statement shapes
every SQL program is made of -- an insert that fails on a duplicate key, an
insert that ignores one, an update and a delete with a condition -- are list
operations, and what a later proof needs of them is always the same: which rows
are there afterwards, whether keys are still unique, and how many rows refer to
a given key.

`nextRowid` is the allocator of an `INTEGER PRIMARY KEY` without
`AUTOINCREMENT`: one more than the largest key *now in the table*. It is fresh
for the rows that are there and promises nothing about the rows that were.
-/
import Mathlib.Data.List.Nodup
import Mathlib.Data.List.Count
import Mathlib.Tactic.Common
import Mathlib.Tactic.SplitIfs

set_option autoImplicit false

namespace Relational

variable {α κ : Type*} [DecidableEq κ]

/-! ## Statements -/

/-- The key SQLite assigns to a new row of an `INTEGER PRIMARY KEY` table. -/
def nextRowid (ids : List Int) : Int :=
  match ids.max? with
  | none => 1
  | some m => m + 1

/-- `INSERT` into a table with a unique key; `none` is the constraint error. -/
def insertUnique (key : α → κ) (row : α) (rows : List α) : Option (List α) :=
  if key row ∈ rows.map key then none else some (rows ++ [row])

/-- `INSERT OR IGNORE`. -/
def insertOrIgnore (key : α → κ) (row : α) (rows : List α) : List α :=
  if key row ∈ rows.map key then rows else rows ++ [row]

/-- `UPDATE ... SET f WHERE p`. -/
def updateWhere (p : α → Prop) [DecidablePred p] (f : α → α) (rows : List α) : List α :=
  rows.map (fun r => if p r then f r else r)

/-- `DELETE ... WHERE p`. -/
def deleteWhere (p : α → Prop) [DecidablePred p] (rows : List α) : List α :=
  rows.filter (fun r => ¬ p r)

/-- `INSERT OR REPLACE`: a row with the same key makes room. -/
def insertOrReplace (key : α → κ) (row : α) (rows : List α) : List α :=
  deleteWhere (fun r => key r = key row) rows ++ [row]

/-- The number of rows whose foreign key `fk` is `k`. -/
def references (fk : α → κ) (k : κ) (rows : List α) : ℕ :=
  rows.countP (fun r => fk r = k)

/-! ## The allocator -/

/-- The next row id is larger than those that are there. -/
theorem lt_nextRowid {ids : List Int} {i : Int} (hi : i ∈ ids) : i < nextRowid ids := by
  unfold nextRowid
  cases hm : ids.max? with
  | none => rw [List.max?_eq_none_iff.mp hm] at hi; simp at hi
  | some m =>
      have hle : i ≤ m := (List.max?_le_iff hm).mp (Int.le_refl m) i hi
      simp only
      omega

/-- The new key is fresh for the rows in the table. -/
theorem nextRowid_not_mem (ids : List Int) : nextRowid ids ∉ ids :=
  fun h => Int.lt_irrefl _ (lt_nextRowid h)

/-- Row ids start at one. -/
theorem nextRowid_pos {ids : List Int} (h : ∀ i ∈ ids, 0 < i) : 0 < nextRowid ids := by
  cases ids with
  | nil => simp [nextRowid]
  | cons i ids =>
      have h1 := h i (by simp)
      have h2 : i < nextRowid (i :: ids) := lt_nextRowid (by simp)
      omega

/-! ## Rows after a statement -/

/-- An insertion goes through if the key is free; the row comes last. -/
theorem insertUnique_eq_some {key : α → κ} {row : α} {rows rows' : List α} :
    insertUnique key row rows = some rows' ↔
      key row ∉ rows.map key ∧ rows' = rows ++ [row] := by
  unfold insertUnique
  split_ifs with h
  · simp [h]
  · simp only [Option.some.injEq, h, not_false_eq_true, true_and]
    exact eq_comm

/-- An insertion that may be ignored brings no other row. -/
theorem mem_insertOrIgnore {key : α → κ} {row r : α} {rows : List α}
    (h : r ∈ insertOrIgnore key row rows) : r ∈ rows ∨ r = row := by
  unfold insertOrIgnore at h
  split_ifs at h
  · exact Or.inl h
  · simpa using h

/-- And it loses none. -/
theorem subset_insertOrIgnore {key : α → κ} {row r : α} {rows : List α} (h : r ∈ rows) :
    r ∈ insertOrIgnore key row rows := by
  unfold insertOrIgnore
  split_ifs
  · exact h
  · exact List.mem_append_left _ h

/-- Whichever way it goes, the key is there afterwards. -/
theorem key_mem_insertOrIgnore (key : α → κ) (row : α) (rows : List α) (k : κ) :
    k ∈ (insertOrIgnore key row rows).map key ↔ k = key row ∨ k ∈ rows.map key := by
  unfold insertOrIgnore
  split_ifs with h
  · constructor
    · exact Or.inr
    · rintro (rfl | hk)
      · exact h
      · exact hk
  · simp [or_comm]

/-- What is left does not meet the condition. -/
theorem mem_deleteWhere {p : α → Prop} [DecidablePred p] {rows : List α} {r : α} :
    r ∈ deleteWhere p rows ↔ r ∈ rows ∧ ¬ p r := by
  simp [deleteWhere]

/-- Nothing is deleted where nothing meets it. -/
theorem deleteWhere_eq_self {p : α → Prop} [DecidablePred p] {rows : List α}
    (h : ∀ r ∈ rows, ¬ p r) : deleteWhere p rows = rows := by
  unfold deleteWhere
  rw [List.filter_eq_self]
  exact fun r hr => by simpa using h r hr

/-- A row after an update comes from one before it. -/
theorem mem_updateWhere {p : α → Prop} [DecidablePred p] {f : α → α} {rows : List α} {r : α} :
    r ∈ updateWhere p f rows ↔ ∃ r₀ ∈ rows, (if p r₀ then f r₀ else r₀) = r := by
  simp [updateWhere]

/-- Nothing is updated where nothing meets the condition. -/
theorem updateWhere_eq_self {p : α → Prop} [DecidablePred p] {f : α → α} {rows : List α}
    (h : ∀ r ∈ rows, ¬ p r) : updateWhere p f rows = rows := by
  unfold updateWhere
  rw [List.map_congr_left (fun r hr => if_neg (h r hr)), List.map_id']

/-- An update that leaves a column alone leaves the column's values alone. -/
theorem map_updateWhere {β : Type*} {p : α → Prop} [DecidablePred p] {f : α → α} {g : α → β}
    (hg : ∀ r, g (f r) = g r) (rows : List α) : (updateWhere p f rows).map g = rows.map g := by
  unfold updateWhere
  rw [List.map_map]
  refine List.map_congr_left (fun r _ => ?_)
  simp only [Function.comp_apply]
  split_ifs
  · exact hg r
  · rfl

/-! ## Keys stay unique -/

omit [DecidableEq κ] in
/-- A new key keeps the keys distinct. -/
theorem nodup_append_singleton {key : α → κ} {row : α} {rows : List α}
    (h : (rows.map key).Nodup) (hnew : key row ∉ rows.map key) :
    ((rows ++ [row]).map key).Nodup := by
  rw [List.map_append, List.map_singleton]
  exact List.Nodup.append h (List.nodup_singleton _) (by simpa using hnew)

/-- Inserting row by row goes well exactly if no key comes twice. -/
theorem foldlM_insertUnique (key : α → κ) (new rows : List α) (h : (rows.map key).Nodup) :
    new.foldlM (fun rows row => insertUnique key row rows) rows
      = if ((rows ++ new).map key).Nodup then some (rows ++ new) else none := by
  induction new generalizing rows with
  | nil => rw [List.append_nil, if_pos h, List.foldlM_nil, Option.pure_def]
  | cons row new ih =>
      have hsplit : rows ++ row :: new = (rows ++ [row]) ++ new := by
        rw [List.append_assoc, List.singleton_append]
      rw [List.foldlM_cons, hsplit]
      by_cases hnew : key row ∈ rows.map key
      · have hnot : ¬ (((rows ++ [row]) ++ new).map key).Nodup := by
          rw [List.map_append, List.map_append, List.map_singleton]
          intro hnodup
          have hdisjoint := List.disjoint_of_nodup_append (List.nodup_append.mp hnodup).1
          exact hdisjoint hnew (List.mem_singleton.mpr rfl)
        rw [if_neg hnot]
        unfold insertUnique
        rw [if_pos hnew]
        rfl
      · have hins : insertUnique key row rows = some (rows ++ [row]) := if_neg hnew
        rw [hins]
        exact ih (rows ++ [row]) (nodup_append_singleton h hnew)

/-- An ignored insertion keeps them distinct as well. -/
theorem nodup_insertOrIgnore {key : α → κ} {row : α} {rows : List α}
    (h : (rows.map key).Nodup) : ((insertOrIgnore key row rows).map key).Nodup := by
  unfold insertOrIgnore
  split_ifs with hin
  · exact h
  · exact nodup_append_singleton h hin

/-- And a deletion leaves distinct what was. -/
theorem nodup_deleteWhere {β : Type*} {g : α → β} {p : α → Prop} [DecidablePred p]
    {rows : List α} (h : (rows.map g).Nodup) : ((deleteWhere p rows).map g).Nodup :=
  (List.Sublist.map g List.filter_sublist).nodup h

/-- With unique keys, two rows with one key are one row. -/
theorem eq_of_key_eq {β : Type*} {key : α → β} {rows : List α} (h : (rows.map key).Nodup)
    {r₁ r₂ : α} (h₁ : r₁ ∈ rows) (h₂ : r₂ ∈ rows) (hk : key r₁ = key r₂) : r₁ = r₂ :=
  List.inj_on_of_nodup_map h h₁ h₂ hk

/-! ## Looking a row up by its key -/

/-- `SELECT ... WHERE key = k` on a unique key. -/
def lookup (key : α → κ) (k : κ) (rows : List α) : Option α :=
  rows.find? (fun r => key r = k)

/-- What is found is a row with this key. -/
theorem lookup_mem {key : α → κ} {k : κ} {rows : List α} {r : α}
    (h : lookup key k rows = some r) : r ∈ rows ∧ key r = k :=
  ⟨List.mem_of_find?_eq_some h, by simpa using List.find?_some h⟩

/-- With distinct keys, a row is found under its own. -/
theorem lookup_eq_some {key : α → κ} {k : κ} {rows : List α} (hnd : (rows.map key).Nodup)
    {r : α} (hr : r ∈ rows) (hk : key r = k) : lookup key k rows = some r := by
  cases hl : lookup key k rows with
  | none =>
      have := List.find?_eq_none.mp hl r hr
      simp [hk] at this
  | some r' =>
      obtain ⟨hr', hk'⟩ := lookup_mem hl
      rw [eq_of_key_eq hnd hr' hr (hk'.trans hk.symm)]

/-- Nothing is found under a key that no row has. -/
theorem lookup_eq_none {key : α → κ} {k : κ} {rows : List α} :
    lookup key k rows = none ↔ k ∉ rows.map key := by
  unfold lookup
  rw [List.find?_eq_none]
  simp

/-- And something under any other. -/
theorem lookup_isSome {key : α → κ} {k : κ} {rows : List α} :
    (∃ r, lookup key k rows = some r) ↔ k ∈ rows.map key := by
  rw [← not_iff_not, ← lookup_eq_none]
  cases lookup key k rows <;> simp

/-- A new row is found under its key, and every other one where it was. -/
@[simp] theorem lookup_append_singleton {key : α → κ} {k : κ} {rows : List α} {row : α}
    (h : key row ∉ rows.map key) :
    lookup key k (rows ++ [row]) = if k = key row then some row else lookup key k rows := by
  unfold lookup
  rw [List.find?_append]
  by_cases hk : k = key row
  · subst hk
    have hnone : rows.find? (fun r => key r = key row) = none := lookup_eq_none.mpr h
    simp [hnone]
  · rw [if_neg hk]
    have : List.find? (fun r => decide (key r = k)) [row] = none := by
      simp [Ne.symm hk]
    rw [this, Option.or_none]

/-- An update by key acts on the row with that key and on no other. -/
theorem lookup_updateWhere {key : α → κ} {f : α → α} (hf : ∀ r, key (f r) = key r)
    (p : α → Prop) [DecidablePred p] (k : κ) (rows : List α) :
    lookup key k (updateWhere p f rows)
      = (lookup key k rows).map (fun r => if p r then f r else r) := by
  unfold lookup updateWhere
  induction rows with
  | nil => rfl
  | cons r rows ih =>
      have hkey : key (if p r then f r else r) = key r := by split_ifs <;> simp [hf]
      rw [List.map_cons, List.find?_cons, List.find?_cons]
      simp only [hkey]
      by_cases hk : key r = k
      · simp [hk]
      · simp only [hk, decide_false]
        exact ih

/-- After a deletion a row is found if it was before and has not been deleted. -/
theorem lookup_deleteWhere {key : α → κ} {k : κ} {rows : List α} (hnd : (rows.map key).Nodup)
    (p : α → Prop) [DecidablePred p] :
    lookup key k (deleteWhere p rows) = (lookup key k rows).filter (fun r => ¬ p r) := by
  cases hl : lookup key k rows with
  | none =>
      rw [lookup_eq_none] at hl
      rw [Option.filter_none, lookup_eq_none]
      intro hin
      obtain ⟨r, hr, hk⟩ := List.mem_map.mp hin
      exact hl (List.mem_map.mpr ⟨r, (mem_deleteWhere.mp hr).1, hk⟩)
  | some r =>
      obtain ⟨hr, hk⟩ := lookup_mem hl
      by_cases hp : p r
      · simp only [Option.filter_some, hp, not_true_eq_false, decide_false, Bool.false_eq_true,
          if_false]
        rw [lookup_eq_none]
        intro hin
        obtain ⟨r', hr', hk'⟩ := List.mem_map.mp hin
        obtain ⟨hr'', hnp⟩ := mem_deleteWhere.mp hr'
        exact hnp (eq_of_key_eq hnd hr'' hr (hk'.trans hk.symm) ▸ hp)
      · simp only [Option.filter_some, hp, not_false_eq_true, decide_true, if_true]
        exact lookup_eq_some (nodup_deleteWhere hnd) (mem_deleteWhere.mpr ⟨hr, hp⟩) hk

/-- A delete by key takes the row with that key and no other. -/
theorem lookup_delete_key (key : α → κ) (k k' : κ) (rows : List α) :
    lookup key k (deleteWhere (fun r => key r = k') rows)
      = if k = k' then none else lookup key k rows := by
  unfold lookup deleteWhere
  rw [List.find?_filter]
  split_ifs with hk
  · subst hk
    simp
  · congr 1
    funext r
    have hne : key r = k → ¬ key r = k' := fun h h' => hk (h.symm.trans h')
    by_cases hr : key r = k <;> simp [hr, hk]

/-- A key that was deleted is free. -/
theorem key_not_mem_delete (key : α → κ) (row : α) (rows : List α) :
    key row ∉ (deleteWhere (fun r => key r = key row) rows).map key := by
  intro hin
  obtain ⟨r, hr, hkey⟩ := List.mem_map.mp hin
  exact (mem_deleteWhere.mp hr).2 hkey

/-- A row that replaces another is found in its place. -/
theorem lookup_insertOrReplace (key : α → κ) (row : α) (rows : List α) (k : κ) :
    lookup key k (insertOrReplace key row rows)
      = if k = key row then some row else lookup key k rows := by
  unfold insertOrReplace
  rw [lookup_append_singleton (key_not_mem_delete key row rows), lookup_delete_key]
  split_ifs <;> rfl

/-- To replace a row keeps the keys distinct. -/
theorem nodup_insertOrReplace {key : α → κ} {row : α} {rows : List α}
    (h : (rows.map key).Nodup) : ((insertOrReplace key row rows).map key).Nodup :=
  nodup_append_singleton (nodup_deleteWhere h) (key_not_mem_delete key row rows)

/-! ## Counting references -/

/-- An empty table refers to nothing. -/
@[simp] theorem references_nil (fk : α → κ) (k : κ) : references fk k ([] : List α) = 0 := rfl

/-- References are counted table by table. -/
@[simp] theorem references_append (fk : α → κ) (k : κ) (l₁ l₂ : List α) :
    references fk k (l₁ ++ l₂) = references fk k l₁ + references fk k l₂ :=
  List.countP_append

/-- The rows that go and the rows that stay are all the rows. -/
theorem references_deleteWhere (fk : α → κ) (k : κ) (p : α → Prop) [DecidablePred p]
    (rows : List α) :
    references fk k (deleteWhere p rows) + references fk k (rows.filter (fun r => p r))
      = references fk k rows := by
  unfold references deleteWhere
  induction rows with
  | nil => rfl
  | cons r rows ih =>
      simp only [List.filter_cons, List.countP_cons, decide_not, Bool.not_eq_true',
        decide_eq_false_iff_not, decide_eq_true_eq] at ih ⊢
      by_cases hp : p r
      · simp only [hp, not_true_eq_false, if_false, if_true, List.countP_cons,
          decide_eq_true_eq] at ih ⊢
        omega
      · simp only [hp, not_false_eq_true, if_true, if_false, List.countP_cons,
          decide_eq_true_eq] at ih ⊢
        omega

/-- There is a reference if some row has the key. -/
theorem references_pos {fk : α → κ} {k : κ} {rows : List α} :
    0 < references fk k rows ↔ ∃ r ∈ rows, fk r = k := by
  unfold references
  rw [List.countP_pos_iff]
  simp

/-- There is none if no row has it. -/
theorem references_eq_zero {fk : α → κ} {k : κ} {rows : List α} :
    references fk k rows = 0 ↔ ∀ r ∈ rows, fk r ≠ k := by
  unfold references
  rw [List.countP_eq_zero]
  simp

/-- The foreign keys of a table, as a list, count the references. -/
theorem count_map_eq_references (fk : α → κ) (k : κ) (rows : List α) :
    (rows.map fk).count k = references fk k rows := by
  unfold references
  rw [List.count, List.countP_map]
  rfl

/-- The order of the rows does not matter. -/
theorem references_perm {fk : α → κ} {k : κ} {l₁ l₂ : List α} (h : l₁.Perm l₂) :
    references fk k l₁ = references fk k l₂ :=
  h.countP_eq _

/-! ## Rows of somebody else -/

/-- The second table is the first one, followed by rows with these keys. -/
def ExtendedBy (key : α → κ) (mine : List κ) (rows rows' : List α) : Prop :=
  ∃ new, rows' = rows ++ new ∧ ∀ r ∈ new, key r ∈ mine

namespace ExtendedBy

variable {key : α → κ} {mine : List κ} {rows rows' : List α}

omit [DecidableEq κ]

/-- A table extends itself. -/
theorem refl (key : α → κ) (mine : List κ) (rows : List α) : ExtendedBy key mine rows rows :=
  ⟨[], (List.append_nil rows).symm, fun _ h => (by cases h)⟩

/-- A row of the extension was there, or has a key of one's own. -/
theorem mem (h : ExtendedBy key mine rows rows') {r : α} (hr : r ∈ rows') :
    r ∈ rows ∨ key r ∈ mine := by
  obtain ⟨new, rfl, hnew⟩ := h
  exact (List.mem_append.mp hr).imp_right (hnew r)

/-- More rows with keys of one's own. -/
theorem append (h : ExtendedBy key mine rows rows') {more : List α}
    (hmore : ∀ r ∈ more, key r ∈ mine) : ExtendedBy key mine rows (rows' ++ more) := by
  obtain ⟨new, rfl, hnew⟩ := h
  refine ⟨new ++ more, List.append_assoc _ _ _, fun r hr => ?_⟩
  exact (List.mem_append.mp hr).elim (hnew r) (hmore r)

variable (hrows : ∀ r ∈ rows, key r ∉ mine)
include hrows

/-- A statement about these keys does not change the first rows. -/
theorem updateWhere (h : ExtendedBy key mine rows rows') {p : α → Prop} [DecidablePred p]
    {f : α → α} (hp : ∀ r, p r → key r ∈ mine) (hf : ∀ r, key (f r) = key r) :
    ExtendedBy key mine rows (Relational.updateWhere p f rows') := by
  obtain ⟨new, rfl, hnew⟩ := h
  have hsame : Relational.updateWhere p f rows = rows :=
    updateWhere_eq_self (fun r hr hpr => absurd (hp r hpr) (hrows r hr))
  have hsplit : Relational.updateWhere p f (rows ++ new)
      = Relational.updateWhere p f rows ++ Relational.updateWhere p f new := List.map_append
  refine ⟨Relational.updateWhere p f new, hsplit.trans (congrArg (· ++ _) hsame), ?_⟩
  intro r' hr'
  obtain ⟨r, hr, rfl⟩ := mem_updateWhere.mp hr'
  split_ifs
  · rw [hf]
    exact hnew r hr
  · exact hnew r hr

/-- To delete such rows again leaves an extension. -/
theorem deleteWhere (h : ExtendedBy key mine rows rows') {p : α → Prop} [DecidablePred p]
    (hp : ∀ r, p r → key r ∈ mine) :
    ExtendedBy key mine rows (Relational.deleteWhere p rows') := by
  obtain ⟨new, rfl, hnew⟩ := h
  have hsame : Relational.deleteWhere p rows = rows :=
    deleteWhere_eq_self (fun r hr hpr => absurd (hp r hpr) (hrows r hr))
  have hsplit : Relational.deleteWhere p (rows ++ new)
      = Relational.deleteWhere p rows ++ Relational.deleteWhere p new := List.filter_append _ _
  refine ⟨Relational.deleteWhere p new, hsplit.trans (congrArg (· ++ _) hsame), ?_⟩
  intro r hr
  exact hnew r (mem_deleteWhere.mp hr).1

omit hrows in
/-- And to insert one that may be there. -/
theorem insertOrIgnore [DecidableEq κ] (h : ExtendedBy key mine rows rows') {row : α}
    (hrow : key row ∈ mine) : ExtendedBy key mine rows (Relational.insertOrIgnore key row rows') := by
  unfold Relational.insertOrIgnore
  split_ifs
  · exact h
  · exact h.append (fun r hr => List.mem_singleton.mp hr ▸ hrow)

omit hrows in
/-- The rows with other keys are found as before. -/
theorem lookup [DecidableEq κ] (h : ExtendedBy key mine rows rows') {k : κ} (hk : k ∉ mine) :
    Relational.lookup key k rows' = Relational.lookup key k rows := by
  obtain ⟨new, rfl, hnew⟩ := h
  have hnone : Relational.lookup key k new = none := by
    rw [lookup_eq_none]
    intro hmem
    obtain ⟨r, hr, rfl⟩ := List.mem_map.mp hmem
    exact hk (hnew r hr)
  unfold Relational.lookup at hnone ⊢
  rw [List.find?_append, hnone, Option.or_none]

end ExtendedBy
end Relational
