import Mathlib.Algebra.Ring.Int.Defs
import Mathlib.Data.List.Sort
import Mathlib.Data.List.Nodup

/-!
# Keyed tables

A table is a list of rows whose keys are pairwise different, so a state with a
duplicate primary key cannot be built.  The statements are the ones a relational
store offers:

* `Table.find?`, `Table.insert?`, `Table.modify`, `Table.deleteWhere` and
  `Table.upsert`, each with the lemma that says which rows it leaves;
* `firstBy`, an `ORDER BY … LIMIT n` selection, with what being left out of it
  means (`firstBy_le_of_not_mem`);
* `Table.length_deleteSelected`, how many rows go when a selection is deleted.
-/

namespace ChatEngine
namespace Lib

/-- Rows with pairwise different keys, in insertion order. -/
structure Table (α κ : Type) (key : α → κ) where
  rows : List α
  keys_nodup : (rows.map key).Nodup

namespace Table

variable {α κ : Type} {key : α → κ}

instance : Membership α (Table α κ key) where
  mem t r := r ∈ t.rows

theorem mem_rows {t : Table α κ key} {r : α} : r ∈ t.rows ↔ r ∈ t := Iff.rfl

@[ext] theorem ext {t u : Table α κ key} (h : t.rows = u.rows) : t = u := by
  cases t
  cases u
  simp only at h
  subst h
  rfl

/-- The table without rows. -/
def empty : Table α κ key := ⟨[], List.nodup_nil⟩

instance : EmptyCollection (Table α κ key) := ⟨empty⟩

@[simp] theorem rows_empty : (∅ : Table α κ key).rows = [] := rfl

@[simp] theorem not_mem_empty {r : α} : r ∉ (∅ : Table α κ key) := List.not_mem_nil

/-- `SELECT COUNT(*)`. -/
def count (t : Table α κ key) : Nat := t.rows.length

/-- `SELECT COUNT(*) … WHERE p`. -/
def countWhere (t : Table α κ key) (p : α → Prop) [DecidablePred p] : Nat :=
  (t.rows.filter fun r => p r).length

/-- A key names at most one row. -/
theorem eq_of_key {t : Table α κ key} {r s : α} (hr : r ∈ t) (hs : s ∈ t)
    (hkey : key r = key s) : r = s :=
  List.inj_on_of_nodup_map t.keys_nodup hr hs hkey

theorem rows_nodup (t : Table α κ key) : t.rows.Nodup :=
  List.Nodup.of_map key t.keys_nodup

/-! ## Lookup -/

/-- `SELECT … WHERE key = k`. -/
def find? [DecidableEq κ] (t : Table α κ key) (k : κ) : Option α :=
  t.rows.find? fun r => decide (key r = k)

theorem find?_eq_some [DecidableEq κ] {t : Table α κ key} {k : κ} {r : α} :
    t.find? k = some r ↔ r ∈ t ∧ key r = k := by
  constructor
  · intro h
    exact ⟨List.mem_of_find?_eq_some h, by simpa using List.find?_some h⟩
  · rintro ⟨hr, hk⟩
    cases hfind : t.find? k with
    | none =>
        have hall := List.find?_eq_none.mp hfind r hr
        simp [hk] at hall
    | some s =>
        have hs : s ∈ t := List.mem_of_find?_eq_some hfind
        have hsk : key s = k := by simpa using List.find?_some hfind
        rw [eq_of_key hs hr (hsk.trans hk.symm)]

theorem find?_eq_none [DecidableEq κ] {t : Table α κ key} {k : κ} :
    t.find? k = none ↔ ∀ r ∈ t, key r ≠ k := by
  unfold find?
  rw [List.find?_eq_none]
  simp [mem_rows]

theorem find?_isSome [DecidableEq κ] {t : Table α κ key} {k : κ} :
    (t.find? k).isSome ↔ ∃ r ∈ t, key r = k := by
  rw [Option.isSome_iff_exists]
  simp only [find?_eq_some]

theorem find?_of_mem [DecidableEq κ] {t : Table α κ key} {r : α} (h : r ∈ t) :
    t.find? (key r) = some r :=
  find?_eq_some.mpr ⟨h, rfl⟩

/-! ## Insertion -/

/-- `INSERT`: refused when the key is taken. -/
def insert? [DecidableEq κ] (t : Table α κ key) (r : α) : Option (Table α κ key) :=
  if h : key r ∈ t.rows.map key then none
  else some ⟨t.rows ++ [r], by
    rw [List.map_append]
    exact List.Nodup.append t.keys_nodup (List.nodup_singleton _) (by simpa using h)⟩

theorem insert?_eq_some [DecidableEq κ] {t u : Table α κ key} {r : α} :
    t.insert? r = some u ↔ (∀ x ∈ t, key x ≠ key r) ∧ u.rows = t.rows ++ [r] := by
  unfold insert?
  by_cases h : key r ∈ t.rows.map key
  · rw [dif_pos h]
    obtain ⟨x, hx, hkey⟩ := List.mem_map.mp h
    constructor
    · intro hnone
      cases hnone
    · rintro ⟨hfresh, -⟩
      exact absurd hkey (hfresh x hx)
  · rw [dif_neg h]
    have hfresh : ∀ x ∈ t, key x ≠ key r :=
      fun x hx hkey => h (List.mem_map.mpr ⟨x, hx, hkey⟩)
    constructor
    · intro hsome
      cases hsome
      exact ⟨hfresh, rfl⟩
    · rintro ⟨-, hrows⟩
      exact congrArg some (Table.ext hrows.symm)

theorem insert?_eq_none [DecidableEq κ] {t : Table α κ key} {r : α} :
    t.insert? r = none ↔ ∃ x ∈ t, key x = key r := by
  unfold insert?
  by_cases h : key r ∈ t.rows.map key
  · rw [dif_pos h]
    simpa [mem_rows] using h
  · rw [dif_neg h]
    simpa [mem_rows] using h

theorem mem_of_insert? [DecidableEq κ] {t u : Table α κ key} {r x : α}
    (h : t.insert? r = some u) : x ∈ u ↔ x ∈ t ∨ x = r := by
  rw [← mem_rows, (insert?_eq_some.mp h).2]
  simp [mem_rows]

theorem countWhere_le_count (t : Table α κ key) (p : α → Prop) [DecidablePred p] :
    t.countWhere p ≤ t.count :=
  List.length_filter_le _ _

/-- One more row counts for at most one more. -/
theorem countWhere_of_insert? [DecidableEq κ] {t u : Table α κ key} {r : α}
    (h : t.insert? r = some u) (p : α → Prop) [DecidablePred p] :
    u.countWhere p ≤ t.countWhere p + 1 := by
  unfold countWhere
  rw [(insert?_eq_some.mp h).2, List.filter_append, List.length_append]
  exact Nat.add_le_add_left (List.length_filter_le _ _) _

theorem count_of_insert? [DecidableEq κ] {t u : Table α κ key} {r : α}
    (h : t.insert? r = some u) : u.count = t.count + 1 := by
  unfold count
  rw [(insert?_eq_some.mp h).2]
  simp

/-! ## Update -/

/-- `UPDATE` of every row by a function that keeps the key. -/
def modify (t : Table α κ key) (f : α → α) (hkey : ∀ r, key (f r) = key r) :
    Table α κ key :=
  ⟨t.rows.map f, by
    rw [List.map_map]
    have hcomp : key ∘ f = key := funext hkey
    rw [hcomp]
    exact t.keys_nodup⟩

theorem mem_modify {t : Table α κ key} {f : α → α} {hkey : ∀ r, key (f r) = key r} {r : α} :
    r ∈ t.modify f hkey ↔ ∃ s ∈ t, f s = r :=
  List.mem_map

@[simp] theorem count_modify {t : Table α κ key} {f : α → α}
    {hkey : ∀ r, key (f r) = key r} : (t.modify f hkey).count = t.count :=
  List.length_map f

/-- A count that the function leaves alone. -/
theorem countWhere_modify (t : Table α κ key) {f : α → α} (hkey : ∀ r, key (f r) = key r)
    {p : α → Prop} [DecidablePred p] (hp : ∀ r, p (f r) ↔ p r) :
    (t.modify f hkey).countWhere p = t.countWhere p := by
  change ((t.rows.map f).filter fun r => p r).length = _
  rw [List.filter_map, List.length_map]
  unfold countWhere
  congr 2
  funext r
  exact decide_eq_decide.mpr (hp r)

/-- `UPDATE … WHERE p`. -/
def updateWhere (t : Table α κ key) (p : α → Prop) [DecidablePred p] (f : α → α)
    (hkey : ∀ r, key (f r) = key r) : Table α κ key :=
  t.modify (fun r => if p r then f r else r) fun r => by
    by_cases h : p r
    · simp [h, hkey]
    · simp [h]

theorem mem_updateWhere {t : Table α κ key} {p : α → Prop} [DecidablePred p] {f : α → α}
    {hkey : ∀ r, key (f r) = key r} {r : α} :
    r ∈ t.updateWhere p f hkey ↔
      (r ∈ t ∧ ¬ p r) ∨ ∃ s ∈ t, p s ∧ f s = r := by
  unfold updateWhere
  rw [mem_modify]
  constructor
  · rintro ⟨s, hs, hr⟩
    by_cases h : p s
    · rw [if_pos h] at hr
      exact .inr ⟨s, hs, h, hr⟩
    · rw [if_neg h] at hr
      subst hr
      exact .inl ⟨hs, h⟩
  · rintro (⟨hr, hp⟩ | ⟨s, hs, hp, rfl⟩)
    · exact ⟨r, hr, by rw [if_neg hp]⟩
    · exact ⟨s, hs, by rw [if_pos hp]⟩

@[simp] theorem count_updateWhere {t : Table α κ key} {p : α → Prop} [DecidablePred p]
    {f : α → α} {hkey : ∀ r, key (f r) = key r} :
    (t.updateWhere p f hkey).count = t.count :=
  count_modify

theorem find?_modify [DecidableEq κ] {t : Table α κ key} {f : α → α}
    {hkey : ∀ r, key (f r) = key r} {k : κ} :
    (t.modify f hkey).find? k = (t.find? k).map f := by
  cases hfind : t.find? k with
  | none =>
      rw [Option.map_none, find?_eq_none]
      intro r hr
      obtain ⟨s, hs, rfl⟩ := mem_modify.mp hr
      rw [hkey]
      exact find?_eq_none.mp hfind s hs
  | some s =>
      obtain ⟨hs, hk⟩ := find?_eq_some.mp hfind
      rw [Option.map_some, find?_eq_some]
      exact ⟨mem_modify.mpr ⟨s, hs, rfl⟩, (hkey s).trans hk⟩

theorem find?_updateWhere [DecidableEq κ] {t : Table α κ key} {p : α → Prop} [DecidablePred p]
    {f : α → α} {hkey : ∀ r, key (f r) = key r} {k : κ} :
    (t.updateWhere p f hkey).find? k = (t.find? k).map fun r => if p r then f r else r :=
  find?_modify

/-! ## Deletion -/

/-- `DELETE … WHERE p`. -/
def deleteWhere (t : Table α κ key) (p : α → Prop) [DecidablePred p] : Table α κ key :=
  ⟨t.rows.filter fun r => ¬ p r, t.keys_nodup.sublist (List.filter_sublist.map key)⟩

@[simp] theorem mem_deleteWhere {t : Table α κ key} {p : α → Prop} [DecidablePred p] {r : α} :
    r ∈ t.deleteWhere p ↔ r ∈ t ∧ ¬ p r := by
  change r ∈ t.rows.filter _ ↔ _
  simp [mem_rows]

theorem count_deleteWhere_le (t : Table α κ key) (p : α → Prop) [DecidablePred p] :
    (t.deleteWhere p).count ≤ t.count :=
  List.length_filter_le _ _

/-- Deleting one counted row by its key lowers the count by one. -/
theorem countWhere_deleteKey [DecidableEq κ] {t : Table α κ key} {p : α → Prop} [DecidablePred p]
    {r : α} (hr : r ∈ t) (hp : p r) :
    (t.deleteWhere fun x => key x = key r).countWhere p + 1 = t.countWhere p := by
  obtain ⟨before, after, hsplit⟩ := List.append_of_mem hr
  have hkeys := t.keys_nodup
  rw [hsplit, List.map_append, List.map_cons, List.nodup_append] at hkeys
  obtain ⟨-, hafter, hbefore⟩ := hkeys
  have hkeepBefore : (before.filter fun x => ¬ key x = key r) = before := by
    rw [List.filter_eq_self]
    intro x hx
    have hne := hbefore (key x) (List.mem_map_of_mem hx) (key r) List.mem_cons_self
    simpa using hne
  have hkeepAfter : (after.filter fun x => ¬ key x = key r) = after := by
    rw [List.filter_eq_self]
    intro x hx
    have hne : key x ≠ key r := by
      rintro heq
      exact (List.nodup_cons.mp hafter).1 (heq ▸ List.mem_map_of_mem hx)
    simpa using hne
  have hrows : (t.deleteWhere fun x => key x = key r).rows = before ++ after := by
    change (t.rows.filter fun x => ¬ key x = key r) = before ++ after
    rw [hsplit, List.filter_append, List.filter_cons_of_neg (by simp), hkeepBefore, hkeepAfter]
  unfold countWhere
  rw [hrows, hsplit, List.filter_append, List.filter_append,
    List.filter_cons_of_pos (by simpa using hp)]
  simp only [List.length_append, List.length_cons]
  omega

theorem deleteWhere_eq_self {t : Table α κ key} {p : α → Prop} [DecidablePred p]
    (h : ∀ r ∈ t, ¬ p r) : t.deleteWhere p = t := by
  apply Table.ext
  change t.rows.filter _ = t.rows
  rw [List.filter_eq_self]
  intro r hr
  simpa using h r hr

theorem find?_deleteWhere [DecidableEq κ] {t : Table α κ key} {p : α → Prop} [DecidablePred p]
    {k : κ} : (t.deleteWhere p).find? k = (t.find? k).filter fun r => ¬ p r := by
  cases hfind : t.find? k with
  | none =>
      rw [Option.filter_none, find?_eq_none]
      intro r hr
      exact find?_eq_none.mp hfind r (mem_deleteWhere.mp hr).1
  | some s =>
      obtain ⟨hs, hk⟩ := find?_eq_some.mp hfind
      by_cases hp : p s
      · have hnone : (some s).filter (fun r => decide ¬ p r) = none := by simp [hp]
        rw [hnone, find?_eq_none]
        intro r hr hrk
        obtain ⟨hrt, hnp⟩ := mem_deleteWhere.mp hr
        rw [eq_of_key hrt hs (hrk.trans hk.symm)] at hnp
        exact hnp hp
      · have hsome : (some s).filter (fun r => decide ¬ p r) = some s := by simp [hp]
        rw [hsome, find?_eq_some]
        exact ⟨mem_deleteWhere.mpr ⟨hs, hp⟩, hk⟩

/-! ## Insert or replace -/

/-- `INSERT … ON CONFLICT (key) DO UPDATE`. -/
def upsert [DecidableEq κ] (t : Table α κ key) (r : α) : Table α κ key :=
  match t.insert? r with
  | some u => u
  | none => t.modify (fun x => if key x = key r then r else x) fun x => by
      by_cases h : key x = key r
      · simp [h]
      · simp [h]

theorem mem_upsert [DecidableEq κ] {t : Table α κ key} {r x : α} :
    x ∈ t.upsert r ↔ x = r ∨ (x ∈ t ∧ key x ≠ key r) := by
  unfold upsert
  split
  · rename_i u hu
    rw [mem_of_insert? hu]
    have hfresh := (insert?_eq_some.mp hu).1
    constructor
    · rintro (hx | rfl)
      · exact .inr ⟨hx, hfresh x hx⟩
      · exact .inl rfl
    · rintro (rfl | ⟨hx, -⟩)
      · exact .inr rfl
      · exact .inl hx
  · rename_i hnone
    have htaken : ∃ y ∈ t, key y = key r := insert?_eq_none.mp hnone
    rw [mem_modify]
    constructor
    · rintro ⟨y, hy, hxy⟩
      by_cases h : key y = key r
      · rw [if_pos h] at hxy
        exact .inl hxy.symm
      · rw [if_neg h] at hxy
        subst hxy
        exact .inr ⟨hy, h⟩
    · rintro (rfl | ⟨hx, hkey⟩)
      · obtain ⟨y, hy, hkey⟩ := htaken
        exact ⟨y, hy, by rw [if_pos hkey]⟩
      · exact ⟨x, hx, by rw [if_neg hkey]⟩

theorem find?_upsert [DecidableEq κ] {t : Table α κ key} {r : α} {k : κ} :
    (t.upsert r).find? k = if key r = k then some r else t.find? k := by
  by_cases h : key r = k
  · rw [if_pos h]
    exact find?_eq_some.mpr ⟨mem_upsert.mpr (.inl rfl), h⟩
  · rw [if_neg h]
    ext x
    rw [find?_eq_some, find?_eq_some, mem_upsert]
    constructor
    · rintro ⟨rfl | ⟨hx, -⟩, hk⟩
      · exact absurd hk h
      · exact ⟨hx, hk⟩
    · rintro ⟨hx, rfl⟩
      exact ⟨.inr ⟨hx, fun heq => h heq.symm⟩, rfl⟩

/-- One more row at most. -/
theorem count_upsert_le [DecidableEq κ] (t : Table α κ key) (r : α) :
    (t.upsert r).count ≤ t.count + 1 := by
  unfold upsert
  split
  · rename_i u hu
    exact (count_of_insert? hu).le
  · rw [count_modify]
    exact Nat.le_succ _

/-- A key that is there stays one row. -/
theorem count_upsert_of_mem [DecidableEq κ] {t : Table α κ key} {r s : α} (hs : s ∈ t)
    (hkey : key s = key r) : (t.upsert r).count = t.count := by
  unfold upsert
  split
  · rename_i u hu
    exact absurd hkey ((insert?_eq_some.mp hu).1 s hs)
  · exact count_modify

/-! ## The oldest rows -/

/-- The table without its first `n` rows. -/
def dropFirst (n : Nat) (t : Table α κ key) : Table α κ key where
  rows := t.rows.drop n
  keys_nodup := t.keys_nodup.sublist ((List.drop_sublist n t.rows).map key)

theorem count_dropFirst (n : Nat) (t : Table α κ key) : (t.dropFirst n).count = t.count - n :=
  List.length_drop

theorem dropFirst_zero (t : Table α κ key) : t.dropFirst 0 = t := rfl

/-! ## Keys -/

/-- The keys of the rows. -/
def keys (t : Table α κ key) : List κ := t.rows.map key

theorem mem_keys {t : Table α κ key} {k : κ} : k ∈ t.keys ↔ ∃ r ∈ t, key r = k := List.mem_map

@[simp] theorem keys_updateWhere {t : Table α κ key} {p : α → Prop} [DecidablePred p] {f : α → α}
    {hkey : ∀ r, key (f r) = key r} : (t.updateWhere p f hkey).keys = t.keys := by
  show (t.rows.map _).map key = t.rows.map key
  rw [List.map_map]
  apply List.map_congr_left
  intro r _
  show key (if p r then f r else r) = key r
  split
  · exact hkey r
  · rfl

/-- What is counted by the key is a matter of the keys. -/
theorem countWhere_eq_keys (t : Table α κ key) (p : κ → Prop) [DecidablePred p] :
    t.countWhere (fun r => p (key r)) = (t.keys.filter fun k => p k).length := by
  unfold keys
  rw [List.filter_map, List.length_map]
  rfl

end Table

/-! ## Ordered selections -/

section Selection

variable {α : Type} {le : α → α → Prop} [DecidableRel le]

/-- `ORDER BY le LIMIT n`. -/
def firstBy (le : α → α → Prop) [DecidableRel le] (n : Nat) (rows : List α) : List α :=
  (rows.insertionSort le).take n

/-- Orders that agree on the rows select the same. -/
theorem firstBy_congr {le' : α → α → Prop} [DecidableRel le'] {rows : List α}
    (h : ∀ a ∈ rows, ∀ b ∈ rows, le a b ↔ le' a b) (n : Nat) :
    firstBy le n rows = firstBy le' n rows := by
  have hsort := List.map_insertionSort le le' id rows h
  rw [List.map_id, List.map_id] at hsort
  unfold firstBy
  rw [hsort]

theorem mem_of_mem_firstBy {n : Nat} {rows : List α} {r : α}
    (h : r ∈ firstBy le n rows) : r ∈ rows :=
  (List.mem_insertionSort le).mp (List.mem_of_mem_take h)

theorem length_firstBy {n : Nat} {rows : List α} :
    (firstBy le n rows).length = min n rows.length := by
  unfold firstBy
  rw [List.length_take, List.length_insertionSort]

/-- A selection shorter than its limit leaves no row out. -/
theorem mem_firstBy_of_length_lt {n : Nat} {rows : List α} {r : α}
    (hlt : (firstBy le n rows).length < n) (h : r ∈ rows) : r ∈ firstBy le n rows := by
  rw [length_firstBy] at hlt
  unfold firstBy
  rw [List.take_of_length_le]
  · exact (List.perm_insertionSort le rows).mem_iff.mpr h
  · rw [List.length_insertionSort]
    omega

theorem firstBy_nodup {n : Nat} {rows : List α} (h : rows.Nodup) :
    (firstBy le n rows).Nodup :=
  ((List.perm_insertionSort le rows).nodup_iff.mpr h).sublist (List.take_sublist n _)

theorem firstBy_map_nodup {κ : Type} {key : α → κ} {n : Nat} {rows : List α}
    (h : (rows.map key).Nodup) : ((firstBy le n rows).map key).Nodup :=
  (((List.perm_insertionSort le rows).map key).nodup_iff.mpr h).sublist
    ((List.take_sublist n _).map key)

/-- Whatever a selection leaves out comes after everything it takes. -/
theorem firstBy_le_of_not_mem [Std.Total le] [IsTrans α le] {n : Nat} {rows : List α} {r s : α}
    (hr : r ∈ firstBy le n rows) (hs : s ∈ rows) (hout : s ∉ firstBy le n rows) : le r s := by
  have hsorted : (rows.insertionSort le).Pairwise le := List.pairwise_insertionSort le rows
  have hsplit := List.take_append_drop n (rows.insertionSort le)
  rw [← hsplit, List.pairwise_append] at hsorted
  have hmem : s ∈ rows.insertionSort le := (List.mem_insertionSort le).mpr hs
  rw [← hsplit, List.mem_append] at hmem
  rcases hmem with htake | hdrop
  · exact absurd htake hout
  · exact hsorted.2.2 r hr s hdrop

/-- A row is selected exactly when fewer rows than the limit come strictly before it. -/
theorem mem_firstBy_iff [Std.Total le] [IsTrans α le] {n : Nat} {rows : List α} {r : α}
    (hnodup : rows.Nodup) (hanti : ∀ s ∈ rows, le r s → le s r → s = r) (hr : r ∈ rows) :
    r ∈ firstBy le n rows ↔ (rows.filter fun s => ¬ le r s).length < n := by
  have hrefl : le r r := (Std.Total.total r r).elim id id
  have hbefore : (rows.filter fun s => ¬ le r s).Nodup := hnodup.filter _
  constructor
  · intro hin
    have hsub : r :: rows.filter (fun s => ¬ le r s) ⊆ firstBy le n rows := by
      intro s hs
      rcases List.mem_cons.mp hs with rfl | hs
      · exact hin
      · obtain ⟨hmem, hlt⟩ := List.mem_filter.mp hs
        by_contra hout
        exact of_decide_eq_true hlt (firstBy_le_of_not_mem hin hmem hout)
    have hcons : (r :: rows.filter fun s => ¬ le r s).Nodup := by
      refine List.nodup_cons.mpr ⟨?_, hbefore⟩
      intro hmem
      exact of_decide_eq_true (List.mem_filter.mp hmem).2 hrefl
    have hlength := (List.subperm_of_subset hcons hsub).length_le
    rw [List.length_cons, length_firstBy] at hlength
    omega
  · intro hlt
    by_contra hout
    have hsub : firstBy le n rows ⊆ rows.filter fun s => ¬ le r s := by
      intro s hs
      have hmem := mem_of_mem_firstBy hs
      have hle := firstBy_le_of_not_mem hs hr hout
      refine List.mem_filter.mpr ⟨hmem, decide_eq_true fun hrs => hout ?_⟩
      rw [← hanti s hmem hrs hle]
      exact hs
    have hlength := (List.subperm_of_subset (firstBy_nodup hnodup) hsub).length_le
    have hfull : ¬ (firstBy le n rows).length < n := fun hshort =>
      hout (mem_firstBy_of_length_lt hshort hr)
    omega

/-- Of the rows past a cap the oldest go: those that at least as many rows follow as the cap
allows. -/
theorem mem_firstBy_excess_iff [Std.Total le] [IsTrans α le] {cap : Nat} {rows : List α} {r : α}
    (hnodup : rows.Nodup) (hanti : ∀ s ∈ rows, le r s → le s r → s = r) (hr : r ∈ rows) :
    r ∈ firstBy le (rows.length - cap) rows ↔ cap ≤ (rows.filter fun s => ¬ le s r).length := by
  rw [mem_firstBy_iff hnodup hanti hr]
  have hrefl : le r r := (Std.Total.total r r).elim id id
  have hsplit : rows.length =
      (rows.filter fun s => ¬ le r s).length + (rows.filter fun s => ¬ le s r).length + 1 := by
    -- a row comes before `r`, is `r`, or comes after it
    have hself : (rows.filter fun s => le r s ∧ le s r).length = 1 := by
      have hone : rows.filter (fun s => le r s ∧ le s r) = [r] := by
        apply List.perm_singleton.mp
        apply (List.perm_ext_iff_of_nodup (hnodup.filter _) (List.nodup_singleton r)).mpr
        intro s
        rw [List.mem_filter, List.mem_singleton, decide_eq_true_eq]
        constructor
        · rintro ⟨hs, hrs, hsr⟩
          exact hanti s hs hrs hsr
        · rintro rfl
          exact ⟨hr, hrefl, hrefl⟩
      rw [hone, List.length_singleton]
    have hfollow : (rows.filter fun s => le r s).length =
        (rows.filter fun s => le r s ∧ le s r).length +
          (rows.filter fun s => ¬ le s r).length := by
      rw [List.length_eq_length_filter_add (fun s => decide (le s r)), List.filter_filter,
        List.filter_filter]
      congr 2
      · apply List.filter_congr
        intro s _
        rw [Bool.and_comm, Bool.decide_and]
      · apply List.filter_congr
        intro s _
        rcases (Std.Total.total r s : le r s ∨ le s r) with h | h <;> simp [h]
    rw [List.length_eq_length_filter_add (fun s => decide (le r s)), hfollow, hself]
    simp only [decide_not]
    omega
  omega

/-- `ORDER BY le LIMIT 1` finds a row that comes before all others. -/
theorem head?_firstBy_one [Std.Total le] [IsTrans α le] {rows : List α} {top : α}
    (h : (firstBy le 1 rows).head? = some top) : top ∈ rows ∧ ∀ s ∈ rows, le top s := by
  have htop : top ∈ firstBy le 1 rows := List.mem_of_mem_head? h
  refine ⟨mem_of_mem_firstBy htop, ?_⟩
  intro s hs
  by_cases hin : s ∈ firstBy le 1 rows
  · have hlength : (firstBy le 1 rows).length ≤ 1 := by
      rw [length_firstBy]
      exact min_le_left _ _
    match hlist : firstBy le 1 rows, hlength with
    | [t], _ =>
        rw [hlist, List.mem_singleton] at hin htop
        rw [hin, htop]
        exact (Std.Total.total t t).elim id id
    | [], _ =>
        rw [hlist] at hin
        cases hin
  · exact firstBy_le_of_not_mem htop hs hin

theorem head?_firstBy_one_none {rows : List α} (h : (firstBy le 1 rows).head? = none) :
    rows = [] := by
  rw [List.head?_eq_none_iff] at h
  have hlength : (firstBy le 1 rows).length = min 1 rows.length := length_firstBy
  rw [h, List.length_nil] at hlength
  apply List.eq_nil_of_length_eq_zero
  omega

/-- A sorted arrangement of the rows is the one that the sort finds. -/
theorem insertionSort_unique [Std.Total le] [IsTrans α le] {rows sorted : List α}
    (hperm : rows.Perm sorted) (hsorted : sorted.Pairwise le)
    (hanti : ∀ a ∈ rows, ∀ b ∈ rows, le a b → le b a → a = b) :
    rows.insertionSort le = sorted := by
  have hsame := (List.perm_insertionSort le rows).trans hperm
  apply List.Perm.eq_of_pairwise _ (List.pairwise_insertionSort le rows) hsorted hsame
  intro a b ha hb hab hba
  exact hanti a ((List.mem_insertionSort le).mp ha) b (hperm.mem_iff.mpr hb) hab hba

/-- A list that is sorted by one strict order is sorted by another exactly where the second
implies the first among its members. -/
theorem pairwise_iff_agrees {R S : α → α → Prop} {l : List α} (hR : l.Pairwise R)
    (hasymm : ∀ a b, R a b → ¬ R b a) (hasymm' : ∀ a b, S a b → ¬ S b a)
    (htotal : ∀ a ∈ l, ∀ b ∈ l, a ≠ b → S a b ∨ S b a) :
    l.Pairwise S ↔ ∀ a ∈ l, ∀ b ∈ l, S a b → R a b := by
  induction l with
  | nil => exact iff_of_true List.Pairwise.nil nofun
  | cons first rest ih =>
      obtain ⟨hfirst, hrest⟩ := List.pairwise_cons.mp hR
      have ih' := ih hrest fun a ha b hb =>
        htotal a (List.mem_cons_of_mem _ ha) b (List.mem_cons_of_mem _ hb)
      constructor
      · intro hS a ha b hb hab
        obtain ⟨hfirst', hrest'⟩ := List.pairwise_cons.mp hS
        rcases List.mem_cons.mp ha with rfl | ha'
        · rcases List.mem_cons.mp hb with rfl | hb'
          · exact absurd hab (hasymm' _ _ hab)
          · exact hfirst b hb'
        · rcases List.mem_cons.mp hb with rfl | hb'
          · exact absurd hab (hasymm' _ _ (hfirst' a ha'))
          · exact ih'.mp hrest' a ha' b hb' hab
      · intro hagrees
        refine List.pairwise_cons.mpr ⟨fun b hb => ?_, ?_⟩
        · have hbefore := hfirst b hb
          have hne : first ≠ b := by
            rintro rfl
            exact hasymm _ _ hbefore hbefore
          rcases htotal first List.mem_cons_self b (List.mem_cons_of_mem _ hb) hne with h | h
          · exact h
          · exact absurd (hagrees b (List.mem_cons_of_mem _ hb) first List.mem_cons_self h)
              (hasymm _ _ hbefore)
        · exact ih'.mpr fun a ha b hb =>
            hagrees a (List.mem_cons_of_mem _ ha) b (List.mem_cons_of_mem _ hb)

/-- The order of a time column with ties broken by a key column. -/
def timeKeyLe {τ κ : Type} [LinearOrder τ] [LinearOrder κ] (time : α → τ) (key : α → κ)
    (a b : α) : Prop :=
  time a < time b ∨ (time a = time b ∧ key a ≤ key b)

instance {τ κ : Type} [LinearOrder τ] [LinearOrder κ] (time : α → τ) (key : α → κ) :
    DecidableRel (timeKeyLe time key) :=
  fun a b => inferInstanceAs (Decidable (time a < time b ∨ (time a = time b ∧ key a ≤ key b)))

instance {τ κ : Type} [LinearOrder τ] [LinearOrder κ] (time : α → τ) (key : α → κ) :
    Std.Total (timeKeyLe time key) where
  total a b := by
    rcases lt_trichotomy (time a) (time b) with h | h | h
    · exact .inl (.inl h)
    · rcases le_total (key a) (key b) with hk | hk
      · exact .inl (.inr ⟨h, hk⟩)
      · exact .inr (.inr ⟨h.symm, hk⟩)
    · exact .inr (.inl h)

instance {τ κ : Type} [LinearOrder τ] [LinearOrder κ] (time : α → τ) (key : α → κ) :
    IsTrans α (timeKeyLe time key) where
  trans a b c := by
    rintro (hab | ⟨hab, hk⟩) (hbc | ⟨hbc, hk'⟩)
    · exact .inl (hab.trans hbc)
    · exact .inl (hbc ▸ hab)
    · exact .inl (hab ▸ hbc)
    · exact .inr ⟨hab.trans hbc, hk.trans hk'⟩

end Selection

/-- Every counted row of `u` has a counted row of `t` under its key. -/
theorem Table.countWhere_le_of_key {α β κ : Type} {key : α → κ} {key' : β → κ} {t : Table α κ key}
    {u : Table β κ key'} {p : α → Prop} {q : β → Prop} [DecidablePred p] [DecidablePred q]
    (h : ∀ r ∈ u, q r → ∃ s ∈ t, key s = key' r ∧ p s) : u.countWhere q ≤ t.countWhere p := by
  have hnodup : ((u.rows.filter fun r => q r).map key').Nodup :=
    u.keys_nodup.sublist (List.filter_sublist.map key')
  have hsub : (u.rows.filter fun r => q r).map key' ⊆ (t.rows.filter fun r => p r).map key := by
    intro k hk
    obtain ⟨r, hr, rfl⟩ := List.mem_map.mp hk
    rw [List.mem_filter, decide_eq_true_eq] at hr
    obtain ⟨s, hs, hkey, hp⟩ := h r hr.1 hr.2
    exact List.mem_map.mpr ⟨s, List.mem_filter.mpr ⟨hs, decide_eq_true hp⟩, hkey⟩
  have hlength := List.Nodup.length_le_of_subset hnodup hsub
  rwa [List.length_map, List.length_map] at hlength

/-- Deleting a selection of counted rows by their keys lowers the count by exactly that many. -/
theorem Table.countWhere_deleteSelected {α κ : Type} {key : α → κ} [DecidableEq κ]
    (t : Table α κ key) (p : α → Prop) [DecidablePred p] (selected : List α)
    (hsub : ∀ r ∈ selected, r ∈ t ∧ p r) (hnodup : selected.Nodup) :
    (t.deleteWhere fun r => key r ∈ selected.map key).countWhere p + selected.length =
      t.countWhere p := by
  have hperm : ((t.rows.filter fun r => p r).filter fun r => key r ∈ selected.map key).Perm
      selected := by
    rw [List.perm_ext_iff_of_nodup ((t.rows_nodup.filter _).filter _) hnodup]
    intro r
    rw [List.mem_filter, List.mem_filter]
    constructor
    · rintro ⟨⟨hr, -⟩, hkey⟩
      obtain ⟨s, hs, hsr⟩ := List.mem_map.mp (by simpa using hkey)
      rw [← Table.eq_of_key (hsub s hs).1 hr hsr]
      exact hs
    · intro hr
      exact ⟨⟨(hsub r hr).1, decide_eq_true (hsub r hr).2⟩, by simpa using ⟨r, hr, rfl⟩⟩
  have hlen := List.length_eq_length_filter_add (l := t.rows.filter fun r => p r)
    fun r => decide (key r ∈ selected.map key)
  have hrest : (t.deleteWhere fun r => key r ∈ selected.map key).countWhere p =
      ((t.rows.filter fun r => p r).filter
        fun r => !decide (key r ∈ selected.map key)).length := by
    change ((t.rows.filter fun r => decide (¬ key r ∈ selected.map key)).filter
      fun r => p r).length = _
    rw [List.filter_filter, List.filter_filter]
    congr 2
    funext r
    rw [Bool.and_comm, decide_not]
  unfold Table.countWhere at *
  rw [hrest, ← hperm.length_eq, hlen]
  exact Nat.add_comm _ _

/-- Deleting a selection of rows by their keys removes exactly that many rows. -/
theorem Table.length_deleteSelected {α κ : Type} {key : α → κ} [DecidableEq κ]
    (t : Table α κ key) (selected : List α) (hsub : ∀ r ∈ selected, r ∈ t)
    (hnodup : selected.Nodup) :
    (t.deleteWhere fun r => key r ∈ selected.map key).count + selected.length = t.count := by
  have hall : ∀ u : Table α κ key, u.countWhere (fun _ => True) = u.count := by
    intro u
    unfold Table.countWhere Table.count
    simp
  rw [← hall, ← hall]
  exact t.countWhere_deleteSelected (fun _ => True) selected
    (fun r hr => ⟨hsub r hr, trivial⟩) hnodup

namespace Table

/-! ## Totals -/

variable {α κ : Type} {key : α → κ}

/-- The total of a measure over the rows. -/
def total (t : Table α κ key) (f : α → Int) : Int := (t.rows.map f).sum

@[simp] theorem total_empty (f : α → Int) : (∅ : Table α κ key).total f = 0 := rfl

/-- One row has the key. -/
theorem rows_filter_key [DecidableEq κ] {t : Table α κ key} {r : α} (hr : r ∈ t) :
    (t.rows.filter fun x => key x = key r) = [r] := by
  apply List.perm_singleton.mp
  apply (List.perm_ext_iff_of_nodup (t.rows_nodup.filter _) (List.nodup_singleton r)).mpr
  intro x
  rw [List.mem_filter, List.mem_singleton, decide_eq_true_eq]
  constructor
  · rintro ⟨hx, hkey⟩
    exact eq_of_key hx hr hkey
  · rintro rfl
    exact ⟨hr, rfl⟩

/-- What a deletion takes is missing from the total. -/
theorem total_deleteWhere (t : Table α κ key) (p : α → Prop) [DecidablePred p] (f : α → Int) :
    (t.deleteWhere p).total f = t.total f - ((t.rows.filter fun r => p r).map f).sum := by
  unfold total
  change ((t.rows.filter fun r => ¬ p r).map f).sum = _
  induction t.rows with
  | nil => rfl
  | cons r rest ih =>
      by_cases hp : p r
      · simp only [List.filter_cons, hp, not_true_eq_false, decide_false, decide_true,
          Bool.false_eq_true, if_false, if_true, List.map_cons, List.sum_cons]
        omega
      · simp only [List.filter_cons, hp, not_false_eq_true, decide_false, decide_true,
          Bool.false_eq_true, if_false, if_true, List.map_cons, List.sum_cons]
        omega

theorem total_insert [DecidableEq κ] {t u : Table α κ key} {r : α} (h : t.insert? r = some u)
    (f : α → Int) : u.total f = t.total f + f r := by
  unfold total
  rw [(insert?_eq_some.mp h).2]
  simp

theorem total_upsert_new [DecidableEq κ] {t : Table α κ key} {r : α}
    (h : ∀ x ∈ t, key x ≠ key r) (f : α → Int) : (t.upsert r).total f = t.total f + f r := by
  unfold upsert
  split
  · rename_i u hu
    exact total_insert hu f
  · rename_i hnone
    obtain ⟨x, hx, hkey⟩ := insert?_eq_none.mp hnone
    exact absurd hkey (h x hx)

/-- One row rewritten. -/
theorem total_updateKey [DecidableEq κ] {t : Table α κ key} {r : α} (hr : r ∈ t) {g : α → α}
    {hkey : ∀ x, key (g x) = key x} (f : α → Int) :
    (t.updateWhere (fun x => key x = key r) g hkey).total f = t.total f - f r + f (g r) := by
  have hsplit : ∀ rows : List α, (∀ x ∈ rows, key x = key r → x = r) →
      ((rows.map fun x => if key x = key r then g x else x).map f).sum =
        (rows.map f).sum - ((rows.filter fun x => key x = key r).map f).sum +
          ((rows.filter fun x => key x = key r).map fun _ => f (g r)).sum := by
    intro rows hrows
    induction rows with
    | nil => rfl
    | cons x rest ih =>
        have hrest := ih fun y hy => hrows y (List.mem_cons_of_mem x hy)
        by_cases hx : key x = key r
        · have hxr := hrows x List.mem_cons_self hx
          subst hxr
          simp only [List.map_cons, List.sum_cons, List.filter_cons, decide_true, if_true]
          omega
        · simp only [List.map_cons, List.sum_cons, List.filter_cons, hx, decide_false,
            Bool.false_eq_true, if_false]
          omega
  unfold total
  refine (hsplit t.rows fun x hx hx' => eq_of_key hx hr hx').trans ?_
  rw [rows_filter_key hr]
  simp

end Table

end Lib
end ChatEngine
