import ChatEngine.Lib.Table

/-!
# Overlays on a keyed table

A transaction that has not committed sees the committed table with its own rows
laid over it.

* `Table.overlay`, the committed rows except at the touched keys, where the
  transaction's own table decides;
* `Table.changedKeys`, the keys a statement touched;
* `Table.mem_overlay_changed`, which says that laying the table a statement left
  over the committed one, at the keys touched before and by the statement, gives
  the rows the statement left.
-/

namespace ChatEngine
namespace Lib
namespace Table

variable {α κ : Type} {key : α → κ}

/-- The rows of `t`, except at the touched keys, where the rows of `own` stand. -/
def overlay (t own : Table α κ key) (touched : κ → Prop) [DecidablePred touched] :
    Table α κ key :=
  ⟨t.rows.filter (fun r => ¬ touched (key r)) ++ own.rows.filter fun r => touched (key r), by
    rw [List.map_append]
    refine List.Nodup.append (t.keys_nodup.sublist (List.filter_sublist.map key))
      (own.keys_nodup.sublist (List.filter_sublist.map key)) ?_
    intro k hk hk'
    obtain ⟨r, hr, rfl⟩ := List.mem_map.mp hk
    obtain ⟨s, hs, hsr⟩ := List.mem_map.mp hk'
    have hout := (List.mem_filter.mp hr).2
    have hin := (List.mem_filter.mp hs).2
    rw [hsr] at hin
    simp_all⟩

theorem mem_overlay {t own : Table α κ key} {touched : κ → Prop} [DecidablePred touched] {r : α} :
    r ∈ t.overlay own touched ↔
      (r ∈ t ∧ ¬ touched (key r)) ∨ (r ∈ own ∧ touched (key r)) := by
  change r ∈ t.rows.filter _ ++ own.rows.filter _ ↔ _
  rw [List.mem_append, List.mem_filter, List.mem_filter]
  simp [mem_rows]

/-- Nothing touched, nothing changed. -/
theorem overlay_untouched {t own : Table α κ key} {touched : κ → Prop} [DecidablePred touched]
    (h : ∀ k, ¬ touched k) : t.overlay own touched = t := by
  apply Table.ext
  change t.rows.filter _ ++ own.rows.filter _ = t.rows
  have hnone : own.rows.filter (fun r => touched (key r)) = [] := by
    rw [List.filter_eq_nil_iff]
    intro r _
    simp [h]
  have hall : t.rows.filter (fun r => ¬ touched (key r)) = t.rows := by
    rw [List.filter_eq_self]
    intro r _
    simp [h]
  rw [hnone, hall, List.append_nil]

section Changes

variable [DecidableEq α] [DecidableEq κ]

/-- The keys at which two tables differ. -/
def changedKeys (old new : Table α κ key) : List κ :=
  ((old.rows ++ new.rows).map key).filter fun k => old.find? k ≠ new.find? k

theorem mem_changedKeys {old new : Table α κ key} {k : κ} :
    k ∈ changedKeys old new ↔ old.find? k ≠ new.find? k := by
  unfold changedKeys
  rw [List.mem_filter, decide_eq_true_eq]
  constructor
  · exact And.right
  · intro hne
    refine ⟨?_, hne⟩
    rw [List.mem_map]
    cases hold : old.find? k with
    | some r =>
        obtain ⟨hr, hk⟩ := find?_eq_some.mp hold
        exact ⟨r, List.mem_append_left _ hr, hk⟩
    | none =>
        cases hnew : new.find? k with
        | some r =>
            obtain ⟨hr, hk⟩ := find?_eq_some.mp hnew
            exact ⟨r, List.mem_append_right _ hr, hk⟩
        | none => exact absurd (hold.trans hnew.symm) hne

/-- A row whose key did not change is in both tables or in none. -/
theorem mem_iff_of_unchanged {old new : Table α κ key} {r : α}
    (h : key r ∉ changedKeys old new) : r ∈ old ↔ r ∈ new := by
  rw [mem_changedKeys, not_not] at h
  constructor
  · intro hr
    exact (find?_eq_some.mp (h.symm.trans (find?_of_mem hr))).1
  · intro hr
    exact (find?_eq_some.mp (h.trans (find?_of_mem hr))).1

/-- A row that was replaced or removed has a changed key. -/
theorem changed_of_removed {old new : Table α κ key} {r : α} (hold : r ∈ old) (hnew : r ∉ new) :
    key r ∈ changedKeys old new := by
  by_contra h
  exact hnew ((mem_iff_of_unchanged h).mp hold)

/-- A new or rewritten row has a changed key. -/
theorem changed_of_added {old new : Table α κ key} {r : α} (hold : r ∉ old) (hnew : r ∈ new) :
    key r ∈ changedKeys old new := by
  by_contra h
  exact hold ((mem_iff_of_unchanged h).mpr hnew)

/-- After a statement turned the overlay of `own` into `new`, laying `new` over
the committed table at every key touched so far gives back `new`. -/
theorem mem_overlay_changed {t own new : Table α κ key} {touched touched' : κ → Prop}
    [DecidablePred touched] [DecidablePred touched']
    (hbefore : ∀ k, touched k → touched' k)
    (hchanged : ∀ k ∈ changedKeys (t.overlay own touched) new, touched' k) {r : α} :
    r ∈ t.overlay new touched' ↔ r ∈ new := by
  rw [mem_overlay]
  constructor
  · rintro (⟨hr, hout⟩ | ⟨hr, -⟩)
    · have hview : r ∈ t.overlay own touched :=
        mem_overlay.mpr (.inl ⟨hr, fun h => hout (hbefore _ h)⟩)
      exact (mem_iff_of_unchanged fun h => hout (hchanged _ h)).mp hview
    · exact hr
  · intro hr
    by_cases hin : touched' (key r)
    · exact .inr ⟨hr, hin⟩
    · refine .inl ⟨?_, hin⟩
      have hview := (mem_iff_of_unchanged fun h => hin (hchanged _ h)).mpr hr
      rcases mem_overlay.mp hview with ⟨hmem, -⟩ | ⟨-, htouched⟩
      · exact hmem
      · exact absurd (hbefore _ htouched) hin

end Changes

end Table
end Lib
end ChatEngine
