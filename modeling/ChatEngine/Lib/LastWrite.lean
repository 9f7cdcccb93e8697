import Mathlib.Data.List.Basic

/-!
# The last write of each key

Applying writes in order leaves, at each key, the last one.

* `lastWrite`, the map that a list of writes builds;
* `lastWrite_of_last`, its value at a key whose last write is known;
* `lastWrite_take`, the last write among the first ones, from any of them;
* `lastWrite_append_of_forall_ne`, writes to other keys.
-/

namespace ChatEngine
namespace Lib

variable {α κ : Type} [DecidableEq κ]

/-- One write into a map. -/
def assign (items : κ → Option α) (write : κ × α) : κ → Option α :=
  fun k => if k = write.1 then some write.2 else items k

/-- The map after the writes, in their order. -/
def lastWrite (writes : List (κ × α)) : κ → Option α :=
  writes.foldl assign fun _ => none

/-- Writes to other keys leave a key alone. -/
theorem foldl_assign_other {writes : List (κ × α)} {k : κ} (h : ∀ w ∈ writes, w.1 ≠ k)
    (items : κ → Option α) : writes.foldl assign items k = items k := by
  induction writes generalizing items with
  | nil => rfl
  | cons w rest ih =>
      rw [List.foldl_cons, ih (fun w' hw' => h w' (List.mem_cons_of_mem _ hw'))]
      exact if_neg fun heq => h w (by simp) heq.symm

/-- A key holds the value of its last write. -/
theorem lastWrite_of_last {before after : List (κ × α)} {k : κ} {a : α}
    (h : ∀ w ∈ after, w.1 ≠ k) : lastWrite (before ++ (k, a) :: after) k = some a := by
  unfold lastWrite
  rw [List.foldl_append, List.foldl_cons, foldl_assign_other h]
  exact if_pos rfl

theorem lastWrite_append_of_forall_ne {writes more : List (κ × α)} {k : κ}
    (h : ∀ w ∈ more, w.1 ≠ k) : lastWrite (writes ++ more) k = lastWrite writes k := by
  unfold lastWrite
  rw [List.foldl_append, foldl_assign_other h]

theorem lastWrite_append_single {writes : List (κ × α)} {k : κ} {a : α} :
    lastWrite (writes ++ [(k, a)]) k = some a :=
  lastWrite_of_last nofun

/-- A key that the first `n` writes set holds one of them, not older than any. -/
theorem lastWrite_take {writes : List (κ × α)} {k : κ} {a : α} {c n : Nat}
    (hc : writes[c]? = some (k, a)) (hlt : c < n) :
    ∃ c' a', c ≤ c' ∧ writes[c']? = some (k, a') ∧ lastWrite (writes.take n) k = some a' := by
  induction n with
  | zero => exact absurd hlt (Nat.not_lt_zero c)
  | succ n ih =>
      cases hn : writes[n]? with
      | none =>
          have hshort : writes.length ≤ n := List.getElem?_eq_none_iff.mp hn
          have hcn : c < n := Nat.lt_of_lt_of_le (List.getElem?_eq_some_iff.mp hc).1 hshort
          obtain ⟨c', a', hle, hc', hlast⟩ := ih hcn
          rw [List.take_of_length_le hshort] at hlast
          refine ⟨c', a', hle, hc', ?_⟩
          rw [List.take_of_length_le (Nat.le_succ_of_le hshort)]
          exact hlast
      | some w =>
          have htake : writes.take (n + 1) = writes.take n ++ [w] := by
            rw [List.take_add_one, hn]
            rfl
          by_cases hk : w.1 = k
          · obtain ⟨k', a'⟩ := w
            subst hk
            refine ⟨n, a', Nat.le_of_lt_succ hlt, hn, ?_⟩
            rw [htake]
            exact lastWrite_append_single
          · have hcn : c < n := by
              refine Nat.lt_of_le_of_ne (Nat.le_of_lt_succ hlt) ?_
              rintro rfl
              rw [hc] at hn
              cases hn
              exact hk rfl
            obtain ⟨c', a', hle, hc', hlast⟩ := ih hcn
            refine ⟨c', a', hle, hc', ?_⟩
            rw [htake, lastWrite_append_of_forall_ne, hlast]
            intro v hv
            rw [List.mem_singleton.mp hv]
            exact hk

/-- An entry of a list with one more at its end. -/
theorem getElem?_append_single {l : List α} {a b : α} {k : Nat}
    (h : (l ++ [a])[k]? = some b) : l[k]? = some b ∨ (k = l.length ∧ b = a) := by
  rcases Nat.lt_trichotomy k l.length with hlt | rfl | hgt
  · rw [List.getElem?_append_left hlt] at h
    exact .inl h
  · rw [List.getElem?_append_right (Nat.le_refl _), Nat.sub_self] at h
    exact .inr ⟨rfl, (Option.some.inj h).symm⟩
  · rw [List.getElem?_eq_none] at h
    · cases h
    · rw [List.length_append]
      exact hgt

end Lib
end ChatEngine
