import Mathlib.Data.List.DropRight
import Mathlib.Data.String.Basic

/-!
# Stripping text

`strip p s` removes the characters of class `p` from both ends of `s`.  What the
development uses about it:

* `strip_eq_self_iff`: a text is its own stripped form exactly when neither of
  its end characters is of the class;
* `strip_idem`: stripping twice is stripping once.
-/

namespace ChatEngine
namespace Lib

/-- Drop the elements of class `p` from both ends of a list. -/
def trimList {α : Type} (p : α → Bool) (l : List α) : List α :=
  (l.dropWhile p).rdropWhile p

theorem trimList_eq_self_iff {α : Type} {p : α → Bool} {l : List α} :
    trimList p l = l ↔ (∀ a ∈ l.head?, p a = false) ∧ (∀ a ∈ l.getLast?, p a = false) := by
  unfold trimList
  constructor
  · intro h
    have hdrop : l.dropWhile p = l := by
      have hle : l.length ≤ (l.dropWhile p).length := by
        calc l.length = ((l.dropWhile p).rdropWhile p).length := by rw [h]
          _ ≤ (l.dropWhile p).length := (List.rdropWhile_prefix p _).length_le
      exact (List.dropWhile_suffix p).eq_of_length_le hle
    have hrdrop : l.rdropWhile p = l := by
      rw [hdrop] at h
      exact h
    constructor
    · intro a ha
      cases l with
      | nil => cases ha
      | cons b bs =>
          have hb : b = a := by simpa using ha
          subst hb
          by_contra hp
          have htrue : p b = true := by simpa using hp
          have hlen := congrArg List.length hdrop
          rw [List.dropWhile_cons_of_pos htrue] at hlen
          have hle := List.length_dropWhile_le p bs
          simp at hlen
          omega
    · intro a ha
      have hne : l ≠ [] := by
        rintro rfl
        cases ha
      have hlast := List.rdropWhile_eq_self_iff.mp hrdrop hne
      rw [List.getLast?_eq_some_getLast hne] at ha
      have ha' : l.getLast hne = a := by simpa using ha
      rw [ha'] at hlast
      simpa using hlast
  · rintro ⟨hhead, hlast⟩
    have hdrop : l.dropWhile p = l := by
      cases l with
      | nil => rfl
      | cons b bs =>
          have hb : p b = false := hhead b (by simp)
          rw [List.dropWhile_cons_of_neg (by simp [hb])]
    rw [hdrop, List.rdropWhile_eq_self_iff]
    intro hne
    have hb := hlast (l.getLast hne) (by rw [List.getLast?_eq_some_getLast hne]; rfl)
    simp [hb]

theorem trimList_idem {α : Type} {p : α → Bool} (l : List α) :
    trimList p (trimList p l) = trimList p l := by
  rw [trimList_eq_self_iff]
  constructor
  · intro a ha
    have hpre : trimList p l <+: l.dropWhile p := List.rdropWhile_prefix p _
    have hhead : a ∈ (l.dropWhile p).head? := by
      obtain ⟨rest, hrest⟩ := hpre
      cases htrim : trimList p l with
      | nil =>
          rw [htrim] at ha
          cases ha
      | cons b bs =>
          rw [htrim] at ha hrest
          rw [← hrest]
          simpa using ha
    have hnot := List.head?_dropWhile_not p l
    rw [Option.mem_def.mp hhead] at hnot
    simpa using hnot
  · intro a ha
    have hne : trimList p l ≠ [] := by
      intro hnil
      rw [hnil] at ha
      cases ha
    have hlast := List.rdropWhile_last_not p (l.dropWhile p) hne
    rw [List.getLast?_eq_some_getLast hne] at ha
    have ha' : (trimList p l).getLast hne = a := by simpa using ha
    change ¬ p ((trimList p l).getLast hne) = true at hlast
    rw [ha'] at hlast
    simpa using hlast

/-- Remove the characters of class `p` from both ends of a text. -/
def strip (p : Char → Bool) (s : String) : String :=
  String.ofList (trimList p s.toList)

theorem strip_eq_self_iff {p : Char → Bool} {s : String} :
    strip p s = s ↔
      (∀ c ∈ s.toList.head?, p c = false) ∧ (∀ c ∈ s.toList.getLast?, p c = false) := by
  rw [← trimList_eq_self_iff]
  unfold strip
  constructor
  · intro h
    have hlist := congrArg String.toList h
    simpa using hlist
  · intro h
    rw [h]
    simp

/-- A text without characters of a class at its ends has none of a smaller class. -/
theorem strip_eq_self_of_imp {p q : Char → Bool} (h : ∀ c, p c = true → q c = true) {s : String}
    (hs : strip q s = s) : strip p s = s := by
  have hout : ∀ c, q c = false → p c = false := by
    intro c hq
    cases hp : p c with
    | false => rfl
    | true => exact absurd (h c hp) (by rw [hq]; exact Bool.false_ne_true)
  obtain ⟨hhead, hlast⟩ := strip_eq_self_iff.mp hs
  exact strip_eq_self_iff.mpr
    ⟨fun c hc => hout c (hhead c hc), fun c hc => hout c (hlast c hc)⟩

@[simp] theorem strip_idem {p : Char → Bool} (s : String) : strip p (strip p s) = strip p s := by
  unfold strip
  simp [trimList_idem]

end Lib
end ChatEngine
