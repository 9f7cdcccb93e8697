import Mathlib.Data.Nat.ModEq
import Mathlib.Data.Nat.Digits.Lemmas
import Mathlib.Data.List.Lex

/-!
# Numbers in columns

A number in `w` columns is written with zeros in front.

* `columns`, the digits of a number in a fixed number of columns;
* `columns_append_lt_iff`: two texts that start with as many columns compare by the numbers first
  and by what follows second.
-/

namespace ChatEngine
namespace Lib

/-- The last `w` decimal digits, zeros in front. -/
def columns : Nat → Nat → List Char
  | 0, _ => []
  | w + 1, n => Nat.digitChar (n / 10 ^ w % 10) :: columns w n

/-- The digits of the alphabet are in the order of their values. -/
theorem digitChar_lt_iff {a b : Nat} (ha : a < 10) (hb : b < 10) :
    Nat.digitChar a < Nat.digitChar b ↔ a < b := by
  show (Nat.digitChar a).toNat < (Nat.digitChar b).toNat ↔ a < b
  rw [Nat.toNat_digitChar_of_lt_ten ha, Nat.toNat_digitChar_of_lt_ten hb]
  omega

theorem digitChar_inj {a b : Nat} (ha : a < 10) (hb : b < 10) :
    Nat.digitChar a = Nat.digitChar b ↔ a = b := by
  constructor
  · intro h
    have hcode := congrArg Char.toNat h
    rw [Nat.toNat_digitChar_of_lt_ten ha, Nat.toNat_digitChar_of_lt_ten hb] at hcode
    omega
  · exact congrArg Nat.digitChar

/-- The columns decide, and where they agree the rest of the text does. -/
theorem columns_append_lt_iff_mod (w : Nat) {n m : Nat} {xs ys : List Char} :
    columns w n ++ xs < columns w m ++ ys ↔
      n % 10 ^ w < m % 10 ^ w ∨ n % 10 ^ w = m % 10 ^ w ∧ xs < ys := by
  induction w with
  | zero =>
      show xs < ys ↔ n % 1 < m % 1 ∨ n % 1 = m % 1 ∧ xs < ys
      rw [Nat.mod_one, Nat.mod_one]
      constructor
      · exact fun h => .inr ⟨rfl, h⟩
      · rintro (h | h)
        · exact absurd h (Nat.lt_irrefl 0)
        · exact h.2
  | succ w ih =>
      have hleading : ∀ k : Nat, k / 10 ^ w % 10 < 10 := fun k => Nat.mod_lt _ (by omega)
      have hn : n % 10 ^ w < 10 ^ w := Nat.mod_lt _ (Nat.pow_pos (by omega))
      have hm : m % 10 ^ w < 10 ^ w := Nat.mod_lt _ (Nat.pow_pos (by omega))
      rw [columns, columns, List.cons_append, List.cons_append, List.cons_lt_cons_iff,
        digitChar_lt_iff (hleading n) (hleading m), digitChar_inj (hleading n) (hleading m), ih,
        Nat.mod_pow_succ, Nat.mod_pow_succ]
      generalize 10 ^ w = p at *
      generalize n / p % 10 = a at *
      generalize m / p % 10 = b at *
      rcases Nat.lt_trichotomy a b with hlt | rfl | hgt
      · have hstep : p * (a + 1) ≤ p * b := Nat.mul_le_mul_left p hlt
        rw [Nat.mul_add, Nat.mul_one] at hstep
        exact iff_of_true (.inl hlt) (.inl (by omega))
      · constructor
        · rintro (h | ⟨-, h | ⟨h, hrest⟩⟩)
          · exact absurd h (Nat.lt_irrefl a)
          · exact .inl (by omega)
          · exact .inr ⟨by omega, hrest⟩
        · rintro (h | ⟨h, hrest⟩)
          · exact .inr ⟨rfl, .inl (by omega)⟩
          · exact .inr ⟨rfl, .inr ⟨by omega, hrest⟩⟩
      · have hstep : p * (b + 1) ≤ p * a := Nat.mul_le_mul_left p hgt
        rw [Nat.mul_add, Nat.mul_one] at hstep
        apply iff_of_false
        · rintro (h | ⟨h, -⟩) <;> omega
        · rintro (h | ⟨h, -⟩) <;> omega

/-- The same for numbers that have no more columns. -/
theorem columns_append_lt_iff {w n m : Nat} (hn : n < 10 ^ w) (hm : m < 10 ^ w)
    {xs ys : List Char} :
    columns w n ++ xs < columns w m ++ ys ↔ n < m ∨ n = m ∧ xs < ys := by
  rw [columns_append_lt_iff_mod, Nat.mod_eq_of_lt hn, Nat.mod_eq_of_lt hm]

end Lib
end ChatEngine
