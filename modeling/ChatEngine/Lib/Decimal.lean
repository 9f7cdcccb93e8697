import Mathlib.Data.Nat.Digits.Lemmas
import Mathlib.Data.Rat.Cast.Order
import Mathlib.Data.String.Basic

/-!
# Two spellings of a floating-point number

A finite double is known by its shortest decimal, from which each language makes its own text.

* `Decimal`, significant digits and the place of the point;
* `Decimal.repr`, Python's spelling, and `Decimal.toText`, that of JavaScript;
* `Decimal.length_toText`: what the second has more than the first is `Decimal.growth`;
* `Decimal.value_of_large`: from ten to the sixteenth on a double is a whole number.
-/

namespace ChatEngine
namespace Lib

/-- The shortest decimal of a double: `0.d₁d₂…` times ten to the power `point`, without zeros at
either end.  A double from `2 ^ 53` on is a whole number. -/
structure Decimal where
  negative : Bool
  digits : List Nat
  point : Int
  small : ∀ d ∈ digits, d < 10
  leading : digits.head? ≠ some 0
  trailing : digits.getLast? ≠ some 0
  zero : digits = [] → point = 1
  whole : 16 < point → digits.length ≤ point
  deriving DecidableEq

namespace Decimal

variable (x : Decimal)

/-- The number of the digits. -/
def mantissa : Nat := Nat.ofDigits 10 x.digits.reverse

/-- The absolute value. -/
def magnitude : Rat :=
  if x.digits.length ≤ x.point then x.mantissa * 10 ^ (x.point - x.digits.length).toNat
  else x.mantissa / 10 ^ (x.digits.length - x.point).toNat

def value : Rat := if x.negative = true then -x.magnitude else x.magnitude

def digitTexts : List Char := x.digits.map Nat.digitChar

def zeros (n : Int) : List Char := List.replicate n.toNat '0'

/-- The text without an exponent, and without a point where no digit follows it. -/
def positional : List Char :=
  if x.point ≤ 0 then '0' :: '.' :: (zeros (-x.point) ++ x.digitTexts)
  else if x.digits.length ≤ x.point then x.digitTexts ++ zeros (x.point - x.digits.length)
  else x.digitTexts.take x.point.toNat ++ '.' :: x.digitTexts.drop x.point.toNat

/-- One digit before the point, and an exponent of at least `width` digits. -/
def scientific (width : Nat) : List Char :=
  let exponent := Nat.toDigits 10 (x.point - 1).natAbs
  x.digitTexts.take 1 ++ (if 1 < x.digits.length then '.' :: x.digitTexts.drop 1 else []) ++
    'e' :: (if x.point < 1 then '-' else '+') ::
      (List.replicate (width - exponent.length) '0' ++ exponent)

/-- `repr` of a Python float. -/
def repr : List Char :=
  (if x.negative = true then ['-'] else []) ++
    if -4 < x.point ∧ x.point ≤ 16 then
      x.positional ++ if x.digits.length ≤ x.point then ['.', '0'] else []
    else x.scientific 2

/-- `Number.prototype.toString` of JavaScript. -/
def toText : List Char :=
  (if x.negative = true ∧ x.digits ≠ [] then ['-'] else []) ++
    if -6 < x.point ∧ x.point ≤ 21 then x.positional else x.scientific 1

/-- How many characters JavaScript needs more than Python. -/
def growth : Int :=
  if x.digits.length ≤ x.point then (if x.negative = true ∧ x.digits = [] then -3 else -2)
  else if x.point = -4 then (if x.digits.length = 1 then 2 else 1)
  else if x.point = -5 then (if x.digits.length = 1 then 3 else 2)
  else if -8 ≤ x.point ∧ x.point ≤ -6 then -1
  else 0

end Decimal

/-! ## Lengths -/

theorem length_toDigits_of_lt {n : Nat} (h : n < 10) : (Nat.toDigits 10 n).length = 1 := by
  rw [Nat.toDigits_of_lt_base h]
  rfl

theorem two_le_length_toDigits {n : Nat} (h : 10 ≤ n) : 2 ≤ (Nat.toDigits 10 n).length := by
  rw [Nat.toDigits_of_base_le (by decide) h, List.length_append, List.length_singleton]
  have hpos : 0 < (Nat.toDigits 10 (n / 10)).length := by
    rcases Nat.lt_or_ge (n / 10) 10 with hlt | hge
    · rw [length_toDigits_of_lt hlt]
      exact Nat.one_pos
    · rw [Nat.toDigits_of_base_le (by decide) hge, List.length_append]
      exact Nat.lt_of_lt_of_le Nat.one_pos (Nat.le_add_left ..)
  omega

namespace Decimal

variable (x : Decimal)

@[simp] theorem length_digitTexts : x.digitTexts.length = x.digits.length :=
  List.length_map ..

@[simp] theorem length_zeros (n : Int) : (zeros n).length = n.toNat :=
  List.length_replicate

theorem length_positional :
    (x.positional.length : Int) =
      if x.point ≤ 0 then x.digits.length - x.point + 2
      else if x.digits.length ≤ x.point then x.point
      else x.digits.length + 1 := by
  unfold positional
  split_ifs with hsmall hwhole
  · simp only [List.length_cons, List.length_append, length_zeros, length_digitTexts]
    omega
  · simp only [List.length_append, length_zeros, length_digitTexts]
    omega
  · simp only [List.length_append, List.length_take, List.length_cons, List.length_drop,
      length_digitTexts]
    omega

theorem length_scientific (width : Nat) (h : x.digits ≠ []) :
    (x.scientific width).length =
      x.digits.length + (if 1 < x.digits.length then 1 else 0) + 2 +
        max width (Nat.toDigits 10 (x.point - 1).natAbs).length := by
  have hpos : 0 < x.digits.length := List.length_pos_iff.mpr h
  unfold scientific
  simp only [List.length_append, List.length_take, List.length_cons, List.length_replicate,
    length_digitTexts]
  split_ifs with hmany
  · simp only [List.length_cons, List.length_drop, length_digitTexts]
    omega
  · simp only [List.length_nil]
    omega

theorem length_toText (h : x.point ≤ 16) :
    (x.toText.length : Int) = x.repr.length + x.growth := by
  have hpositional := x.length_positional
  by_cases hzero : x.digits = []
  · have hpoint := x.zero hzero
    have hlength : x.digits.length = 0 := by rw [hzero]; rfl
    unfold toText repr growth
    rw [hpoint, hlength] at *
    cases x.negative <;> simp [hzero] at hpositional ⊢
    all_goals omega
  · have hpos : 0 < x.digits.length := List.length_pos_iff.mpr hzero
    have hsign : (if x.negative = true ∧ x.digits ≠ [] then ['-'] else []) =
        if x.negative = true then ['-'] else [] := by
      simp [hzero]
    have hgrowth : (if x.negative = true ∧ x.digits = [] then (-3 : Int) else -2) = -2 := by
      simp [hzero]
    unfold toText repr growth
    rw [hsign, hgrowth, List.length_append, List.length_append]
    generalize (if x.negative = true then ['-'] else []) = sign
    by_cases hwhole : x.digits.length ≤ x.point
    · -- A whole number is positional in both languages.
      rw [if_pos hwhole, if_pos hwhole, if_pos (by omega), if_pos (by omega), List.length_append]
      push_cast
      simp
      omega
    · rw [if_neg hwhole, if_neg hwhole, List.append_nil]
      by_cases hlarge : -4 < x.point
      · rw [if_pos (by omega), if_pos (by omega), if_neg (by omega), if_neg (by omega),
          if_neg (by omega)]
        simp
      · -- Below a ten-thousandth Python has an exponent, and JavaScript has one from `1e-7` on.
        have hscientific := x.length_scientific 2 hzero
        rw [if_neg (c := -4 < x.point ∧ x.point ≤ 16) (fun hboth => hlarge hboth.1)]
        by_cases hsmall : -6 < x.point
        · have hexponent : (Nat.toDigits 10 (x.point - 1).natAbs).length = 1 :=
            length_toDigits_of_lt (by omega)
          rw [hexponent] at hscientific
          rw [if_pos ⟨hsmall, by omega⟩]
          rw [if_pos (by omega)] at hpositional
          split_ifs at hscientific ⊢ <;> push_cast <;> omega
        · have hshort := x.length_scientific 1 hzero
          rw [if_neg (c := -6 < x.point ∧ x.point ≤ 21) (fun hboth => hsmall hboth.1),
            if_neg (by omega), if_neg (by omega)]
          by_cases hone : -8 ≤ x.point
          · have hexponent : (Nat.toDigits 10 (x.point - 1).natAbs).length = 1 :=
              length_toDigits_of_lt (by omega)
            rw [hexponent] at hscientific hshort
            rw [if_pos ⟨hone, by omega⟩]
            push_cast
            omega
          · have hexponent := two_le_length_toDigits (n := (x.point - 1).natAbs) (by omega)
            rw [if_neg (fun hboth => hone hboth.1)]
            push_cast
            omega

end Decimal

/-! ## Characters -/

/-- A text of ASCII characters has as many bytes. -/
theorem utf8ByteSize_ascii {text : List Char} (h : ∀ c ∈ text, c.utf8Size = 1) :
    (String.ofList text).utf8ByteSize = text.length := by
  induction text with
  | nil => rfl
  | cons c rest ih =>
      have hrest := ih fun d hd => h d (List.mem_cons_of_mem c hd)
      have hfirst := h c List.mem_cons_self
      rw [String.ofList_cons, String.utf8ByteSize_append, String.utf8ByteSize_singleton, hrest,
        hfirst, List.length_cons, Nat.add_comm]

theorem utf8Size_digitChar {d : Nat} (h : d < 10) : (Nat.digitChar d).utf8Size = 1 := by
  have hall : ∀ k : Fin 10, (Nat.digitChar k.val).utf8Size = 1 := by decide
  exact hall ⟨d, h⟩

theorem utf8Size_of_mem_toDigits {c : Char} {n : Nat} (h : c ∈ Nat.toDigits 10 n) :
    c.utf8Size = 1 := by
  have hdigit := Nat.isDigit_of_mem_toDigits (by decide) (by decide) h
  rw [Char.utf8Size_eq_one_iff]
  simp only [Char.isDigit, Bool.and_eq_true, decide_eq_true_eq] at hdigit
  exact UInt32.le_trans hdigit.2 (by decide)

namespace Decimal

variable (x : Decimal)

theorem ascii_digitTexts : ∀ c ∈ x.digitTexts, c.utf8Size = 1 := by
  intro c hc
  obtain ⟨d, hd, rfl⟩ := List.mem_map.mp hc
  exact utf8Size_digitChar (x.small d hd)

theorem ascii_zeros (n : Int) : ∀ c ∈ zeros n, c.utf8Size = 1 := by
  intro c hc
  obtain rfl := List.eq_of_mem_replicate hc
  decide

theorem ascii_positional : ∀ c ∈ x.positional, c.utf8Size = 1 := by
  intro c hc
  unfold positional at hc
  split_ifs at hc
  · simp only [List.mem_cons, List.mem_append] at hc
    rcases hc with rfl | rfl | hzero | hdigit
    · decide
    · decide
    · exact ascii_zeros _ c hzero
    · exact x.ascii_digitTexts c hdigit
  · rcases List.mem_append.mp hc with hdigit | hzero
    · exact x.ascii_digitTexts c hdigit
    · exact ascii_zeros _ c hzero
  · simp only [List.mem_cons, List.mem_append] at hc
    rcases hc with hdigit | rfl | hdigit
    · exact x.ascii_digitTexts c (List.mem_of_mem_take hdigit)
    · decide
    · exact x.ascii_digitTexts c (List.mem_of_mem_drop hdigit)

theorem ascii_scientific (width : Nat) : ∀ c ∈ x.scientific width, c.utf8Size = 1 := by
  intro c hc
  unfold scientific at hc
  simp only [List.mem_cons, List.mem_append, List.mem_replicate] at hc
  rcases hc with (hdigit | hfraction) | rfl | rfl | ⟨-, rfl⟩ | hexponent
  · exact x.ascii_digitTexts c (List.mem_of_mem_take hdigit)
  · split_ifs at hfraction
    · rcases List.mem_cons.mp hfraction with rfl | hdigit
      · decide
      · exact x.ascii_digitTexts c (List.mem_of_mem_drop hdigit)
    · cases hfraction
  · decide
  · split_ifs <;> decide
  · decide
  · exact utf8Size_of_mem_toDigits hexponent

theorem ascii_repr : ∀ c ∈ x.repr, c.utf8Size = 1 := by
  intro c hc
  unfold repr at hc
  rcases List.mem_append.mp hc with hsign | hc
  · split_ifs at hsign
    · rw [List.mem_singleton.mp hsign]
      decide
    · cases hsign
  · split_ifs at hc
    · rcases List.mem_append.mp hc with hdigit | hpoint
      · exact x.ascii_positional c hdigit
      · simp only [List.mem_cons, List.not_mem_nil, or_false] at hpoint
        rcases hpoint with rfl | rfl <;> decide
    · rw [List.append_nil] at hc
      exact x.ascii_positional c hc
    · exact x.ascii_scientific 2 c hc

theorem ascii_toText : ∀ c ∈ x.toText, c.utf8Size = 1 := by
  intro c hc
  unfold toText at hc
  rcases List.mem_append.mp hc with hsign | hc
  · split_ifs at hsign
    · rw [List.mem_singleton.mp hsign]
      decide
    · cases hsign
  · split_ifs at hc
    · exact x.ascii_positional c hc
    · exact x.ascii_scientific 1 c hc

/-! ## Large numbers -/

theorem le_mantissa (h : x.digits ≠ []) : 10 ^ (x.digits.length - 1) ≤ x.mantissa := by
  have hne : x.digits.reverse ≠ [] := by
    rwa [ne_eq, List.reverse_eq_nil_iff]
  have hlast : x.digits.reverse.getLast hne ≠ 0 := by
    rw [List.getLast_reverse]
    intro hzero
    exact x.leading (by rw [List.head?_eq_some_head h, hzero])
  have hpow := Nat.pow_length_le_mul_ofDigits (b := 8) hne hlast
  have hpos : 0 < x.digits.length := List.length_pos_iff.mpr h
  rw [List.length_reverse] at hpow
  have hsplit : 10 ^ x.digits.length = 10 * 10 ^ (x.digits.length - 1) := by
    rw [← Nat.pow_succ', Nat.succ_eq_add_one, Nat.sub_add_cancel hpos]
  have hscaled : 10 * 10 ^ (x.digits.length - 1) ≤ 10 * x.mantissa := by
    rw [← hsplit]
    exact hpow
  omega

theorem value_of_large (h : 16 < x.point) :
    ∃ n : Int, x.value = n ∧ 10 ^ 16 ≤ n.natAbs := by
  have hne : x.digits ≠ [] := by
    intro hnil
    have := x.zero hnil
    omega
  have hpos : 0 < x.digits.length := List.length_pos_iff.mpr hne
  have hwhole := x.whole h
  have hmagnitude : x.magnitude =
      ((x.mantissa * 10 ^ (x.point - x.digits.length).toNat : Nat) : Rat) := by
    unfold magnitude
    rw [if_pos hwhole]
    push_cast
    rfl
  have hlarge : 10 ^ 16 ≤ x.mantissa * 10 ^ (x.point - x.digits.length).toNat := by
    calc 10 ^ 16
        ≤ 10 ^ ((x.digits.length - 1) + (x.point - x.digits.length).toNat) :=
          Nat.pow_le_pow_right (by decide) (by omega)
      _ = 10 ^ (x.digits.length - 1) * 10 ^ (x.point - x.digits.length).toNat := Nat.pow_add ..
      _ ≤ x.mantissa * 10 ^ (x.point - x.digits.length).toNat :=
          Nat.mul_le_mul_right _ (x.le_mantissa hne)
  cases hsign : x.negative with
  | false =>
      refine ⟨(x.mantissa * 10 ^ (x.point - x.digits.length).toNat : Nat), ?_, ?_⟩
      · rw [value, hsign, if_neg Bool.false_ne_true, hmagnitude]
        rfl
      · rwa [Int.natAbs_natCast]
  | true =>
      refine ⟨-(x.mantissa * 10 ^ (x.point - x.digits.length).toNat : Nat), ?_, ?_⟩
      · rw [value, hsign, if_pos rfl, hmagnitude]
        push_cast
        rfl
      · rwa [Int.natAbs_neg, Int.natAbs_natCast]

end Decimal

end Lib
end ChatEngine
