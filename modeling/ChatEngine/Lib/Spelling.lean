import Mathlib.Algebra.GroupWithZero.Nat
import Mathlib.Algebra.Order.BigOperators.Group.List
import Mathlib.Data.List.Forall2
import Mathlib.Data.String.Basic

/-!
# The spellings of a JSON text

A JSON text without white space is a sequence of tokens, and each character of a string may be
written in several ways.

* `Spelling`, the ways to write a character, `longest` the most bytes one takes;
* `Token` and `Spells`, the texts of a sequence of tokens;
* `Spells.bytes_le` and `exists_spells_longest`: how long a text can be;
* `writtenBy`, the text for one way to write every character.
-/

namespace ChatEngine
namespace Lib

/-- The number of bytes of a text. -/
def bytes (text : List Char) : Nat := (text.map Char.utf8Size).sum

@[simp] theorem bytes_nil : bytes [] = 0 := rfl

@[simp] theorem bytes_cons (c : Char) (text : List Char) :
    bytes (c :: text) = c.utf8Size + bytes text := by
  simp [bytes]

@[simp] theorem bytes_append (text text' : List Char) :
    bytes (text ++ text') = bytes text + bytes text' := by
  simp [bytes]

theorem bytes_flatten (parts : List (List Char)) :
    bytes parts.flatten = (parts.map bytes).sum := by
  induction parts with
  | nil => rfl
  | cons part rest ih => rw [List.flatten_cons, bytes_append, List.map_cons, List.sum_cons, ih]

/-! ## Characters -/

/-- A hexadecimal digit, in either case. -/
def hexadecimal (upper : Bool) (n : Nat) : Char :=
  if n < 10 then Char.ofNat (48 + n)
  else if upper = true then Char.ofNat (55 + n)
  else Char.ofNat (87 + n)

/-- The escape of one UTF-16 code unit. -/
def unitEscape (upper : Bool) (n : Nat) : List Char :=
  '\\' :: 'u' :: [n / 4096 % 16, n / 256 % 16, n / 16 % 16, n % 16].map (hexadecimal upper)

/-- The code points that have a short escape, with its letter. -/
def shortEscapes : List (Nat × Char) :=
  [(34, '\"'), (92, '\\'), (47, '/'), (8, 'b'), (12, 'f'), (10, 'n'), (13, 'r'), (9, 't')]

/-- The ways to write a character inside a JSON string. -/
inductive Spelling (c : Char) : List Char → Prop
  | plain : 32 ≤ c.toNat → c.toNat ≠ 34 → c.toNat ≠ 92 → Spelling c [c]
  | short (letter : Char) : (c.toNat, letter) ∈ shortEscapes → Spelling c ['\\', letter]
  | unit (upper : Bool) : c.toNat < 0x10000 → Spelling c (unitEscape upper c.toNat)
  | pair (upper : Bool) : 0x10000 ≤ c.toNat →
      Spelling c (unitEscape upper (0xd800 + (c.toNat - 0x10000) / 0x400) ++
        unitEscape upper (0xdc00 + (c.toNat - 0x10000) % 0x400))

/-- The most bytes that a character takes: one code unit or two, each escaped. -/
def longest (c : Char) : Nat := if c.toNat < 0x10000 then 6 else 12

theorem utf8Size_hexadecimal (upper : Bool) {n : Nat} (h : n < 16) :
    (hexadecimal upper n).utf8Size = 1 := by
  have hall : ∀ (b : Bool) (k : Fin 16), (hexadecimal b k.val).utf8Size = 1 := by decide
  exact hall upper ⟨n, h⟩

@[simp] theorem bytes_unitEscape (upper : Bool) (n : Nat) : bytes (unitEscape upper n) = 6 := by
  have hslash : ('\\' : Char).utf8Size = 1 := by decide
  have hletter : ('u' : Char).utf8Size = 1 := by decide
  have hdigit : ∀ m : Nat, (hexadecimal upper (m % 16)).utf8Size = 1 :=
    fun m => utf8Size_hexadecimal upper (Nat.mod_lt m (by decide))
  simp only [unitEscape, List.map_cons, List.map_nil, bytes_cons, bytes_nil, hslash, hletter,
    hdigit]

theorem Spelling.bytes_le {c : Char} {text : List Char} (h : Spelling c text) :
    bytes text ≤ longest c := by
  have hsix : 6 ≤ longest c := by
    unfold longest
    split_ifs <;> decide
  cases h with
  | plain _ _ _ =>
      have hfour := c.utf8Size_le_four
      rw [bytes_cons, bytes_nil]
      omega
  | short letter hletter =>
      have hsizes : ∀ p ∈ shortEscapes, bytes ['\\', p.2] = 2 := by decide
      rw [hsizes _ hletter]
      omega
  | unit upper _ =>
      rw [bytes_unitEscape]
      exact hsix
  | pair upper hastral =>
      rw [bytes_append, bytes_unitEscape, bytes_unitEscape, longest,
        if_neg (Nat.not_lt.mpr hastral)]

theorem exists_longest (c : Char) : ∃ text, Spelling c text ∧ bytes text = longest c := by
  by_cases hunit : c.toNat < 0x10000
  · refine ⟨_, .unit false hunit, ?_⟩
    rw [bytes_unitEscape, longest, if_pos hunit]
  · refine ⟨_, .pair false (Nat.le_of_not_lt hunit), ?_⟩
    rw [bytes_append, bytes_unitEscape, bytes_unitEscape, longest, if_neg hunit]

/-! ## Texts -/

/-- Punctuation, a number or a literal, or a string. -/
inductive Token where
  | fixed (text : String)
  | str (s : String)

inductive Token.Spells : Token → List Char → Prop
  | fixed (text : String) : Spells (.fixed text) text.toList
  | str (s : String) (parts : List (List Char)) : List.Forall₂ Spelling s.toList parts →
      Spells (.str s) ('\"' :: (parts.flatten ++ ['\"']))

/-- The bytes of a token, for the bytes that each character takes. -/
def Token.size (weight : Char → Nat) : Token → Nat
  | .fixed text => bytes text.toList
  | .str s => (s.toList.map weight).sum + 2

def totalSize (weight : Char → Nat) (tokens : List Token) : Nat :=
  (tokens.map (Token.size weight)).sum

/-- The texts of a sequence of tokens. -/
def Spells (tokens : List Token) (text : List Char) : Prop :=
  ∃ parts, List.Forall₂ Token.Spells tokens parts ∧ text = parts.flatten

/-- Parts that are each at most of a length, all together. -/
theorem sum_bytes_le {α : Type} {R : α → List Char → Prop} {weight : α → Nat}
    (hR : ∀ a text, R a text → bytes text ≤ weight a) {items : List α}
    {parts : List (List Char)} (h : List.Forall₂ R items parts) :
    (parts.map bytes).sum ≤ (items.map weight).sum := by
  induction h with
  | nil => exact Nat.le_refl _
  | cons hfirst _ ih =>
      rw [List.map_cons, List.map_cons, List.sum_cons, List.sum_cons]
      exact Nat.add_le_add (hR _ _ hfirst) ih

theorem exists_sum_bytes {α : Type} {R : α → List Char → Prop} {weight : α → Nat}
    (hR : ∀ a, ∃ text, R a text ∧ bytes text = weight a) (items : List α) :
    ∃ parts, List.Forall₂ R items parts ∧ (parts.map bytes).sum = (items.map weight).sum := by
  induction items with
  | nil => exact ⟨[], .nil, rfl⟩
  | cons a rest ih =>
      obtain ⟨text, htext, hsize⟩ := hR a
      obtain ⟨parts, hparts, hsum⟩ := ih
      refine ⟨text :: parts, .cons htext hparts, ?_⟩
      rw [List.map_cons, List.map_cons, List.sum_cons, List.sum_cons, hsize, hsum]

theorem bytes_quoted (parts : List (List Char)) :
    bytes ('\"' :: (parts.flatten ++ ['\"'])) = (parts.map bytes).sum + 2 := by
  have hquote : ('\"' : Char).utf8Size = 1 := by decide
  rw [bytes_cons, bytes_append, bytes_flatten, bytes_cons, bytes_nil, hquote]
  omega

theorem Token.Spells.bytes_le {token : Token} {text : List Char} (h : token.Spells text) :
    bytes text ≤ token.size longest := by
  cases h with
  | fixed text => exact Nat.le_refl _
  | str s parts hparts =>
      rw [bytes_quoted]
      exact Nat.add_le_add_right (sum_bytes_le (fun _ _ hspelling => hspelling.bytes_le) hparts) 2

theorem Token.exists_longest (token : Token) :
    ∃ text, token.Spells text ∧ bytes text = token.size longest := by
  cases token with
  | fixed text => exact ⟨_, .fixed text, rfl⟩
  | str s =>
      obtain ⟨parts, hparts, hsum⟩ := exists_sum_bytes Lib.exists_longest s.toList
      refine ⟨_, .str s parts hparts, ?_⟩
      rw [bytes_quoted, hsum]
      rfl

theorem Spells.bytes_le {tokens : List Token} {text : List Char} (h : Spells tokens text) :
    bytes text ≤ totalSize longest tokens := by
  obtain ⟨parts, hparts, rfl⟩ := h
  rw [bytes_flatten]
  exact sum_bytes_le (fun _ _ hspells => hspells.bytes_le) hparts

theorem exists_spells_longest (tokens : List Token) :
    ∃ text, Spells tokens text ∧ bytes text = totalSize longest tokens := by
  obtain ⟨parts, hparts, hsum⟩ := exists_sum_bytes Token.exists_longest tokens
  refine ⟨_, ⟨parts, hparts, rfl⟩, ?_⟩
  rw [bytes_flatten, hsum]
  rfl

/-! ## Arrays and objects -/

def commaSeparated : List (List Token) → List Token
  | [] => []
  | [item] => item
  | item :: rest => item ++ .fixed "," :: commaSeparated rest

def arrayTokens (items : List (List Token)) : List Token :=
  .fixed "[" :: (commaSeparated items ++ [.fixed "]"])

def objectTokens (members : List (String × List Token)) : List Token :=
  .fixed "\x7b" :: (commaSeparated (members.map fun member =>
    .str member.1 :: .fixed ":" :: member.2) ++ [.fixed "\x7d"])

section Sizes

variable (weight : Char → Nat)

@[simp] theorem totalSize_nil : totalSize weight [] = 0 := rfl

@[simp] theorem totalSize_cons (token : Token) (rest : List Token) :
    totalSize weight (token :: rest) = token.size weight + totalSize weight rest := by
  simp [totalSize]

@[simp] theorem totalSize_append (tokens tokens' : List Token) :
    totalSize weight (tokens ++ tokens') = totalSize weight tokens + totalSize weight tokens' := by
  simp [totalSize]

theorem totalSize_commaSeparated (items : List (List Token)) :
    totalSize weight (commaSeparated items) =
      (items.map (totalSize weight)).sum + (items.length - 1) := by
  induction items with
  | nil => rfl
  | cons item rest ih =>
      cases rest with
      | nil => simp [commaSeparated]
      | cons next rest =>
          have hcomma : (Token.fixed ",").size weight = 1 := rfl
          rw [commaSeparated, totalSize_append, totalSize_cons, ih, hcomma]
          · simp only [List.map_cons, List.sum_cons, List.length_cons]
            omega
          · nofun

/-- What the members of an object take, each with a comma. -/
def membersCost (members : List (String × List Token)) : Nat :=
  (members.map fun member =>
    (Token.str member.1).size weight + 1 + totalSize weight member.2 + 1).sum

@[simp] theorem membersCost_append (members members' : List (String × List Token)) :
    membersCost weight (members ++ members') =
      membersCost weight members + membersCost weight members' := by
  simp [membersCost]

theorem totalSize_objectTokens (members : List (String × List Token)) :
    totalSize weight (objectTokens members) = membersCost weight members - 1 + 2 := by
  have hopen : (Token.fixed "\x7b").size weight = 1 := rfl
  have hclose : (Token.fixed "\x7d").size weight = 1 := rfl
  have hcolon : (Token.fixed ":").size weight = 1 := rfl
  have hsum : membersCost weight members =
      ((members.map fun member =>
        (.str member.1 :: .fixed ":" :: member.2 : List Token)).map (totalSize weight)).sum +
          members.length := by
    unfold membersCost
    induction members with
    | nil => rfl
    | cons member rest ih =>
        simp only [List.map_cons, List.sum_cons, List.length_cons, totalSize_cons, hcolon, ih]
        omega
  unfold objectTokens
  rw [totalSize_cons, totalSize_append, totalSize_commaSeparated, totalSize_cons, totalSize_nil,
    hopen, hclose, List.length_map, hsum]
  cases members with
  | nil => rfl
  | cons member rest =>
      rw [List.length_cons]
      omega

theorem totalSize_arrayTokens (items : List (List Token)) :
    totalSize weight (arrayTokens items) =
      (items.map (totalSize weight)).sum + (items.length - 1) + 2 := by
  have hopen : (Token.fixed "[").size weight = 1 := rfl
  have hclose : (Token.fixed "]").size weight = 1 := rfl
  unfold arrayTokens
  rw [totalSize_cons, totalSize_append, totalSize_commaSeparated, totalSize_cons, totalSize_nil,
    hopen, hclose]
  omega

end Sizes

/-! ## One way to write every character -/

/-- The text in which every character is written in its one way. -/
def Token.writtenBy (write : Char → List Char) : Token → List Char
  | .fixed text => text.toList
  | .str s => '\"' :: ((s.toList.map write).flatten ++ ['\"'])

def writtenBy (write : Char → List Char) (tokens : List Token) : List Char :=
  (tokens.map (Token.writtenBy write)).flatten

theorem bytes_writtenBy (write : Char → List Char) (tokens : List Token) :
    bytes (writtenBy write tokens) = totalSize (fun c => bytes (write c)) tokens := by
  have htoken : ∀ token : Token,
      bytes (token.writtenBy write) = token.size fun c => bytes (write c) := by
    rintro (text | s)
    · rfl
    · rw [Token.writtenBy, bytes_quoted, List.map_map]
      rfl
  unfold writtenBy totalSize
  rw [bytes_flatten, List.map_map]
  exact congrArg List.sum (List.map_congr_left fun token _ => htoken token)

theorem spells_writtenBy {write : Char → List Char} (h : ∀ c, Spelling c (write c))
    (tokens : List Token) : Spells tokens (writtenBy write tokens) := by
  refine ⟨_, ?_, rfl⟩
  rw [List.forall₂_map_right_iff, List.forall₂_same]
  rintro (text | s) _
  · exact .fixed text
  · refine .str s _ ?_
    rw [List.forall₂_map_right_iff, List.forall₂_same]
    exact fun c _ => h c

/-- What `json.dumps` writes with `ensure_ascii`, the default. -/
def asciiSpelling (c : Char) : List Char :=
  match shortEscapes.find? fun escape => escape.1 = c.toNat ∧ c.toNat ≠ 47 with
  | some escape => ['\\', escape.2]
  | none =>
      if 32 ≤ c.toNat ∧ c.toNat ≤ 126 then [c]
      else if c.toNat < 0x10000 then unitEscape false c.toNat
      else unitEscape false (0xd800 + (c.toNat - 0x10000) / 0x400) ++
        unitEscape false (0xdc00 + (c.toNat - 0x10000) % 0x400)

theorem spelling_asciiSpelling (c : Char) : Spelling c (asciiSpelling c) := by
  unfold asciiSpelling
  split
  · rename_i escape hfind
    have hcode := List.find?_some hfind
    have hmem := List.mem_of_find?_eq_some hfind
    simp only [decide_eq_true_eq] at hcode
    exact .short escape.2 (hcode.1 ▸ hmem)
  · rename_i hnone
    have hplain := List.find?_eq_none.mp hnone
    split_ifs with hprintable hunit
    · refine .plain hprintable.1 ?_ ?_
      · intro hquote
        exact hplain (34, '\"') (by decide) (by simp [hquote])
      · intro hslash
        exact hplain (92, '\\') (by decide) (by simp [hslash])
    · exact .unit false hunit
    · exact .pair false (Nat.le_of_not_lt hunit)

end Lib
end ChatEngine
