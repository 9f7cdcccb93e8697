import Mathlib.Data.List.Lex
import ChatEngine.Lib.Decimal
import ChatEngine.Models.Sizes

/-!
# Message metadata in two languages

The client checks metadata again, on the object that JSON carries to it.

* `JsonScalar`, a value as both languages read it, and `toPython`;
* `normalizeMessageMetadata`, the check of the client;
* `metadata_limits_agree`: what `validate_message_metadata` accepts the client accepts, as the same
  object, exactly where the spellings of its floats leave it within the limit.
-/

namespace ChatEngine
namespace Client

open Lib
open Models

/-- A value of a metadata object: Python tells integers from floats. -/
inductive JsonScalar where
  | null
  | bool (b : Bool)
  | int (n : Int)
  | float (x : Decimal)
  | str (s : String)
  deriving DecidableEq

/-- The entries of an object. -/
abbrev JsonObject := List (String × JsonScalar)

def JsonScalar.toPython : JsonScalar → MetadataValue
  | .null => .null
  | .bool b => .bool b
  | .int n => .int n
  | .float x => .float ⟨some x.value, String.ofList x.repr⟩
  | .str s => .str s

def JsonObject.toPython (v : JsonObject) : MessageMetadata :=
  v.map fun entry => (entry.1, entry.2.toPython)

/-! ## The check of the client -/

def maxKeys : Nat := 20

def maxBytes : Nat := 4_096

/-- The UTF-16 code units of a character. -/
def codeUnits (c : Char) : List Nat :=
  if c.toNat < 0x10000 then [c.toNat]
  else [0xd800 + (c.toNat - 0x10000) / 0x400, 0xdc00 + (c.toNat - 0x10000) % 0x400]

/-- How JavaScript compares strings. -/
def codeUnitsOf (s : String) : List Nat := s.toList.flatMap codeUnits

/-- `Object.entries(value).sort(…)`. -/
def sortEntries (v : JsonObject) : JsonObject :=
  v.insertionSort fun a b => codeUnitsOf a.1 ≤ codeUnitsOf b.1

/-- How `JSON.stringify` writes one character. -/
def stringifyChar (c : Char) : String :=
  if c.toNat = 8 then "\\b"
  else if c.toNat = 9 then "\\t"
  else if c.toNat = 10 then "\\n"
  else if c.toNat = 12 then "\\f"
  else if c.toNat = 13 then "\\r"
  else if c.toNat = 34 then "\\\""
  else if c.toNat = 92 then "\\\\"
  else if c.toNat < 32 then
    "\\u00" ++ String.ofList [hexDigit (c.toNat / 16), hexDigit (c.toNat % 16)]
  else c.toString

def stringifyString (s : String) : String :=
  "\"" ++ String.join (s.toList.map stringifyChar) ++ "\""

/-- A safe integer is spelled without an exponent. -/
def stringifyScalar : JsonScalar → String
  | .null => "null"
  | .bool b => if b then "true" else "false"
  | .int n => toString n
  | .float x => String.ofList x.toText
  | .str s => stringifyString s

/-- `JSON.stringify` of the normalized object. -/
def stringify (v : JsonObject) : String :=
  "\x7b" ++ ",".intercalate (v.map fun entry =>
    stringifyString entry.1 ++ ":" ++ stringifyScalar entry.2) ++ "\x7d"

/-- The integers that a double rounds to infinity. -/
def overflow : Nat := 2 ^ 1024 - 2 ^ 970

/-- What `normalizeMessageMetadata` throws for one entry. -/
def entryError (entry : String × JsonScalar) : Option String :=
  if ¬ matchesMetadataKey entry.1 then
    some "metadata keys must be 1-64 lowercase ASCII key characters"
  else
    match entry.2 with
    | .null | .bool _ | .str _ => none
    | .int n =>
        if overflow ≤ n.natAbs then some "metadata numbers must be finite"
        else if metadataMaxSafeInteger < n.natAbs then
          some "metadata integers must be exactly representable by JavaScript"
        else none
    | .float x =>
        if x.value.den = 1 ∧ metadataMaxSafeInteger < x.value.num.natAbs then
          some "metadata integers must be exactly representable by JavaScript"
        else none

/-- `normalizeMessageMetadata`. -/
def normalizeMessageMetadata (value : JsonObject) : Except String JsonObject :=
  if maxKeys < (sortEntries value).length then .error "metadata must contain at most 20 keys"
  else
    match (sortEntries value).findSome? entryError with
    | some message => .error message
    | none =>
        if maxBytes < (stringify (sortEntries value)).utf8ByteSize then
          .error "metadata must not exceed 4096 UTF-8 JSON bytes"
        else .ok (sortEntries value)

/-! ## Texts -/

theorem stringifyChar_eq (c : Char) : stringifyChar c = dumpsChar c := by
  have hcode : ∀ d : Char, c = d ↔ c.toNat = d.toNat := fun d => Char.toNat_inj.symm
  unfold stringifyChar dumpsChar
  simp only [hcode]
  show _ = if c.toNat = 34 then _ else if c.toNat = 92 then _ else if c.toNat = 10 then _
    else if c.toNat = 13 then _ else if c.toNat = 9 then _ else _
  split_ifs <;> first | rfl | omega

theorem stringifyString_eq (s : String) : stringifyString s = dumpsString s := by
  unfold stringifyString dumpsString
  rw [funext stringifyChar_eq]

/-- How many bytes the text of a value has more in JavaScript. -/
def JsonScalar.growth : JsonScalar → Int
  | .float x => x.growth
  | _ => 0

def JsonObject.growth (v : JsonObject) : Int := (v.map fun entry => entry.2.growth).sum

/-! ## Sizes -/

theorem stringify_eq (v : JsonObject) :
    stringify v = dumpsObject (v.map fun entry => (entry.1, stringifyScalar entry.2)) := by
  unfold stringify dumpsObject
  rw [List.map_map]
  simp only [stringifyString_eq, Function.comp_def]

theorem dumpsMetadata_toPython (v : JsonObject) :
    dumpsMetadata v.toPython =
      dumpsObject (v.map fun entry => (entry.1, dumpsMetadataValue entry.2.toPython)) := by
  unfold dumpsMetadata JsonObject.toPython
  rw [List.map_map]
  rfl

/-- A value that Python accepts is spelled with `growth` bytes more in JavaScript. -/
theorem utf8ByteSize_stringifyScalar {entry : String × JsonScalar}
    (h : metadataEntryError (entry.1, entry.2.toPython) = none) :
    ((stringifyScalar entry.2).utf8ByteSize : Int) =
      (dumpsMetadataValue entry.2.toPython).utf8ByteSize + entry.2.growth := by
  obtain ⟨key, value⟩ := entry
  cases value with
  | null => rfl
  | bool b => simp [stringifyScalar, dumpsMetadataValue, JsonScalar.toPython, JsonScalar.growth]
  | int n => simp [stringifyScalar, dumpsMetadataValue, JsonScalar.toPython, JsonScalar.growth]
  | float x =>
      have hpoint : x.point ≤ 16 := by
        by_contra hlarge
        obtain ⟨n, hvalue, hbound⟩ := x.value_of_large (by omega)
        have hunsafe : metadataMaxSafeInteger < n.natAbs :=
          Nat.lt_of_lt_of_le (by decide) hbound
        simp only [metadataEntryError, JsonScalar.toPython, hvalue, Rat.den_intCast,
          Rat.num_intCast, hunsafe, and_self, if_true] at h
        split_ifs at h
      show ((String.ofList x.toText).utf8ByteSize : Int) =
        (String.ofList x.repr).utf8ByteSize + x.growth
      rw [utf8ByteSize_ascii x.ascii_toText, utf8ByteSize_ascii x.ascii_repr]
      exact x.length_toText hpoint
  | str s =>
      simp [stringifyScalar, dumpsMetadataValue, JsonScalar.toPython, JsonScalar.growth,
        stringifyString_eq]

theorem utf8ByteSize_stringify {v : JsonObject}
    (h : ∀ entry ∈ v, metadataEntryError (entry.1, entry.2.toPython) = none) :
    ((stringify v).utf8ByteSize : Int) = (dumpsMetadata v.toPython).utf8ByteSize + v.growth := by
  rw [stringify_eq, dumpsMetadata_toPython, utf8ByteSize_dumpsObject, utf8ByteSize_dumpsObject,
    List.length_map, List.length_map, List.map_map, List.map_map]
  have hsum : (((v.map fun entry =>
      (dumpsString entry.1).utf8ByteSize + 1 + (stringifyScalar entry.2).utf8ByteSize).sum : Nat) :
        Int) =
      ((v.map fun entry => (dumpsString entry.1).utf8ByteSize + 1 +
        (dumpsMetadataValue entry.2.toPython).utf8ByteSize).sum : Nat) + v.growth := by
    unfold JsonObject.growth
    induction v with
    | nil => rfl
    | cons entry rest ih =>
        have hrest := ih fun e he => h e (List.mem_cons_of_mem entry he)
        have hfirst := utf8ByteSize_stringifyScalar (h entry List.mem_cons_self)
        simp only [List.map_cons, List.sum_cons]
        push_cast at hrest ⊢
        omega
  simp only [Function.comp_def]
  push_cast at hsum ⊢
  omega

/-! ## Keys -/

theorem codeUnits_lt_iff {a b : List Char} (ha : ∀ c ∈ a, c.toNat < 0x10000)
    (hb : ∀ c ∈ b, c.toNat < 0x10000) :
    a.flatMap codeUnits < b.flatMap codeUnits ↔ a < b := by
  induction a generalizing b with
  | nil =>
      cases b with
      | nil => exact iff_of_false (List.not_lt_nil _) (List.not_lt_nil _)
      | cons d rest =>
          have hd : codeUnits d = [d.toNat] := if_pos (hb d List.mem_cons_self)
          rw [List.flatMap_cons, hd]
          exact iff_of_true (List.nil_lt_cons ..) (List.nil_lt_cons ..)
  | cons c rest ih =>
      have hc : codeUnits c = [c.toNat] := if_pos (ha c List.mem_cons_self)
      cases b with
      | nil => exact iff_of_false (List.not_lt_nil _) (List.not_lt_nil _)
      | cons d rest' =>
          have hd : codeUnits d = [d.toNat] := if_pos (hb d List.mem_cons_self)
          rw [List.flatMap_cons, List.flatMap_cons, hc, hd, List.singleton_append,
            List.singleton_append, List.cons_lt_cons_iff, List.cons_lt_cons_iff,
            ih (fun e he => ha e (List.mem_cons_of_mem c he))
              (fun e he => hb e (List.mem_cons_of_mem d he)), Char.toNat_inj]
          exact Iff.rfl

theorem matchesMetadataKey_bmp {s : String} (h : matchesMetadataKey s = true) :
    ∀ c ∈ s.toList, c.toNat < 0x10000 := by
  have hsmall : ∀ c : Char, (isLower c || isDigit c || c == '_' || c == '.' || c == '-') = true →
      c.toNat < 0x10000 := by
    intro c hc
    simp only [Bool.or_eq_true, beq_iff_eq] at hc
    rcases hc with (((hc | hc) | rfl) | rfl) | rfl
    · simp only [isLower, Bool.and_eq_true, decide_eq_true_eq] at hc
      exact Nat.lt_of_le_of_lt hc.2 (by decide)
    · simp only [isDigit, Bool.and_eq_true, decide_eq_true_eq] at hc
      exact Nat.lt_of_le_of_lt hc.2 (by decide)
    · decide
    · decide
    · decide
  unfold matchesMetadataKey matchesKey at h
  intro c hc
  cases htext : s.toList with
  | nil =>
      rw [htext] at hc
      cases hc
  | cons first rest =>
      rw [htext] at h hc
      simp only [Bool.and_eq_true, List.all_eq_true] at h
      rcases List.mem_cons.mp hc with rfl | hrest
      · exact hsmall c (by rw [h.1.1]; rfl)
      · exact hsmall c (h.2 c hrest)

/-! ## Both checks -/

theorem validateMessageMetadata_accepts {v w : MessageMetadata}
    (h : validateMessageMetadata v = .ok w) :
    w = sortKeys v ∧ v.length ≤ metadataMaxKeys ∧ ∀ entry ∈ v, metadataEntryError entry = none := by
  unfold validateMessageMetadata at h
  by_cases hcount : metadataMaxKeys < v.length
  · rw [if_pos hcount] at h
    cases h
  · rw [if_neg hcount] at h
    cases hentries : (sortKeys v).findSome? metadataEntryError with
    | some message =>
        rw [hentries] at h
        cases h
    | none =>
        rw [hentries] at h
        dsimp only at h
        split_ifs at h
        refine ⟨(Except.ok.inj h).symm, Nat.le_of_not_lt hcount, ?_⟩
        intro entry hmem
        exact List.findSome?_eq_none_iff.mp hentries entry ((List.mem_insertionSort _).mpr hmem)

/-- The client checks no entry more strictly. -/
theorem entryError_of_python {entry : String × JsonScalar}
    (h : metadataEntryError (entry.1, entry.2.toPython) = none) : entryError entry = none := by
  obtain ⟨key, value⟩ := entry
  unfold metadataEntryError at h
  split_ifs at h with hkey
  have hkey' : ¬ ¬ matchesMetadataKey key = true := not_not_intro hkey
  unfold entryError
  rw [if_neg hkey']
  cases value with
  | null => rfl
  | bool b => rfl
  | str s => rfl
  | int n =>
      simp only [JsonScalar.toPython] at h
      split_ifs at h with hsafe
      have hfinite : ¬ overflow ≤ n.natAbs := by
        intro hoverflow
        exact hsafe (Nat.lt_of_lt_of_le (by decide +kernel) hoverflow)
      simp only [if_neg hfinite, if_neg hsafe]
  | float x => exact h

/-- The keys of accepted entries are in the same order for both languages. -/
theorem toPython_sortEntries {v : JsonObject}
    (h : ∀ entry ∈ v, metadataEntryError (entry.1, entry.2.toPython) = none) :
    JsonObject.toPython (sortEntries v) = sortKeys v.toPython := by
  have hkey : ∀ entry ∈ v, matchesMetadataKey entry.1 = true := by
    intro entry hmem
    have herror := h entry hmem
    unfold metadataEntryError at herror
    split_ifs at herror with hkey
    exact hkey
  unfold JsonObject.toPython sortEntries sortKeys
  apply List.map_insertionSort
  intro a ha b hb
  show codeUnitsOf a.1 ≤ codeUnitsOf b.1 ↔ a.1 ≤ b.1
  rw [← not_lt, ← not_lt, String.lt_iff_toList_lt]
  exact not_congr (codeUnits_lt_iff (matchesMetadataKey_bmp (hkey b hb))
    (matchesMetadataKey_bmp (hkey a ha)))

theorem growth_sortEntries (v : JsonObject) : JsonObject.growth (sortEntries v) = v.growth :=
  ((List.perm_insertionSort _ v).map _).sum_eq

theorem normalizeMessageMetadata_of_accepted {v : JsonObject} {w : MessageMetadata}
    (h : validateMessageMetadata v.toPython = .ok w) :
    JsonObject.toPython (sortEntries v) = w ∧
      normalizeMessageMetadata v =
        if ((dumpsMetadata v.toPython).utf8ByteSize : Int) + v.growth ≤ maxBytes then
          .ok (sortEntries v)
        else .error "metadata must not exceed 4096 UTF-8 JSON bytes" := by
  obtain ⟨hsorted, hcount, hentries⟩ := validateMessageMetadata_accepts h
  have hperm : (sortEntries v).Perm v := List.perm_insertionSort _ v
  have haccepted : ∀ entry ∈ v, metadataEntryError (entry.1, entry.2.toPython) = none :=
    fun entry hmem => hentries _ (List.mem_map_of_mem hmem)
  refine ⟨(toPython_sortEntries haccepted).trans hsorted.symm, ?_⟩
  have hkeys : ¬ maxKeys < (sortEntries v).length := by
    rw [hperm.length_eq]
    have hlength : v.toPython.length = v.length := List.length_map ..
    rw [hlength] at hcount
    exact Nat.not_lt.mpr hcount
  have hnone : (sortEntries v).findSome? entryError = none := by
    rw [List.findSome?_eq_none_iff]
    intro entry hmem
    exact entryError_of_python (haccepted entry (hperm.mem_iff.mp hmem))
  have hsize : ((stringify (sortEntries v)).utf8ByteSize : Int) =
      (dumpsMetadata v.toPython).utf8ByteSize + v.growth := by
    rw [utf8ByteSize_stringify fun entry hmem => haccepted entry (hperm.mem_iff.mp hmem),
      growth_sortEntries, dumpsMetadata_toPython, dumpsMetadata_toPython,
      utf8ByteSize_dumpsObject_perm (hperm.map _)]
  unfold normalizeMessageMetadata
  rw [if_neg hkeys, hnone]
  dsimp only
  by_cases hfits : ((dumpsMetadata v.toPython).utf8ByteSize : Int) + v.growth ≤ maxBytes
  · rw [if_pos hfits, if_neg (by omega)]
  · rw [if_neg hfits, if_pos (by omega)]

/-- An object that the server accepts is accepted by the client, with the same keys and values,
exactly where its floats do not grow beyond the limit in the spelling of JavaScript. -/
theorem metadata_limits_agree {v : JsonObject} {w : MessageMetadata}
    (h : validateMessageMetadata v.toPython = .ok w) :
    (∃ u, normalizeMessageMetadata v = .ok u ∧ JsonObject.toPython u = w) ↔
      ((dumpsMetadata v.toPython).utf8ByteSize : Int) + v.growth ≤ 4_096 := by
  obtain ⟨hsame, hnormalize⟩ := normalizeMessageMetadata_of_accepted h
  rw [hnormalize]
  split_ifs with hfits
  · exact iff_of_true ⟨_, rfl, hsame⟩ hfits
  · refine iff_of_false ?_ hfits
    rintro ⟨u, hu, -⟩
    cases hu

/-- Half, as a double. -/
def half : Decimal where
  negative := false
  digits := [5]
  point := 0
  small := by decide
  leading := by decide
  trailing := by decide
  zero := by decide
  whole := by decide

theorem metadata_limits_agree_half :
    (∃ u, normalizeMessageMetadata [("a", .float half)] = .ok u ∧
      JsonObject.toPython u = JsonObject.toPython [("a", .float half)]) ↔
      ((dumpsMetadata (JsonObject.toPython [("a", .float half)])).utf8ByteSize : Int) +
        JsonObject.growth [("a", .float half)] ≤ 4_096 :=
  metadata_limits_agree (by decide +kernel)

/-- One hundred-thousandth, `1e-05` in Python and `0.00001` in JavaScript. -/
def hundredThousandth : Decimal where
  negative := false
  digits := [1]
  point := -4
  small := by decide
  leading := by decide
  trailing := by decide
  zero := by decide
  whole := by decide

def filler : String := String.ofList (List.replicate 4_078 'x')

/-- An object of exactly 4096 bytes in Python. -/
def fullMetadata : JsonObject := [("a", .float hundredThousandth), ("b", .str filler)]

theorem utf8ByteSize_fullMetadata :
    (dumpsMetadata fullMetadata.toPython).utf8ByteSize = 4_096 := by
  have hkeys : (dumpsString "a").utf8ByteSize = 3 ∧ (dumpsString "b").utf8ByteSize = 3 := by decide
  have hfloat : (dumpsMetadataValue (JsonScalar.float hundredThousandth).toPython).utf8ByteSize =
      5 := by
    decide +kernel
  have hletter : (dumpsChar 'x').utf8ByteSize = 1 := by decide
  have htext : (dumpsMetadataValue (JsonScalar.str filler).toPython).utf8ByteSize = 4_080 :=
    utf8ByteSize_dumpsString_replicate hletter 4_078
  rw [dumpsMetadata_toPython, utf8ByteSize_dumpsObject]
  simp only [fullMetadata, List.map_cons, List.map_nil, List.sum_cons, List.sum_nil,
    List.length_cons, List.length_nil, hkeys.1, hkeys.2, hfloat, htext]
  rfl

theorem validateMessageMetadata_fullMetadata :
    validateMessageMetadata fullMetadata.toPython = .ok fullMetadata.toPython := by
  have hsorted : sortKeys fullMetadata.toPython = fullMetadata.toPython := by
    apply List.Pairwise.insertionSort_eq
    refine List.Pairwise.cons ?_ (List.pairwise_singleton _ _)
    intro entry hmem
    rw [List.mem_singleton.mp hmem]
    show ("a" : String) ≤ "b"
    decide
  have hfirst : metadataEntryError ("a", (JsonScalar.float hundredThousandth).toPython) = none := by
    decide +kernel
  have hsecond : ∀ s : String, metadataEntryError ("b", .str s) = none := by
    intro s
    have hkey : matchesMetadataKey "b" = true := by decide
    simp [metadataEntryError, hkey]
  have hentries : fullMetadata.toPython.findSome? metadataEntryError = none := by
    rw [List.findSome?_eq_none_iff]
    intro entry hmem
    rcases List.mem_cons.mp hmem with rfl | hrest
    · exact hfirst
    · rw [List.mem_singleton.mp hrest]
      exact hsecond _
  have hcount : ¬ metadataMaxKeys < fullMetadata.toPython.length := by
    show ¬ 20 < 2
    decide
  have hsize : ¬ metadataMaxBytes < 4_096 := Nat.lt_irrefl _
  unfold validateMessageMetadata
  rw [if_neg hcount, hsorted, hentries, utf8ByteSize_fullMetadata]
  exact if_neg hsize

theorem not_metadata_limits_agree :
    ¬ ∀ (v : JsonObject) (w : MessageMetadata), validateMessageMetadata v.toPython = .ok w →
      ∃ u, normalizeMessageMetadata v = .ok u ∧ JsonObject.toPython u = w := by
  intro h
  obtain ⟨u, hu, -⟩ := h _ _ validateMessageMetadata_fullMetadata
  have hnormalize :=
    (normalizeMessageMetadata_of_accepted validateMessageMetadata_fullMetadata).2
  have hgrowth : fullMetadata.growth = 2 := rfl
  rw [utf8ByteSize_fullMetadata, hgrowth, hu] at hnormalize
  cases hnormalize

end Client
end ChatEngine
