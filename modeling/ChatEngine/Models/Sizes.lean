import Mathlib.Algebra.GroupWithZero.Nat
import Mathlib.Algebra.BigOperators.Group.List.Basic
import ChatEngine.Models.Content

/-!
# Sizes of JSON texts

The number of bytes of what `json.dumps` writes, from the sizes of its parts.
-/

namespace ChatEngine
namespace Models

theorem utf8ByteSize_intercalate (items : List String) :
    (",".intercalate items).utf8ByteSize =
      (items.map String.utf8ByteSize).sum + (items.length - 1) := by
  induction items with
  | nil => simp
  | cons s rest ih =>
      have hcomma : ("," : String).utf8ByteSize = 1 := by decide
      cases rest with
      | nil => simp [String.intercalate_singleton]
      | cons t rest =>
          rw [String.intercalate_cons_cons, String.utf8ByteSize_append, String.utf8ByteSize_append,
            ih, hcomma]
          simp only [List.map_cons, List.sum_cons, List.length_cons]
          omega

/-- The fields of an object, each with its text. -/
theorem utf8ByteSize_dumpsObject (fields : List (String × String)) :
    (dumpsObject fields).utf8ByteSize =
      (fields.map fun field => (dumpsString field.1).utf8ByteSize + 1 + field.2.utf8ByteSize).sum +
        (fields.length - 1) + 2 := by
  have hopen : ("\x7b" : String).utf8ByteSize = 1 := by decide
  have hclose : ("\x7d" : String).utf8ByteSize = 1 := by decide
  have hcolon : (":" : String).utf8ByteSize = 1 := by decide
  have hfields : (fields.map fun field => dumpsString field.1 ++ ":" ++ field.2).map
      String.utf8ByteSize =
        fields.map fun field => (dumpsString field.1).utf8ByteSize + 1 + field.2.utf8ByteSize := by
    rw [List.map_map]
    apply List.map_congr_left
    intro field _
    show (dumpsString field.1 ++ ":" ++ field.2).utf8ByteSize = _
    rw [String.utf8ByteSize_append, String.utf8ByteSize_append, hcolon]
  unfold dumpsObject
  rw [String.utf8ByteSize_append, String.utf8ByteSize_append, utf8ByteSize_intercalate, hfields,
    List.length_map, hopen, hclose]
  omega

/-- The order of the fields does not matter. -/
theorem utf8ByteSize_dumpsObject_perm {fields fields' : List (String × String)}
    (h : fields.Perm fields') :
    (dumpsObject fields).utf8ByteSize = (dumpsObject fields').utf8ByteSize := by
  rw [utf8ByteSize_dumpsObject, utf8ByteSize_dumpsObject, h.length_eq, (h.map _).sum_eq]

theorem utf8ByteSize_dumpsArray (items : List String) :
    (dumpsArray items).utf8ByteSize =
      (items.map String.utf8ByteSize).sum + (items.length - 1) + 2 := by
  have hopen : ("[" : String).utf8ByteSize = 1 := by decide
  have hclose : ("]" : String).utf8ByteSize = 1 := by decide
  unfold dumpsArray
  rw [String.utf8ByteSize_append, String.utf8ByteSize_append, utf8ByteSize_intercalate, hopen,
    hclose]
  omega

/-- A text of one repeated character. -/
theorem utf8ByteSize_dumpsString_replicate {c : Char} {size : Nat}
    (h : (dumpsChar c).utf8ByteSize = size) (n : Nat) :
    (dumpsString (String.ofList (List.replicate n c))).utf8ByteSize = n * size + 2 := by
  have hjoin : ∀ k : Nat,
      (String.join ((List.replicate k c).map dumpsChar)).utf8ByteSize = k * size := by
    intro k
    induction k with
    | zero => simp
    | succ k ih =>
        rw [List.replicate_succ, List.map_cons, String.join_cons, String.utf8ByteSize_append, ih, h,
          Nat.succ_mul, Nat.add_comm]
  have hquote : ("\"" : String).utf8ByteSize = 1 := by decide
  unfold dumpsString
  rw [String.utf8ByteSize_append, String.utf8ByteSize_append, String.toList_ofList, hjoin, hquote]
  omega

end Models
end ChatEngine
