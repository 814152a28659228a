/-
How many bytes a text has.

A character has at least one byte, and one byte only if it is ASCII. So a text has as many bytes as characters if all of
them are ASCII, and more if one is not (`utf8ByteSize_eq_length_iff`).
-/
import Mathlib.Tactic

namespace TableStore.Text

theorem utf8ByteSize_ofList_cons (c : Char) (cs : List Char) :
    (String.ofList (c :: cs)).utf8ByteSize = c.utf8Size + (String.ofList cs).utf8ByteSize := by
  rw [String.ofList_cons, String.utf8ByteSize_append, String.utf8ByteSize_singleton]

theorem utf8ByteSize_ofList_replicate (n : Nat) (c : Char) :
    (String.ofList (List.replicate n c)).utf8ByteSize = n * c.utf8Size := by
  induction n with
  | zero => exact (Nat.zero_mul _).symm
  | succ n ih => rw [List.replicate_succ, utf8ByteSize_ofList_cons, ih, Nat.succ_mul, Nat.add_comm]

/-- all characters are ASCII -/
def IsAscii (text : String) : Prop := ∀ c ∈ text.toList, c.val ≤ 127

theorem length_ofList_le (cs : List Char) :
    cs.length ≤ (String.ofList cs).utf8ByteSize ∧
      ((String.ofList cs).utf8ByteSize = cs.length ↔ ∀ c ∈ cs, c.val ≤ 127) := by
  induction cs with
  | nil => exact ⟨Nat.zero_le _, by simp⟩
  | cons c cs ih =>
    obtain ⟨le, iff⟩ := ih
    have pos := c.utf8Size_pos
    rw [utf8ByteSize_ofList_cons, List.length_cons, List.forall_mem_cons, ← iff, ← Char.utf8Size_eq_one_iff]
    omega

theorem length_le_utf8ByteSize (text : String) : text.length ≤ text.utf8ByteSize := by
  have le := (length_ofList_le text.toList).1
  rwa [String.ofList_toList, String.length_toList] at le

theorem utf8ByteSize_eq_length_iff (text : String) : text.utf8ByteSize = text.length ↔ IsAscii text := by
  have iff := (length_ofList_le text.toList).2
  rwa [String.ofList_toList, String.length_toList] at iff

end TableStore.Text
