/-
The order of texts is the order of their bytes in UTF-8.

Texts compare by their code points, and bytes compare by their values; in both, the first difference decides. UTF-8
gives a greater code point a code that is greater at the first byte that differs (`encoded_lt`), so both orders are
one order (`lt_iff_utf8_lt`).
-/
import Mathlib.Tactic
import TableStore.Text.Bytes

namespace TableStore.Text

/-- the bytes of a text are those of its characters in turn -/
theorem utf8_eq_flatMap (s : String) : utf8 s = s.toList.flatMap String.utf8EncodeChar := by
  rw [utf8, String.toUTF8_eq_toByteArray, ← String.utf8Encode_toList, List.utf8Encode]
  simp

theorem toNat_lt (c : Char) : c.val.toNat < 0x110000 := by
  have valid := c.valid
  simp only [UInt32.isValidChar, Nat.isValidChar] at valid
  omega

/-- the codes of two characters differ at a byte that is less in the lesser character's, whatever stands behind them -/
theorem encoded_lt {c d : Char} (h : c < d) (u v : Bytes) :
    String.utf8EncodeChar c ++ u < String.utf8EncodeChar d ++ v := by
  have lt : c.val.toNat < d.val.toNat := h
  have cmax := toNat_lt c
  have dmax := toNat_lt d
  unfold String.utf8EncodeChar
  generalize c.val.toNat = m at *
  generalize d.val.toNat = n at *
  simp only
  -- one case for each pair of lengths of the two codes; in each, the bytes are digits of `m` and `n` with a length mark
  split_ifs <;>
    simp only [List.cons_append, List.nil_append, List.cons_lt_cons_iff, UInt8.lt_iff_toNat_lt, ← UInt8.toNat_inj,
      UInt8.toNat_ofNat', Nat.reducePow]
  all_goals simp (disch := omega) only [Nat.mod_eq_of_lt]
  all_goals omega

theorem encoded_ne_nil (c : Char) : String.utf8EncodeChar c ≠ [] := String.utf8EncodeChar_ne_nil

theorem flatMap_lt {l m : List Char} (h : l < m) :
    l.flatMap String.utf8EncodeChar < m.flatMap String.utf8EncodeChar := by
  induction h with
  | nil =>
    rename_i d rest
    rcases code : String.utf8EncodeChar d with _ | ⟨b, code'⟩
    · exact absurd code (encoded_ne_nil d)
    · simp [code]
  | rel lt => exact encoded_lt lt _ _
  | cons _ ih => exact List.append_left_lt ih

/-- **UTF-8 keeps the order of texts**: a text is less than another one iff its bytes are. -/
theorem lt_iff_utf8_lt (s t : String) : s < t ↔ utf8 s < utf8 t := by
  rw [utf8_eq_flatMap, utf8_eq_flatMap]
  refine ⟨flatMap_lt, fun h => ?_⟩
  rcases Std.lt_trichotomy s t with lt | eq | gt
  · exact lt
  · exact absurd (eq ▸ h) (List.lt_irrefl _)
  · exact absurd (flatMap_lt gt) (List.lt_asymm h)

theorem le_iff_utf8_le (s t : String) : s ≤ t ↔ utf8 s ≤ utf8 t :=
  not_congr (lt_iff_utf8_lt t s)

end TableStore.Text
