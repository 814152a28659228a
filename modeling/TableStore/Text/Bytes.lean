/-
Bytes, and the text they write in UTF-8.
-/
namespace TableStore

abbrev Bytes := List UInt8

namespace Text

/-- the bytes of a text -/
def utf8 (s : String) : Bytes := s.toUTF8.data.toList

/-- the text that bytes write, if they write one -/
def ofUtf8? (bytes : Bytes) : Option String := String.fromUTF8? ⟨bytes.toArray⟩

/-- how many bytes the first character takes, if bytes begin with one -/
def charLength? (bytes : Bytes) : Option Nat :=
  [1, 2, 3, 4].find? fun n => n ≤ bytes.length && (ofUtf8? (bytes.take n)).isSome

/-- what is left behind the characters that bytes begin with -/
def dropUtf8 : Bytes → Bytes
  | [] => []
  | b :: rest =>
    match charLength? (b :: rest) with
    | none => b :: rest
    | some n => dropUtf8 (rest.drop (n - 1))
termination_by bytes => bytes.length
decreasing_by
  simp only [List.length_drop, List.length_cons]
  omega

/-- every text reads back from its bytes -/
theorem ofUtf8?_utf8 (s : String) : ofUtf8? (utf8 s) = some s := by
  simp only [ofUtf8?, utf8, String.fromUTF8?, String.toUTF8_eq_toByteArray, Array.toArray_toList]
  exact dif_pos s.isValidUTF8

/-- bytes that write a text are the bytes of that text -/
theorem eq_utf8_of_ofUtf8? {bytes : Bytes} {s : String} (h : ofUtf8? bytes = some s) : bytes = utf8 s := by
  unfold ofUtf8? String.fromUTF8? at h
  split at h
  · cases h
    simp [utf8, String.fromUTF8]
  · simp at h

end Text
end TableStore
