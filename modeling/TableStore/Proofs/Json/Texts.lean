/-
Texts in JSON: what is written is read back.

A text is written byte by byte, most bytes as they are and some behind a backslash. It is read in pieces, each a run
of plain bytes and then an escape or the closing quote. So the bytes of a text are split at those that are not plain,
and the pieces give them back in turn (`rounds_piece`).
-/
import TableStore.Json.Shapes
import TableStore.Json.Writer
import TableStore.Proofs.Json.Takes

namespace TableStore.Json.Reading

/-! ## Escapes -/

theorem get_bind {α : Type} (next : Bytes → Reading α) (size : Nat) (bytes : Bytes) :
    (get >>= next) size bytes = next bytes size bytes := rfl

theorem set_bind {α : Type} (new : Bytes) (next : PUnit → Reading α) (size : Nat) (bytes : Bytes) :
    (set new >>= next) size bytes = next ⟨⟩ size new := rfl

theorem takes_unit {digits : Bytes} {n : Nat} (four : digits.length = 4) (h : hexNumber? 0 digits = some n) :
    Takes unit digits n := by
  intro size rest fits
  have enough : ¬ (digits ++ rest).length < 4 := by
    rw [List.length_append]
    omega
  have digits' : (digits ++ rest).take 4 = digits := List.take_left' four
  have behind : (digits ++ rest).drop 4 = rest := List.drop_left' four
  rw [unit, get_bind, set_bind, if_neg enough, digits', behind, h]
  rfl

/-- a letter other than `u` behind the backslash -/
theorem takes_short {letter b : UInt8} (other : letter ≠ 0x75) (short : shortEscape? letter = some b) :
    Takes escape [letter] [b] := by
  rw [escape, escapeWith]
  refine takes_take ?_
  simp only [if_neg other, short]
  exact takes_pure _

/-- the letter `u` and four digits that are no half of a pair -/
theorem takes_long {digits : Bytes} {n : Nat} (four : digits.length = 4) (h : hexNumber? 0 digits = some n)
    (small : n < 0xD800) : Takes escape (0x75 :: digits) (Text.utf8 (Char.ofNat n).toString) := by
  have noHigh : isHighSurrogate n = false := by
    simp only [isHighSurrogate, Bool.and_eq_false_iff, decide_eq_false_iff_not]
    omega
  have noLow : isLowSurrogate n = false := by
    simp only [isLowSurrogate, Bool.and_eq_false_iff, decide_eq_false_iff_not]
    omega
  have point : Takes escapedPoint digits n := by
    rw [escapedPoint]
    exact takes_bind_pure (takes_unit four h) (by simp only [noHigh, noLow, Bool.false_eq_true, if_false])
  rw [escape, escapeWith]
  refine takes_take ?_
  simp only [if_true]
  exact takes_bind_pure point rfl

/-- the bytes that are written with four digits -/
theorem hexNumber_control : ∀ n < 32,
    hexNumber? 0 [0x30, 0x30, hexDigit (UInt8.ofNat n / 16), hexDigit (UInt8.ofNat n % 16)] = some n := by
  decide

theorem utf8_ascii : ∀ n < 128, Text.utf8 (Char.ofNat n).toString = [UInt8.ofNat n] := by
  decide

theorem takes_control {b : UInt8} (control : b < 0x20) :
    Takes escape [0x75, 0x30, 0x30, hexDigit (b / 16), hexDigit (b % 16)] [b] := by
  have small : b.toNat < 32 := control
  have number := hexNumber_control b.toNat small
  have byte := utf8_ascii b.toNat (by omega)
  rw [UInt8.ofNat_toNat] at number byte
  rw [← byte]
  exact takes_long rfl number (by omega)

/-- a byte is plain and written as it is, or its escape stands for it -/
theorem escaped_cases (b : UInt8) :
    isPlain b = true ∧ escaped b = [b]
      ∨ isPlain b = false ∧ ∃ tail, escaped b = 0x5c :: tail ∧ Takes escape tail [b] := by
  unfold escaped
  split_ifs with quote backslash backspace tab newline formfeed return_ control
  · exact .inr ⟨by rw [quote]; decide, _, rfl, takes_short (by decide) (by rw [quote]; decide)⟩
  · exact .inr ⟨by rw [backslash]; decide, _, rfl, takes_short (by decide) (by rw [backslash]; decide)⟩
  · exact .inr ⟨by rw [backspace]; decide, _, rfl, takes_short (by decide) (by rw [backspace]; decide)⟩
  · exact .inr ⟨by rw [tab]; decide, _, rfl, takes_short (by decide) (by rw [tab]; decide)⟩
  · exact .inr ⟨by rw [newline]; decide, _, rfl, takes_short (by decide) (by rw [newline]; decide)⟩
  · exact .inr ⟨by rw [formfeed]; decide, _, rfl, takes_short (by decide) (by rw [formfeed]; decide)⟩
  · exact .inr ⟨by rw [return_]; decide, _, rfl, takes_short (by decide) (by rw [return_]; decide)⟩
  · refine .inr ⟨?_, _, rfl, takes_control control⟩
    have small : ¬ (0x20 : UInt8) ≤ b := UInt8.not_le.2 control
    simp [isPlain, small]
  · refine .inl ⟨?_, rfl⟩
    have large : (0x20 : UInt8) ≤ b := UInt8.not_lt.1 control
    simp [isPlain, quote, backslash, large]

/-! ## Strings -/

/-- plain bytes up to the closing quote -/
theorem takes_piece_last {plain : Bytes} (all : ∀ b ∈ plain, isPlain b = true) (read : Bytes) :
    Takes (piece read) (plain ++ [0x22]) (.inr (read.reverse ++ plain)) := by
  have joined : (plain.reverse ++ read).reverse = read.reverse ++ plain := by simp
  rw [piece, ← joined]
  refine takes_while all (by decide) (takes_take ?_)
  simp only [if_true]
  exact takes_pure _

/-- plain bytes and an escape -/
theorem takes_piece_more {plain tail : Bytes} {b : UInt8} (all : ∀ b ∈ plain, isPlain b = true)
    (h : Takes escape tail [b]) (read : Bytes) :
    Takes (piece read) (plain ++ 0x5c :: tail) (.inl (b :: (plain.reverse ++ read))) := by
  have other : ¬ (0x5c : UInt8) = 0x22 := by decide
  rw [piece]
  refine takes_while all (by decide) (takes_take ?_)
  simp only [if_neg other, if_true]
  exact takes_bind_pure h rfl

theorem plain_nil : ∀ b ∈ ([] : Bytes), isPlain b = true := by simp

/-- the written bytes are read in rounds, behind plain bytes of the same round and what earlier rounds have read -/
theorem rounds_piece {plain : Bytes} (all : ∀ b ∈ plain, isPlain b = true) (bytes read : Bytes) :
    Rounds piece read (plain ++ bytes.flatMap escaped ++ [0x22]) (read.reverse ++ plain ++ bytes) := by
  induction bytes generalizing plain read with
  | nil =>
    simp only [List.flatMap_nil, List.append_nil]
    exact .last (takes_piece_last all read)
  | cons b rest ih =>
    rcases escaped_cases b with ⟨isPlain_b, same⟩ | ⟨-, tail, escape, taken⟩
    · have longer : ∀ c ∈ plain ++ [b], isPlain c = true := by
        intro c mem
        rcases List.mem_append.1 mem with before | last
        · exact all c before
        · rw [List.mem_singleton.1 last]
          exact isPlain_b
      have rounds := ih longer read
      simpa [same] using rounds
    · have first := takes_piece_more all taken read
      have rounds := ih plain_nil (b :: (plain.reverse ++ read))
      have all := Rounds.more first (by simp) rounds
      simpa [escape] using all

/-- a text is read from what is written for it -/
theorem takes_string (s : String) : Takes string ((Text.utf8 s).flatMap escaped ++ [0x22]) s := by
  have bytes : Takes (loop piece []) ((Text.utf8 s).flatMap escaped ++ [0x22]) (Text.utf8 s) :=
    (rounds_piece plain_nil (Text.utf8 s) []).takes
  rw [string]
  exact takes_bind_pure bytes (by simp only [Text.ofUtf8?_utf8])

theorem takes_scalar_text (s : String) : Takes (scalar 0x22) (renderText s) (.text s) := by
  have branch : scalar 0x22 = (do skip; return .text (← string)) := rfl
  rw [branch]
  exact takes_skip (takes_map (takes_string s) Json.text)

theorem takes_leading_text (s : String) : Takes leading (renderText s) (.text s) := by
  rw [leading]
  refine takes_token (by decide) ?_
  rw [if_neg (by decide), if_neg (by decide)]
  exact takes_scalar_text s

theorem takes_text (s : String) : Takes text (renderText s) s := by
  rw [text]
  exact takes_bind_pure (takes_leading_text s) rfl

end TableStore.Json.Reading
