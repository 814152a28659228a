/-
The lexer at a position: it never reads outside the text, and it always gets on.

`Scanner` reads the same tokens as the lexer does, from the whole text and a position in it. It looks at one character at a
time and only behind a test that there is one, and it is stopped if there is none. A minus sign is followed by a run of
letters and digits; if they make no integer, the position is set back to where the run began. `moves_next` compares the
two: wherever the scanner stands, it is not stopped, answers the token that the lexer reads from what is behind the
position, and then stands before what the lexer leaves. What the lexer leaves is shorter, so positions grow, and a round
for each character and one more are enough for all tokens (`moves_tokens?`).

Results:
  always_progresses   a call from any position in a text reads nothing outside it and fails, or answers `eof` at the end,
                      or another token at a greater position inside; all calls together end after at most one token for
                      each character and a single `eof`, the last token.
-/
import TableStore.Proofs.Cursor
import TableStore.Proofs.Sql.Lexemes

namespace TableStore

open Cursor (At Moves advance advanceWhile atEnd current orBack)
open Lexer (isBlank isWordChar)

namespace Scanner

/-! ## Tokens at a position -/

/-- the text up to the closing quote, the opening one being read -/
def quoted (q : Quote) : Cursor Char (Except QueryError Token) := do
  let value ← advanceWhile (· != q.mark)
  if ← atEnd then return .error (.unterminated q)
  let _ ← advance
  return .ok (.text (String.ofList value))

def word : Cursor Char Token := do
  return Lexer.wordToken (← advanceWhile isWordChar)

/-- the word behind a minus sign, if it makes an integer with it; else the minus sign alone, and the word is read again -/
def negative : Cursor Char Token := do
  match ← orBack (Lexer.negative? <$> advanceWhile isWordChar) with
  | some n => return .integer n
  | none => return .unknown '-'

/-- advance if there is a next character and it is the expected one; whether it is -/
def advanceIf (expected : Char) : Cursor Char Bool := do
  if ← atEnd then return false
  if (← current) = expected then
    let _ ← advance
    return true
  return false

/-- there is a next character and it is a digit -/
def atDigit : Cursor Char Bool := do
  if ← atEnd then return false
  return (← current).isDigit

/-- the token of a character that is neither blank nor part of a word and that was read last -/
def mark (c : Char) : Cursor Char (Except QueryError Token) := do
  match c with
  | '(' => return .ok .openParen
  | ')' => return .ok .closeParen
  | ',' => return .ok .comma
  | '=' => return .ok .equal
  | '*' => return .ok .star
  | '\x22' => quoted .double
  | '\x27' => quoted .single
  | '!' => if ← advanceIf '=' then return .ok .notEqual else return .ok .bang
  | '-' => if ← atDigit then return .ok (← negative) else return .ok (.unknown '-')
  | c => return .ok (.unknown c)

/-- the next token -/
def next : Cursor Char (Except QueryError Token) := do
  let _ ← advanceWhile isBlank
  if ← atEnd then return .ok .eof
  if isWordChar (← current) then return .ok (← word)
  mark (← advance)

/-- the tokens up to `eof`, put after those already read, the latest first; none if so many rounds are not enough -/
def tokens? : Nat → List Token → Cursor Char (Option (Except QueryError (List Token)))
  | 0, _ => return none
  | n + 1, read => do
    match ← next with
    | .error e => return some (.error e)
    | .ok t => if t = .eof then return some (.ok (t :: read).reverse) else tokens? n (t :: read)

/-! ## The same tokens -/

/-- a scanner reads what the lexer reads of the same characters, and then stands before what the lexer leaves of them; it
stands at the end if there is no token -/
def Scans (scanner : Cursor Char (Except QueryError Token)) (cs : List Char) :
    Except QueryError (Token × List Char) → Prop
  | .ok (t, rest) => Moves scanner cs (.ok t) rest
  | .error e => Moves scanner cs (.error e) []

theorem scans_quoted (q : Quote) (cs : List Char) : Scans (quoted q) cs (Lexer.quoted q cs) := by
  have run := Cursor.moves_advanceWhile (· != q.mark) cs
  unfold Lexer.quoted
  rcases left : cs.dropWhile (· != q.mark) with _ | ⟨c, rest⟩
  · rw [left] at run
    exact run.bind ((Cursor.moves_atEnd []).bind (Cursor.moves_pure _ []))
  · rw [left] at run
    refine run.bind ((Cursor.moves_atEnd (c :: rest)).bind ?_)
    exact (Cursor.moves_advance c rest).bind (Cursor.moves_pure _ rest)

theorem moves_word (cs : List Char) :
    Moves word cs (Lexer.wordToken (cs.takeWhile isWordChar)) (cs.dropWhile isWordChar) :=
  (Cursor.moves_advanceWhile isWordChar cs).bind (Cursor.moves_pure _ _)

theorem moves_negative (cs : List Char) : Moves negative cs (Lexer.minus cs).1 (Lexer.minus cs).2 := by
  have run := (Cursor.moves_advanceWhile isWordChar cs).map Lexer.negative?
  unfold Lexer.minus
  rcases value : Lexer.negative? (cs.takeWhile isWordChar) with _ | n
  · rw [value] at run
    exact run.orBack_none.bind (Cursor.moves_pure _ cs)
  · rw [value] at run
    exact run.orBack_some.bind (Cursor.moves_pure _ _)

theorem moves_advanceIf_true (c : Char) (cs : List Char) : Moves (advanceIf c) (c :: cs) true cs := by
  refine (Cursor.moves_atEnd (c :: cs)).bind ((Cursor.moves_current c cs).bind ?_)
  rw [if_pos rfl]
  exact (Cursor.moves_advance c cs).bind (Cursor.moves_pure true cs)

theorem moves_advanceIf_false {expected : Char} {cs : List Char} (other : cs.head? ≠ some expected) :
    Moves (advanceIf expected) cs false cs := by
  cases cs with
  | nil => exact (Cursor.moves_atEnd []).bind (Cursor.moves_pure false [])
  | cons c cs =>
    have differs : c ≠ expected := by simpa using other
    refine (Cursor.moves_atEnd (c :: cs)).bind ((Cursor.moves_current c cs).bind ?_)
    rw [if_neg differs]
    exact Cursor.moves_pure false (c :: cs)

theorem moves_atDigit (cs : List Char) : Moves atDigit cs (cs.head?.any Char.isDigit) cs := by
  cases cs with
  | nil => exact (Cursor.moves_atEnd []).bind (Cursor.moves_pure _ [])
  | cons c cs =>
    refine (Cursor.moves_atEnd (c :: cs)).bind ((Cursor.moves_current c cs).bind ?_)
    exact Cursor.moves_pure _ (c :: cs)

/-- without a digit behind it a minus sign stands alone -/
theorem minus_of_noDigit {cs : List Char} (noDigit : cs.head?.any Char.isDigit = false) :
    Lexer.minus cs = (.unknown '-', cs) := by
  have noValue : Lexer.negative? (cs.takeWhile isWordChar) = none := by
    rw [Option.eq_none_iff_forall_ne_some]
    intro value found
    obtain ⟨n, -, numeral, -⟩ := Lexer.negative?_eq_some_iff.1 found
    cases cs with
    | nil => exact numeral.ne_nil rfl
    | cons c cs =>
      have first : c ∈ (c :: cs).takeWhile isWordChar := by
        by_cases letter : isWordChar c = true
        · rw [List.takeWhile_cons_of_pos letter]
          exact List.mem_cons_self
        · exact absurd (List.takeWhile_cons_of_neg letter) numeral.ne_nil
      have digit := numeral.isDigit c first
      simp [digit] at noDigit
  rw [Lexer.minus, noValue]

theorem scans_minus (cs : List Char) : Scans (mark '-') cs (.ok (Lexer.minus cs)) := by
  have asked := moves_atDigit cs
  rcases digit : cs.head?.any Char.isDigit with _ | _
  · rw [digit] at asked
    rw [minus_of_noDigit digit]
    exact asked.bind (Cursor.moves_pure _ cs)
  · rw [digit] at asked
    exact asked.bind ((moves_negative cs).bind (Cursor.moves_pure _ _))

theorem scans_bang (cs : List Char) : Scans (mark '!') cs (Lexer.mark '!' cs) := by
  by_cases equal : cs.head? = some '='
  · obtain ⟨rest, rfl⟩ := List.head?_eq_some_iff.1 equal
    exact (moves_advanceIf_true '=' rest).bind (Cursor.moves_pure _ rest)
  · rw [Lexer.mark_bang equal]
    exact (moves_advanceIf_false equal).bind (Cursor.moves_pure _ cs)

theorem mark_other {c : Char} (noMark : c ∉ marks) : mark c = return .ok (.unknown c) := by
  unfold mark
  split
  case h_10 => rfl
  all_goals exact absurd (by decide) noMark

/-- the token of a character: one case for each character that begins one of its own, and one for all others -/
theorem scans_mark (c : Char) (cs : List Char) : Scans (mark c) cs (Lexer.mark c cs) := by
  by_cases noMark : c ∉ marks
  · rw [mark_other noMark, Lexer.mark_unknown noMark]
    exact Cursor.moves_pure _ cs
  · have known : c ∈ marks := not_not.1 noMark
    simp only [marks, List.mem_cons, List.not_mem_nil, or_false] at known
    rcases known with rfl | rfl | rfl | rfl | rfl | rfl | rfl | rfl | rfl
    · exact Cursor.moves_pure _ cs
    · exact Cursor.moves_pure _ cs
    · exact Cursor.moves_pure _ cs
    · exact Cursor.moves_pure _ cs
    · exact Cursor.moves_pure _ cs
    · exact scans_bang cs
    · exact scans_minus cs
    · exact scans_quoted .double cs
    · exact scans_quoted .single cs

/-- what comes before a scanner may only move it -/
theorem Scans.after {α : Type} {first : Cursor Char α} {scanner : α → Cursor Char (Except QueryError Token)}
    {cs rest : List Char} {a : α} {read : Except QueryError (Token × List Char)} (moves : Moves first cs a rest)
    (scans : Scans (scanner a) rest read) : Scans (first >>= scanner) cs read := by
  cases read with
  | ok result => exact moves.bind scans
  | error e => exact moves.bind scans

/-- **The scanner reads what the lexer reads**, wherever it stands. -/
theorem scans_next (cs : List Char) : Scans next cs (Lexer.next cs) := by
  have blanks := Cursor.moves_advanceWhile isBlank cs
  unfold Lexer.next Lexer.skipBlanks
  rcases left : cs.dropWhile isBlank with _ | ⟨c, rest⟩
  · rw [left] at blanks
    exact blanks.bind ((Cursor.moves_atEnd []).bind (Cursor.moves_pure _ []))
  · rw [left] at blanks
    refine Scans.after blanks (Scans.after (Cursor.moves_atEnd (c :: rest)) ?_)
    refine Scans.after (Cursor.moves_current c rest) ?_
    by_cases letter : isWordChar c = true
    · have whole := moves_word (c :: rest)
      rw [List.takeWhile_cons_of_pos letter, List.dropWhile_cons_of_pos letter] at whole
      simp only [if_pos letter]
      exact whole.bind (Cursor.moves_pure _ _)
    · simp only [if_neg letter]
      exact Scans.after (Cursor.moves_advance c rest) (scans_mark c rest)

/-! ## Progress -/

/-- where a call from a position in a text of some length ends: at the end of the text without a token or with `eof`, and
with any other token behind the position and inside the text or at its end -/
inductive Advances (length pos : Nat) : Except QueryError Token → Nat → Prop where
  | failed (e : QueryError) : Advances length pos (.error e) length
  | ended : Advances length pos (.ok .eof) length
  | token {t : Token} {pos' : Nat} : t ≠ .eof → pos < pos' → pos' ≤ length → Advances length pos (.ok t) pos'

theorem next_eof {cs rest : List Char} (h : Lexer.next cs = .ok (.eof, rest)) : rest = [] := by
  rcases Lexer.next_cases cs with ⟨-, ended⟩ | ⟨_, _, _, t, -, -, lexeme, read⟩ | ⟨_, -, failed⟩
  · exact Lexer.left_eq (h.symm.trans ended)
  · have same := h.symm.trans read
    exact absurd (congrArg Prod.fst (Except.ok.inj same)).symm lexeme.ne_eof
  · cases h.symm.trans failed

/-- a call reads a token of the lexer and gets on -/
theorem advances_next {text : List Char} {pos : Nat} (inside : pos ≤ text.length) :
    ∃ result pos', next text pos = .ok (result, pos') ∧ Advances text.length pos result pos' ∧
      Lexer.next (text.drop pos) = result.map (·, text.drop pos') := by
  have here := Cursor.at_drop inside
  have scans := scans_next (text.drop pos)
  rcases read : Lexer.next (text.drop pos) with e | ⟨t, rest⟩
  · rw [read] at scans
    obtain ⟨pos', ran, there⟩ := scans text pos here
    have ended : pos' = text.length := there.length
    exact ⟨.error e, pos', ran, ended ▸ .failed e, rfl⟩
  · rw [read] at scans
    obtain ⟨pos', ran, there⟩ := scans text pos here
    refine ⟨.ok t, pos', ran, ?_, by rw [there.drop]; rfl⟩
    by_cases eof : t = .eof
    · subst eof
      obtain rfl := next_eof read
      have ended : pos' = text.length := there.length
      exact ended ▸ .ended
    · have shorter := Lexer.next_length_lt read eof
      have before := here.length
      have behind := there.length
      exact .token eof (by omega) there.le

/-- a round for each character and one more are enough: what the lexer leaves is shorter in every round but the last -/
theorem moves_tokens? {n : Nat} {cs : List Char} (enough : cs.length < n) (read : List Token) :
    ∃ rest, Moves (tokens? n read) cs (some (Lexer.tokensAfter read cs)) rest := by
  induction n generalizing cs read with
  | zero => exact absurd enough (Nat.not_lt_zero _)
  | succ n ih =>
    have scans := scans_next cs
    rcases found : Lexer.next cs with e | ⟨t, rest⟩
    · rw [found] at scans
      rw [Lexer.tokensAfter_of_error read found]
      exact ⟨[], scans.bind (Cursor.moves_pure _ [])⟩
    · rw [found] at scans
      rw [Lexer.tokensAfter_of_next read found]
      by_cases eof : t = .eof
      · refine ⟨rest, scans.bind ?_⟩
        simp only [if_pos eof]
        exact Cursor.moves_pure _ rest
      · have shorter := Lexer.next_length_lt found eof
        obtain ⟨last, moves⟩ := ih (by omega : rest.length < n) (t :: read)
        refine ⟨last, scans.bind ?_⟩
        simp only [if_neg eof]
        exact moves

/-- **The lexer always gets on, and never reads outside the text.** From any position in a text the next call is not
stopped. It fails, or it answers `eof` and stands at the end, or it answers another token and stands at a greater position
that is inside or at the end, also where a minus sign gave back the word behind it; and it is the token that the lexer
reads of what is behind the position. So all calls, one after the other, end after a round for each character and one
more; if none of them fails, their tokens are at most one for each character and then an `eof`, which is the only one. -/
theorem always_progresses (query : String) :
    (∀ pos ≤ query.toList.length, ∃ result pos', next query.toList pos = .ok (result, pos') ∧
      Advances query.toList.length pos result pos' ∧
      Lexer.next (query.toList.drop pos) = result.map (·, query.toList.drop pos')) ∧
    ∃ result last, tokens? (query.toList.length + 1) [] query.toList 0 = .ok (some result, last) ∧
      Lexer.tokens query = result ∧
      ∀ all, result = .ok all → ∃ ts, all = ts ++ [.eof] ∧ .eof ∉ ts ∧ ts.length ≤ query.toList.length := by
  refine ⟨fun pos inside => advances_next inside, ?_⟩
  obtain ⟨rest, moves⟩ := moves_tokens? (Nat.lt_succ_self query.toList.length) []
  obtain ⟨last, ran, -⟩ := moves query.toList 0 (Cursor.at_drop (Nat.zero_le _))
  refine ⟨Lexer.tokens query, last, ran, rfl, fun all lexed => ?_⟩
  rcases Lexer.lexed_cases query with ⟨ts, gap, -, cut, read⟩ | ⟨q, _, _, -, -, failed⟩
  · rw [read] at lexed
    cases lexed
    have count := cut.length_le
    exact ⟨ts, rfl, cut.eof_notMem, by omega⟩
  · rw [failed] at lexed
    cases lexed

/-- from the blank on, a minus sign and the digit behind it are passed; the digit belongs to a word that is no integer, so
it is given back and the word is the next token -/
theorem always_progresses_back :
    let query := "x -1a"
    1 ≤ query.toList.length ∧ next query.toList 1 = .ok (.ok (.unknown '-'), 3) ∧
      Advances query.toList.length 1 (.ok (.unknown '-')) 3 ∧
      Lexer.tokens query = .ok [.symbol "x", .unknown '-', .symbol "1a", .eof] ∧ 3 ≤ query.toList.length := by
  intro query
  obtain ⟨calls, result, -, -, lexed, counted⟩ := always_progresses query
  have inside : 1 ≤ query.toList.length := by decide
  have first : next query.toList 1 = .ok (.ok (.unknown '-'), 3) := by decide +kernel
  have all : Lexer.tokens query = .ok [.symbol "x", .unknown '-', .symbol "1a", .eof] := by decide +kernel
  obtain ⟨result', pos', ran, advances, -⟩ := calls 1 inside
  obtain ⟨rfl, rfl⟩ : result' = .ok (.unknown '-') ∧ pos' = 3 := by
    rw [first] at ran
    exact (Prod.mk.inj (Except.ok.inj ran)).imp Eq.symm Eq.symm
  obtain ⟨ts, split, -, few⟩ := counted _ (lexed.symm.trans all)
  have count : (ts ++ [Token.eof]).length = 4 := congrArg List.length split.symm
  rw [List.length_append, List.length_singleton] at count
  exact ⟨inside, first, advances, all, by omega⟩

end Scanner
end TableStore
