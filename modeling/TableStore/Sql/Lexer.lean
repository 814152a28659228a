/-
The lexer: a query text is cut into tokens from left to right, the longest token first.

`next` reads one token after skipping blanks; it works on the characters still to be read, and what it leaves is
shorter unless the token is `eof` (`next_length_lt`). `tokens` repeats it, so it ends for every text.
-/
import TableStore.Sql.QueryError

namespace TableStore.Lexer

/-- what separates tokens: space, tab, carriage return, line feed -/
def isBlank (c : Char) : Bool :=
  c == ' ' || c == '\t' || c == '\r' || c == '\n'

/-- what words are made of: ASCII letters and digits -/
def isWordChar (c : Char) : Bool := c.isAlphanum

def skipBlanks (cs : List Char) : List Char := cs.dropWhile isBlank

/-- the number that a run of decimal digits writes; no other word writes one -/
def decimal? (word : List Char) : Option Nat :=
  if word ≠ [] ∧ word.all Char.isDigit then
    some (word.foldl (fun n c => 10 * n + (c.toNat - '0'.toNat)) 0)
  else none

/-- the largest integer of a query, 2^63 - 1; the smallest is one further from zero -/
def maxInteger : Nat := 9223372036854775807

/-- a word is an integer if it is one in range, else a keyword if it spells one, else a symbol -/
def wordToken (word : List Char) : Token :=
  match decimal? word with
  | some n => if n ≤ maxInteger then .integer n else named word
  | none => named word
where
  named (word : List Char) : Token :=
    match Keyword.ofWord? word with
    | some k => .keyword k
    | none => .symbol (String.ofList word)

/-- the integer that the word after a minus sign makes, if it is all digits and in range -/
def negative? (word : List Char) : Option Int :=
  match decimal? word with
  | some n => if n ≤ maxInteger + 1 then some (-(n : Int)) else none
  | none => none

/-- the text up to the closing quote, the opening one being read -/
def quoted (q : Quote) (cs : List Char) : Except QueryError (Token × List Char) :=
  match cs.dropWhile (· != q.mark) with
  | [] => .error (.unterminated q)
  | _ :: rest => .ok (.text (String.ofList (cs.takeWhile (· != q.mark))), rest)

/-- a minus sign is read with the word behind it if that makes an integer, else it stands alone -/
def minus (cs : List Char) : Token × List Char :=
  match negative? (cs.takeWhile isWordChar) with
  | some n => (.integer n, cs.dropWhile isWordChar)
  | none => (.unknown '-', cs)

/-- the token that begins with a character that is neither blank nor part of a word -/
def mark (c : Char) (rest : List Char) : Except QueryError (Token × List Char) :=
  match c with
  | '(' => .ok (.openParen, rest)
  | ')' => .ok (.closeParen, rest)
  | ',' => .ok (.comma, rest)
  | '=' => .ok (.equal, rest)
  | '*' => .ok (.star, rest)
  | '\x22' => quoted .double rest
  | '\x27' => quoted .single rest
  | '!' =>
    match rest with
    | '=' :: rest => .ok (.notEqual, rest)
    | _ => .ok (.bang, rest)
  | '-' => .ok (minus rest)
  | c => .ok (.unknown c, rest)

/-- one token and the characters after it -/
def next (cs : List Char) : Except QueryError (Token × List Char) :=
  match skipBlanks cs with
  | [] => .ok (.eof, [])
  | c :: rest =>
    if isWordChar c then
      .ok (wordToken (c :: rest.takeWhile isWordChar), rest.dropWhile isWordChar)
    else mark c rest

/-! ## Progress -/

theorem length_dropWhile_le {α : Type} (p : α → Bool) (l : List α) : (l.dropWhile p).length ≤ l.length :=
  (List.dropWhile_suffix p).length_le

/-- what two equal successes leave is equal -/
theorem left_eq {ε : Type} {t u : Token} {rest left : List Char}
    (h : (.ok (t, rest) : Except ε (Token × List Char)) = .ok (u, left)) : rest = left := by
  cases h
  rfl

theorem quoted_length_le {q : Quote} {rest left : List Char} {t : Token} (h : quoted q rest = .ok (t, left)) :
    left.length ≤ rest.length := by
  unfold quoted at h
  split at h
  · simp at h
  · rename_i d l hd
    have := length_dropWhile_le (· != q.mark) rest
    rw [hd, left_eq h] at this
    exact Nat.le_of_succ_le this

theorem minus_length_le (rest : List Char) : (minus rest).2.length ≤ rest.length := by
  unfold minus
  split
  · exact length_dropWhile_le _ _
  · exact Nat.le_refl _

theorem mark_length_le {c : Char} {rest left : List Char} {t : Token} (h : mark c rest = .ok (t, left)) :
    left.length ≤ rest.length := by
  unfold mark at h
  split at h
  case h_6 => exact quoted_length_le h
  case h_7 => exact quoted_length_le h
  case h_8 =>
    split at h
    · rw [← left_eq h]
      exact Nat.le_succ _
    · exact left_eq h ▸ Nat.le_refl _
  case h_9 => exact left_eq h ▸ minus_length_le rest
  all_goals exact left_eq h ▸ Nat.le_refl _

/-- a token other than `eof` uses up at least one character -/
theorem next_length_lt {cs left : List Char} {t : Token} (h : next cs = .ok (t, left)) (ht : t ≠ .eof) :
    left.length < cs.length := by
  have skip := length_dropWhile_le isBlank cs
  unfold next skipBlanks at h
  split at h
  · obtain ⟨rfl, -⟩ := Prod.mk.inj (Except.ok.inj h)
    exact absurd rfl ht
  · rename_i c rest hs
    rw [hs, List.length_cons] at skip
    split at h
    · obtain ⟨-, rfl⟩ := Prod.mk.inj (Except.ok.inj h)
      have := length_dropWhile_le isWordChar rest
      omega
    · have := mark_length_le h
      omega

/-- the tokens of the characters `cs`, put after those already `read` (the latest first) -/
def tokensAfter (read : List Token) (cs : List Char) : Except QueryError (List Token) :=
  match _h : next cs with
  | .error e => .error e
  | .ok (t, rest) =>
    if _ht : t = .eof then .ok (t :: read).reverse
    else tokensAfter (t :: read) rest
termination_by cs.length
decreasing_by exact next_length_lt _h _ht

/-- all tokens of a query text; the last one is `eof`, and no other -/
def tokens (query : String) : Except QueryError (List Token) :=
  tokensAfter [] query.toList

end TableStore.Lexer
