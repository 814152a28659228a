/-
The lexer is an exact longest-match lexer.

A lexeme is the characters of one token in front of what stands behind them, and it is the longest one there: a word
takes all letters and digits that follow each other, an exclamation mark takes an equals sign with it, a minus sign
takes the word behind it if that makes an integer in range, and a quote takes everything to the next quote of its kind
(`Lexeme`). Cutting a text puts blanks aside and takes lexemes, one after the other (`Cut`). Neither says how the lexer
goes about it.

Reading one token gives a lexeme, the end behind blanks, or a quote that nothing closes (`next_cases`), and every lexeme
is read as its token (`next_lexeme`). So the lexer gets to the end of exactly the texts that can be cut up to the end.

Results:
  tokens_exact   a text has the tokens that it can be cut into and `eof` behind them, which is nowhere else; it has none
                 exactly if it can be cut up to a quote that nothing closes.
-/
import TableStore.Proofs.Sql.Lexing

namespace TableStore

open Lexer (isBlank isWordChar maxInteger)

/-! ## Lexemes -/

/-- a run of letters and digits that is not followed by another one of them -/
structure WholeWord (word rest : List Char) : Prop where
  ne_nil : word ≠ []
  chars : ∀ c ∈ word, isWordChar c
  parted : ∀ c ∈ rest.head?, ¬ isWordChar c

/-- the characters that begin some lexeme of their own, blanks and those of words apart -/
def marks : List Char := ['(', ')', ',', '=', '*', '!', '-', Quote.double.mark, Quote.single.mark]

/-- a token, the characters of its lexeme, and the characters behind them -/
inductive Lexeme : Token → List Char → List Char → Prop where
  | openParen {rest : List Char} : Lexeme .openParen ['('] rest
  | closeParen {rest : List Char} : Lexeme .closeParen [')'] rest
  | comma {rest : List Char} : Lexeme .comma [','] rest
  | equal {rest : List Char} : Lexeme .equal ['='] rest
  | star {rest : List Char} : Lexeme .star ['*'] rest
  | notEqual {rest : List Char} : Lexeme .notEqual ['!', '='] rest
  | bang {rest : List Char} (alone : rest.head? ≠ some '=') : Lexeme .bang ['!'] rest
  | text {q : Quote} {value rest : List Char} (free : q.mark ∉ value) :
      Lexeme (.text (String.ofList value)) (q.mark :: (value ++ [q.mark])) rest
  | integer {n : Nat} {word rest : List Char} (whole : WholeWord word rest) (numeral : Numeral n word)
      (small : n < 2 ^ 63) : Lexeme (.integer n) word rest
  | keyword {k : Keyword} {word rest : List Char} (whole : WholeWord word rest)
      (spells : word.map Char.toLower = k.spelling.toList) : Lexeme (.keyword k) word rest
  | symbol {word rest : List Char} (whole : WholeWord word rest) (noInteger : ∀ n < 2 ^ 63, ¬ Numeral n word)
      (noKeyword : ∀ k : Keyword, word.map Char.toLower ≠ k.spelling.toList) :
      Lexeme (.symbol (String.ofList word)) word rest
  | negative {n : Nat} {word rest : List Char} (whole : WholeWord word rest) (numeral : Numeral n word)
      (small : n ≤ 2 ^ 63) : Lexeme (.integer (-n)) ('-' :: word) rest
  | minus {rest : List Char}
      (alone : ∀ word behind, rest = word ++ behind → WholeWord word behind → ∀ n ≤ 2 ^ 63, ¬ Numeral n word) :
      Lexeme (.unknown '-') ['-'] rest
  | unknown {c : Char} {rest : List Char} (noBlank : ¬ isBlank c) (noWord : ¬ isWordChar c) (noMark : c ∉ marks) :
      Lexeme (.unknown c) [c] rest

/-- some tokens, a text that is cut into their lexemes with any blanks before each, and the end that is left of it -/
inductive Cut : List Token → List Char → List Char → Prop where
  | done {left : List Char} : Cut [] left left
  | token {gap written rest left : List Char} {t : Token} {ts : List Token} (blank : ∀ c ∈ gap, isBlank c)
      (lexeme : Lexeme t written rest) (behind : Cut ts rest left) : Cut (t :: ts) (gap ++ (written ++ rest)) left

theorem Lexeme.ne_eof {t : Token} {written rest : List Char} (lexeme : Lexeme t written rest) : t ≠ .eof := by
  intro eof
  cases lexeme <;> cases eof

theorem Cut.eof_notMem {ts : List Token} {cs left : List Char} (cut : Cut ts cs left) : Token.eof ∉ ts := by
  induction cut with
  | done => exact List.not_mem_nil
  | token _ lexeme _ ih =>
    intro mem
    rcases List.mem_cons.1 mem with same | later
    · exact lexeme.ne_eof same.symm
    · exact ih later

theorem Lexeme.written_ne_nil {t : Token} {written rest : List Char} (lexeme : Lexeme t written rest) :
    written ≠ [] := by
  cases lexeme with
  | integer whole | keyword whole | symbol whole => exact whole.ne_nil
  | _ => exact List.cons_ne_nil _ _

/-- every token has a character of its own -/
theorem Cut.length_le {ts : List Token} {cs left : List Char} (cut : Cut ts cs left) :
    ts.length + left.length ≤ cs.length := by
  induction cut with
  | done => exact (Nat.zero_add _).le
  | token _ lexeme _ ih =>
    have some := List.length_pos_iff.2 lexeme.written_ne_nil
    simp only [List.length_cons, List.length_append]
    omega

namespace Lexer

theorem le_maxInteger_iff {n : Nat} : n ≤ maxInteger ↔ n < 2 ^ 63 := by
  unfold maxInteger
  omega

/-! ## Reading a lexeme -/

/-- the letters and digits at the start of some characters are a whole word, if there are any -/
theorem wholeWord_takeWhile {cs : List Char} (some : cs.takeWhile isWordChar ≠ []) :
    WholeWord (cs.takeWhile isWordChar) (cs.dropWhile isWordChar) := by
  refine ⟨some, fun c mem => List.mem_takeWhile_imp mem, fun c head => ?_⟩
  have stop := List.head?_dropWhile_not isWordChar cs
  rw [Option.mem_def.1 head] at stop
  simpa using stop

/-- a character without a meaning of its own stands for itself -/
theorem mark_unknown {c : Char} (noMark : c ∉ marks) (rest : List Char) : mark c rest = .ok (.unknown c, rest) := by
  unfold mark
  split
  case h_10 => rfl
  all_goals exact absurd (by decide) noMark

theorem negative?_eq_some_iff {word : List Char} {value : Int} :
    negative? word = some value ↔ ∃ n : Nat, n ≤ 2 ^ 63 ∧ Numeral n word ∧ value = -n := by
  have range : ∀ n : Nat, n ≤ maxInteger + 1 ↔ n ≤ 2 ^ 63 := by
    intro n
    unfold maxInteger
    omega
  unfold negative?
  refine ⟨fun found => ?_, ?_⟩
  · split at found
    · rename_i n decimal
      split at found
      · rename_i small
        cases found
        exact ⟨n, (range n).1 small, decimal?_eq_some_iff.1 decimal, rfl⟩
      · cases found
    · cases found
  · rintro ⟨n, small, numeral, rfl⟩
    rw [decimal?_eq_some_iff.2 numeral]
    exact if_pos ((range n).2 small)

theorem mark_bang {rest : List Char} (alone : rest.head? ≠ some '=') : mark '!' rest = .ok (.bang, rest) := by
  unfold mark
  cases rest with
  | nil => rfl
  | cons c rest =>
    have other : c ≠ '=' := by simpa using alone
    simp [other]

theorem next_text {q : Quote} {value : List Char} (free : q.mark ∉ value) (rest : List Char) :
    next (q.mark :: (value ++ q.mark :: rest)) = .ok (.text (String.ofList value), rest) := by
  have opened : next (q.mark :: (value ++ q.mark :: rest)) = quoted q (value ++ q.mark :: rest) := by
    cases q <;> rfl
  have letters : (String.ofList value).toList = value := String.toList_ofList
  have read := quoted_append (letters.symm ▸ free : q.mark ∉ (String.ofList value).toList) rest
  rw [letters] at read
  rw [opened, read]

theorem wordToken_integer {n : Nat} {word : List Char} (numeral : Numeral n word) (small : n < 2 ^ 63) :
    wordToken word = .integer n :=
  wordToken_of_writes (t := .integer (.ofNat n)) trivial (Int.ofNat_le.2 (le_maxInteger_iff.2 small)) numeral

theorem wordToken_keyword {k : Keyword} {word : List Char} (spells : word.map Char.toLower = k.spelling.toList) :
    wordToken word = .keyword k :=
  wordToken_of_writes (t := .keyword k) trivial trivial spells

theorem wordToken_symbol {word rest : List Char} (whole : WholeWord word rest)
    (noInteger : ∀ n < 2 ^ 63, ¬ Numeral n word)
    (noKeyword : ∀ k : Keyword, word.map Char.toLower ≠ k.spelling.toList) :
    wordToken word = .symbol (String.ofList word) := by
  have letters : (String.ofList word).toList = word := String.toList_ofList
  have isName : IsName (String.ofList word) := by
    refine ⟨?_, ?_, ?_, ?_⟩ <;> rw [letters]
    · exact whole.ne_nil
    · exact whole.chars
    · exact noKeyword
    · intro n small
      exact noInteger n (le_maxInteger_iff.1 small)
  exact wordToken_of_writes (t := .symbol (String.ofList word)) trivial isName letters.symm

/-- a minus makes the number behind it negative -/
theorem minus_numeral {n : Nat} {word rest : List Char} (whole : WholeWord word rest) (numeral : Numeral n word)
    (small : n ≤ 2 ^ 63) : minus (word ++ rest) = (.integer (-n), rest) := by
  rw [minus, takeWhile_run whole.chars whole.parted, negative?_eq_some_iff.2 ⟨n, small, numeral, rfl⟩,
    dropWhile_run whole.chars whole.parted]

theorem minus_alone {rest : List Char}
    (alone : ∀ word behind, rest = word ++ behind → WholeWord word behind → ∀ n ≤ 2 ^ 63, ¬ Numeral n word) :
    minus rest = (.unknown '-', rest) := by
  have none : negative? (rest.takeWhile isWordChar) = none := by
    rw [Option.eq_none_iff_forall_ne_some]
    intro value found
    obtain ⟨n, small, numeral, -⟩ := negative?_eq_some_iff.1 found
    exact alone _ _ List.takeWhile_append_dropWhile.symm (wholeWord_takeWhile numeral.ne_nil) n small numeral
  rw [minus, none]

/-- **Every lexeme is read as its token**, behind any blanks. -/
theorem next_lexeme {t : Token} {gap written rest : List Char} (blank : ∀ c ∈ gap, isBlank c)
    (lexeme : Lexeme t written rest) : next (gap ++ (written ++ rest)) = .ok (t, rest) := by
  rw [next_blanks blank]
  cases lexeme with
  | openParen | closeParen | comma | equal | star | notEqual => rfl
  | bang alone => exact mark_bang alone
  | @text q value rest free =>
    rw [List.cons_append, List.append_assoc, List.singleton_append]
    exact next_text free rest
  | integer whole numeral small =>
    rw [next_run whole.ne_nil whole.chars whole.parted, wordToken_integer numeral small]
  | keyword whole spells => rw [next_run whole.ne_nil whole.chars whole.parted, wordToken_keyword spells]
  | symbol whole noInteger noKeyword =>
    rw [next_run whole.ne_nil whole.chars whole.parted, wordToken_symbol whole noInteger noKeyword]
  | @negative n word _ whole numeral small =>
    show Except.ok (minus (word ++ rest)) = _
    rw [minus_numeral whole numeral small]
  | minus alone =>
    show Except.ok (minus rest) = _
    rw [minus_alone alone]
  | @unknown c _ noBlank noWord noMark =>
    have read : next (c :: rest) = mark c rest := by
      unfold next skipBlanks
      rw [List.dropWhile_cons_of_neg noBlank]
      exact if_neg noWord
    rw [List.singleton_append, read, mark_unknown noMark]

/-! ## What is read is a lexeme -/

/-- the end of a text at which a quote is opened and not closed -/
def Unclosed (q : Quote) (left : List Char) : Prop :=
  ∃ gap value, (∀ c ∈ gap, isBlank c) ∧ q.mark ∉ value ∧ left = gap ++ q.mark :: value

/-- a word is an integer, a keyword or a symbol, the first of them that it can be -/
theorem lexeme_wordToken {word rest : List Char} (whole : WholeWord word rest) : Lexeme (wordToken word) word rest := by
  by_cases number : ∃ n < 2 ^ 63, Numeral n word
  · obtain ⟨n, small, numeral⟩ := number
    rw [wordToken_integer numeral small]
    exact .integer whole numeral small
  · have noInteger : ∀ n < 2 ^ 63, ¬ Numeral n word := by
      intro n small numeral
      exact number ⟨n, small, numeral⟩
    rw [wordToken_eq_named fun n small => noInteger n (le_maxInteger_iff.1 small)]
    unfold wordToken.named
    split
    · rename_i k found
      exact .keyword whole (ofWord?_eq_some_iff.1 found)
    · rename_i noKeyword
      refine .symbol whole noInteger fun k spells => ?_
      rw [ofWord?_eq_some_iff.2 spells] at noKeyword
      cases noKeyword

/-- what a quote opens is closed by the next one of its kind, or by none -/
theorem quoted_cases (q : Quote) (cs : List Char) :
    (∃ value rest, cs = value ++ q.mark :: rest ∧ q.mark ∉ value ∧
        quoted q cs = .ok (.text (String.ofList value), rest))
      ∨ q.mark ∉ cs ∧ quoted q cs = .error (.unterminated q) := by
  have free : q.mark ∉ cs.takeWhile (· != q.mark) := by
    intro mem
    simpa using List.mem_takeWhile_imp mem
  have split : cs.takeWhile (· != q.mark) ++ cs.dropWhile (· != q.mark) = cs := List.takeWhile_append_dropWhile
  unfold quoted
  rcases left : cs.dropWhile (· != q.mark) with _ | ⟨c, rest⟩
  · refine .inr ⟨?_, rfl⟩
    rw [left, List.append_nil] at split
    rwa [split] at free
  · have stop := List.head?_dropWhile_not (· != q.mark) cs
    rw [left] at stop
    obtain rfl : c = q.mark := by simpa using stop
    rw [left] at split
    exact .inl ⟨_, rest, split.symm, free, rfl⟩

theorem lexeme_minus (rest : List Char) :
    ∃ written, '-' :: rest = written ++ (minus rest).2 ∧ Lexeme (minus rest).1 written (minus rest).2 := by
  unfold minus
  split
  · rename_i value found
    obtain ⟨n, small, numeral, rfl⟩ := negative?_eq_some_iff.1 found
    have whole := wholeWord_takeWhile numeral.ne_nil
    refine ⟨'-' :: rest.takeWhile isWordChar, ?_, .negative whole numeral small⟩
    rw [List.cons_append, List.takeWhile_append_dropWhile]
  · rename_i none
    refine ⟨['-'], rfl, .minus fun word behind split whole n small numeral => ?_⟩
    obtain rfl : rest = word ++ behind := split
    rw [takeWhile_run whole.chars whole.parted, negative?_eq_some_iff.2 ⟨n, small, numeral, rfl⟩] at none
    cases none

/-- behind a mark there is a lexeme, or a quote that nothing closes -/
theorem mark_cases {c : Char} (noBlank : ¬ isBlank c) (noWord : ¬ isWordChar c) (rest : List Char) :
    (∃ t written left, c :: rest = written ++ left ∧ Lexeme t written left ∧ mark c rest = .ok (t, left))
      ∨ ∃ q : Quote, c = q.mark ∧ q.mark ∉ rest ∧ mark c rest = .error (.unterminated q) := by
  by_cases noMark : c ∉ marks
  · exact .inl ⟨_, [c], rest, rfl, .unknown noBlank noWord noMark, mark_unknown noMark rest⟩
  · have quote (q : Quote) (is : mark q.mark rest = quoted q rest) :
        (∃ t written left, q.mark :: rest = written ++ left ∧ Lexeme t written left ∧ mark q.mark rest = .ok (t, left))
          ∨ ∃ q' : Quote, q.mark = q'.mark ∧ q'.mark ∉ rest ∧ mark q.mark rest = .error (.unterminated q') := by
      rw [is]
      rcases quoted_cases q rest with ⟨value, left, rfl, free, closed⟩ | ⟨free, unclosed⟩
      · exact .inl ⟨_, q.mark :: (value ++ [q.mark]), left, by simp, .text free, closed⟩
      · exact .inr ⟨q, rfl, free, unclosed⟩
    have known : c ∈ marks := not_not.1 noMark
    simp only [marks, List.mem_cons, List.not_mem_nil, or_false] at known
    rcases known with rfl | rfl | rfl | rfl | rfl | rfl | rfl | rfl | rfl
    · exact .inl ⟨_, ['('], rest, rfl, .openParen, rfl⟩
    · exact .inl ⟨_, [')'], rest, rfl, .closeParen, rfl⟩
    · exact .inl ⟨_, [','], rest, rfl, .comma, rfl⟩
    · exact .inl ⟨_, ['='], rest, rfl, .equal, rfl⟩
    · exact .inl ⟨_, ['*'], rest, rfl, .star, rfl⟩
    · left
      by_cases equals : rest.head? = some '='
      · obtain ⟨left, rfl⟩ := List.head?_eq_some_iff.1 equals
        exact ⟨_, ['!', '='], left, rfl, .notEqual, rfl⟩
      · have lexeme : Lexeme .bang ['!'] rest := .bang equals
        have noGap : ∀ c ∈ ([] : List Char), isBlank c := by simp
        exact ⟨_, ['!'], rest, rfl, lexeme, next_lexeme noGap lexeme⟩
    · obtain ⟨written, split, lexeme⟩ := lexeme_minus rest
      exact .inl ⟨_, written, _, split, lexeme, rfl⟩
    · exact quote .double rfl
    · exact quote .single rfl

/-- **Reading a token** comes to the end, takes a lexeme behind blanks, or finds a quote that nothing closes. -/
theorem next_cases (cs : List Char) :
    ((∀ c ∈ cs, isBlank c) ∧ next cs = .ok (.eof, []))
      ∨ (∃ gap written rest t, cs = gap ++ (written ++ rest) ∧ (∀ c ∈ gap, isBlank c) ∧ Lexeme t written rest
          ∧ next cs = .ok (t, rest))
      ∨ ∃ q, Unclosed q cs ∧ next cs = .error (.unterminated q) := by
  have blank : ∀ c ∈ cs.takeWhile isBlank, isBlank c := fun c mem => List.mem_takeWhile_imp mem
  have split : cs.takeWhile isBlank ++ skipBlanks cs = cs := List.takeWhile_append_dropWhile
  unfold next
  rcases left : skipBlanks cs with _ | ⟨c, rest⟩
  · rw [left, List.append_nil] at split
    exact .inl ⟨split ▸ blank, rfl⟩
  · have noBlank : ¬ isBlank c := by
      have stop := List.head?_dropWhile_not isBlank cs
      rw [show cs.dropWhile isBlank = c :: rest from left] at stop
      simpa using stop
    rw [left] at split
    right
    by_cases first : isWordChar c
    · have word : (c :: rest).takeWhile isWordChar = c :: rest.takeWhile isWordChar := List.takeWhile_cons_of_pos first
      have behind : (c :: rest).dropWhile isWordChar = rest.dropWhile isWordChar := List.dropWhile_cons_of_pos first
      have some : (c :: rest).takeWhile isWordChar ≠ [] := by simp [word]
      have whole := wholeWord_takeWhile some
      rw [word, behind] at whole
      refine .inl ⟨_, _, _, _, ?_, blank, lexeme_wordToken whole, if_pos first⟩
      rw [List.cons_append, List.takeWhile_append_dropWhile, split]
    · simp only [first]
      rcases mark_cases noBlank first rest with ⟨t, written, left, same, lexeme, read⟩ | ⟨q, rfl, free, read⟩
      · exact .inl ⟨_, written, left, t, by rw [← same, split], blank, lexeme, read⟩
      · exact .inr ⟨q, ⟨_, rest, blank, free, split.symm⟩, read⟩

/-! ## All lexemes of a text -/

/-- a cut is read token by token, up to the end that is left of it -/
theorem tokensAfter_cut {ts : List Token} {cs left : List Char} (cut : Cut ts cs left) (read : List Token) :
    tokensAfter read cs = tokensAfter (ts.reverse ++ read) left := by
  induction cut generalizing read with
  | done => rfl
  | token blank lexeme _ ih =>
    rw [tokensAfter_of_next read (next_lexeme blank lexeme), if_neg lexeme.ne_eof, ih]
    simp

theorem tokensAfter_blanks {gap : List Char} (blank : ∀ c ∈ gap, isBlank c) (read : List Token) :
    tokensAfter read gap = .ok (read.reverse ++ [.eof]) := by
  have ended : next gap = .ok (.eof, []) := by
    rw [← List.append_nil gap, next_blanks blank, next_nil]
  rw [tokensAfter_of_next read ended, if_pos rfl, List.reverse_cons]

theorem tokensAfter_of_error {cs : List Char} {e : QueryError} (read : List Token) (h : next cs = .error e) :
    tokensAfter read cs = .error e := by
  rw [tokensAfter]
  split
  · rename_i e' failed
    rw [h] at failed
    cases failed
    rfl
  · rename_i found
    rw [h] at found
    cases found

theorem tokensAfter_unclosed {q : Quote} {left : List Char} (unclosed : Unclosed q left) (read : List Token) :
    tokensAfter read left = .error (.unterminated q) := by
  obtain ⟨gap, value, blank, free, rfl⟩ := unclosed
  have failed : next (gap ++ q.mark :: value) = .error (.unterminated q) := by
    have opened : next (q.mark :: value) = quoted q value := by
      cases q <;> rfl
    rw [next_blanks blank, opened]
    rcases quoted_cases q value with ⟨front, rest, rfl, -, -⟩ | ⟨-, unclosed⟩
    · simp at free
    · exact unclosed
  exact tokensAfter_of_error read failed

/-- every text can be cut up to its end, or up to a quote that nothing closes: by induction along the reading -/
theorem exists_cut (cs : List Char) :
    ∃ ts left, Cut ts cs left ∧ ((∀ c ∈ left, isBlank c) ∨ ∃ q, Unclosed q left) := by
  induction length : cs.length using Nat.strong_induction_on generalizing cs with
  | _ n ih =>
    rcases next_cases cs with ⟨blank, -⟩ | ⟨gap, written, rest, t, split, blank, lexeme, read⟩ | ⟨q, unclosed, -⟩
    · exact ⟨[], cs, .done, .inl blank⟩
    · have shorter : rest.length < n := length ▸ next_length_lt read lexeme.ne_eof
      obtain ⟨ts, left, cut, ends⟩ := ih rest.length shorter rest rfl
      exact ⟨t :: ts, left, split ▸ .token blank lexeme cut, ends⟩
    · exact ⟨[], cs, .done, .inr ⟨q, unclosed⟩⟩

theorem tokens_of_cut {ts : List Token} {query : String} {gap : List Char} (cut : Cut ts query.toList gap)
    (blank : ∀ c ∈ gap, isBlank c) : tokens query = .ok (ts ++ [.eof]) := by
  rw [tokens, tokensAfter_cut cut, tokensAfter_blanks blank]
  simp

theorem tokens_of_unclosed {ts : List Token} {query : String} {left : List Char} {q : Quote}
    (cut : Cut ts query.toList left) (unclosed : Unclosed q left) : tokens query = .error (.unterminated q) := by
  rw [tokens, tokensAfter_cut cut, tokensAfter_unclosed unclosed]

/-- a text has tokens, or it has none for a quote that nothing closes -/
theorem lexed_cases (query : String) :
    (∃ ts gap, (∀ c ∈ gap, isBlank c) ∧ Cut ts query.toList gap ∧ tokens query = .ok (ts ++ [.eof]))
      ∨ ∃ q ts left, Unclosed q left ∧ Cut ts query.toList left ∧ tokens query = .error (.unterminated q) := by
  obtain ⟨ts, left, cut, blank | ⟨q, unclosed⟩⟩ := exists_cut query.toList
  · exact .inl ⟨ts, left, blank, cut, tokens_of_cut cut blank⟩
  · exact .inr ⟨q, ts, left, unclosed, cut, tokens_of_unclosed cut unclosed⟩

/-- **The lexer is an exact longest-match lexer.** The tokens of a text are those of the lexemes that it can be cut
into, up to blanks at its end, and one `eof` behind them. A text has no tokens exactly if it can be cut up to a quote
that nothing closes, and that quote is then the error. -/
theorem tokens_exact (query : String) :
    (∀ ts, tokens query = .ok (ts ++ [.eof]) ↔ ∃ gap, (∀ c ∈ gap, isBlank c) ∧ Cut ts query.toList gap) ∧
    (∀ all, tokens query = .ok all → ∃ ts, all = ts ++ [.eof] ∧ .eof ∉ ts) ∧
    ∀ e, tokens query = .error e ↔
      ∃ q ts left, e = .unterminated q ∧ Unclosed q left ∧ Cut ts query.toList left := by
  refine ⟨fun ts => ⟨fun lexed => ?_, ?_⟩, fun all lexed => ?_, fun e => ⟨fun failed => ?_, ?_⟩⟩
  · rcases lexed_cases query with ⟨ts', gap, blank, cut, read⟩ | ⟨q, _, _, -, -, none⟩
    · rw [read] at lexed
      obtain rfl : ts' = ts := by simpa using lexed
      exact ⟨gap, blank, cut⟩
    · rw [none] at lexed
      cases lexed
  · rintro ⟨gap, blank, cut⟩
    exact tokens_of_cut cut blank
  · rcases lexed_cases query with ⟨ts, _, -, cut, read⟩ | ⟨q, _, _, -, -, none⟩
    · rw [read] at lexed
      cases lexed
      exact ⟨ts, rfl, cut.eof_notMem⟩
    · rw [none] at lexed
      cases lexed
  · rcases lexed_cases query with ⟨_, _, -, -, read⟩ | ⟨q, ts, left, unclosed, cut, none⟩
    · rw [read] at failed
      cases failed
    · rw [none] at failed
      cases failed
      exact ⟨q, ts, left, rfl, unclosed, cut⟩
  · rintro ⟨q, ts, left, rfl, unclosed, cut⟩
    exact tokens_of_unclosed cut unclosed

end Lexer
end TableStore
