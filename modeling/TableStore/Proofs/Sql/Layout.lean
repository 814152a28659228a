/-
Layout and letter case of queries.

A lexeme ends where nothing that follows could go on with it, and a blank never could. So what is cut off a text up to a
blank is cut off it whatever follows (`Cut.extend`), and the tokens on both sides of blanks are found one side at a time
(`tokens_append`). Which blanks they are makes no difference, and neither does the letter case of a keyword; both only
hold outside quotes, and whether a place is outside quotes is told by the quote characters before it alone (`openQuote`).

Results:
  layout_irrelevant   the tokens of texts with blanks between them are the tokens of one and then of the other, or the
                      error of the other; queries that differ in blanks and in the letter case of keywords, outside
                      quotes, have the same tokens and make the same statement or the same error.
-/
import TableStore.Proofs.Sql.Lexemes
import TableStore.Sql.Query

namespace TableStore

open Lexer (isBlank isWordChar)
open Relation (ReflTransGen)

/-! ## What a lexeme does not go on with -/

/-- nothing at the start of `behind` could go on with a lexeme at the end of `front` -/
structure Apart (front behind : List Char) : Prop where
  noEquals : ∀ c ∈ behind.head?, c ≠ '='
  noDigit : ∀ c ∈ behind.head?, ¬ c.isDigit
  parted : ∀ c ∈ front.getLast?, isWordChar c → ∀ d ∈ behind.head?, ¬ isWordChar d

theorem Apart.suffix {front back behind : List Char} (h : Apart (front ++ back) behind) : Apart back behind := by
  refine ⟨h.noEquals, h.noDigit, fun c last => ?_⟩
  apply h.parted c
  rw [List.getLast?_append, Option.mem_def.1 last]
  rfl

theorem apart_of_isBlank {c : Char} (blank : isBlank c) (front behind : List Char) : Apart front (c :: behind) := by
  have noWord : ¬ isWordChar c := fun word => Lexer.not_isBlank_of_isWordChar word blank
  refine ⟨?_, ?_, ?_⟩
  · rintro d ⟨⟩ rfl
    exact absurd blank (by decide)
  · rintro d ⟨⟩ digit
    exact noWord (by rw [isWordChar, Char.isAlphanum, digit, Bool.or_true])
  · rintro _ _ _ d ⟨⟩
    exact noWord

/-- letters go on with a word only -/
theorem apart_of_isAlpha {front behind : List Char} (letter : ∀ c ∈ behind.head?, c.isAlpha)
    (noWord : ∀ c ∈ front.getLast?, ¬ isWordChar c) : Apart front behind := by
  refine ⟨?_, ?_, ?_⟩
  · rintro c head rfl
    exact absurd (letter _ head) (by decide)
  · intro c head
    exact Lexer.not_isDigit_of_isAlpha (letter c head)
  · intro c last word
    exact absurd word (noWord c last)

/-- the letters and digits at the start of a text that is not empty end in that text -/
theorem Apart.takeWhile {written behind : List Char} {c : Char} {rest : List Char}
    (h : Apart (written ++ c :: rest) behind) :
    (c :: rest ++ behind).takeWhile isWordChar = (c :: rest).takeWhile isWordChar := by
  rw [List.takeWhile_append]
  split
  · rename_i whole
    have all : ∀ d ∈ c :: rest, isWordChar d := by
      intro d mem
      rw [← List.IsPrefix.eq_of_length (List.takeWhile_prefix isWordChar) whole] at mem
      exact List.mem_takeWhile_imp mem
    have last := List.getLast?_eq_getLast_of_ne_nil (List.cons_ne_nil c rest)
    have stop := h.suffix.parted _ last (all _ (List.getLast_mem _))
    have none : behind.takeWhile isWordChar = [] := by
      cases behind with
      | nil => rfl
      | cons d behind => exact List.takeWhile_cons_of_neg (stop d rfl)
    rw [none, List.append_nil, List.IsPrefix.eq_of_length (List.takeWhile_prefix isWordChar) whole]
  · rfl

theorem WholeWord.extend {word rest behind : List Char} (whole : WholeWord word rest)
    (apart : Apart (word ++ rest) behind) : WholeWord word (rest ++ behind) := by
  refine ⟨whole.ne_nil, whole.chars, ?_⟩
  cases rest with
  | cons c rest => exact whole.parted
  | nil =>
    rw [List.append_nil] at apart
    exact apart.parted _ (List.getLast?_eq_getLast_of_ne_nil whole.ne_nil) (whole.chars _ (List.getLast_mem _))

/-- a lexeme is the same in front of something else that does not go on with it -/
theorem Lexeme.extend {t : Token} {written rest behind : List Char} (lexeme : Lexeme t written rest)
    (apart : Apart (written ++ rest) behind) : Lexeme t written (rest ++ behind) := by
  cases lexeme with
  | openParen => exact .openParen
  | closeParen => exact .closeParen
  | comma => exact .comma
  | equal => exact .equal
  | star => exact .star
  | notEqual => exact .notEqual
  | bang alone =>
    refine .bang fun head => ?_
    cases rest with
    | nil => exact apart.noEquals _ head rfl
    | cons c rest => exact alone head
  | text free => exact .text free
  | integer whole numeral small => exact .integer (whole.extend apart) numeral small
  | keyword whole spells => exact .keyword (whole.extend apart) spells
  | symbol whole noInteger noKeyword => exact .symbol (whole.extend apart) noInteger noKeyword
  | negative whole numeral small => exact .negative (whole.extend (@Apart.suffix ['-'] _ _ apart)) numeral small
  | minus alone =>
    refine .minus fun word left split whole n small numeral => ?_
    have word_eq : word = (rest ++ behind).takeWhile isWordChar := by
      rw [split, Lexer.takeWhile_run whole.chars whole.parted]
    cases rest with
    | nil =>
      -- the word behind the minus sign would begin with a digit of what follows
      obtain ⟨c, more, rfl⟩ := List.exists_cons_of_ne_nil whole.ne_nil
      rw [List.nil_append] at split
      exact apart.noDigit c (by rw [split]; rfl) (numeral.isDigit c List.mem_cons_self)
    | cons c rest =>
      -- the word is the one that was there before
      rw [apart.takeWhile] at word_eq
      have whole' := Lexer.wholeWord_takeWhile (word_eq ▸ whole.ne_nil)
      rw [← word_eq] at whole'
      exact alone word _ (by rw [word_eq, List.takeWhile_append_dropWhile]) whole' n small numeral
  | unknown noBlank noWord noMark => exact .unknown noBlank noWord noMark

theorem Cut.extend {ts : List Token} {cs left behind : List Char} (cut : Cut ts cs left) (apart : Apart cs behind) :
    Cut ts (cs ++ behind) (left ++ behind) := by
  induction cut with
  | done => exact .done
  | token blank lexeme _ ih =>
    rw [List.append_assoc, List.append_assoc]
    exact .token blank (lexeme.extend apart.suffix) (ih apart.suffix.suffix)

theorem Cut.trans {ts us : List Token} {cs middle left : List Char} (first : Cut ts cs middle)
    (second : Cut us middle left) : Cut (ts ++ us) cs left := by
  induction first with
  | done => exact second
  | token blank lexeme _ ih => exact .token blank lexeme (ih second)

/-! ## Tokens on both sides of a place -/

namespace Lexer

theorem tokensAfter_congr {cs cs' : List Char} (same : next cs = next cs') (read : List Token) :
    tokensAfter read cs = tokensAfter read cs' := by
  rcases found : next cs with e | ⟨t, rest⟩
  · rw [tokensAfter_of_error read found, tokensAfter_of_error read (same ▸ found)]
  · rw [tokensAfter_of_next read found, tokensAfter_of_next read (same ▸ found)]

/-- blanks in front of a text are not seen -/
theorem tokensAfter_skip {gap : List Char} (blank : ∀ c ∈ gap, isBlank c) (read : List Token) (cs : List Char) :
    tokensAfter read (gap ++ cs) = tokensAfter read cs :=
  tokensAfter_congr (next_blanks blank cs) read

/-- nothing but its place is kept from one token to the next: what was read before stands in front, and does no more -/
theorem tokensAfter_eq (read : List Token) (cs : List Char) :
    tokensAfter read cs = (tokensAfter [] cs).map (read.reverse ++ ·) := by
  obtain ⟨ts, left, cut, blank | ⟨q, unclosed⟩⟩ := exists_cut cs
  · rw [tokensAfter_cut cut, tokensAfter_cut cut, tokensAfter_blanks blank, tokensAfter_blanks blank]
    simp [Except.map]
  · rw [tokensAfter_cut cut, tokensAfter_cut cut, tokensAfter_unclosed unclosed, tokensAfter_unclosed unclosed]
    rfl

/-- the tokens of texts with blanks between them, if the first one has tokens -/
theorem tokens_append {a w b : String} {ts : List Token} {gap : List Char} (cut : Cut ts a.toList gap)
    (blank : ∀ c ∈ gap, isBlank c) (blank' : ∀ c ∈ w.toList, isBlank c) (some : w.toList ≠ []) :
    tokens (a ++ w ++ b) = (tokens b).map (ts ++ ·) := by
  obtain ⟨c, more, w_eq⟩ := List.exists_cons_of_ne_nil some
  have apart : Apart a.toList (w.toList ++ b.toList) := by
    rw [w_eq]
    exact apart_of_isBlank (blank' c (w_eq ▸ List.mem_cons_self)) _ _
  calc tokens (a ++ w ++ b)
      = tokensAfter [] (a.toList ++ (w.toList ++ b.toList)) := by
        rw [tokens, String.toList_append, String.toList_append, List.append_assoc]
    _ = tokensAfter ts.reverse (gap ++ (w.toList ++ b.toList)) := by
        rw [tokensAfter_cut (cut.extend apart), List.append_nil]
    _ = tokensAfter ts.reverse b.toList := by
        rw [tokensAfter_skip blank, tokensAfter_skip blank']
    _ = (tokens b).map (ts ++ ·) := by
        rw [tokensAfter_eq, List.reverse_reverse, tokens]

end Lexer

/-! ## Places outside quotes -/

/-- the quote that is open behind a character, if one is; inside a quote only its own mark counts -/
def Quote.behind : Option Quote → Char → Option Quote
  | none, c => if c = double.mark then some double else if c = single.mark then some single else none
  | some q, c => if c = q.mark then none else some q

/-- the quote that is open at the end of a text, if one is -/
def openQuote (cs : List Char) : Option Quote := cs.foldl Quote.behind none

theorem Quote.foldl_none {cs : List Char} (free : ∀ c ∈ cs, ∀ q : Quote, c ≠ q.mark) :
    cs.foldl Quote.behind none = none := by
  induction cs with
  | nil => rfl
  | cons c cs ih =>
    obtain ⟨first, others⟩ := List.forall_mem_cons.1 free
    rw [List.foldl_cons, Quote.behind, if_neg (first .double), if_neg (first .single)]
    exact ih others

theorem Quote.foldl_some {q : Quote} {cs : List Char} (free : q.mark ∉ cs) :
    cs.foldl Quote.behind (some q) = some q := by
  induction cs with
  | nil => rfl
  | cons c cs ih =>
    obtain ⟨first, others⟩ := List.ne_and_not_mem_of_not_mem_cons free
    rw [List.foldl_cons, Quote.behind, if_neg first.symm]
    exact ih others

theorem Quote.behind_mark (q : Quote) : Quote.behind none q.mark = some q := by
  cases q <;> rfl

theorem foldl_blank {gap : List Char} (blank : ∀ c ∈ gap, isBlank c) : gap.foldl Quote.behind none = none := by
  refine Quote.foldl_none fun c mem q eq => ?_
  have := blank c mem
  cases q <;> rw [eq] at this <;> exact absurd this (by decide)

theorem foldl_word {word : List Char} (chars : ∀ c ∈ word, isWordChar c) : word.foldl Quote.behind none = none := by
  refine Quote.foldl_none fun c mem q eq => ?_
  have := chars c mem
  cases q <;> rw [eq] at this <;> exact absurd this (by decide)

/-- no quote is left open behind a lexeme -/
theorem Lexeme.foldl_none {t : Token} {written rest : List Char} (lexeme : Lexeme t written rest) :
    written.foldl Quote.behind none = none := by
  cases lexeme with
  | openParen | closeParen | comma | equal | star | notEqual | bang | minus => rfl
  | @text q value _ free =>
    rw [List.foldl_cons, Quote.behind_mark, List.foldl_append, Quote.foldl_some free]
    exact if_pos rfl
  | integer whole | keyword whole | symbol whole => exact foldl_word whole.chars
  | negative whole =>
    rw [List.foldl_cons]
    exact foldl_word whole.chars
  | @unknown c _ _ _ noMark =>
    refine Quote.foldl_none fun d mem q eq => noMark ?_
    rw [← List.mem_singleton.1 mem, eq]
    cases q <;> decide

theorem Cut.foldl_none {ts : List Token} {cs left : List Char} (cut : Cut ts cs left) :
    openQuote cs = openQuote left := by
  induction cut with
  | done => rfl
  | @token gap written rest _ _ _ blank lexeme _ ih =>
    rw [← ih]
    unfold openQuote
    rw [List.foldl_append, List.foldl_append, foldl_blank blank, lexeme.foldl_none]

/-- what stands in front of a place outside quotes is cut into lexemes up to that place -/
theorem exists_cut_of_outside {cs : List Char} (outside : openQuote cs = none) :
    ∃ ts gap, (∀ c ∈ gap, isBlank c) ∧ Cut ts cs gap := by
  obtain ⟨ts, left, cut, blank | ⟨q, gap, value, blank, free, rfl⟩⟩ := Lexer.exists_cut cs
  · exact ⟨ts, left, blank, cut⟩
  · rw [cut.foldl_none, openQuote, List.foldl_append, foldl_blank blank, List.foldl_cons, Quote.behind_mark,
      Quote.foldl_some free] at outside
    cases outside

/-! ## Texts that differ in layout -/

/-- texts that differ in one place outside quotes, where one has other blanks than the other, or a keyword in other
letter case -/
inductive Relaid : List Char → List Char → Prop where
  | blanks {before gap gap' behind : List Char} (outside : openQuote before = none) (blank : ∀ c ∈ gap, isBlank c)
      (blank' : ∀ c ∈ gap', isBlank c) (some : gap ≠ []) (some' : gap' ≠ []) :
      Relaid (before ++ (gap ++ behind)) (before ++ (gap' ++ behind))
  | letters {before word word' behind : List Char} {k : Keyword} (outside : openQuote before = none)
      (begins : ∀ c ∈ before.getLast?, ¬ isWordChar c) (ends : ∀ c ∈ behind.head?, ¬ isWordChar c)
      (keyword : word.map Char.toLower = k.spelling.toList) (same : word'.map Char.toLower = word.map Char.toLower) :
      Relaid (before ++ (word ++ behind)) (before ++ (word' ++ behind))

namespace Lexer

/-- the tokens of a text in which there are blanks somewhere outside quotes do not depend on the blanks -/
theorem tokensAfter_gap {ts : List Token} {before gap gap' : List Char} (cut : Cut ts before gap')
    (blank' : ∀ c ∈ gap', isBlank c) (blank : ∀ c ∈ gap, isBlank c) (some : gap ≠ []) (behind : List Char) :
    tokensAfter [] (before ++ (gap ++ behind)) = tokensAfter ts.reverse behind := by
  obtain ⟨c, more, rfl⟩ := List.exists_cons_of_ne_nil some
  have apart : Apart before (c :: more ++ behind) := apart_of_isBlank (blank c List.mem_cons_self) _ _
  rw [tokensAfter_cut (cut.extend apart), tokensAfter_skip blank', tokensAfter_skip blank, List.append_nil]

/-- the tokens of a text in which a keyword stands outside quotes do not depend on its letter case -/
theorem tokensAfter_keyword {ts : List Token} {before gap word behind : List Char} {k : Keyword}
    (cut : Cut ts before gap) (blank : ∀ c ∈ gap, isBlank c) (begins : ∀ c ∈ before.getLast?, ¬ isWordChar c)
    (ends : ∀ c ∈ behind.head?, ¬ isWordChar c) (keyword : word.map Char.toLower = k.spelling.toList) :
    tokensAfter [] (before ++ (word ++ behind)) = tokensAfter (ts ++ [Token.keyword k]).reverse behind := by
  have letters := isAlpha_of_keyword keyword
  obtain ⟨ne, chars⟩ := isWordChar_of_writes (t := .keyword k) trivial trivial keyword
  have lexeme : Lexeme (.keyword k) word behind := .keyword ⟨ne, chars, ends⟩ keyword
  have apart : Apart before (word ++ behind) := by
    refine apart_of_isAlpha (fun c head => ?_) begins
    obtain ⟨first, more, rfl⟩ := List.exists_cons_of_ne_nil ne
    cases head
    exact letters c List.mem_cons_self
  have whole : Cut (ts ++ [Token.keyword k]) (before ++ (word ++ behind)) behind :=
    (cut.extend apart).trans (.token blank lexeme .done)
  rw [tokensAfter_cut whole, List.append_nil]

theorem tokensAfter_relaid {cs cs' : List Char} (relaid : Relaid cs cs') : tokensAfter [] cs = tokensAfter [] cs' := by
  cases relaid with
  | blanks outside blank blank' some some' =>
    obtain ⟨ts, left, blankLeft, cut⟩ := exists_cut_of_outside outside
    rw [tokensAfter_gap cut blankLeft blank some, tokensAfter_gap cut blankLeft blank' some']
  | letters outside begins ends keyword same =>
    obtain ⟨ts, left, blankLeft, cut⟩ := exists_cut_of_outside outside
    rw [tokensAfter_keyword cut blankLeft begins ends keyword,
      tokensAfter_keyword cut blankLeft begins ends (same.trans keyword)]

/-- any number of changes of layout keeps the tokens: by induction on the changes -/
theorem tokens_relaid {query query' : String} (relaid : ReflTransGen Relaid query.toList query'.toList) :
    tokens query = tokens query' := by
  have all : ∀ cs, ReflTransGen Relaid query.toList cs → tokensAfter [] query.toList = tokensAfter [] cs := by
    intro cs changes
    induction changes with
    | refl => rfl
    | tail _ change ih => exact ih.trans (tokensAfter_relaid change)
  exact all _ relaid

end Lexer

/-- **The tokens of a text are found piece by piece, and no layout is seen.** With blanks between two texts of which
the first one has tokens, there are its tokens and then those of the second one, or the error of the second one. Queries
that differ in blanks and in the letter case of keywords, outside quotes, have the same tokens and make the same
statement, or the same error. -/
theorem Statement.layout_irrelevant :
    (∀ (a w b : String) (all : List Token), Lexer.tokens a = .ok all → (∀ c ∈ w.toList, isBlank c) → w.toList ≠ [] →
      (∀ behind, Lexer.tokens b = .ok behind → Lexer.tokens (a ++ w ++ b) = .ok (all.dropLast ++ behind)) ∧
      ∀ e, Lexer.tokens b = .error e → Lexer.tokens (a ++ w ++ b) = .error e) ∧
    ∀ query query' : String, ReflTransGen Relaid query.toList query'.toList →
      Lexer.tokens query' = Lexer.tokens query ∧ Statement.parse query' = Statement.parse query := by
  refine ⟨fun a w b all lexed blank some => ?_, fun query query' relaid => ?_⟩
  · rcases Lexer.lexed_cases a with ⟨ts, gap, blankGap, cut, read⟩ | ⟨q, _, _, -, -, none⟩
    · rw [read] at lexed
      cases lexed
      have appended := Lexer.tokens_append (b := b) cut blankGap blank some
      rw [List.dropLast_concat]
      refine ⟨fun behind lexed => ?_, fun e failed => ?_⟩
      · rw [appended, lexed]
        rfl
      · rw [appended, failed]
        rfl
    · rw [none] at lexed
      cases lexed
  · have same := Lexer.tokens_relaid relaid
    refine ⟨same.symm, ?_⟩
    rw [Statement.parse, Statement.parse, Statement.ofQuery, Statement.ofQuery, same]

/-- a line break keeps a minus sign from the number behind it, a quote left open behind the break is the error of the
whole, and a keyword may be shouted -/
theorem Statement.layout_irrelevant_minus :
    Lexer.tokens ("limit -" ++ "\n" ++ "3") = .ok [.keyword .limit, .unknown '-', .integer 3, .eof]
      ∧ Lexer.tokens ("limit -" ++ "\n" ++ "3 \x27x") = .error (.unterminated .single)
      ∧ Statement.parse ("SELECT" ++ "\n" ++ "* from t") = Statement.parse ("select" ++ " " ++ "* from t") := by
  have front : Lexer.tokens "limit -" = .ok [.keyword .limit, .unknown '-', .eof] := by decide +kernel
  have number : Lexer.tokens "3" = .ok [.integer 3, .eof] := by decide +kernel
  have unclosed : Lexer.tokens "3 \x27x" = .error (.unterminated .single) := by decide +kernel
  have space : ∀ c ∈ [' '], isBlank c := List.forall_mem_singleton.2 rfl
  have break_ : ∀ c ∈ ['\n'], isBlank c := List.forall_mem_singleton.2 rfl
  have around (b : String) := layout_irrelevant.1 "limit -" "\n" b _ front break_ (List.cons_ne_nil _ _)
  have shouted : Relaid ("select" ++ " " ++ "* from t").toList ("SELECT" ++ " " ++ "* from t").toList := by
    simp only [String.toList_append, List.append_assoc]
    refine @Relaid.letters [] "select".toList "SELECT".toList (" ".toList ++ "* from t".toList) .select rfl ?_ ?_ ?_ ?_
    · rintro c ⟨⟩
    · rintro c ⟨⟩
      decide
    · decide +kernel
    · decide +kernel
  have broken : Relaid ("SELECT" ++ " " ++ "* from t").toList ("SELECT" ++ "\n" ++ "* from t").toList := by
    simp only [String.toList_append, List.append_assoc]
    exact .blanks rfl space break_ (List.cons_ne_nil _ _) (List.cons_ne_nil _ _)
  exact ⟨(around "3").1 _ number, (around "3 \x27x").2 _ unclosed,
    (layout_irrelevant.2 _ _ ((ReflTransGen.single shouted).tail broken)).2⟩

end TableStore
