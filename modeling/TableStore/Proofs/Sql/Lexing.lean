/-
The lexer reads back what a spelling writes, and what it reads is always regular.

A word is told apart in two steps: a number in range is an integer, and of the other words those that spell a keyword
are keywords. A name is what is left over, so the conditions on names are exactly what makes the lexer give them back.
-/
import Mathlib
import TableStore.Proofs.Sql.Spelling

namespace TableStore

/-! ## Numbers -/

theorem Numeral.ofDigitChars {n : Nat} {word : List Char} (h : Numeral n word) : Nat.ofDigitChars 10 word 0 = n := by
  obtain ⟨zeros, rfl⟩ := h
  rw [Nat.ofDigitChars_append, Nat.ofDigitChars_replicate_zero, Nat.mul_zero, Nat.ofDigitChars_ten_toDigits]

theorem Numeral.ne_nil {n : Nat} {word : List Char} (h : Numeral n word) : word ≠ [] := by
  obtain ⟨zeros, rfl⟩ := h
  simp [Nat.toDigits_ne_nil]

theorem Numeral.isDigit {n : Nat} {word : List Char} (h : Numeral n word) : ∀ c ∈ word, c.isDigit := by
  obtain ⟨zeros, rfl⟩ := h
  intro c mem
  rcases List.mem_append.1 mem with zero | digit
  · rw [(List.mem_replicate.1 zero).2]
    rfl
  · exact Nat.isDigit_of_mem_toDigits (by decide) (by decide) digit

namespace Lexer

theorem value_lt {c : Char} (h : c.isDigit) : c.toNat - '0'.toNat < 10 := by
  obtain ⟨-, high⟩ := Char.isDigit_iff_toNat.1 h
  have nine : '9'.toNat = '0'.toNat + 9 := rfl
  omega

/-- a digit is the digit of its value -/
theorem toDigits_value {c : Char} (h : c.isDigit) : Nat.toDigits 10 (c.toNat - '0'.toNat) = [c] := by
  rw [Nat.toDigits_of_lt_base (value_lt h)]
  congr 1
  apply Char.toNat_inj.1
  rw [Nat.toNat_digitChar_of_lt_ten (value_lt h)]
  obtain ⟨low, -⟩ := Char.isDigit_iff_toNat.1 h
  have zero : '0'.toNat = 48 := rfl
  omega

/-- every run of digits is the numeral of its value: by induction on the last digit, which is either behind a value
that is not zero, and then belongs to its digits, or behind zeros only -/
theorem numeral_of_isDigit (word : List Char) (ne : word ≠ []) (digits : ∀ c ∈ word, c.isDigit) :
    Numeral (Nat.ofDigitChars 10 word 0) word := by
  induction word using List.reverseRecOn with
  | nil => exact absurd rfl ne
  | append_singleton front c ih =>
    obtain ⟨frontDigits, last⟩ := List.forall_mem_append.1 digits
    have digit : c.isDigit := last c List.mem_cons_self
    have value : Nat.ofDigitChars 10 (front ++ [c]) 0
        = 10 * Nat.ofDigitChars 10 front 0 + (c.toNat - '0'.toNat) := by
      rw [Nat.ofDigitChars_append, Nat.ofDigitChars_cons, Nat.ofDigitChars_nil]
    rw [value]
    rcases Nat.eq_zero_or_pos (Nat.ofDigitChars 10 front 0) with zero | pos
    · have zeros : ∃ k, front = List.replicate k '0' := by
        rcases List.eq_nil_or_concat front with rfl | ⟨_, _, rfl⟩
        · exact ⟨0, rfl⟩
        · obtain ⟨k, written⟩ := ih (by simp) frontDigits
          rw [zero] at written
          refine ⟨k + 1, ?_⟩
          rw [written, Nat.toDigits_zero, List.replicate_succ']
      obtain ⟨k, rfl⟩ := zeros
      refine ⟨k, ?_⟩
      rw [zero, Nat.mul_zero, Nat.zero_add, toDigits_value digit]
    · have some : front ≠ [] := by
        rintro rfl
        exact absurd pos (by simp)
      obtain ⟨k, written⟩ := ih some frontDigits
      refine ⟨k, ?_⟩
      calc front ++ [c]
          = List.replicate k '0' ++ Nat.toDigits 10 (Nat.ofDigitChars 10 front 0)
              ++ Nat.toDigits 10 (c.toNat - '0'.toNat) := by rw [← written, toDigits_value digit]
        _ = List.replicate k '0' ++ (Nat.toDigits 10 (Nat.ofDigitChars 10 front 0)
              ++ Nat.toDigits 10 (c.toNat - '0'.toNat)) := List.append_assoc _ _ _
        _ = List.replicate k '0' ++ Nat.toDigits 10 (10 * Nat.ofDigitChars 10 front 0 + (c.toNat - '0'.toNat)) := by
            rw [Nat.toDigits_append_toDigits (by decide) pos (value_lt digit)]

theorem decimal?_eq_some_iff {word : List Char} {n : Nat} : decimal? word = some n ↔ Numeral n word := by
  have value : word.foldl (fun n c => 10 * n + (c.toNat - '0'.toNat)) 0 = Nat.ofDigitChars 10 word 0 := rfl
  rw [decimal?, value]
  refine ⟨?_, ?_⟩
  · intro h
    split at h
    · rename_i digits
      cases h
      exact numeral_of_isDigit word digits.1 (List.all_eq_true.1 digits.2)
    · cases h
  · intro h
    rw [if_pos ⟨h.ne_nil, List.all_eq_true.2 h.isDigit⟩, h.ofDigitChars]

/-! ## Words -/

theorem ofWord?_eq_some_iff {word : List Char} {k : Keyword} :
    Keyword.ofWord? word = some k ↔ word.map Char.toLower = k.spelling.toList := by
  refine ⟨?_, ?_⟩
  · intro h
    rw [Keyword.ofWord?] at h
    have found := List.find?_some h
    exact (eq_of_beq found).symm
  · intro h
    rw [Keyword.ofWord?, h]
    cases k <;> decide

/-- keywords are made of letters only -/
theorem isAlpha_of_keyword {word : List Char} {k : Keyword} (h : word.map Char.toLower = k.spelling.toList) :
    ∀ c ∈ word, c.isAlpha := by
  intro c mem
  have letters : k.spelling.toList.all Char.isAlpha := by
    cases k <;> decide
  rw [← Char.isAlpha_toLower_eq_isAlpha]
  exact List.all_eq_true.1 letters _ (h ▸ List.mem_map_of_mem mem)

theorem ne_nil_of_keyword {word : List Char} {k : Keyword} (h : word.map Char.toLower = k.spelling.toList) :
    word ≠ [] := by
  rintro rfl
  cases k <;> cases h

theorem not_isDigit_of_isAlpha {c : Char} (h : c.isAlpha) : ¬ c.isDigit := by
  intro digit
  simp only [Char.isAlpha, Char.isUpper, Char.isLower, Char.isDigit, Bool.or_eq_true, Bool.and_eq_true,
    decide_eq_true_eq, UInt32.le_iff_toNat_le] at h digit
  simp at h digit
  omega

/-- no numeral spells a keyword -/
theorem not_numeral_of_keyword {word : List Char} {k : Keyword} (h : word.map Char.toLower = k.spelling.toList)
    (n : Nat) : ¬ Numeral n word := by
  intro numeral
  obtain ⟨c, mem⟩ := List.exists_mem_of_ne_nil _ numeral.ne_nil
  exact not_isDigit_of_isAlpha (isAlpha_of_keyword h c mem) (numeral.isDigit c mem)

/-- a word that is no integer in range is a keyword or a symbol -/
theorem wordToken_eq_named {word : List Char} (h : ∀ n ≤ maxInteger, ¬ Numeral n word) :
    wordToken word = wordToken.named word := by
  unfold wordToken
  split
  · rename_i n found
    rw [if_neg]
    intro small
    exact h n small (decimal?_eq_some_iff.1 found)
  · rfl

/-- a word is read as the token that it writes -/
theorem wordToken_of_writes {t : Token} {word : List Char} (isWord : t.IsWord) (regular : t.Regular)
    (writes : t.Writes word) : wordToken word = t := by
  cases t with
  | keyword k =>
    rw [wordToken_eq_named fun n _ => not_numeral_of_keyword writes n, wordToken.named, ofWord?_eq_some_iff.2 writes]
  | symbol name =>
    obtain rfl : word = name.toList := writes
    have noKeyword : Keyword.ofWord? name.toList = none := by
      rw [Option.eq_none_iff_forall_ne_some]
      intro k found
      exact regular.no_keyword k (ofWord?_eq_some_iff.1 found)
    rw [wordToken_eq_named regular.no_integer, wordToken.named, noKeyword, String.ofList_toList]
  | integer value =>
    cases value with
    | ofNat n =>
      rw [wordToken, decimal?_eq_some_iff.2 writes]
      exact if_pos (Int.ofNat_le.1 regular)
    | negSucc n => cases writes
  | _ => cases isWord

theorem isWordChar_of_writes {t : Token} {word : List Char} (isWord : t.IsWord) (regular : t.Regular)
    (writes : t.Writes word) : word ≠ [] ∧ ∀ c ∈ word, isWordChar c := by
  cases t with
  | keyword k =>
    refine ⟨ne_nil_of_keyword writes, fun c mem => ?_⟩
    rw [isWordChar, Char.isAlphanum, isAlpha_of_keyword writes c mem, Bool.true_or]
  | symbol name =>
    obtain rfl : word = name.toList := writes
    exact ⟨regular.ne_nil, regular.word⟩
  | integer value =>
    cases value with
    | ofNat n =>
      have numeral : Numeral n word := writes
      refine ⟨numeral.ne_nil, fun c mem => ?_⟩
      rw [isWordChar, Char.isAlphanum, numeral.isDigit c mem, Bool.or_true]
    | negSucc n => cases writes
  | _ => cases isWord

/-- whatever word is read, the token is regular -/
theorem regular_wordToken {word : List Char} (ne : word ≠ []) (chars : ∀ c ∈ word, isWordChar c) :
    (wordToken word).Regular := by
  have named (none : ∀ n ≤ maxInteger, ¬ Numeral n word) : (wordToken.named word).Regular := by
    unfold wordToken.named
    split
    · trivial
    · rename_i noKeyword
      refine ⟨?_, ?_, ?_, ?_⟩
      · rwa [String.toList_ofList]
      · rwa [String.toList_ofList]
      · intro k spelled
        rw [String.toList_ofList, ← ofWord?_eq_some_iff, noKeyword] at spelled
        cases spelled
      · rwa [String.toList_ofList]
  by_cases number : ∃ n ≤ maxInteger, Numeral n word
  · obtain ⟨n, small, numeral⟩ := number
    rw [wordToken, decimal?_eq_some_iff.2 numeral]
    simp only [small, if_true]
    exact Int.ofNat_le.2 small
  · have none : ∀ n ≤ maxInteger, ¬ Numeral n word := fun n small numeral => number ⟨n, small, numeral⟩
    rw [wordToken_eq_named none]
    exact named none

/-! ## One token -/

theorem not_isBlank_of_isWordChar {c : Char} (h : isWordChar c) : ¬ isBlank c := by
  intro blank
  simp only [isBlank, Bool.or_eq_true, beq_iff_eq] at blank
  rcases blank with ((rfl | rfl) | rfl) | rfl <;> exact absurd h (by decide)

theorem next_blanks {gap : List Char} (blank : ∀ c ∈ gap, isBlank c) (cs : List Char) : next (gap ++ cs) = next cs := by
  rw [next, next, skipBlanks, skipBlanks, List.dropWhile_append_of_pos blank]

theorem next_nil : next [] = .ok (.eof, []) := rfl

theorem next_word {c : Char} (h : isWordChar c) (cs : List Char) :
    next (c :: cs) = .ok (wordToken (c :: cs.takeWhile isWordChar), cs.dropWhile isWordChar) := by
  rw [next, skipBlanks, List.dropWhile_cons_of_neg (not_isBlank_of_isWordChar h)]
  exact if_pos h

/-- letters and digits end where something else follows -/
theorem takeWhile_run {word rest : List Char} (chars : ∀ c ∈ word, isWordChar c)
    (parted : ∀ c ∈ rest.head?, ¬ isWordChar c) : (word ++ rest).takeWhile isWordChar = word := by
  rw [List.takeWhile_append_of_pos chars]
  cases rest with
  | nil => simp
  | cons c rest => rw [List.takeWhile_cons_of_neg (parted c rfl), List.append_nil]

theorem dropWhile_run {word rest : List Char} (chars : ∀ c ∈ word, isWordChar c)
    (parted : ∀ c ∈ rest.head?, ¬ isWordChar c) : (word ++ rest).dropWhile isWordChar = rest := by
  rw [List.dropWhile_append_of_pos chars]
  cases rest with
  | nil => rfl
  | cons c rest => exact List.dropWhile_cons_of_neg (parted c rfl)

/-- a run of letters and digits is one word if none of them follows it -/
theorem next_run {word rest : List Char} (ne : word ≠ []) (chars : ∀ c ∈ word, isWordChar c)
    (parted : ∀ c ∈ rest.head?, ¬ isWordChar c) : next (word ++ rest) = .ok (wordToken word, rest) := by
  obtain ⟨c, more, rfl⟩ := List.exists_cons_of_ne_nil ne
  obtain ⟨first, others⟩ := List.forall_mem_cons.1 chars
  rw [List.cons_append, next_word first, takeWhile_run others parted, dropWhile_run others parted]

/-- a text ends at the first mark of the kind that opened it -/
theorem quoted_append {q : Quote} {value : String} (free : q.mark ∉ value.toList) (rest : List Char) :
    quoted q (value.toList ++ q.mark :: rest) = .ok (.text value, rest) := by
  have inside : ∀ c ∈ value.toList, c != q.mark := by
    intro c mem
    exact bne_iff_ne.2 (ne_of_mem_of_not_mem mem free)
  have left : (q.mark :: rest).dropWhile (· != q.mark) = q.mark :: rest := List.dropWhile_cons_of_neg (by simp)
  have taken : (q.mark :: rest).takeWhile (· != q.mark) = [] := List.takeWhile_cons_of_neg (by simp)
  rw [quoted, List.dropWhile_append_of_pos inside, List.takeWhile_append_of_pos inside, left, taken, List.append_nil,
    String.ofList_toList]

/-- **A token that is written down is read back**, behind any blanks and in front of anything that does not go on with
the same word. -/
theorem next_of_writes {t : Token} {gap written rest : List Char} (blank : ∀ c ∈ gap, isBlank c) (regular : t.Regular)
    (writes : t.Writes written) (parted : t.IsWord → ∀ c ∈ rest.head?, ¬ isWordChar c) :
    next (gap ++ (written ++ rest)) = .ok (t, rest) := by
  rw [next_blanks blank]
  by_cases isWord : t.IsWord
  · obtain ⟨ne, chars⟩ := isWordChar_of_writes isWord regular writes
    rw [next_run ne chars (parted isWord), wordToken_of_writes isWord regular writes]
  · cases t with
    | keyword | symbol | integer => exact absurd trivial isWord
    | text value =>
      obtain ⟨q, free, rfl⟩ := writes
      have opened : next (q.mark :: (value.toList ++ q.mark :: rest)) = quoted q (value.toList ++ q.mark :: rest) := by
        cases q <;> rfl
      rw [List.cons_append, List.append_assoc, List.singleton_append, opened, quoted_append free]
    | bang | unknown | eof => cases writes
    | _ =>
      cases writes
      rfl

/-! ## Regular tokens -/

theorem regular_quoted {q : Quote} {cs left : List Char} {t : Token} (h : quoted q cs = .ok (t, left)) :
    t.Regular := by
  unfold quoted at h
  split at h
  · cases h
  · cases h
    intro both
    have := both q
    rw [String.toList_ofList] at this
    simpa using List.mem_takeWhile_imp this

theorem regular_minus (cs : List Char) : (minus cs).1.Regular := by
  unfold minus
  split
  · rename_i n found
    show n ≤ (maxInteger : Int)
    unfold negative? at found
    split at found
    · split at found
      · cases found
        omega
      · cases found
    · cases found
  · trivial

theorem regular_mark {c : Char} {rest left : List Char} {t : Token} (h : mark c rest = .ok (t, left)) :
    t.Regular := by
  unfold mark at h
  split at h
  case h_6 => exact regular_quoted h
  case h_7 => exact regular_quoted h
  case h_8 =>
    split at h <;> cases h <;> trivial
  case h_9 =>
    have made : (minus rest).1 = t := congrArg Prod.fst (Except.ok.inj h)
    exact made ▸ regular_minus rest
  all_goals cases h; trivial

/-- **Every token that is read is regular.** -/
theorem regular_next {cs left : List Char} {t : Token} (h : next cs = .ok (t, left)) : t.Regular := by
  unfold next at h
  split at h
  · cases h
    trivial
  · rename_i c rest _
    split at h
    · rename_i first
      cases h
      refine regular_wordToken (List.cons_ne_nil _ _) (List.forall_mem_cons.2 ⟨first, ?_⟩)
      intro d mem
      exact List.mem_takeWhile_imp mem
    · exact regular_mark h

/-! ## All tokens -/

theorem tokensAfter_of_next {cs rest : List Char} {t : Token} (read : List Token) (h : next cs = .ok (t, rest)) :
    tokensAfter read cs = if t = .eof then .ok (t :: read).reverse else tokensAfter (t :: read) rest := by
  rw [tokensAfter]
  split
  · rename_i failed
    rw [h] at failed
    cases failed
  · rename_i found
    rw [h] at found
    cases found
    rfl

/-- a spelling is cut into the tokens that it spells, and an `eof`: by induction on the spelling, one token a step -/
theorem tokensAfter_spelling {ts : List Token} {cs : List Char} (spelling : Spelling ts cs)
    (regular : ∀ t ∈ ts, t.Regular) (read : List Token) :
    tokensAfter read cs = .ok (read.reverse ++ ts ++ [.eof]) := by
  induction spelling generalizing read with
  | @done gap blank =>
    have ended : next gap = .ok (.eof, []) := by
      rw [← List.append_nil gap, next_blanks blank, next_nil]
    rw [tokensAfter_of_next read ended, if_pos rfl]
    simp
  | @token gap written rest t ts blank writes parted behind ih =>
    obtain ⟨first, others⟩ := List.forall_mem_cons.1 regular
    have notEof : t ≠ .eof := by
      rintro rfl
      cases writes
    rw [tokensAfter_of_next read (next_of_writes blank first writes parted), if_neg notEof, ih others]
    simp

theorem tokens_of_spelling {ts : List Token} {query : String} (spelling : Spelling ts query.toList)
    (regular : ∀ t ∈ ts, t.Regular) : tokens query = .ok (ts ++ [.eof]) :=
  tokensAfter_spelling spelling regular []

/-- all tokens of a text are regular: by induction along the reading -/
theorem regular_tokensAfter (read : List Token) (cs : List Char) (before : ∀ t ∈ read, t.Regular) {ts : List Token}
    (h : tokensAfter read cs = .ok ts) : ∀ t ∈ ts, t.Regular := by
  induction read, cs using tokensAfter.induct with
  | case1 read cs e failed =>
    rw [tokensAfter] at h
    split at h
    · cases h
    · rename_i found
      rw [failed] at found
      cases found
  | case2 read cs rest ended =>
    rw [tokensAfter_of_next read ended, if_pos rfl] at h
    cases h
    intro t mem
    rcases List.mem_cons.1 (List.mem_reverse.1 mem) with rfl | old
    · trivial
    · exact before t old
  | case3 read cs t rest found notEof ih =>
    rw [tokensAfter_of_next read found, if_neg notEof] at h
    exact ih (List.forall_mem_cons.2 ⟨regular_next found, before⟩) h

theorem regular_tokens {query : String} {ts : List Token} (h : tokens query = .ok ts) : ∀ t ∈ ts, t.Regular :=
  regular_tokensAfter [] query.toList (by simp) h

end Lexer
end TableStore
