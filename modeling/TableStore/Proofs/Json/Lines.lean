/-
Records in lines: what is written is read back.

An object in lines has blanks before its keys, before its values and before its end. Readers of tokens pass over them
(`Blanks`). A number ends only with what comes next, which on a line is a comma or the line's end, so what a field's
reader takes is stated up to such a byte (`TakesBefore`). With that the fields of a record are read one after the other,
as those of an object on one line are (`takes_record_lines`).
-/
import Mathlib.Tactic
import TableStore.Proofs.Json.Nested
import TableStore.Proofs.Text.ByteOrder

namespace TableStore.Json.Reading

variable {σ α β : Type}

/-! ## Blanks -/

/-- a reader that passes over blanks before anything else -/
def Blanks (r : Reading α) : Prop := ∀ size b bytes, isBlank b = true → r size (b :: bytes) = r size bytes

theorem blanks_token? : Blanks token? := by
  intro size b bytes blank
  show Except.ok (((b :: bytes).dropWhile isBlank).head?, (b :: bytes).dropWhile isBlank) = _
  rw [List.dropWhile_cons_of_pos blank]
  rfl

theorem Blanks.bind {first : Reading α} (blanks : Blanks first) (next : α → Reading β) : Blanks (first >>= next) := by
  intro size b bytes blank
  rw [bind_apply, bind_apply, blanks size b bytes blank]

theorem blanks_token : Blanks token := blanks_token?.bind _

theorem Blanks.map {r : Reading α} (blanks : Blanks r) (f : α → β) : Blanks (f <$> r) := by
  rw [map_eq_pure_bind]
  exact blanks.bind _

theorem blanks_leading : Blanks leading := blanks_token.bind _

theorem blanks_text : Blanks text := blanks_leading.bind _

theorem blanks_flag : Blanks flag := blanks_leading.bind _

theorem blanks_count (most : Nat) (expected : String) : Blanks (count most expected) := blanks_leading.bind _

theorem blanks_hasKey (isFirst : Bool) : Blanks (hasKey isFirst) := blanks_token?.bind _

theorem blanks_record (name : String) (fields : List (Field σ)) (start : σ) : Blanks (record name fields start) :=
  blanks_token.bind _

theorem Blanks.apply {r : Reading α} (passes : Blanks r) {blanks : Bytes} (all : blanks.all isBlank = true)
    (size : Nat) (bytes : Bytes) : r size (blanks ++ bytes) = r size bytes := by
  induction blanks with
  | nil => rfl
  | cons b blanks ih =>
    rw [List.all_cons, Bool.and_eq_true] at all
    rw [List.cons_append, passes size b _ all.1, ih all.2]

theorem Blanks.takes {r : Reading α} (passes : Blanks r) (blanks : Bytes) (all : blanks.all isBlank = true)
    {bytes : Bytes} {a : α} (h : Takes r bytes a) : Takes r (blanks ++ bytes) a := by
  intro size rest fits
  rw [List.append_assoc] at fits ⊢
  rw [passes.apply all]
  refine h size rest ?_
  rw [List.length_append] at fits
  omega

/-! ## On a line -/

/-- a byte that comes next behind a value: a comma, or the end of the last line -/
def Separates (b : UInt8) : Prop := b = 0x2c ∨ b = 0x0a

/-- a reader takes these bytes for a value if a comma or a line's end comes next -/
def TakesBefore (r : Reading α) (bytes : Bytes) (a : α) : Prop :=
  ∀ (β : Type) (next : α → Reading β) (b : UInt8) (rest : Bytes) (v : β), Separates b →
    Takes (next a) (b :: rest) v → Takes (r >>= next) (bytes ++ b :: rest) v

theorem Takes.before {r : Reading α} {bytes : Bytes} {a : α} (h : Takes r bytes a) : TakesBefore r bytes a :=
  fun _ _ _ _ _ _ others => takes_bind h others

theorem TakesBefore.bind {first : Reading α} {next : α → Reading β} {bytes : Bytes} {a : α} {v : β}
    (h₁ : TakesBefore first bytes a) (h₂ : TakesBefore (next a) [] v) : TakesBefore (first >>= next) bytes v := by
  intro γ others b rest w separates h
  rw [bind_assoc]
  exact h₁ γ _ b rest w separates (h₂ γ others b rest w separates h)

theorem TakesBefore.map {r : Reading α} {bytes : Bytes} {a : α} (h : TakesBefore r bytes a) (f : α → β) :
    TakesBefore (f <$> r) bytes (f a) := by
  rw [map_eq_pure_bind]
  exact h.bind (takes_pure (f a)).before

/-- one blank may stand before a value -/
theorem TakesBefore.behindBlank {r : Reading α} {bytes : Bytes} {a : α} (h : TakesBefore r bytes a)
    (passes : Blanks r) : TakesBefore r (0x20 :: bytes) a := by
  intro γ next b rest v separates others
  exact (passes.bind next).takes [0x20] (by decide) (h γ next b rest v separates others)

theorem takes_next {next : Option UInt8 → Reading α} {b : UInt8} {bytes : Bytes} {a : α}
    (h : Takes (next (some b)) (b :: bytes) a) : Takes (next? >>= next) (b :: bytes) a :=
  fun size rest fits => h size rest fits

/-! ## Numbers -/

/-- the digits of a number: one or more, and no zero before others -/
structure Digits (n : Nat) (bytes : Bytes) : Prop where
  all : ∀ b ∈ bytes, isDigit b = true
  leading : n = 0 ∧ bytes = [0x30] ∨ ∃ b rest, bytes = b :: rest ∧ b ≠ 0x30
  value : ∀ most, n ≤ most → Numeral.absorb most 0 bytes = (n, [])

theorem absorb_append {most n m : Nat} {bytes : Bytes} (h : Numeral.absorb most n bytes = (m, [])) (more : Bytes) :
    Numeral.absorb most n (bytes ++ more) = Numeral.absorb most m more := by
  induction bytes generalizing n with
  | nil =>
    cases h
    rfl
  | cons b bytes ih =>
    simp only [List.cons_append, Numeral.absorb] at h ⊢
    split
    · rename_i fits
      rw [if_pos fits] at h
      exact ih h
    · rename_i large
      rw [if_neg large] at h
      cases h

/-- a digit as a byte -/
theorem utf8_digitChar : ∀ n < 10, Text.utf8 (String.singleton n.digitChar) = [0x30 + UInt8.ofNat n]
    ∧ isDigit (0x30 + UInt8.ofNat n) = true ∧ (0x30 + UInt8.ofNat n - 0x30).toNat = n
    ∧ (0x30 + UInt8.ofNat n = 0x30 → n = 0) := by
  decide

theorem utf8_append (s t : String) : Text.utf8 (s ++ t) = Text.utf8 s ++ Text.utf8 t := by
  simp [Text.utf8]

theorem digits_repr (n : Nat) : Digits n (Text.utf8 n.repr) := by
  induction n using Nat.strongRecOn with
  | _ n ih =>
    rcases Nat.lt_or_ge n 10 with small | large
    · obtain ⟨byte, digit, value, zero⟩ := utf8_digitChar n small
      rw [Nat.repr_of_lt small, byte]
      refine ⟨by simpa using digit, ?_, fun most fits => ?_⟩
      · by_cases nothing : n = 0
        · subst nothing
          exact .inl ⟨rfl, rfl⟩
        · exact .inr ⟨_, [], rfl, fun eq => nothing (zero eq)⟩
      · simp only [Numeral.absorb, value, Nat.mul_zero, Nat.zero_add, if_pos fits]
    · have front := ih (n / 10) (by omega)
      obtain ⟨byte, digit, value, -⟩ := utf8_digitChar (n % 10) (by omega)
      have split : 10 * (n / 10) + n % 10 = n := by omega
      rw [Nat.repr_of_ge large, utf8_append, byte]
      refine ⟨?_, ?_, fun most fits => ?_⟩
      · intro b mem
        rcases List.mem_append.1 mem with before | last
        · exact front.all b before
        · rw [List.mem_singleton.1 last]
          exact digit
      · rcases front.leading with ⟨none, -⟩ | ⟨b, rest, eq, other⟩
        · omega
        · exact .inr ⟨b, rest ++ [0x30 + UInt8.ofNat (n % 10)], by rw [eq, List.cons_append], other⟩
      · rw [absorb_append (front.value most (by omega))]
        simp only [Numeral.absorb, value, split, if_pos fits]

theorem separates_cases {p : UInt8 → Bool} {b : UInt8} (separates : Separates b) (comma : p 0x2c = false)
    (newline : p 0x0a = false) : p b = false := by
  rcases separates with rfl | rfl
  · exact comma
  · exact newline

theorem takesBefore_wholePart {n : Nat} {bytes : Bytes} (digits : Digits n bytes) (ended : Cause) :
    TakesBefore (wholePart ended) bytes bytes := by
  intro γ next b rest v separates h
  have other : isDigit b = false := separates_cases separates (by decide) (by decide)
  rw [wholePart, bind_assoc]
  rcases digits.leading with ⟨-, rfl⟩ | ⟨first, more, rfl, nonzero⟩
  · refine takes_take ?_
    simp only [if_true, bind_assoc]
    refine takes_next ?_
    simp only [Option.any_some, other, Bool.false_eq_true, if_false, pure_bind]
    exact h
  · have digit : isDigit first = true := digits.all first List.mem_cons_self
    refine takes_take ?_
    simp only [if_neg nonzero, if_pos digit, bind_assoc, pure_bind]
    exact takes_while (fun d mem => digits.all d (List.mem_cons_of_mem _ mem)) other h

theorem takesBefore_fractionPart (ended : Cause) : TakesBefore (fractionPart ended) [] [] := by
  intro γ next b rest v separates h
  have point : ¬ some b = some 0x2e := by
    rcases separates with rfl | rfl <;> decide
  rw [fractionPart, bind_assoc]
  refine takes_next ?_
  simp only [if_neg point, pure_bind]
  exact h

theorem takesBefore_exponentPart (ended : Cause) : TakesBefore (exponentPart ended) [] none := by
  intro γ next b rest v separates h
  have letter : (some b).any (fun b => b == 0x65 || b == 0x45) = false := by
    rcases separates with rfl | rfl <;> decide
  rw [exponentPart, bind_assoc]
  refine takes_next ?_
  simp only [letter, Bool.false_eq_true, if_false, pure_bind]
  exact h

theorem takesBefore_numeral {n : Nat} {bytes : Bytes} (digits : Digits n bytes) (ended : Cause) :
    TakesBefore (numeral ended) bytes { whole := bytes } := by
  rw [numeral]
  refine (takesBefore_wholePart digits ended).bind ?_
  refine (takesBefore_fractionPart ended).bind ?_
  exact (takesBefore_exponentPart ended).bind (takes_pure _).before

theorem takesBefore_number {n : Nat} {bytes : Bytes} (digits : Digits n bytes) (fits : n ≤ Numeral.maxWord) :
    TakesBefore (number false) bytes (.integer n) := by
  have whole : Numeral.integer? false { whole := bytes } = some (n : Int) := by
    simp [Numeral.integer?, digits.value _ fits]
  rw [number]
  refine (takesBefore_numeral digits _).bind ?_
  simp only [whole]
  exact (takes_pure _).before

/-- a digit is none of the other bytes that values begin with -/
theorem ne_of_isDigit {b : UInt8} (digit : isDigit b = true) (c : UInt8) (other : isDigit c = false) : ¬ b = c := by
  rintro rfl
  rw [digit] at other
  cases other

theorem scalar_digit {b : UInt8} (digit : isDigit b = true) :
    scalar b = (do return .number (← number false)) := by
  have apart := ne_of_isDigit digit
  rw [scalar, if_neg (apart _ (by decide)), if_neg (apart _ (by decide)), if_neg (apart _ (by decide)),
    if_neg (apart _ (by decide)), if_neg (apart _ (by decide)), if_pos digit]

theorem isBlank_digit {b : UInt8} (digit : isDigit b = true) : isBlank b = false := by
  have apart := ne_of_isDigit digit
  simp [isBlank, apart 0x20 (by decide), apart 0x09 (by decide), apart 0x0a (by decide), apart 0x0d (by decide)]

theorem takesBefore_leading {n : Nat} {bytes : Bytes} (digits : Digits n bytes) (fits : n ≤ Numeral.maxWord) :
    TakesBefore leading bytes (.number (.integer n)) := by
  obtain ⟨b, rest, rfl⟩ : ∃ b rest, bytes = b :: rest := by
    rcases digits.leading with ⟨-, eq⟩ | ⟨b, rest, eq, -⟩
    · exact ⟨_, _, eq⟩
    · exact ⟨_, _, eq⟩
  have digit : isDigit b = true := digits.all b List.mem_cons_self
  have apart := ne_of_isDigit digit
  have number : TakesBefore (scalar b) (b :: rest) (.number (.integer n)) := by
    rw [scalar_digit digit]
    exact (takesBefore_number digits fits).bind (takes_pure _).before
  intro γ next b' rest' v separates h
  rw [leading, bind_assoc]
  refine takes_token (isBlank_digit digit) ?_
  rw [if_neg (apart 0x5b (by decide)), if_neg (apart 0x7b (by decide))]
  exact number γ next b' rest' v separates h

theorem takesBefore_count {n most : Nat} (inside : n ≤ most) (fits : n ≤ Numeral.maxWord) (expected : String) :
    TakesBefore (count most expected) (render (.ofNat n)) n := by
  have written : render (.ofNat n) = Text.utf8 n.repr := rfl
  rw [written, count]
  refine (takesBefore_leading (digits_repr n) fits).bind ?_
  have range : 0 ≤ (n : Int) ∧ (n : Int) ≤ most := ⟨Int.natCast_nonneg n, Int.ofNat_le.2 inside⟩
  simp only [if_pos range, Int.toNat_natCast]
  exact (takes_pure n).before

/-! ## Flags -/

theorem takes_letters (word : Bytes) : Takes (letters word) word () := by
  induction word with
  | nil => exact takes_pure ()
  | cons letter word ih =>
    rw [letters]
    refine takes_take ?_
    simp only [if_true]
    exact ih

theorem takes_flag (b : Bool) : Takes flag (render (.bool b)) b := by
  have leads : Takes leading (render (.bool b)) (.bool b) := by
    rw [leading]
    cases b with
    | true =>
      refine takes_token (by decide) ?_
      exact takes_skip (takes_bind_pure (takes_letters [0x72, 0x75, 0x65]) rfl)
    | false =>
      refine takes_token (by decide) ?_
      exact takes_skip (takes_bind_pure (takes_letters [0x61, 0x6c, 0x73, 0x65]) rfl)
  rw [flag]
  exact takes_bind_pure leads rfl

/-! ## Lines -/

/-- a member on its line -/
def line (member : String × Json) : Bytes := [0x20, 0x20] ++ renderText member.1 ++ [0x3a, 0x20] ++ render member.2

/-- what stands behind the first line: the others, with a comma before each, and the end of the object -/
def linesBehind (members : List (String × Json)) : Bytes :=
  members.flatMap (fun member => 0x2c :: 0x0a :: line member) ++ [0x0a, 0x7d]

theorem renderLines_cons (member : String × Json) (members : List (String × Json)) :
    renderLines (member :: members) = 0x7b :: 0x0a :: line member ++ linesBehind members := by
  have others (member : String × Json) (members : List (String × Json)) :
      [0x2c, 0x0a].intercalate ((member :: members).map line)
        = line member ++ members.flatMap fun member => 0x2c :: 0x0a :: line member := by
    induction members generalizing member with
    | nil => simp
    | cons next members ih =>
      rw [List.map_cons, List.map_cons, List.intercalate_cons_cons, ← List.map_cons, ih next]
      simp
  have lines : renderLines (member :: members)
      = [0x7b, 0x0a] ++ [0x2c, 0x0a].intercalate ((member :: members).map line) ++ [0x0a, 0x7d] := rfl
  rw [lines, others]
  simp [linesBehind]

theorem linesBehind_cases (members : List (String × Json)) :
    ∃ b rest, linesBehind members = b :: rest ∧ Separates b := by
  cases members with
  | nil => exact ⟨_, _, rfl, .inr rfl⟩
  | cons member members => exact ⟨_, _, rfl, .inl rfl⟩

theorem length_linesBehind (members : List (String × Json)) : members.length < (linesBehind members).length := by
  induction members with
  | nil => decide
  | cons member members ih =>
    simp only [linesBehind, List.flatMap_cons, List.length_append, List.length_cons] at ih ⊢
    omega

/-! ## Records -/

/-- as `Fills`, with values on lines -/
inductive FillsLines : List (Field σ) → List (String × Json) → σ → σ → Prop where
  | nil {s} : FillsLines [] [] s s
  | cons {field v s s' fields members filled} : TakesBefore (field.read s) (0x20 :: render v) s' →
      FillsLines fields members s' filled → FillsLines (field :: fields) ((field.name, v) :: members) s filled

theorem FillsLines.optional {name : String} {value : Reading α} {put : σ → α → σ} {fields : List (Field σ)} {v : Json}
    {a : α} {members : List (String × Json)} {s filled : σ} (passes : Blanks value)
    (takes : TakesBefore value (render v) a) (others : FillsLines fields members (put s a) filled) :
    FillsLines (.optional name value put :: fields) ((name, v) :: members) s filled :=
  .cons ((takes.behindBlank passes).bind (takes_pure _).before) others

section Record

variable {all : List (Field σ)}

theorem takesBefore_member {field : Field σ} {st : Fields σ} {v : Json} {s' : σ}
    (found : all.find? (·.name == field.name) = some field) (new : st.names.contains field.name = false)
    (value : TakesBefore (field.read st.value) (0x20 :: render v) s') :
    TakesBefore (member all st) (renderText field.name ++ 0x3a :: 0x20 :: render v)
      (.inl { names := field.name :: st.names, isFirst := false, value := s' }) := by
  intro γ next b rest w separates others
  rw [member, bind_assoc, List.append_assoc]
  refine takes_bind (takes_key field.name) ?_
  simp only [found, new, Bool.false_eq_true, if_false, bind_assoc, pure_bind]
  exact takes_colon (value γ _ b rest w separates others)

/-- blanks may stand before a key, and behind the comma before it -/
theorem takes_hasKey_line {next : Bool → Reading α} {bytes : Bytes} {a : α}
    (h : Takes (next true) (0x22 :: bytes) a) :
    Takes (hasKey true >>= next) (0x0a :: 0x20 :: 0x20 :: 0x22 :: bytes) a :=
  ((blanks_hasKey true).bind next).takes [0x0a, 0x20, 0x20] (by decide) (takes_hasKey_first h)

theorem takes_hasKey_nextLine {next : Bool → Reading α} {bytes : Bytes} {a : α}
    (h : Takes (next true) (0x22 :: bytes) a) :
    Takes (hasKey false >>= next) (0x2c :: 0x0a :: 0x20 :: 0x20 :: 0x22 :: bytes) a := by
  have comma : ¬ (0x2c : UInt8) = 0x7d := by decide
  rw [hasKey, bind_assoc]
  refine takes_token? (by decide) ?_
  simp only [if_neg comma, Bool.false_eq_true, if_false, if_true, bind_assoc]
  refine takes_skip ((blanks_token.bind _).takes [0x0a, 0x20, 0x20] (by decide) (takes_token (by decide) ?_))
  simp only [if_true, pure_bind]
  exact h

theorem takes_fieldRound_lastLine (all : List (Field σ)) (st : Fields σ) :
    Takes (fieldRound all st) [0x0a, 0x7d] (.inr st) :=
  ((blanks_hasKey _).bind _).takes [0x0a] (by decide) (takes_fieldRound_end all st)

theorem takesBefore_fieldRound {field : Field σ} {st : Fields σ} {v : Json} {s' : σ}
    (found : all.find? (·.name == field.name) = some field) (new : st.names.contains field.name = false)
    (value : TakesBefore (field.read st.value) (0x20 :: render v) s') :
    TakesBefore (fieldRound all st)
      ((if st.isFirst then [0x0a] else [0x2c, 0x0a]) ++ line (field.name, v))
      (.inl { names := field.name :: st.names, isFirst := false, value := s' }) := by
  intro γ next b rest w separates others
  have behind := takesBefore_member found new value γ next b rest w separates others
  have whole : line (field.name, v) ++ b :: rest
      = 0x20 :: 0x20 :: (renderText field.name ++ 0x3a :: 0x20 :: render v ++ b :: rest) := by
    simp [line]
  rw [fieldRound_eq, bind_assoc, List.append_assoc, whole]
  cases first : st.isFirst with
  | true =>
    refine takes_hasKey_line ?_
    simp only [if_true]
    exact behind
  | false =>
    refine takes_hasKey_nextLine ?_
    simp only [if_true]
    exact behind

variable (distinct : (all.map (·.name)).Nodup)
include distinct

/-- the rounds behind the first line -/
theorem takes_lines {fields before : List (Field σ)} {members : List (String × Json)} {s filled : σ}
    (fills : FillsLines fields members s filled) (split : all = before ++ fields) {n : Nat}
    (enough : members.length < n) :
    Takes (rounds (fieldRound all) n { names := (before.map (·.name)).reverse, isFirst := false, value := s })
      (linesBehind members) { names := (all.map (·.name)).reverse, isFirst := false, value := filled } := by
  induction fills generalizing before n with
  | nil =>
    obtain ⟨n, rfl⟩ : ∃ m, n = m + 1 := ⟨n - 1, by omega⟩
    rw [split, List.append_nil, rounds]
    exact takes_bind_pure (takes_fieldRound_lastLine _ _) rfl
  | @cons field v s s' fields members filled value _ ih =>
    obtain ⟨n, rfl⟩ : ∃ m, n = m + 1 := ⟨n - 1, by omega⟩
    obtain ⟨found, new⟩ := find_field distinct split
    rw [List.length_cons] at enough
    have others := ih (by simp [split] : all = (before ++ [field]) ++ fields) (Nat.lt_of_succ_lt_succ enough)
    -- the value ends with the comma of the next line, or with the end of this one
    obtain ⟨b, rest, eq, separates⟩ := linesBehind_cases members
    rw [eq] at others
    have lines : linesBehind ((field.name, v) :: members)
        = [0x2c, 0x0a] ++ line (field.name, v) ++ b :: rest := by
      rw [← eq]
      simp [linesBehind]
    rw [lines, rounds]
    refine takesBefore_fieldRound found new value _ _ b rest _ separates ?_
    simpa using others

/-- an object in lines with exactly the fields of a record decodes to what they make of it -/
theorem takes_record_lines (name : String) {member : String × Json} {members : List (String × Json)} {start filled : σ}
    (fills : FillsLines all (member :: members) start filled) :
    Takes (record name all start) (renderLines (member :: members)) filled := by
  have rounds : Takes (loop (fieldRound all) { value := start }) (0x0a :: line member ++ linesBehind members)
      { names := (all.map (·.name)).reverse, isFirst := false, value := filled } := by
    refine takes_loop fun n enough => ?_
    cases fills with
    | @cons field v _ s' fields _ _ value fills =>
      have length := length_linesBehind members
      rw [List.length_append] at enough
      obtain ⟨n, rfl⟩ : ∃ m, n = m + 1 := ⟨n - 1, by omega⟩
      obtain ⟨found, new⟩ := find_field distinct (List.nil_append _).symm
      have first : field :: fields = [field] ++ fields := rfl
      have others := takes_lines distinct fills first (by omega : members.length < n)
      obtain ⟨b, rest, eq, separates⟩ := linesBehind_cases members
      rw [eq] at others ⊢
      rw [Reading.rounds]
      exact takesBefore_fieldRound found new value _ _ b rest _ separates others
  rw [renderLines_cons]
  exact takes_record_object name (takes_fieldsByName rounds)

end Record

end TableStore.Json.Reading
