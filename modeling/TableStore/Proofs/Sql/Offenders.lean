/-
Where rejected tokens go wrong.

A rejected statement has a first impossible token: what stands before it is the beginning of a statement, and together
with it is not. The error depends on nothing behind that token.

Most errors are about the kind of a token (`QueryError.Plain`), which is the offending one. The other two come late: a
list is found too long, and a count negative, when the comma and the number are already passed. `Culprit pre t e` says
which token `t` that is, and what stands before it:
- `Full`: a list with as many entries as it may have, spelled from its opening on;
- `Counting`: a select up to the keyword of `limit` or `offset`.
`fails_statement` finds the culprit of every such error, and `Culprit.viable` and `Culprit.refused` show that it is one.

Results:
  rejected_at_first_impossible   every rejection is at the first impossible token, with an error that nothing behind it
                                 changes; for lists that are too long it is the comma behind the last allowed entry,
                                 and for negative counts the number.
-/
import Mathlib.Tactic
import TableStore.Proofs.Sql.Prospects

namespace TableStore

namespace Grammar
open TableStore.Parser

/-- the tokens of one entry of a list -/
def entryTokens : Listing → String → List Token
  | .selection | .insertColumns => symbolTokens
  | .insertValues => textTokens
  | .tableColumns => columnTokens

/-- the tokens in front of the first entry of a list -/
inductive Opening : Listing → List Token → Prop
  | selection : Opening .selection [.keyword .select]
  | insertColumns (table : String) :
    Opening .insertColumns [.keyword .insert, .keyword .into, .symbol table, .openParen]
  | insertValues (table : String) (columns : Option (Items String)) :
    Opening .insertValues (.keyword .insert :: .keyword .into :: .symbol table ::
      (columnsTokens columns ++ [.keyword .values, .openParen]))
  | tableColumns (table : String) :
    Opening .tableColumns [.keyword .create, .keyword .table, .symbol table, .openParen]

/-- tokens that end behind the last entry that a list may have -/
def Full (listing : Listing) (ts : List Token) : Prop :=
  ∃ opening entries, Opening listing opening ∧ entries.length = maxItems ∧
    ts = opening ++ separated (entryTokens listing) entries

/-- tokens of a select that end with the keyword of a clause with a count -/
def Counting (clause : Clause) (ts : List Token) : Prop :=
  ∃ (selection : SelectList) (table : String) (condition : Option Predicate) (order : Option Order)
    (other : Option Nat),
    ts = .keyword .select :: (selection.tokens ++ .keyword .from_ :: .symbol table :: (conditionTokens condition ++
      (orderTokens order ++ (countTokens clause.other other ++ [.keyword clause.keyword]))))

/-- the token that cannot follow other tokens, where the error is not about its kind -/
inductive Culprit (pre : List Token) : Token → QueryError → Prop
  | comma {listing : Listing} (full : Full listing pre) : Culprit pre .comma (.tooMany listing)
  | number {clause : Clause} {n : Int} (counting : Counting clause pre) (neg : n < 0) :
    Culprit pre (.integer n) (.negative clause)

end Grammar

namespace Parser
open Grammar

variable {α : Type} {ts : List Token} {e : QueryError}

/-! ## Statements -/

/-- a select fails in its list of columns, at a count, or at the kind of a token -/
theorem fails_select (h : Fails Parser.select ts e) :
    e.Plain ∨ (e = .tooMany .selection ∧
        ∃ entries left, entries.length = maxItems ∧ ts = separated symbolTokens entries ++ .comma :: left) ∨
      ∃ clause n, n < 0 ∧ e = .negative clause ∧ ∃ opening left, Counting clause (.keyword .select :: opening) ∧
        ts = opening ++ .integer n :: left := by
  obtain failed | ⟨selection, mid, read, failed⟩ := fails_bind.1 h
  · obtain ⟨star, mid, accepted, failed⟩ := (fails_bind.1 failed).resolve_left not_fails_accept
    cases star with
    | true => exact (not_fails_pure _ failed).elim
    | false =>
      rw [(reads_accept_false.1 accepted).2] at failed
      exact (fails_names ((fails_map _).1 failed)).imp_right .inl
  obtain ⟨tree, -, spelled, -⟩ := reads_selection.1 read
  rw [spelled]
  obtain failed | ⟨_, mid', read, failed⟩ := fails_bind.1 failed
  · exact .inl (plainly_expect _ _ _ failed)
  rw [(reads_expect (onlyToken_keyword_ne _)).1 read]
  obtain failed | ⟨table, mid'', read, failed⟩ := fails_bind.1 failed
  · exact .inl (plainly_identifier _ _ failed)
  rw [reads_identifier.1 read]
  obtain failed | ⟨c, mid, read, failed⟩ := fails_bind.1 failed
  · exact .inl (plainly_condition _ _ failed)
  rw [(reads_condition.1 read).1]
  obtain failed | ⟨o, mid, read, failed⟩ := fails_bind.1 failed
  · exact .inl (plainly_order _ _ failed)
  rw [(reads_order.1 read).1]
  obtain plain | ⟨clause, other, n, left, negative, neg, spelled⟩ := fails_slice ((fails_map _).1 failed)
  · exact .inl plain
  refine .inr (.inr ?_)
  refine ⟨clause, n, neg, negative, _, left, ⟨tree, table, c, o, other, rfl⟩, ?_⟩
  rw [spelled]
  simp [onlyToken]

theorem selection_tooMany {entries : List String} (len : entries.length = maxItems) (left : List Token) :
    Fails Parser.selection (separated symbolTokens entries ++ .comma :: left) (.tooMany .selection) := by
  have noStar : kindAt (separated symbolTokens entries ++ .comma :: left) ≠ .star := by
    obtain ⟨name, more, rfl⟩ := List.exists_cons_of_length_eq_add_one (n := 99) len
    cases more <;> simp [separated, symbolTokens, Token.kind]
  exact fails_after (reads_accept_false.2 ⟨noStar, rfl⟩) ((fails_map _).2 (names_tooMany (n := 99) len left))

theorem fails_symbols {listing : Listing} (h : Fails (items listing identifier maxItems) ts e) :
    e.Plain ∨ e = .tooMany listing ∧
      ∃ entries left, entries.length = maxItems ∧ ts = separated symbolTokens entries ++ .comma :: left :=
  fails_items (P := fun _ => True) (n := maxItems - 1) (by simp [reads_identifier, symbolTokens])
    plainly_identifier h

theorem fails_texts {listing : Listing} (h : Fails (items listing literal maxItems) ts e) :
    e.Plain ∨ e = .tooMany listing ∧
      ∃ entries left, entries.length = maxItems ∧ ts = separated textTokens entries ++ .comma :: left :=
  fails_items (P := fun _ => True) (n := maxItems - 1) (by simp [reads_literal, textTokens]) plainly_literal h

theorem fails_typedColumns {listing : Listing} (h : Fails (items listing typedColumn maxItems) ts e) :
    e.Plain ∨ e = .tooMany listing ∧
      ∃ entries left, entries.length = maxItems ∧ ts = separated columnTokens entries ++ .comma :: left := by
  have typed : Plainly typedColumn := plainly_bind plainly_identifier fun _ =>
    plainly_bind (plainly_expect _) fun _ => plainly_pure _
  refine (fails_items (fun _ _ _ => reads_typedColumn) typed (n := maxItems - 1) h).imp_right
    fun ⟨tooMany, entries, left, len, spelled⟩ => ⟨tooMany, entries.map (·.1), left, ?_, ?_⟩
  · rw [List.length_map, len]
    rfl
  · rw [spelled, separated_map]

/-- an insert fails in one of its lists, or at the kind of a token -/
theorem fails_insert (h : Fails Parser.insert ts e) :
    e.Plain ∨ ∃ listing, e = .tooMany listing ∧ ∃ opening left, Full listing (.keyword .insert :: opening) ∧
        ts = opening ++ .comma :: left := by
  obtain failed | ⟨_, mid, read, failed⟩ := fails_bind.1 h
  · exact .inl (plainly_expect _ _ _ failed)
  rw [(reads_expect (onlyToken_keyword_ne _)).1 read]
  obtain failed | ⟨table, mid, read, failed⟩ := fails_bind.1 failed
  · exact .inl (plainly_identifier _ _ failed)
  rw [reads_identifier.1 read]
  have values : ∀ {columns : List String} {mid}, Fails (do
      keyword .values
      expect .openParen
      let values ← items .insertValues literal maxItems
      return ({ table, columns, values } : Insert)) mid e →
      e.Plain ∨ e = .tooMany .insertValues ∧ ∃ entries left, entries.length = maxItems ∧
        mid = .keyword .values :: .openParen :: (separated textTokens entries ++ .comma :: left) := by
    intro columns mid h
    obtain failed | ⟨_, mid', read, failed⟩ := fails_bind.1 h
    · exact .inl (plainly_expect _ _ _ failed)
    rw [(reads_expect (onlyToken_keyword_ne _)).1 read]
    obtain failed | ⟨_, mid'', read, failed⟩ := fails_bind.1 failed
    · exact .inl (plainly_expect _ _ _ failed)
    rw [(reads_expect (by decide)).1 read]
    refine (fails_texts ((fails_map _).1 failed)).imp_right fun ⟨tooMany, entries, left, len, spelled⟩ => ?_
    exact ⟨tooMany, entries, left, len, by rw [spelled]; rfl⟩
  obtain ⟨parens, mid', read, failed⟩ := (fails_bind.1 failed).resolve_left not_fails_accept
  cases parens with
  | true =>
    rw [(reads_accept_true (by decide)).1 read]
    obtain failed | ⟨columns, mid, read, failed⟩ := fails_bind.1 failed
    · refine (fails_symbols failed).imp_right fun ⟨tooMany, entries, left, len, spelled⟩ => ?_
      refine ⟨_, tooMany, _, left, ⟨_, entries, .insertColumns table, len, rfl⟩, ?_⟩
      rw [spelled]
      rfl
    · obtain ⟨some, le, spelled⟩ := reads_symbols.1 read
      refine (values failed).imp_right fun ⟨tooMany, entries, left, len, spelled'⟩ => ?_
      refine ⟨_, tooMany, _, left, ⟨_, entries, .insertValues table (.some ⟨columns, some, le⟩), len, rfl⟩, ?_⟩
      rw [spelled, spelled']
      simp [onlyToken, columnsTokens, inParens, entryTokens]
  | false =>
    rw [(reads_accept_false.1 read).2] at failed
    obtain failed | ⟨columns, mid', read, failed⟩ := fails_bind.1 failed
    · exact (not_fails_pure _ failed).elim
    rw [(reads_pure.1 read).2] at failed
    refine (values failed).imp_right fun ⟨tooMany, entries, left, len, spelled⟩ => ?_
    refine ⟨_, tooMany, _, left, ⟨_, entries, .insertValues table none, len, rfl⟩, ?_⟩
    rw [spelled]
    rfl

theorem fails_create (h : Fails Parser.create ts e) :
    e.Plain ∨ e = .tooMany .tableColumns ∧ ∃ opening left, Full .tableColumns (.keyword .create :: opening) ∧
        ts = opening ++ .comma :: left := by
  obtain failed | ⟨_, mid, read, failed⟩ := fails_bind.1 h
  · exact .inl (plainly_expect _ _ _ failed)
  rw [(reads_expect (onlyToken_keyword_ne _)).1 read]
  obtain failed | ⟨table, mid, read, failed⟩ := fails_bind.1 failed
  · exact .inl (plainly_identifier _ _ failed)
  rw [reads_identifier.1 read]
  obtain failed | ⟨_, mid', read, failed⟩ := fails_bind.1 failed
  · exact .inl (plainly_expect _ _ _ failed)
  rw [(reads_expect (by decide)).1 read]
  refine (fails_typedColumns ((fails_map _).1 failed)).imp_right fun ⟨tooMany, entries, left, len, spelled⟩ => ?_
  refine ⟨tooMany, _, left, ⟨_, entries, .tableColumns table, len, rfl⟩, ?_⟩
  rw [spelled]
  rfl

theorem fails_body (h : Fails body ts e) : e.Plain ∨ ∃ pre t left, Culprit pre t e ∧ ts = pre ++ t :: left := by
  obtain ⟨t, mid, read, failed⟩ := (fails_bind.1 h).resolve_left not_fails_peek
  obtain ⟨_, mid', passed, failed⟩ := (fails_bind.1 failed).resolve_left not_fails_advance
  rw [(reads_peek.1 read).2] at passed
  have spelled : ∀ k, t = .keyword k → ts = .keyword k :: mid' := by
    rintro k rfl
    obtain ⟨left, rfl⟩ := (kindAt_eq_iff (onlyToken_keyword_ne k)).1 (congrArg Token.kind (reads_peek.1 read).1).symm
    rw [(reads_advance (by simp [onlyToken])).1 passed]
    rfl
  split at failed
  · rw [spelled _ rfl]
    obtain plain | ⟨rfl, entries, left, len, rfl⟩ | ⟨clause, n, neg, rfl, opening, left, counting, rfl⟩ :=
      fails_select ((fails_map _).1 failed)
    · exact .inl plain
    · exact .inr ⟨_, .comma, left, .comma ⟨_, entries, .selection, len, rfl⟩, rfl⟩
    · exact .inr ⟨_, .integer n, left, .number counting neg, rfl⟩
  · rw [spelled _ rfl]
    obtain plain | ⟨listing, rfl, opening, left, full, rfl⟩ := fails_insert ((fails_map _).1 failed)
    · exact .inl plain
    · exact .inr ⟨_, .comma, left, .comma full, rfl⟩
  · rw [spelled _ rfl]
    obtain plain | ⟨rfl, opening, left, full, rfl⟩ := fails_create ((fails_map _).1 failed)
    · exact .inl plain
    · exact .inr ⟨_, .comma, left, .comma full, rfl⟩
  · exact .inl (plainly_throw (by simp [QueryError.Plain]) _ _ failed)

/-- a statement fails behind tokens that the culprit cannot follow, or at the kind of a token -/
theorem fails_statement (h : Fails statement ts e) :
    e.Plain ∨ ∃ pre t left, Culprit pre t e ∧ ts = pre ++ t :: left := by
  obtain failed | ⟨st, mid, read, failed⟩ := fails_bind.1 h
  · exact fails_body failed
  obtain failed | ⟨_, mid', read', failed⟩ := fails_bind.1 failed
  · exact .inl (plainly_expect _ _ _ failed)
  · exact (not_fails_pure _ failed).elim

/-! ## Culprits -/

theorem reads_keyword (k : Keyword) (rest : List Token) : Reads (keyword k) (.keyword k :: rest) () rest :=
  (reads_expect (onlyToken_keyword_ne k)).2 rfl

theorem reads_openParen (rest : List Token) : Reads (expect .openParen) (.openParen :: rest) () rest :=
  (reads_expect (by decide)).2 rfl

theorem reads_opening (k : Keyword) (rest : List Token) :
    Reads peek (.keyword k :: rest) (.keyword k) (.keyword k :: rest) ∧ Reads advance (.keyword k :: rest) () rest :=
  ⟨reads_peek.2 ⟨rfl, rfl⟩, (reads_advance (by simp)).2 rfl⟩

theorem body_fails_select (h : Fails Parser.select ts e) : Fails body (.keyword .select :: ts) e :=
  fails_after (reads_opening ..).1 (fails_after (reads_opening ..).2 ((fails_map _).2 h))

theorem body_fails_insert (h : Fails Parser.insert ts e) : Fails body (.keyword .insert :: ts) e :=
  fails_after (reads_opening ..).1 (fails_after (reads_opening ..).2 ((fails_map _).2 h))

theorem body_fails_create (h : Fails Parser.create ts e) : Fails body (.keyword .create :: ts) e :=
  fails_after (reads_opening ..).1 (fails_after (reads_opening ..).2 ((fails_map _).2 h))

section FullLists

variable {listing : Listing} {entries : List String}

theorem symbols_tooMany (len : entries.length = maxItems) (left : List Token) :
    Fails (items listing identifier maxItems) (separated symbolTokens entries ++ .comma :: left) (.tooMany listing) :=
  items_tooMany (P := fun _ => True) (n := maxItems - 1) (by simp [reads_identifier, symbolTokens]) (by simp) len
    left

theorem texts_tooMany (len : entries.length = maxItems) (left : List Token) :
    Fails (items listing literal maxItems) (separated textTokens entries ++ .comma :: left) (.tooMany listing) :=
  items_tooMany (P := fun _ => True) (n := maxItems - 1) (by simp [reads_literal, textTokens]) (by simp) len left

theorem typedColumns_tooMany (len : entries.length = maxItems) (left : List Token) :
    Fails (items listing typedColumn maxItems) (separated columnTokens entries ++ .comma :: left)
      (.tooMany listing) := by
  have typed_len : (entries.map fun name => (name, Keyword.string.spelling)).length = maxItems - 1 + 1 := by
    rw [List.length_map, len]
    rfl
  have typed : Fails (items listing typedColumn maxItems) _ (.tooMany listing) :=
    items_tooMany (fun _ _ _ => reads_typedColumn) (by simp) typed_len left
  rwa [separated_map] at typed

end FullLists

/-- what follows a full list is refused at the comma -/
theorem full_fails {listing : Listing} {pre : List Token} (full : Full listing pre) (left : List Token) :
    Fails body (pre ++ .comma :: left) (.tooMany listing) := by
  obtain ⟨opening, entries, opens, len, rfl⟩ := full
  cases opens with
  | selection => exact body_fails_select (fails_first (selection_tooMany len left))
  | insertColumns table =>
    refine body_fails_insert (fails_after (reads_keyword ..) (fails_after (reads_identifier.2 rfl) ?_))
    exact fails_after (a := true) ((reads_accept_true (by decide)).2 rfl) (fails_first (symbols_tooMany len left))
  | insertValues table columns =>
    refine body_fails_insert (fails_after (reads_keyword ..) (fails_after (reads_identifier.2 rfl) ?_))
    have values : ∀ columns : List String, Fails (do
        keyword .values
        expect .openParen
        let values ← items .insertValues literal maxItems
        return ({ table, columns, values } : Insert))
        (.keyword .values :: .openParen :: (separated textTokens entries ++ .comma :: left)) (.tooMany .insertValues) :=
      fun columns => fails_after (reads_keyword ..) (fails_after (reads_openParen _) ((fails_map _).2
        (texts_tooMany len left)))
    cases columns with
    | none =>
      exact fails_after (a := false) (reads_accept_false.2 ⟨by simp [columnsTokens, Token.kind], rfl⟩)
        (fails_after (reads_pure.2 ⟨rfl, rfl⟩) (values _))
    | some columns =>
      refine fails_after (a := true) ((reads_accept_true (by decide)).2 rfl) ?_
      have read : ∀ rest, Reads (items .insertColumns identifier maxItems)
          (separated symbolTokens columns.toList ++ .closeParen :: rest) columns.toList rest :=
        fun rest => reads_symbols.2 ⟨columns.ne_nil, columns.length_le, rfl⟩
      simpa [columnsTokens, inParens, entryTokens] using fails_after (read _) (values _)
  | tableColumns table =>
    refine body_fails_create (fails_after (reads_keyword ..) (fails_after (reads_identifier.2 rfl) ?_))
    exact fails_after (reads_openParen _) ((fails_map _).2 (typedColumns_tooMany len left))

theorem kindAt_counts (clause : Clause) (other : Option Nat) (rest : List Token) :
    kindAt (countTokens clause.other other ++ .keyword clause.keyword :: rest) ∈
      [Token.Kind.keyword .limit, .keyword .offset] := by
  cases clause <;> cases other <;> simp [countTokens, Clause.other, Clause.keyword, Token.kind]

/-- a negative count is refused at the number -/
theorem counting_fails {clause : Clause} {pre : List Token} (counting : Counting clause pre) {n : Int} (neg : n < 0)
    (left : List Token) : Fails body (pre ++ .integer n :: left) (.negative clause) := by
  obtain ⟨tree, table, c, o, other, rfl⟩ := counting
  have counts := kindAt_counts clause other (.integer n :: left)
  generalize tail : countTokens clause.other other ++ .keyword clause.keyword :: .integer n :: left = counted at counts
  have order : Reads Parser.order (orderTokens o ++ counted) o counted := by
    refine reads_order.2 ⟨rfl, fun _ eq => ?_⟩
    rw [eq] at counts
    simp at counts
  have condition : Reads condition (conditionTokens c ++ (orderTokens o ++ counted)) c (orderTokens o ++ counted) := by
    refine reads_condition.2 ⟨rfl, fun _ eq => ?_⟩
    rcases o with _ | ⟨_ | column, d⟩
    · rw [show kindAt counted = _ from eq] at counts
      simp at counts
    · simp [orderTokens, Token.kind] at eq
    · simp [orderTokens, Token.kind] at eq
  have selection : ∀ rest, Reads Parser.selection (tree.tokens ++ .keyword .from_ :: rest) tree.meaning
      (.keyword .from_ :: rest) :=
    fun rest => reads_selection.2 ⟨tree, rfl, rfl, fun _ => by simp [Token.kind]⟩
  have failed : Fails Parser.select
      (tree.tokens ++ .keyword .from_ :: .symbol table :: (conditionTokens c ++ (orderTokens o ++ counted)))
      (.negative clause) :=
    fails_after (selection _) (fails_after (reads_keyword ..) (fails_after (reads_identifier.2 rfl)
      (fails_after condition (fails_after order ((fails_map _).2 (tail ▸ slice_negative clause other neg left))))))
  simpa [← tail] using body_fails_select failed

theorem culprit_fails {pre : List Token} {t : Token} (h : Culprit pre t e) (left : List Token) :
    Fails statement (pre ++ t :: left) e := by
  cases h with
  | comma full => exact fails_first (full_fails full left)
  | number counting neg => exact fails_first (counting_fails counting neg left)

end Parser

namespace Grammar
open TableStore.Parser

theorem Viable.of_tokens {pre : List Token} (tree : Sentence) (tail : List Token) (sized : ∀ t ∈ tail, t.Sized)
    (spelled : tree.tokens = pre ++ tail) : Viable pre :=
  ⟨tail, sized, tree.statement, spelled ▸ ofTokens_tokens tree⟩

theorem Full.viable {listing : Listing} {pre : List Token} (full : Full listing pre) : Viable pre := by
  obtain ⟨opening, entries, opens, len, rfl⟩ := full
  have some : entries ≠ [] := List.ne_nil_of_length_eq_add_one (n := maxItems - 1) len
  cases opens with
  | selection =>
    exact .of_tokens (.select (.names ⟨entries, some, len.le⟩) "a" none none .none) [.keyword .from_, .symbol "a"]
      (by simp [Token.Sized]) (by simp [Sentence.tokens, SelectList.tokens, tailTokens, conditionTokens, orderTokens,
        Slice.tokens, entryTokens])
  | insertColumns table =>
    exact .of_tokens (.insert table (.some ⟨entries, some, len.le⟩) ⟨["a"], by simp, by simp [maxItems]⟩)
      [.closeParen, .keyword .values, .openParen, .text "a", .closeParen] (by simp [Token.Sized])
      (by simp [Sentence.tokens, columnsTokens, inParens, separated, textTokens, entryTokens])
  | insertValues table columns =>
    exact .of_tokens (.insert table columns ⟨entries, some, len.le⟩) [.closeParen] (by simp [Token.Sized])
      (by simp [Sentence.tokens, inParens, entryTokens])
  | tableColumns table =>
    exact .of_tokens (.create table ⟨entries, some, len.le⟩) [.closeParen] (by simp [Token.Sized])
      (by simp [Sentence.tokens, inParens, entryTokens])

theorem Counting.viable {clause : Clause} {pre : List Token} (counting : Counting clause pre) : Viable pre := by
  obtain ⟨selection, table, c, o, other, rfl⟩ := counting
  have sized : ∀ t ∈ [Token.integer 0], t.Sized := by simp [Token.Sized]
  cases clause with
  | limit =>
    cases other with
    | none =>
      exact .of_tokens (.select selection table c o (.limitFirst 0 none)) [.integer 0] sized
        (by simp [Sentence.tokens, tailTokens, Slice.tokens, countTokens, Clause.keyword])
    | some m =>
      exact .of_tokens (.select selection table c o (.offsetFirst m (some 0))) [.integer 0] sized
        (by simp [Sentence.tokens, tailTokens, Slice.tokens, countTokens, Clause.other, Clause.keyword])
  | offset =>
    cases other with
    | none =>
      exact .of_tokens (.select selection table c o (.offsetFirst 0 none)) [.integer 0] sized
        (by simp [Sentence.tokens, tailTokens, Slice.tokens, countTokens, Clause.keyword])
    | some m =>
      exact .of_tokens (.select selection table c o (.limitFirst m (some 0))) [.integer 0] sized
        (by simp [Sentence.tokens, tailTokens, Slice.tokens, countTokens, Clause.other, Clause.keyword])

theorem Culprit.viable {pre : List Token} {t : Token} {e : QueryError} (h : Culprit pre t e) : Viable pre := by
  cases h with
  | comma full => exact full.viable
  | number counting neg => exact counting.viable

theorem Culprit.refused {pre : List Token} {t : Token} {e : QueryError} (h : Culprit pre t e) :
    Refused (pre ++ [t]) e := by
  intro tail
  obtain ⟨behind, closed⟩ := exists_closed_eq (pre ++ [t] ++ tail)
  show (statement.on (Token.closed (pre ++ [t] ++ tail))).1 = _
  rw [closed]
  simpa [Fails] using culprit_fails h (tail ++ behind)

/-! ## The first impossible token -/

theorem viable_nil : Viable [] := Viable.of_tokens (.select .star "a" none none .none)
  [.keyword .select, .star, .keyword .from_, .symbol "a"] (by simp [Token.Sized]) rfl

theorem Viable.not_refused {ts u : List Token} {e : QueryError} (viable : Viable (ts ++ u)) : ¬ Refused ts e := by
  intro refused
  obtain ⟨tail, -, st, accepted⟩ := viable
  have failed := refused (u ++ tail)
  rw [← List.append_assoc, accepted] at failed
  cases failed

/-- no tokens have two first impossible ones -/
theorem take_unique {v : List Token} {j k : Nat} {e e' : QueryError} (viable : Viable (v.take j))
    (refused : Refused (v.take (j + 1)) e) (viable' : Viable (v.take k)) (refused' : Refused (v.take (k + 1)) e') :
    j = k := by
  have before : ∀ {j k : Nat} {e : QueryError}, Refused (v.take (j + 1)) e → Viable (v.take k) → k ≤ j := by
    intro j k e refused viable
    by_contra lt
    obtain ⟨more, spelled⟩ := List.take_prefix_take_left (l := v) (show j + 1 ≤ k by omega)
    rw [← spelled] at viable
    exact viable.not_refused refused
  have := before refused viable'
  have := before refused' viable
  omega

/-- the tokens up to the first `eof` have the error of them all -/
theorem refused_of_error {ts : List Token} {e : QueryError} (h : Statement.ofTokens ts = .error e) :
    Refused ((Token.closed ts).take ((Token.closed ts).idxOf .eof + 1)) e := by
  obtain ⟨tail, closed⟩ := closed_eq ts
  have upTo : (Token.closed ts).take ((Token.closed ts).idxOf .eof + 1) = beforeEof ts ++ [.eof] := by
    rw [closed, List.idxOf_append_of_notMem (eof_notMem_beforeEof ts), List.idxOf_cons_self, Nat.add_zero,
      List.take_length_add_append]
    rfl
  intro more
  rw [upTo, List.append_assoc, ← h]
  exact ofTokens_congr (beforeEof_append (eof_notMem_beforeEof ts))

theorem ofTokens_closed (ts : List Token) : Statement.ofTokens (Token.closed ts) = Statement.ofTokens ts := by
  obtain ⟨tail, closed⟩ := closed_eq ts
  rw [closed]
  exact ofTokens_congr (beforeEof_append (eof_notMem_beforeEof ts))

/-- rejected tokens have a first impossible one, and no error but theirs comes of it -/
theorem exists_first_impossible {ts : List Token} {e : QueryError} (h : Statement.ofTokens ts = .error e) :
    ∃ k ≤ (Token.closed ts).idxOf .eof,
      Viable ((Token.closed ts).take k) ∧ Refused ((Token.closed ts).take (k + 1)) e := by
  classical
  have hopeless : ¬ Viable ((Token.closed ts).take ((Token.closed ts).idxOf .eof + 1)) := fun viable =>
    Viable.not_refused (u := []) (by simpa using viable) (refused_of_error h)
  have some : ∃ k, ¬ Viable ((Token.closed ts).take (k + 1)) := ⟨_, hopeless⟩
  have upToEof : Nat.find some ≤ (Token.closed ts).idxOf .eof := Nat.find_min' some hopeless
  have viable : Viable ((Token.closed ts).take (Nat.find some)) := by
    cases first : Nat.find some with
    | zero => simpa using viable_nil
    | succ j => exact not_not.1 (Nat.find_min some (first ▸ Nat.lt_succ_self j))
  obtain ⟨e', refused⟩ := (viable_or_refused _).resolve_left (Nat.find_spec some)
  have same := refused ((Token.closed ts).drop (Nat.find some + 1))
  rw [List.take_append_drop, ofTokens_closed, h] at same
  cases same
  exact ⟨Nat.find some, upToEof, viable, refused⟩

/-- **An error stands at the first impossible token.** Of rejected tokens, closed by an `eof`, let `k` be the place of
the offending one; it is not behind the first `eof`. The `k` tokens before it are the beginning of a statement, no
statement begins with these and the offending one, and whatever else begins so has exactly the same error. A list that
is too long offends by the comma behind its last allowed entry, a negative count by its number, and nothing else has
these errors. -/
theorem rejected_at_first_impossible {ts : List Token} {e : QueryError} (h : Statement.ofTokens ts = .error e) :
    ∃ k ≤ (Token.closed ts).idxOf .eof,
      Viable ((Token.closed ts).take k) ∧
      (∀ tail st, Statement.ofTokens ((Token.closed ts).take (k + 1) ++ tail) ≠ .ok st) ∧
      (∀ tail, Statement.ofTokens ((Token.closed ts).take (k + 1) ++ tail) = .error e) ∧
      (∀ listing, e = .tooMany listing ↔
        (Token.closed ts)[k]? = some .comma ∧ Full listing ((Token.closed ts).take k)) ∧
      ∀ clause, e = .negative clause ↔
        (∃ n < 0, (Token.closed ts)[k]? = some (.integer n)) ∧ Counting clause ((Token.closed ts).take k) := by
  obtain ⟨k, upToEof, viable, refused⟩ := exists_first_impossible h
  have culprit : ¬ e.Plain → ∃ t, (Token.closed ts)[k]? = some t ∧ Culprit ((Token.closed ts).take k) t e := by
    intro notPlain
    obtain ⟨pre, t, left, culprit, spelled⟩ := (fails_statement h).resolve_left notPlain
    have place : pre.length = k := by
      refine take_unique (v := Token.closed ts) (e := e) ?_ ?_ viable refused
      · simpa [spelled] using culprit.viable
      · rw [spelled, List.take_length_add_append]
        exact culprit.refused
    subst place
    refine ⟨t, by simp [spelled], ?_⟩
    simpa [spelled] using culprit
  have only : ∀ {t : Token} {e' : QueryError}, (Token.closed ts)[k]? = some t →
      Culprit ((Token.closed ts).take k) t e' → e = e' := by
    intro t e' there culprit
    have failed := refused []
    rw [List.take_add_one, there] at failed
    exact Except.error.inj (failed.symm.trans (culprit.refused []))
  refine ⟨k, upToEof, viable, fun tail st accepted => ?_, refused, fun listing => ⟨?_, ?_⟩, fun clause => ⟨?_, ?_⟩⟩
  · rw [refused tail] at accepted
    cases accepted
  · rintro rfl
    obtain ⟨t, there, culprit⟩ := culprit (by simp [QueryError.Plain])
    cases culprit with
    | comma full => exact ⟨there, full⟩
  · rintro ⟨there, full⟩
    exact only there (.comma full)
  · rintro rfl
    obtain ⟨t, there, culprit⟩ := culprit (by simp [QueryError.Plain])
    cases culprit with
    | number counting neg => exact ⟨⟨_, neg, there⟩, counting⟩
  · rintro ⟨⟨n, neg, there⟩, counting⟩
    exact only there (.number counting neg)

/-- of `select a from t limit -1 offset x`, the number offends, and the symbol that no offset can be is not seen -/
theorem rejected_at_first_impossible_minus :
    Statement.ofTokens [.keyword .select, .symbol "a", .keyword .from_, .symbol "t", .keyword .limit, .integer (-1),
        .keyword .offset, .symbol "x"] = .error (.negative .limit)
      ∧ ∃ k ≤ 8, Viable ([.keyword .select, .symbol "a", .keyword .from_, .symbol "t", .keyword .limit, .integer (-1),
          .keyword .offset, .symbol "x", Token.eof].take k)
        ∧ (∃ n < 0, [.keyword .select, .symbol "a", .keyword .from_, .symbol "t", .keyword .limit, .integer (-1),
          .keyword .offset, .symbol "x", Token.eof][k]? = some (.integer n)) := by
  have rejected : Statement.ofTokens [.keyword .select, .symbol "a", .keyword .from_, .symbol "t", .keyword .limit,
      .integer (-1), .keyword .offset, .symbol "x"] = .error (.negative .limit) := rfl
  obtain ⟨k, upToEof, viable, -, -, -, counts⟩ := rejected_at_first_impossible rejected
  exact ⟨rejected, k, upToEof, viable, ((counts .limit).1 rfl).1⟩

end Grammar
end TableStore
