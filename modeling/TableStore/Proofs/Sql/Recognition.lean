/-
The parser reads exactly what the grammar derives.

Every clause and every statement has a lemma that says when it is read: on the tokens of a derivation, with the
derivation's meaning as the answer, and with nothing behind it that would belong to it as well.
-/
import Mathlib.Data.List.TakeWhile
import Mathlib.Tactic
import TableStore.Proofs.Sql.Reads

namespace TableStore

namespace Parser
open Grammar

/-! ## Clauses of a select -/

theorem reads_selection {ts rest : List Token} {selection : Selection} :
    Reads Parser.selection ts selection rest ↔
      ∃ tree : SelectList, tree.meaning = selection ∧ ts = tree.tokens ++ rest
        ∧ (tree ≠ .star → kindAt rest ≠ .comma) := by
  simp only [Parser.selection, reads_bind]
  refine ⟨?_, ?_⟩
  · intro h
    obtain ⟨star, mid, accepted, read⟩ := h
    cases star with
    | true =>
      rw [reads_accept_true (by decide)] at accepted
      obtain ⟨rfl, rfl⟩ := reads_pure.1 read
      exact ⟨.star, rfl, accepted, fun ne => absurd rfl ne⟩
    | false =>
      obtain ⟨-, rfl⟩ := reads_accept_false.1 accepted
      simp only [Bool.false_eq_true, if_false, reads_bind, reads_names, reads_pure] at read
      obtain ⟨columns, left, ⟨ne, len, rfl, last⟩, rfl, rfl⟩ := read
      exact ⟨.names ⟨columns, ne, len⟩, rfl, rfl, fun _ => last⟩
  · intro h
    obtain ⟨tree, rfl, rfl, last⟩ := h
    cases tree with
    | star => exact ⟨true, rest, (reads_accept_true (by decide)).2 rfl, reads_pure.2 ⟨rfl, rfl⟩⟩
    | names columns =>
      refine ⟨false, _, reads_accept_false.2 ⟨?_, rfl⟩, ?_⟩
      · obtain ⟨_ | ⟨name, _ | ⟨name', more⟩⟩, ne, len⟩ := columns
        · exact absurd rfl ne
        · simp [SelectList.tokens, separated, symbolTokens, Token.kind]
        · simp [SelectList.tokens, separated, symbolTokens, Token.kind]
      · simp only [Bool.false_eq_true, if_false, reads_bind, reads_names, reads_pure]
        exact ⟨columns.toList, rest, ⟨columns.ne_nil, columns.length_le, rfl, last (by simp)⟩, rfl, rfl⟩

theorem reads_condition {ts rest : List Token} {c : Option Predicate} :
    Reads condition ts c rest ↔ ts = conditionTokens c ++ rest ∧ (c = none → kindAt rest ≠ .keyword .where_) := by
  simp only [condition, reads_bind]
  refine ⟨?_, ?_⟩
  · intro h
    obtain ⟨found, mid, accepted, read⟩ := h
    cases found with
    | false =>
      obtain ⟨ne, rfl⟩ := reads_accept_false.1 accepted
      obtain ⟨rfl, rfl⟩ := reads_pure.1 read
      exact ⟨rfl, fun _ => ne⟩
    | true =>
      rw [reads_accept_true (onlyToken_keyword_ne _)] at accepted
      subst accepted
      simp only [if_true, reads_bind, reads_identifier] at read
      obtain ⟨column, mid, rfl, equal, mid', accepted, read⟩ := read
      cases equal with
      | true =>
        rw [reads_accept_true (by decide)] at accepted
        subst accepted
        simp only [if_true, reads_bind, reads_literal, reads_pure] at read
        obtain ⟨value, left, rfl, rfl, rfl⟩ := read
        exact ⟨rfl, by simp⟩
      | false =>
        obtain ⟨-, rfl⟩ := reads_accept_false.1 accepted
        simp only [Bool.false_eq_true, if_false, reads_bind] at read
        obtain ⟨notEqual, mid', accepted, read⟩ := read
        cases notEqual with
        | true =>
          rw [reads_accept_true (by decide)] at accepted
          subst accepted
          simp only [if_true, reads_bind, reads_literal, reads_pure] at read
          obtain ⟨value, left, rfl, rfl, rfl⟩ := read
          exact ⟨rfl, by simp⟩
        | false => exact (reads_throw.1 read).elim
  · intro h
    obtain ⟨rfl, missing⟩ := h
    cases c with
    | none => exact ⟨false, rest, reads_accept_false.2 ⟨missing rfl, rfl⟩, reads_pure.2 ⟨rfl, rfl⟩⟩
    | some p =>
      cases p with
      | equal column value =>
        refine ⟨true, _, (reads_accept_true (onlyToken_keyword_ne _)).2 rfl, ?_⟩
        simp only [if_true, reads_bind, reads_identifier]
        refine ⟨column, _, rfl, true, _, (reads_accept_true (by decide)).2 rfl, ?_⟩
        simp only [if_true, reads_bind, reads_literal, reads_pure]
        exact ⟨value, rest, rfl, rfl, rfl⟩
      | notEqual column value =>
        refine ⟨true, _, (reads_accept_true (onlyToken_keyword_ne _)).2 rfl, ?_⟩
        simp only [if_true, reads_bind, reads_identifier]
        refine ⟨column, _, rfl, false, _, reads_accept_false.2 ⟨by simp [Token.kind], rfl⟩, ?_⟩
        simp only [Bool.false_eq_true, if_false, reads_bind]
        refine ⟨true, _, (reads_accept_true (by decide)).2 rfl, ?_⟩
        simp only [if_true, reads_bind, reads_literal, reads_pure]
        exact ⟨value, rest, rfl, rfl, rfl⟩

theorem reads_direction {ts rest : List Token} {d : Direction} :
    Reads direction ts d rest ↔ ts = directionToken d :: rest := by
  simp only [direction, reads_bind]
  refine ⟨?_, ?_⟩
  · intro h
    obtain ⟨asc, mid, accepted, read⟩ := h
    cases asc with
    | true =>
      rw [reads_accept_true (onlyToken_keyword_ne _)] at accepted
      obtain ⟨rfl, rfl⟩ := reads_pure.1 read
      exact accepted
    | false =>
      obtain ⟨-, rfl⟩ := reads_accept_false.1 accepted
      simp only [Bool.false_eq_true, if_false, reads_bind] at read
      obtain ⟨desc, mid', accepted, read⟩ := read
      cases desc with
      | true =>
        rw [reads_accept_true (onlyToken_keyword_ne _)] at accepted
        obtain ⟨rfl, rfl⟩ := reads_pure.1 read
        exact accepted
      | false => exact (reads_throw.1 read).elim
  · rintro rfl
    cases d with
    | ascending =>
      exact ⟨true, rest, (reads_accept_true (onlyToken_keyword_ne _)).2 rfl, reads_pure.2 ⟨rfl, rfl⟩⟩
    | descending =>
      refine ⟨false, _, reads_accept_false.2 ⟨by simp [directionToken, Token.kind], rfl⟩, ?_⟩
      simp only [Bool.false_eq_true, if_false, reads_bind]
      exact ⟨true, rest, (reads_accept_true (onlyToken_keyword_ne _)).2 rfl, reads_pure.2 ⟨rfl, rfl⟩⟩

theorem reads_order {ts rest : List Token} {o : Option Order} :
    Reads Parser.order ts o rest ↔ ts = orderTokens o ++ rest ∧ (o = none → kindAt rest ≠ .keyword .order) := by
  simp only [Parser.order, reads_bind]
  refine ⟨?_, ?_⟩
  · intro h
    obtain ⟨found, mid, accepted, read⟩ := h
    cases found with
    | false =>
      obtain ⟨ne, rfl⟩ := reads_accept_false.1 accepted
      obtain ⟨rfl, rfl⟩ := reads_pure.1 read
      exact ⟨rfl, fun _ => ne⟩
    | true =>
      rw [reads_accept_true (onlyToken_keyword_ne _)] at accepted
      subst accepted
      simp only [if_true, reads_bind] at read
      obtain ⟨found, mid', accepted, read⟩ := read
      cases found with
      | false => exact (reads_throw.1 read).elim
      | true =>
        rw [reads_accept_true (onlyToken_keyword_ne _)] at accepted
        subst accepted
        simp only [if_true, reads_bind, reads_peek] at read
        obtain ⟨t, mid, ⟨rfl, rfl⟩, read⟩ := read
        rcases mid with _ | ⟨t, mid⟩
        · simp [reads_map, reads_direction] at read
        · cases t with
          | symbol column =>
            simp only [List.headD_cons, reads_bind, reads_map, reads_identifier, reads_direction, reads_pure] at read
            obtain ⟨_, _, ⟨name, eq, rfl⟩, d, left, rfl, rfl, rfl⟩ := read
            cases eq
            exact ⟨rfl, by simp⟩
          | _ =>
            simp only [List.headD_cons, reads_bind, reads_direction, reads_pure] at read
            obtain ⟨_, _, ⟨rfl, rfl⟩, d, left, eq, rfl, rfl⟩ := read
            rw [eq]
            exact ⟨rfl, by simp⟩
  · intro h
    obtain ⟨rfl, missing⟩ := h
    cases o with
    | none => exact ⟨false, rest, reads_accept_false.2 ⟨missing rfl, rfl⟩, reads_pure.2 ⟨rfl, rfl⟩⟩
    | some o =>
      obtain ⟨_ | column, d⟩ := o
      · refine ⟨true, _, (reads_accept_true (onlyToken_keyword_ne _)).2 rfl, ?_⟩
        simp only [if_true, reads_bind]
        refine ⟨true, _, (reads_accept_true (onlyToken_keyword_ne _)).2 rfl, ?_⟩
        simp only [if_true, reads_bind, reads_peek]
        refine ⟨_, _, ⟨rfl, rfl⟩, ?_⟩
        cases d <;> simp [directionToken, reads_map, reads_direction]
      · refine ⟨true, _, (reads_accept_true (onlyToken_keyword_ne _)).2 rfl, ?_⟩
        simp only [if_true, reads_bind]
        refine ⟨true, _, (reads_accept_true (onlyToken_keyword_ne _)).2 rfl, ?_⟩
        simp only [if_true, reads_bind, reads_peek]
        refine ⟨_, _, ⟨rfl, rfl⟩, ?_⟩
        simp [reads_bind, reads_map, reads_identifier, reads_direction]

/-- limit and offset at the end of a statement -/
theorem reads_slice {ts rest : List Token} {limit offset : Option Nat} (last : kindAt rest = .eof) :
    Reads slice ts (limit, offset) rest ↔
      ∃ tree : Slice, tree.limit? = limit ∧ tree.offset? = offset ∧ ts = tree.tokens ++ rest := by
  simp only [slice, reads_bind, reads_count?]
  refine ⟨?_, ?_⟩
  · intro h
    obtain ⟨first, mid, ⟨rfl, -⟩, read⟩ := h
    cases first with
    | some n =>
      simp only [reads_bind, reads_count?, reads_pure] at read
      obtain ⟨second, left, ⟨rfl, -⟩, eq, rfl⟩ := read
      cases eq
      exact ⟨.limitFirst n offset, rfl, rfl, by simp [Slice.tokens]⟩
    | none =>
      simp only [reads_bind, reads_count?] at read
      obtain ⟨second, left, ⟨rfl, -⟩, read⟩ := read
      cases second with
      | some n =>
        simp only [reads_bind, reads_count?, reads_pure] at read
        obtain ⟨third, left, ⟨rfl, -⟩, eq, rfl⟩ := read
        cases eq
        exact ⟨.offsetFirst n limit, rfl, rfl, by simp [Slice.tokens, countTokens]⟩
      | none =>
        obtain ⟨eq, rfl⟩ := reads_pure.1 read
        cases eq
        exact ⟨.none, rfl, rfl, rfl⟩
  · intro h
    obtain ⟨tree, rfl, rfl, rfl⟩ := h
    cases tree with
    | none =>
      refine ⟨none, rest, ⟨rfl, by simp [last]⟩, ?_⟩
      simp only [reads_bind, reads_count?]
      exact ⟨none, rest, ⟨rfl, by simp [last]⟩, reads_pure.2 ⟨rfl, rfl⟩⟩
    | limitFirst n second =>
      refine ⟨some n, _, ⟨rfl, by simp⟩, ?_⟩
      simp only [reads_bind, reads_count?, reads_pure]
      exact ⟨second, rest, ⟨rfl, by simp [last]⟩, rfl, rfl⟩
    | offsetFirst n third =>
      refine ⟨none, _, ⟨rfl, by simp [countTokens, Token.kind, Clause.keyword]⟩, ?_⟩
      simp only [reads_bind, reads_count?]
      refine ⟨some n, _, ⟨rfl, by simp⟩, ?_⟩
      simp only [reads_bind, reads_count?, reads_pure]
      exact ⟨third, rest, ⟨rfl, by simp [last]⟩, rfl, rfl⟩

/-! ## Statements -/

/-- limit and offset begin with their keywords, so what follows them shows which clauses before them are missing -/
theorem kindAt_slice (tree : Slice) {rest : List Token} (last : kindAt rest = .eof) :
    kindAt (tree.tokens ++ rest) ∈ [Token.Kind.keyword .limit, .keyword .offset, .eof] := by
  cases tree <;> simp [Slice.tokens, countTokens, Token.kind, Clause.keyword, last]

theorem kindAt_order (o : Option Order) (tree : Slice) {rest : List Token} (last : kindAt rest = .eof) :
    kindAt (orderTokens o ++ (tree.tokens ++ rest)) ∈
      [Token.Kind.keyword .order, .keyword .limit, .keyword .offset, .eof] := by
  rcases o with _ | ⟨_ | column, d⟩
  · exact List.mem_cons_of_mem _ (kindAt_slice tree last)
  · simp [orderTokens, Token.kind]
  · simp [orderTokens, Token.kind]

theorem reads_select {ts rest : List Token} {s : Select} (last : kindAt rest = .eof) :
    Reads Parser.select ts s rest ↔
      ∃ (selection : SelectList) (tree : Slice), s.selection = selection.meaning ∧ s.limit = tree.limit? ∧
        s.offset = tree.offset? ∧ ts = selection.tokens ++
          .keyword .from_ :: .symbol s.table :: (tailTokens s.condition s.order tree ++ rest) := by
  simp only [Parser.select, keyword, reads_bind, reads_selection, reads_expect (onlyToken_keyword_ne _),
    reads_identifier, reads_condition, reads_order]
  refine ⟨?_, ?_⟩
  · rintro ⟨_, _, ⟨selection, rfl, rfl, -⟩, -, _, rfl, table, _, rfl, c, _, ⟨rfl, -⟩, o, _, ⟨rfl, -⟩, ⟨limit, offset⟩,
      left, sliced, read⟩
    obtain ⟨rfl, rfl⟩ := reads_pure.1 read
    obtain ⟨tree, rfl, rfl, rfl⟩ := (reads_slice last).1 sliced
    exact ⟨selection, tree, rfl, rfl, rfl, by simp [tailTokens, onlyToken]⟩
  · intro h
    obtain ⟨selection, tree, sel, lim, off, rfl⟩ := h
    obtain ⟨_, table, c, o, _, _⟩ := s
    cases sel
    cases lim
    cases off
    refine ⟨_, _, ⟨selection, rfl, rfl, by simp [Token.kind]⟩, (), _, rfl, table, _, rfl, c,
      orderTokens o ++ (tree.tokens ++ rest), ⟨by simp [tailTokens], fun _ h => ?_⟩, o, tree.tokens ++ rest,
      ⟨rfl, fun _ h => ?_⟩, (_, _), rest, (reads_slice last).2 ⟨tree, rfl, rfl, rfl⟩, reads_pure.2 ⟨rfl, rfl⟩⟩
    · have := kindAt_order o tree last
      rw [h] at this
      simp at this
    · have := kindAt_slice tree last
      rw [h] at this
      simp at this

theorem reads_symbols {listing : Listing} {room : Nat} {ts rest : List Token} {xs : List String} :
    Reads (items listing identifier room) ts xs rest ↔
      xs ≠ [] ∧ xs.length ≤ room ∧ ts = separated symbolTokens xs ++ .closeParen :: rest := by
  have one : ∀ ts x rest, Reads identifier ts x rest ↔ True ∧ ts = symbolTokens x ++ rest := by
    simp [reads_identifier, symbolTokens]
  rw [reads_items one]
  simp

theorem reads_texts {listing : Listing} {room : Nat} {ts rest : List Token} {xs : List String} :
    Reads (items listing literal room) ts xs rest ↔
      xs ≠ [] ∧ xs.length ≤ room ∧ ts = separated textTokens xs ++ .closeParen :: rest := by
  have one : ∀ ts x rest, Reads literal ts x rest ↔ True ∧ ts = textTokens x ++ rest := by
    simp [reads_literal, textTokens]
  rw [reads_items one]
  simp

theorem reads_insert {ts rest : List Token} {i : Insert} :
    Reads Parser.insert ts i rest ↔
      ∃ (columns : Option (Items String)) (values : Items String), i.columns = namedColumns columns ∧
        i.values = values.toList ∧ ts = .keyword .into :: .symbol i.table ::
          (columnsTokens columns ++ .keyword .values :: (inParens textTokens values ++ rest)) := by
  simp only [Parser.insert, keyword, reads_bind, reads_expect (onlyToken_keyword_ne _), reads_identifier]
  refine ⟨?_, ?_⟩
  · intro h
    obtain ⟨-, _, rfl, table, _, rfl, parens, mid, accepted, read⟩ := h
    cases parens with
    | true =>
      rw [reads_accept_true (by decide)] at accepted
      subst accepted
      simp only [if_true, reads_bind, reads_symbols, reads_texts, reads_expect (onlyToken_keyword_ne _),
        reads_expect (show onlyToken .openParen ≠ .eof by decide), reads_pure] at read
      obtain ⟨columns, _, ⟨ne, len, rfl⟩, _, _, rfl, _, _, rfl, values, left, ⟨ne', len', rfl⟩, rfl, rfl⟩ := read
      exact ⟨some ⟨columns, ne, len⟩, ⟨values, ne', len'⟩, rfl, rfl, by simp [columnsTokens, inParens, onlyToken]⟩
    | false =>
      obtain ⟨-, rfl⟩ := reads_accept_false.1 accepted
      simp only [Bool.false_eq_true, if_false, reads_bind, reads_texts, reads_expect (onlyToken_keyword_ne _),
        reads_expect (show onlyToken .openParen ≠ .eof by decide), reads_pure] at read
      obtain ⟨_, _, ⟨rfl, rfl⟩, _, _, rfl, _, _, rfl, values, left, ⟨ne', len', rfl⟩, rfl, rfl⟩ := read
      exact ⟨none, ⟨values, ne', len'⟩, rfl, rfl, by simp [columnsTokens, inParens, onlyToken]⟩
  · intro h
    obtain ⟨columns, values, cols, vals, rfl⟩ := h
    obtain ⟨table, _, _⟩ := i
    cases cols
    cases vals
    refine ⟨(), _, rfl, table, _, rfl, ?_⟩
    cases columns with
    | some columns =>
      refine ⟨true, _, (reads_accept_true (by decide)).2 rfl, ?_⟩
      simp only [if_true, reads_bind, reads_symbols, reads_texts, reads_expect (onlyToken_keyword_ne _),
        reads_expect (show onlyToken .openParen ≠ .eof by decide), reads_pure]
      exact ⟨columns.toList, .keyword .values :: (inParens textTokens values ++ rest),
        ⟨columns.ne_nil, columns.length_le, by simp⟩, (), _, rfl, (), _, rfl, values.toList, rest,
        ⟨values.ne_nil, values.length_le, by simp⟩, rfl, rfl⟩
    | none =>
      refine ⟨false, _, reads_accept_false.2 ⟨by simp [columnsTokens, Token.kind], rfl⟩, ?_⟩
      simp only [Bool.false_eq_true, if_false, reads_bind, reads_texts, reads_expect (onlyToken_keyword_ne _),
        reads_expect (show onlyToken .openParen ≠ .eof by decide), reads_pure]
      exact ⟨[], _, ⟨rfl, rfl⟩, (), _, rfl, (), _, rfl, values.toList, rest,
        ⟨values.ne_nil, values.length_le, by simp⟩, rfl, rfl⟩

/-- the type of a column is not chosen: it is `string`, and the keyword for it stands behind the name -/
theorem reads_typedColumn {ts rest : List Token} {x : String × String} :
    Reads typedColumn ts x rest ↔ x.2 = Keyword.string.spelling ∧ ts = columnTokens x.1 ++ rest := by
  simp only [typedColumn, keyword, reads_bind, reads_identifier, reads_expect (onlyToken_keyword_ne _), reads_pure]
  refine ⟨?_, ?_⟩
  · intro h
    obtain ⟨name, _, rfl, -, _, rfl, rfl, rfl⟩ := h
    exact ⟨rfl, rfl⟩
  · intro h
    obtain ⟨type, rfl⟩ := h
    exact ⟨x.1, _, rfl, (), rest, rfl, Prod.ext rfl type, rfl⟩

theorem separated_map {α β : Type} (f : α → β) (item : β → List Token) (xs : List α) :
    separated item (xs.map f) = separated (fun x => item (f x)) xs := by
  induction xs with
  | nil => rfl
  | cons x xs ih =>
    cases xs with
    | nil => rfl
    | cons y xs => simpa [separated] using ih

theorem reads_create {ts rest : List Token} {c : Create} :
    Reads Parser.create ts c rest ↔
      ∃ columns : Items String, c.columns = columns.toList ∧
        c.types = List.replicate columns.toList.length Keyword.string.spelling ∧
        ts = .keyword .table :: .symbol c.table :: (inParens columnTokens columns ++ rest) := by
  simp only [Parser.create, keyword, reads_bind, reads_expect (onlyToken_keyword_ne _), reads_identifier,
    reads_expect (show onlyToken .openParen ≠ .eof by decide), reads_items (fun _ _ _ => reads_typedColumn), reads_pure]
  refine ⟨?_, ?_⟩
  · intro h
    obtain ⟨-, _, rfl, table, _, rfl, -, _, rfl, pairs, left, ⟨ne, len, typed, rfl⟩, rfl, rfl⟩ := h
    refine ⟨⟨pairs.map (·.1), by simpa using ne, by simpa using len⟩, rfl, ?_, ?_⟩
    · refine List.eq_replicate_iff.2 ⟨by simp, fun type mem => ?_⟩
      obtain ⟨x, member, rfl⟩ := List.mem_map.1 mem
      exact typed x member
    · simp [inParens, separated_map, onlyToken]
  · intro h
    obtain ⟨columns, cols, types, rfl⟩ := h
    obtain ⟨table, _, _⟩ := c
    cases cols
    cases types
    refine ⟨(), _, rfl, table, _, rfl, (), _, rfl, columns.toList.map fun name => (name, Keyword.string.spelling), rest,
      ⟨by simpa using columns.ne_nil, by simpa using columns.length_le, by simp, ?_⟩, ?_, rfl⟩
    · simp [separated_map]
    · simp [Function.comp_def]

theorem reads_body {ts rest : List Token} {st : Statement} (last : kindAt rest = .eof) :
    Reads body ts st rest ↔ ∃ tree : Sentence, tree.statement = st ∧ ts = tree.tokens ++ rest := by
  simp only [body, reads_bind, reads_peek]
  refine ⟨?_, ?_⟩
  · intro h
    obtain ⟨t, mid, ⟨rfl, rfl⟩, u, left, passed, read⟩ := h
    rcases mid with _ | ⟨t, mid⟩
    · exact (reads_throw.1 read).elim
    · cases t with
      | keyword k =>
        rw [reads_advance (by simp)] at passed
        subst passed
        cases k with
        | select =>
          simp only [List.headD_cons, reads_map, reads_select last] at read
          obtain ⟨s, ⟨selection, tree, sel, lim, off, rfl⟩, rfl⟩ := read
          refine ⟨.select selection s.table s.condition s.order tree, ?_, by simp [Sentence.tokens]⟩
          simp [Sentence.statement, ← sel, ← lim, ← off]
        | insert =>
          simp only [List.headD_cons, reads_map, reads_insert] at read
          obtain ⟨i, ⟨columns, values, cols, vals, rfl⟩, rfl⟩ := read
          refine ⟨.insert i.table columns values, ?_, by simp [Sentence.tokens]⟩
          simp [Sentence.statement, ← cols, ← vals]
        | create =>
          simp only [List.headD_cons, reads_map, reads_create] at read
          obtain ⟨⟨table, _, _⟩, ⟨columns, rfl, rfl, rfl⟩, rfl⟩ := read
          exact ⟨.create table columns, rfl, by simp [Sentence.tokens]⟩
        | _ => exact (reads_throw.1 read).elim
      | _ => exact (reads_throw.1 read).elim
  · intro h
    obtain ⟨tree, rfl, rfl⟩ := h
    refine ⟨_, _, ⟨rfl, rfl⟩, ?_⟩
    cases tree with
    | select selection table c o tree =>
      refine ⟨(), _, (reads_advance (by simp)).2 rfl, ?_⟩
      simp only [Sentence.tokens, List.cons_append, List.headD_cons, reads_map, reads_select last]
      exact ⟨_, ⟨selection, tree, rfl, rfl, rfl, by simp⟩, rfl⟩
    | insert table columns values =>
      refine ⟨(), _, (reads_advance (by simp)).2 rfl, ?_⟩
      simp only [Sentence.tokens, List.cons_append, List.headD_cons, reads_map, reads_insert]
      exact ⟨_, ⟨columns, values, rfl, rfl, by simp⟩, rfl⟩
    | create table columns =>
      refine ⟨(), _, (reads_advance (by simp)).2 rfl, ?_⟩
      simp only [Sentence.tokens, List.cons_append, List.headD_cons, reads_map, reads_create]
      exact ⟨_, ⟨columns, rfl, rfl, rfl⟩, rfl⟩

/-- a statement is a sentence with an `eof`, or nothing, behind it -/
theorem reads_statement {ts rest : List Token} {st : Statement} :
    Reads statement ts st rest
      ↔ kindAt rest = .eof ∧ ∃ tree : Sentence, tree.statement = st ∧ ts = tree.tokens ++ rest := by
  simp only [statement, reads_bind, reads_expect_eof, reads_pure]
  refine ⟨?_, ?_⟩
  · intro h
    obtain ⟨s, mid, read, -, left, ⟨last, rfl⟩, rfl, rfl⟩ := h
    exact ⟨last, (reads_body last).1 read⟩
  · intro h
    obtain ⟨last, tree⟩ := h
    exact ⟨st, rest, (reads_body last).2 tree, (), rest, ⟨last, rfl⟩, rfl, rfl⟩

/-! ## Nothing is seen behind an `eof` -/

theorem bounded_selection : Bounded Parser.selection := by
  refine bounded_bind (bounded_accept _) fun star => ?_
  split
  · exact bounded_pure _
  · exact bounded_bind (bounded_names _) fun _ => bounded_pure _

theorem bounded_condition : Bounded condition := by
  refine bounded_bind (bounded_accept _) fun found => ?_
  split
  · refine bounded_bind bounded_identifier fun column => bounded_bind (bounded_accept _) fun equal => ?_
    split
    · exact bounded_bind bounded_literal fun _ => bounded_pure _
    · refine bounded_bind (bounded_accept _) fun notEqual => ?_
      split
      · exact bounded_bind bounded_literal fun _ => bounded_pure _
      · exact bounded_throw _
  · exact bounded_pure _

theorem bounded_direction : Bounded direction := by
  refine bounded_bind (bounded_accept _) fun asc => ?_
  split
  · exact bounded_pure _
  · refine bounded_bind (bounded_accept _) fun desc => ?_
    split
    · exact bounded_pure _
    · exact bounded_throw _

theorem bounded_order : Bounded Parser.order := by
  have behind : ∀ column : Option String, 
      Bounded (do return some ({ column, direction := ← direction } : Order)) :=
    fun column => bounded_bind bounded_direction fun _ => bounded_pure _
  refine bounded_bind (bounded_accept _) fun found => ?_
  split
  · refine bounded_bind (bounded_accept _) fun found => ?_
    split
    · refine bounded_bind bounded_peek fun t => ?_
      split
      · exact bounded_bind (bounded_map _ bounded_identifier) behind
      · exact bounded_bind (bounded_pure _) behind
    · exact bounded_bind (bounded_throw _) fun _ => bounded_bind bounded_peek fun t => by
        split
        · exact bounded_bind (bounded_map _ bounded_identifier) behind
        · exact bounded_bind (bounded_pure _) behind
  · exact bounded_pure _

theorem bounded_slice : Bounded slice := by
  refine bounded_bind (bounded_count? _) fun limit => ?_
  split
  · exact bounded_bind (bounded_count? _) fun _ => bounded_pure _
  · refine bounded_bind (bounded_count? _) fun offset => ?_
    split
    · exact bounded_bind (bounded_count? _) fun _ => bounded_pure _
    · exact bounded_pure _

theorem bounded_select : Bounded Parser.select :=
  bounded_bind bounded_selection fun _ => bounded_bind (bounded_expect _) fun _ =>
    bounded_bind bounded_identifier fun _ => bounded_bind bounded_condition fun _ => bounded_bind bounded_order fun _ =>
      bounded_bind bounded_slice fun _ => bounded_pure _

theorem bounded_insert : Bounded Parser.insert := by
  have behind : ∀ (table : String) (columns : List String), Bounded (do
      keyword .values
      expect .openParen
      let values ← items .insertValues literal maxItems
      return ({ table, columns, values } : Insert)) :=
    fun table columns => bounded_bind (bounded_expect _) fun _ => bounded_bind (bounded_expect _) fun _ =>
      bounded_bind (bounded_items _ bounded_literal _) fun _ => bounded_pure _
  refine bounded_bind (bounded_expect _) fun _ => bounded_bind bounded_identifier fun table =>
    bounded_bind (bounded_accept _) fun parens => ?_
  split
  · exact bounded_bind (bounded_items _ bounded_identifier _) (behind table)
  · exact bounded_bind (bounded_pure _) (behind table)

theorem bounded_create : Bounded Parser.create := by
  have typed : Bounded typedColumn :=
    bounded_bind bounded_identifier fun _ => bounded_bind (bounded_expect _) fun _ => bounded_pure _
  exact bounded_bind (bounded_expect _) fun _ => bounded_bind bounded_identifier fun _ =>
    bounded_bind (bounded_expect _) fun _ => bounded_bind (bounded_items _ typed _) fun _ => bounded_pure _

theorem bounded_statement : Bounded statement := by
  refine bounded_bind (bounded_bind bounded_peek fun first => bounded_bind bounded_advance fun _ => ?_) fun _ =>
    bounded_bind (bounded_expect _) fun _ => bounded_pure _
  split
  · exact bounded_map _ bounded_select
  · exact bounded_map _ bounded_insert
  · exact bounded_map _ bounded_create
  · exact bounded_throw _

end Parser

namespace Grammar
open TableStore.Parser

/-! ## Tokens before the first `eof` -/

/-- the tokens that the parser works on: those before the first `eof`, all of them if there is none -/
def beforeEof (ts : List Token) : List Token := ts.takeWhile (· != .eof)

theorem beforeEof_append {ts tail : List Token} (h : .eof ∉ ts) : beforeEof (ts ++ .eof :: tail) = ts := by
  have passed : ∀ t ∈ ts, (t != .eof) = true := by
    intro t mem
    exact bne_iff_ne.2 (ne_of_mem_of_not_mem mem h)
  rw [beforeEof, List.takeWhile_append_of_pos passed]
  simp

/-- closing some tokens puts an `eof` behind those before the first one, and perhaps more behind it -/
theorem closed_eq (ts : List Token) : ∃ tail, Token.closed ts = beforeEof ts ++ .eof :: tail := by
  have split : ts = beforeEof ts ++ ts.dropWhile (· != .eof) := List.takeWhile_append_dropWhile.symm
  cases behind : ts.dropWhile (· != .eof) with
  | nil =>
    rw [behind, List.append_nil] at split
    refine ⟨[], ?_⟩
    have open_ : ts.getLast? ≠ some .eof := by
      intro h
      have := List.dropWhile_eq_nil_iff.1 behind .eof (List.mem_of_getLast? h)
      simp at this
    rw [Token.closed, if_neg open_, ← split]
  | cons t tail =>
    have eof : t = .eof := by
      have := List.head?_dropWhile_not (· != .eof) ts
      rw [behind] at this
      simpa using this
    subst eof
    rw [behind] at split
    rw [Token.closed]
    split_ifs
    · exact ⟨tail, split⟩
    · refine ⟨tail ++ [.eof], ?_⟩
      conv_lhs => rw [split]
      simp

theorem eof_notMem_beforeEof (ts : List Token) : .eof ∉ beforeEof ts := by
  intro h
  have := List.mem_takeWhile_imp h
  simp at this

/-! ## No derivation spells an `eof` -/

theorem eof_notMem_separated {α : Type} {item : α → List Token} (h : ∀ x, .eof ∉ item x) (xs : List α) :
    .eof ∉ separated item xs := by
  induction xs with
  | nil => simp [separated]
  | cons x xs ih =>
    cases xs with
    | nil => exact h x
    | cons y xs => simpa [separated, h x] using ih

theorem eof_notMem_inParens {α : Type} {item : α → List Token} (h : ∀ x, .eof ∉ item x) (items : Items α) :
    .eof ∉ inParens item items := by
  simpa [inParens] using eof_notMem_separated h items.toList

theorem eof_notMem_tail (c : Option Predicate) (o : Option Order) (tree : Slice) : .eof ∉ tailTokens c o tree := by
  have condition : .eof ∉ conditionTokens c := by
    rcases c with _ | _ | _ <;> simp [conditionTokens]
  have order : .eof ∉ orderTokens o := by
    rcases o with _ | ⟨_ | _, _ | _⟩ <;> simp [orderTokens, directionToken]
  have count : ∀ clause n, .eof ∉ countTokens clause n := by
    intro clause n
    cases n <;> simp [countTokens]
  have slice : .eof ∉ tree.tokens := by
    cases tree <;> simp [Slice.tokens, count]
  simp [tailTokens, condition, order, slice]

theorem eof_notMem_tokens (tree : Sentence) : .eof ∉ tree.tokens := by
  have symbols : ∀ name, .eof ∉ symbolTokens name := by simp [symbolTokens]
  have texts : ∀ value, .eof ∉ textTokens value := by simp [textTokens]
  have columns : ∀ name, .eof ∉ columnTokens name := by simp [columnTokens]
  cases tree with
  | select selection table c o tree =>
    have : .eof ∉ selection.tokens := by
      cases selection with
      | star => simp [SelectList.tokens]
      | names columns => exact eof_notMem_separated symbols _
    simp [Sentence.tokens, this, eof_notMem_tail]
  | insert table cols values =>
    have : .eof ∉ columnsTokens cols := by
      cases cols with
      | none => simp [columnsTokens]
      | some cols => exact eof_notMem_inParens symbols cols
    simp [Sentence.tokens, this, eof_notMem_inParens texts]
  | create table cols => simp [Sentence.tokens, eof_notMem_inParens columns]

/-! ## Main results -/

/-- a statement is made of exactly the tokens before the first `eof` -/
theorem ofTokens_eq_ok_iff {ts : List Token} {st : Statement} :
    Statement.ofTokens ts = .ok st ↔ ∃ tree : Sentence, tree.tokens = beforeEof ts ∧ tree.statement = st := by
  obtain ⟨tail, closed⟩ := closed_eq ts
  have reads : Statement.ofTokens ts = .ok st ↔ ∃ rest, Reads statement (Token.closed ts) st rest := by
    show (statement.on (Token.closed ts)).1 = .ok st ↔ _
    refine ⟨fun h => ⟨_, Prod.ext h rfl⟩, fun h => ?_⟩
    obtain ⟨rest, read⟩ := h
    exact congrArg Prod.fst read
  simp only [reads, reads_statement, closed]
  refine ⟨?_, ?_⟩
  · intro h
    obtain ⟨rest, last, tree, rfl, spelled⟩ := h
    refine ⟨tree, ?_, rfl⟩
    rcases rest with _ | ⟨t, rest⟩
    · have := eof_notMem_tokens tree
      rw [List.append_nil] at spelled
      simp [← spelled] at this
    · have eof : t = .eof := by
        cases t <;> first | rfl | cases last
      subst eof
      rw [← beforeEof_append (eof_notMem_tokens tree), ← spelled, beforeEof_append (eof_notMem_beforeEof ts)]
  · intro h
    obtain ⟨tree, spelled, rfl⟩ := h
    exact ⟨.eof :: tail, rfl, tree, rfl, by rw [spelled]⟩

/-- the tokens of a derivation make the statement that it means -/
theorem ofTokens_tokens (tree : Sentence) : Statement.ofTokens tree.tokens = .ok tree.statement := by
  refine ofTokens_eq_ok_iff.2 ⟨tree, ?_, rfl⟩
  rw [beforeEof, List.takeWhile_eq_self_iff.2]
  intro t mem
  exact bne_iff_ne.2 (ne_of_mem_of_not_mem mem (eof_notMem_tokens tree))

theorem items_ext {α : Type} {a b : Items α} (h : a.toList = b.toList) : a = b := by
  cases a
  cases b
  cases h
  rfl

theorem selectList_ext {a b : SelectList} (h : a.meaning = b.meaning) : a = b := by
  cases a with
  | star =>
    cases b with
    | star => rfl
    | names columns => cases h
  | names columns =>
    cases b with
    | star => cases h
    | names columns' =>
      simp only [SelectList.meaning, Selection.columns.injEq] at h
      rw [items_ext h]

/-- a list of columns is never empty, so no list and a list are told apart -/
theorem namedColumns_ext {a b : Option (Items String)} (h : namedColumns a = namedColumns b) : a = b := by
  cases a with
  | none =>
    cases b with
    | none => rfl
    | some columns => exact absurd h.symm columns.ne_nil
  | some columns =>
    cases b with
    | none => exact absurd h columns.ne_nil
    | some columns' => rw [items_ext h]

/-- the order of limit and offset shows in the tokens only -/
theorem slice_ext {a b : Slice} (limit : a.limit? = b.limit?) (offset : a.offset? = b.offset?)
    (tokens : a.tokens = b.tokens) : a = b := by
  cases a <;> cases b <;>
    simp_all [Slice.limit?, Slice.offset?, Slice.tokens, countTokens, Clause.keyword]

/-- **The grammar is unambiguous.** No two derivations spell the same tokens: they mean the same statement, and limit
and offset, the only clauses whose order the statement does not keep, begin with different keywords. -/
theorem tokens_injective {tree tree' : Sentence} (h : tree.tokens = tree'.tokens) : tree = tree' := by
  have same : tree.statement = tree'.statement := by
    have := ofTokens_tokens tree
    rw [h, ofTokens_tokens tree'] at this
    exact (Except.ok.inj this).symm
  cases tree with
  | select selection table c o slice =>
    cases tree' with
    | select selection' table' c' o' slice' =>
      simp only [Sentence.statement, Statement.select.injEq, Select.mk.injEq] at same
      obtain ⟨sel, rfl, rfl, rfl, limit, offset⟩ := same
      cases selectList_ext sel
      have tokens : slice.tokens = slice'.tokens := by
        simpa [Sentence.tokens, tailTokens] using h
      rw [slice_ext limit offset tokens]
    | _ => cases same
  | insert table columns values =>
    cases tree' with
    | insert table' columns' values' =>
      simp only [Sentence.statement, Statement.insert.injEq, Insert.mk.injEq] at same
      obtain ⟨rfl, cols, vals⟩ := same
      rw [namedColumns_ext cols, items_ext vals]
    | _ => cases same
  | create table columns =>
    cases tree' with
    | create table' columns' =>
      simp only [Sentence.statement, Statement.create.injEq, Create.mk.injEq] at same
      obtain ⟨rfl, cols, -⟩ := same
      rw [items_ext cols]
    | _ => cases same

/-- what stands behind the first `eof` changes neither the statement nor the error -/
theorem ofTokens_congr {ts ts' : List Token} (h : beforeEof ts' = beforeEof ts) :
    Statement.ofTokens ts' = Statement.ofTokens ts := by
  obtain ⟨tail, closed⟩ := closed_eq ts
  obtain ⟨tail', closed'⟩ := closed_eq ts'
  obtain ⟨r, left, run⟩ := bounded_statement (beforeEof ts)
  show (statement.on (Token.closed ts')).1 = (statement.on (Token.closed ts)).1
  rw [closed, closed', h, run tail, run tail']

/-- **The parser accepts exactly its grammar.** For all tokens, with or without an `eof`: a statement is returned iff
the tokens before the first `eof` are spelled by a derivation, and it is what the derivation means; if no derivation
spells them, there is an error. The derivation is unique, and tokens behind the first `eof` change nothing, not even
the error. -/
theorem accepts_exactly_sentences (ts : List Token) :
    (∀ st, Statement.ofTokens ts = .ok st ↔ ∃ tree : Sentence, tree.tokens = beforeEof ts ∧ tree.statement = st) ∧
    ((∃ e, Statement.ofTokens ts = .error e) ↔ ¬ ∃ tree : Sentence, tree.tokens = beforeEof ts) ∧
    (∀ tree tree' : Sentence, tree.tokens = beforeEof ts → tree'.tokens = beforeEof ts → tree = tree') ∧
    ∀ ts', beforeEof ts' = beforeEof ts → Statement.ofTokens ts' = Statement.ofTokens ts := by
  refine ⟨fun st => ofTokens_eq_ok_iff, ⟨?_, ?_⟩, ?_, fun ts' => ofTokens_congr⟩
  · intro ⟨e, failed⟩ ⟨tree, spelled⟩
    have := ofTokens_eq_ok_iff.2 ⟨tree, spelled, rfl⟩
    rw [failed] at this
    cases this
  · intro none
    cases result : Statement.ofTokens ts with
    | error e => exact ⟨e, rfl⟩
    | ok st =>
      obtain ⟨tree, spelled, -⟩ := ofTokens_eq_ok_iff.1 result
      exact absurd ⟨tree, spelled⟩ none
  · intro tree tree' spelled spelled'
    exact tokens_injective (spelled.trans spelled'.symm)

end Grammar
end TableStore
