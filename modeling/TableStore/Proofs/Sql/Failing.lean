/-
How parsers fail.

`Fails p ts e`: the parser `p`, given the tokens `ts`, fails with the error `e`. In a sequence the first parser fails,
or it reads and the second one fails on what is left (`fails_bind`).

Most errors are about the kind of the next token (`QueryError.Plain`), and most parsers have no others (`Plainly`). The
two other errors come late, when the token that is too much has been passed:
- a list is found too long behind the comma that follows its last allowed item (`fails_names`, `fails_items`);
- a count is found negative behind its number (`fails_count?`, `fails_slice`).
Each is shown both ways: where the error comes from, and that it comes from there.
-/
import Mathlib.Tactic
import TableStore.Proofs.Sql.Recognition

namespace TableStore

/-- the clause that takes the other count -/
def Clause.other : Clause → Clause
  | .limit => .offset
  | .offset => .limit

/-- an error about the kind of a token, and not about a list that is too long or a count that is negative -/
def QueryError.Plain (e : QueryError) : Prop := (∀ listing, e ≠ .tooMany listing) ∧ ∀ clause, e ≠ .negative clause

namespace Parser
open Grammar

variable {α β : Type} {p : Parser α} {f : α → Parser β} {ts : List Token} {e : QueryError}

/-! ## Failures -/

/-- the parser fails with this error -/
def Fails (p : Parser α) (ts : List Token) (e : QueryError) : Prop := (p.on ts).1 = .error e

theorem fails_bind : Fails (p >>= f) ts e ↔ Fails p ts e ∨ ∃ a mid, Reads p ts a mid ∧ Fails (f a) mid e := by
  simp only [Fails, Reads, on_bind]
  rcases p.on ts with ⟨e' | a, mid⟩
  · simp
  · refine ⟨fun h => .inr ⟨a, mid, rfl, h⟩, fun h => ?_⟩
    rcases h with h | ⟨a', mid', h, h'⟩
    · cases h
    · cases h
      exact h'

theorem fails_first (h : Fails p ts e) : Fails (p >>= f) ts e := fails_bind.2 (.inl h)

theorem fails_after {a : α} {m : List Token} (read : Reads p ts a m) (h : Fails (f a) m e) :
    Fails (p >>= f) ts e :=
  fails_bind.2 (.inr ⟨a, m, read, h⟩)

theorem not_fails_pure (a : α) : ¬ Fails (pure a : Parser α) ts e := fun h => by cases h

theorem fails_throw {e' : QueryError} : Fails (throw e' : Parser α) ts e ↔ e' = e := by
  show (Except.error e' : Except QueryError α) = .error e ↔ _
  simp

theorem fails_map (g : α → β) : Fails (g <$> p) ts e ↔ Fails p ts e := by
  rw [← bind_pure_comp, fails_bind]
  simp [not_fails_pure]

theorem not_fails_peek : ¬ Fails peek ts e := fun h => by cases h

theorem not_fails_advance : ¬ Fails advance ts e := fun h => by cases h

theorem not_fails_accept {kind : Token.Kind} : ¬ Fails (accept kind) ts e := by
  intro h
  rcases fails_bind.1 h with h | ⟨t, mid, -, h⟩
  · exact not_fails_peek h
  · split at h
    · rcases fails_bind.1 h with h | ⟨-, mid, -, h⟩
      · exact not_fails_advance h
      · exact not_fails_pure _ h
    · exact not_fails_pure _ h

/-- all errors of the parser are about the kind of a token -/
def Plainly (p : Parser α) : Prop := ∀ ts e, Fails p ts e → e.Plain

theorem plainly_bind (hp : Plainly p) (hf : ∀ a, Plainly (f a)) : Plainly (p >>= f) := fun ts e h =>
  (fails_bind.1 h).elim (hp ts e) fun ⟨a, mid, _, h⟩ => hf a mid e h

theorem plainly_pure (a : α) : Plainly (pure a : Parser α) := fun _ _ h => (not_fails_pure a h).elim

theorem plainly_throw {e' : QueryError} (plain : e'.Plain) : Plainly (throw e' : Parser α) := fun _ _ h =>
  fails_throw.1 h ▸ plain

theorem plainly_map (g : α → β) (hp : Plainly p) : Plainly (g <$> p) := fun ts e h => hp ts e ((fails_map g).1 h)

theorem plainly_peek : Plainly peek := fun _ _ h => (not_fails_peek h).elim

theorem plainly_advance : Plainly advance := fun _ _ h => (not_fails_advance h).elim

theorem plainly_accept (kind : Token.Kind) : Plainly (accept kind) := fun _ _ h => (not_fails_accept h).elim

theorem expect_fails {kind : Token.Kind} {t : Token} (ne : t.kind ≠ kind) (rest : List Token) :
    Fails (expect kind) (t :: rest) (.unexpected kind t.kind) := by
  refine fails_after (reads_peek.2 ⟨rfl, rfl⟩) ?_
  rw [List.headD_cons, if_neg ne]
  exact fails_throw.2 rfl

theorem plainly_expect (kind : Token.Kind) : Plainly (expect kind) := by
  refine plainly_bind plainly_peek fun t => ?_
  show Plainly (if t.kind = kind then advance else throw _)
  split
  · exact plainly_advance
  · exact plainly_throw (by simp [QueryError.Plain])

theorem plainly_identifier : Plainly identifier := by
  refine plainly_bind plainly_peek fun t => ?_
  split
  · exact plainly_bind plainly_advance fun _ => plainly_pure _
  · exact plainly_throw (by simp [QueryError.Plain])

theorem plainly_literal : Plainly literal := by
  refine plainly_bind plainly_peek fun t => ?_
  split
  · exact plainly_bind plainly_advance fun _ => plainly_pure _
  · exact plainly_throw (by simp [QueryError.Plain])

theorem plainly_integer : Plainly integer := by
  refine plainly_bind plainly_peek fun t => ?_
  split
  · exact plainly_bind plainly_advance fun _ => plainly_pure _
  · exact plainly_throw (by simp [QueryError.Plain])

theorem plainly_condition : Plainly condition := by
  refine plainly_bind (plainly_accept _) fun found => ?_
  split
  · refine plainly_bind plainly_identifier fun column => plainly_bind (plainly_accept _) fun equal => ?_
    split
    · exact plainly_map _ plainly_literal
    · refine plainly_bind (plainly_accept _) fun notEqual => ?_
      split
      · exact plainly_map _ plainly_literal
      · exact plainly_throw (by simp [QueryError.Plain])
  · exact plainly_pure _

theorem plainly_direction : Plainly direction := by
  refine plainly_bind (plainly_accept _) fun asc => ?_
  split
  · exact plainly_pure _
  · refine plainly_bind (plainly_accept _) fun desc => ?_
    split
    · exact plainly_pure _
    · exact plainly_throw (by simp [QueryError.Plain])

theorem plainly_order : Plainly Parser.order := by
  refine plainly_bind (plainly_accept _) fun found => ?_
  split
  · refine plainly_bind (plainly_accept _) fun found => ?_
    split
    case' isFalse => refine plainly_bind (plainly_throw (by simp [QueryError.Plain])) fun _ => ?_
    all_goals
      refine plainly_bind plainly_peek fun t => ?_
      split
      · exact plainly_bind (plainly_map _ plainly_identifier) fun _ => plainly_map _ plainly_direction
      · exact plainly_bind (plainly_pure _) fun _ => plainly_map _ plainly_direction
  · exact plainly_pure _

/-! ## Lists that are too long -/

theorem separated_append_comma {item : α → List Token} (x : α) {xs : List α} (h : xs ≠ []) (left : List Token) :
    separated item (x :: xs) ++ .comma :: left = item x ++ .comma :: (separated item xs ++ .comma :: left) := by
  rw [separated_cons item x h, List.append_assoc, List.cons_append]

/-- a list of columns fails at its first column, or behind it and a comma -/
theorem fails_names_succ {n : Nat} (h : Fails (names (n + 1)) ts e) :
    e.Plain ∨ ∃ name left, ts = .symbol name :: .comma :: left ∧ Fails (names n) left e := by
  obtain h | ⟨name, mid, read, h⟩ := fails_bind.1 h
  · exact .inl (plainly_identifier _ _ h)
  obtain ⟨goesOn, left, accepted, h⟩ := (fails_bind.1 h).resolve_left not_fails_accept
  cases goesOn with
  | false => exact (not_fails_pure _ h).elim
  | true =>
    rw [reads_identifier.1 read, (reads_accept_true (by decide)).1 accepted]
    exact .inr ⟨name, left, rfl, (fails_map _).1 h⟩

theorem names_succ_fails {n : Nat} (name : String) {left : List Token} (h : Fails (names n) left e) :
    Fails (names (n + 1)) (.symbol name :: .comma :: left) e := by
  refine fails_after (reads_identifier.2 rfl) (fails_after (a := true) (m := left) ?_ ((fails_map _).2 h))
  exact (reads_accept_true (by decide)).2 rfl

theorem fails_names {n : Nat} (h : Fails (names (n + 1)) ts e) :
    e.Plain ∨ e = .tooMany .selection ∧
      ∃ entries left, entries.length = n + 1 ∧ ts = separated symbolTokens entries ++ .comma :: left := by
  induction n generalizing ts with
  | zero =>
    refine (fails_names_succ h).imp_right fun ⟨name, left, spelled, h⟩ => ?_
    exact ⟨(fails_throw.1 h).symm, [name], left, rfl, spelled⟩
  | succ n ih =>
    obtain plain | ⟨name, left, spelled, h⟩ := fails_names_succ h
    · exact .inl plain
    refine (ih h).imp_right fun ⟨tooMany, entries, left', len, more⟩ => ?_
    refine ⟨tooMany, name :: entries, left', by simp [len], ?_⟩
    rw [separated_append_comma _ (List.ne_nil_of_length_eq_add_one len), ← more, spelled]
    rfl

theorem names_tooMany {n : Nat} {entries : List String} (len : entries.length = n + 1) (left : List Token) :
    Fails (names (n + 1)) (separated symbolTokens entries ++ .comma :: left) (.tooMany .selection) := by
  induction n generalizing entries with
  | zero =>
    obtain ⟨name, rfl⟩ := List.length_eq_one_iff.1 len
    exact names_succ_fails name (fails_throw.2 rfl)
  | succ n ih =>
    obtain ⟨name, more, rfl⟩ := List.exists_cons_of_length_eq_add_one len
    have more_len : more.length = n + 1 := by simpa using len
    rw [separated_append_comma _ (List.ne_nil_of_length_eq_add_one more_len)]
    exact names_succ_fails name (ih more_len)

section Items

variable {listing : Listing} {item : Parser α} {tokens : α → List Token} {P : α → Prop}

/-- a list between parentheses fails at its first item, or behind it and a comma -/
theorem fails_items_succ (one : ∀ ts x rest, Reads item ts x rest ↔ P x ∧ ts = tokens x ++ rest) (plain : Plainly item)
    {n : Nat} (h : Fails (items listing item (n + 1)) ts e) :
    e.Plain ∨ ∃ x left, ts = tokens x ++ .comma :: left ∧ Fails (items listing item n) left e := by
  obtain h | ⟨x, mid, read, h⟩ := fails_bind.1 h
  · exact .inl (plain _ _ h)
  obtain ⟨closed, mid', accepted, failed⟩ := (fails_bind.1 h).resolve_left not_fails_accept
  cases closed with
  | true => exact (not_fails_pure _ failed).elim
  | false =>
    obtain ⟨-, rfl⟩ := reads_accept_false.1 accepted
    obtain h | ⟨_, left, comma, h⟩ := fails_bind.1 failed
    · exact .inl (plainly_expect _ _ _ h)
    rw [((one ..).1 read).2, (reads_expect (by decide)).1 comma]
    exact .inr ⟨x, left, rfl, (fails_map _).1 h⟩

theorem items_succ_fails (one : ∀ ts x rest, Reads item ts x rest ↔ P x ∧ ts = tokens x ++ rest) {n : Nat} {x : α}
    (ok : P x) {left : List Token} (h : Fails (items listing item n) left e) :
    Fails (items listing item (n + 1)) (tokens x ++ .comma :: left) e := by
  have notClosed : Reads (accept .closeParen) (.comma :: left) false (.comma :: left) :=
    reads_accept_false.2 ⟨by simp [Token.kind], rfl⟩
  refine fails_after ((one ..).2 ⟨ok, rfl⟩) (fails_after notClosed ?_)
  exact fails_after (a := ()) ((reads_expect (by decide)).2 rfl) ((fails_map _).2 h)

theorem fails_items (one : ∀ ts x rest, Reads item ts x rest ↔ P x ∧ ts = tokens x ++ rest) (plain : Plainly item)
    {n : Nat} (h : Fails (items listing item (n + 1)) ts e) :
    e.Plain ∨ e = .tooMany listing ∧
      ∃ entries left, entries.length = n + 1 ∧ ts = separated tokens entries ++ .comma :: left := by
  induction n generalizing ts with
  | zero =>
    refine (fails_items_succ one plain h).imp_right fun ⟨x, left, spelled, h⟩ => ?_
    exact ⟨(fails_throw.1 h).symm, [x], left, rfl, spelled⟩
  | succ n ih =>
    obtain plain | ⟨x, left, spelled, h⟩ := fails_items_succ one plain h
    · exact .inl plain
    refine (ih h).imp_right fun ⟨tooMany, entries, left', len, more⟩ => ?_
    refine ⟨tooMany, x :: entries, left', by simp [len], ?_⟩
    rw [separated_append_comma _ (List.ne_nil_of_length_eq_add_one len), ← more, spelled]

theorem items_tooMany (one : ∀ ts x rest, Reads item ts x rest ↔ P x ∧ ts = tokens x ++ rest) {n : Nat}
    {entries : List α} (all : ∀ x ∈ entries, P x) (len : entries.length = n + 1) (left : List Token) :
    Fails (items listing item (n + 1)) (separated tokens entries ++ .comma :: left) (.tooMany listing) := by
  induction n generalizing entries with
  | zero =>
    obtain ⟨x, rfl⟩ := List.length_eq_one_iff.1 len
    exact items_succ_fails one (all x List.mem_cons_self) (fails_throw.2 rfl)
  | succ n ih =>
    obtain ⟨x, more, rfl⟩ := List.exists_cons_of_length_eq_add_one len
    have more_len : more.length = n + 1 := by simpa using len
    rw [separated_append_comma _ (List.ne_nil_of_length_eq_add_one more_len)]
    have more_all : ∀ y ∈ more, P y := fun y mem => all y (List.mem_cons_of_mem _ mem)
    exact items_succ_fails one (all x List.mem_cons_self) (ih more_all more_len)

end Items

/-! ## Counts that are negative -/

/-- of the integers, the negative ones are refused -/
theorem count_negative {clause : Clause} {n : Int} (neg : n < 0) (rest : List Token) :
    Fails (count clause) (.integer n :: rest) (.negative clause) := by
  refine fails_after (reads_integer.2 rfl) ?_
  rw [if_pos neg]
  exact fails_first (fails_throw.2 rfl)

theorem fails_count {clause : Clause} (h : Fails (count clause) ts e) :
    e.Plain ∨ e = .negative clause ∧ ∃ n left, n < 0 ∧ ts = .integer n :: left := by
  obtain h | ⟨n, left, read, h⟩ := fails_bind.1 h
  · exact .inl (plainly_integer _ _ h)
  by_cases neg : n < 0
  · rw [if_pos neg] at h
    obtain h | ⟨_, left', read', h⟩ := fails_bind.1 h
    · exact .inr ⟨(fails_throw.1 h).symm, n, left, neg, reads_integer.1 read⟩
    · exact (reads_throw.1 read').elim
  · rw [if_neg neg] at h
    exact (not_fails_pure _ h).elim

/-- a clause with a count fails behind its keyword -/
theorem fails_count? {clause : Clause} (h : Fails (count? clause) ts e) :
    e.Plain ∨ e = .negative clause ∧ ∃ n left, n < 0 ∧ ts = .keyword clause.keyword :: .integer n :: left := by
  obtain ⟨found, mid, accepted, h⟩ := (fails_bind.1 h).resolve_left not_fails_accept
  cases found with
  | false => exact (not_fails_pure _ h).elim
  | true =>
    rw [(reads_accept_true (onlyToken_keyword_ne _)).1 accepted]
    refine (fails_count ((fails_map _).1 h)).imp_right fun ⟨negative, n, left, neg, spelled⟩ => ?_
    exact ⟨negative, n, left, neg, by rw [spelled]; rfl⟩

theorem count?_negative {clause : Clause} {n : Int} (neg : n < 0) (left : List Token) :
    Fails (count? clause) (.keyword clause.keyword :: .integer n :: left) (.negative clause) := by
  refine fails_after (a := true) (m := .integer n :: left) ?_ ((fails_map _).2 (count_negative neg left))
  exact (reads_accept_true (onlyToken_keyword_ne _)).2 rfl

theorem fails_slice (h : Fails slice ts e) :
    e.Plain ∨ ∃ clause other n left, e = .negative clause ∧ n < 0 ∧
      ts = countTokens clause.other other ++ .keyword clause.keyword :: .integer n :: left := by
  obtain failed | ⟨limit, mid, read, failed⟩ := fails_bind.1 h
  · refine (fails_count? failed).imp_right fun ⟨negative, n, left, neg, spelled⟩ => ?_
    exact ⟨.limit, none, n, left, negative, neg, spelled⟩
  rw [(reads_count?.1 read).1]
  cases limit with
  | some limit =>
    refine (fails_count? ((fails_map _).1 failed)).imp_right fun ⟨negative, n, left, neg, spelled⟩ => ?_
    exact ⟨.offset, some limit, n, left, negative, neg, by rw [spelled]; rfl⟩
  | none =>
    obtain failed | ⟨offset, mid', read', failed⟩ := fails_bind.1 failed
    · refine (fails_count? failed).imp_right fun ⟨negative, n, left, neg, spelled⟩ => ?_
      exact ⟨.offset, none, n, left, negative, neg, spelled⟩
    rw [(reads_count?.1 read').1]
    cases offset with
    | some offset =>
      refine (fails_count? ((fails_map _).1 failed)).imp_right fun ⟨negative, n, left, neg, spelled⟩ => ?_
      exact ⟨.limit, some offset, n, left, negative, neg, by rw [spelled]; rfl⟩
    | none => exact (not_fails_pure _ failed).elim

theorem slice_negative (clause : Clause) (other : Option Nat) {n : Int} (neg : n < 0) (left : List Token) :
    Fails slice (countTokens clause.other other ++ .keyword clause.keyword :: .integer n :: left)
      (.negative clause) := by
  have noLimit : ∀ rest, Reads (count? .limit) (.keyword .offset :: rest) none (.keyword .offset :: rest) := fun rest =>
    reads_count?.2 ⟨rfl, fun _ => by simp [Token.kind, Clause.keyword]⟩
  cases clause with
  | limit =>
    cases other with
    | none => exact fails_first (count?_negative neg left)
    | some offset =>
      have read : Reads (count? .offset) (countTokens .offset (some offset) ++ .keyword .limit :: .integer n :: left)
          (some offset) (.keyword .limit :: .integer n :: left) := reads_count?.2 ⟨rfl, by simp⟩
      exact fails_after (noLimit _) (fails_after read ((fails_map _).2 (count?_negative neg left)))
  | offset =>
    cases other with
    | none => exact fails_after (noLimit _) (fails_first (count?_negative neg left))
    | some limit =>
      have read : Reads (count? .limit) (countTokens .limit (some limit) ++ .keyword .offset :: .integer n :: left)
          (some limit) (.keyword .offset :: .integer n :: left) := reads_count?.2 ⟨rfl, by simp⟩
      exact fails_after read ((fails_map _).2 (count?_negative neg left))

end Parser
end TableStore
