/-
What the small parsers read: one token, a count, a list.

`Reads p ts a rest`: the parser `p`, given the tokens `ts`, answers `a` and leaves `rest`. Each parser has one lemma
that says when it reads, as an equivalence, so that soundness (what is read was derived) and completeness (what is
derived is read) are the two directions of one statement. A part that may be missing is told from what follows it by
the kind of the next token, `kindAt`.

`Bounded p`: no token behind an `eof` makes a difference to `p`, also where it fails. It is kept by everything that
parsers are made of, because `advance` never passes an `eof`.
-/
import Mathlib.Tactic
import TableStore.Proofs.Sql.Grammar

namespace TableStore

namespace Parser
open Grammar

/-! ## Runs -/

/-- what a parser makes of some tokens, and what it leaves of them -/
def on {α : Type} (p : Parser α) (ts : List Token) : Except QueryError α × List Token := p.run.run ts

/-- the parser answers `a` and leaves `rest` -/
def Reads {α : Type} (p : Parser α) (ts : List Token) (a : α) (rest : List Token) : Prop := p.on ts = (.ok a, rest)

/-- the kind of the next token; behind the last one it is `eof` -/
def kindAt (ts : List Token) : Token.Kind := (ts.headD .eof).kind

@[simp]
theorem kindAt_nil : kindAt [] = .eof := rfl

@[simp]
theorem kindAt_cons (t : Token) (ts : List Token) : kindAt (t :: ts) = t.kind := rfl

theorem on_bind {α β : Type} (p : Parser α) (f : α → Parser β) (ts : List Token) :
    (p >>= f).on ts = match p.on ts with
      | (.ok a, rest) => (f a).on rest
      | (.error e, rest) => (.error e, rest) := by
  simp only [on, ExceptT.run_bind, StateT.run_bind]
  show _ = match (p.run.run ts : Except QueryError α × List Token) with
    | (.ok a, rest) => (f a).run.run rest
    | (.error e, rest) => (.error e, rest)
  rcases (p.run.run ts : Except QueryError α × List Token) with ⟨_ | _, _⟩ <;> rfl

theorem reads_bind {α β : Type} {p : Parser α} {f : α → Parser β} {ts rest : List Token} {b : β} :
    Reads (p >>= f) ts b rest ↔ ∃ a mid, Reads p ts a mid ∧ Reads (f a) mid b rest := by
  simp only [Reads, on_bind]
  rcases p.on ts with ⟨e | a, mid⟩
  · simp
  · constructor
    · intro h
      exact ⟨a, mid, rfl, h⟩
    · intro h
      obtain ⟨a', mid', h, h'⟩ := h
      cases h
      exact h'

theorem reads_pure {α : Type} {a b : α} {ts rest : List Token} :
    Reads (pure a) ts b rest ↔ b = a ∧ rest = ts := by
  show ((.ok a, ts) : Except QueryError α × List Token) = (.ok b, rest) ↔ _
  simp only [Prod.mk.injEq, Except.ok.injEq]
  exact ⟨fun h => ⟨h.1.symm, h.2.symm⟩, fun h => ⟨h.1.symm, h.2.symm⟩⟩

theorem reads_throw {α : Type} {e : QueryError} {b : α} {ts rest : List Token} :
    Reads (throw e : Parser α) ts b rest ↔ False := by
  show ((.error e, ts) : Except QueryError α × List Token) = (.ok b, rest) ↔ _
  simp

theorem reads_map {α β : Type} {p : Parser α} {f : α → β} {ts rest : List Token} {b : β} :
    Reads (f <$> p) ts b rest ↔ ∃ a, Reads p ts a rest ∧ b = f a := by
  rw [← bind_pure_comp, reads_bind]
  simp only [reads_pure]
  refine ⟨?_, ?_⟩
  · intro h
    obtain ⟨a, mid, h, rfl, rfl⟩ := h
    exact ⟨a, h, rfl⟩
  · intro h
    obtain ⟨a, h, rfl⟩ := h
    exact ⟨a, rest, h, rfl, rfl⟩

theorem reads_peek {t : Token} {ts rest : List Token} :
    Reads peek ts t rest ↔ t = ts.headD .eof ∧ rest = ts := by
  show ((.ok (ts.headD .eof), ts) : Except QueryError Token × List Token) = (.ok t, rest) ↔ _
  simp only [Prod.mk.injEq, Except.ok.injEq]
  exact ⟨fun h => ⟨h.1.symm, h.2.symm⟩, fun h => ⟨h.1.symm, h.2.symm⟩⟩

/-! ## One token -/

/-- the only token of a kind, if there is only one and the parser passes it; else `eof` -/
def onlyToken : Token.Kind → Token
  | .openParen => .openParen
  | .closeParen => .closeParen
  | .comma => .comma
  | .equal => .equal
  | .notEqual => .notEqual
  | .bang => .bang
  | .star => .star
  | .keyword k => .keyword k
  | .symbol | .text | .integer | .unknown | .eof => .eof

theorem kind_eq_iff {kind : Token.Kind} {t : Token} (h : onlyToken kind ≠ .eof) :
    t.kind = kind ↔ t = onlyToken kind := by
  refine ⟨?_, ?_⟩
  · rintro rfl
    cases t <;> first | rfl | exact absurd rfl h
  · rintro rfl
    cases kind <;> first | rfl | exact absurd rfl h

theorem reads_advance {u : Unit} {t : Token} {ts rest : List Token} (h : t ≠ .eof) :
    Reads advance (t :: ts) u rest ↔ rest = ts := by
  have run : advance.on (t :: ts) = (.ok (), ts) := by
    cases t <;> first | rfl | exact absurd rfl h
  simp only [Reads, run, Prod.mk.injEq, true_and]
  exact eq_comm

/-- `eof` stays where it is -/
theorem reads_advance_eof {u : Unit} {ts rest : List Token} (h : kindAt ts = .eof) :
    Reads advance ts u rest ↔ rest = ts := by
  have run : advance.on ts = (.ok (), ts) := by
    rcases ts with _ | ⟨t, ts⟩
    · rfl
    · cases t <;> first | rfl | cases h
  simp only [Reads, run, Prod.mk.injEq, true_and]
  exact eq_comm

/-- where the next token has to be of a kind that has only one, it is that token -/
theorem kindAt_eq_iff {kind : Token.Kind} {ts : List Token} (h : onlyToken kind ≠ .eof) :
    kindAt ts = kind ↔ ∃ rest, ts = onlyToken kind :: rest := by
  rcases ts with _ | ⟨t, ts⟩
  · have : kindAt [] ≠ kind := by
      rintro rfl
      exact h rfl
    simpa using this
  · simp [kind_eq_iff h]

theorem reads_accept_true {kind : Token.Kind} {ts rest : List Token} (h : onlyToken kind ≠ .eof) :
    Reads (accept kind) ts true rest ↔ ts = onlyToken kind :: rest := by
  simp only [accept, reads_bind, reads_peek]
  refine ⟨?_, ?_⟩
  · intro h
    obtain ⟨t, mid, ⟨rfl, rfl⟩, read⟩ := h
    split at read
    · rename_i found
      obtain ⟨left, rfl⟩ := (kindAt_eq_iff h).1 found
      obtain ⟨u, mid, passed, read⟩ := reads_bind.1 read
      rw [(reads_advance h).1 passed] at read
      rw [(reads_pure.1 read).2]
    · exact absurd (reads_pure.1 read).1 (by decide)
  · rintro rfl
    refine ⟨_, _, ⟨rfl, rfl⟩, ?_⟩
    rw [List.headD_cons, if_pos ((kind_eq_iff h).2 rfl)]
    exact reads_bind.2 ⟨(), rest, (reads_advance h).2 rfl, reads_pure.2 ⟨rfl, rfl⟩⟩

theorem reads_accept_false {kind : Token.Kind} {ts rest : List Token} :
    Reads (accept kind) ts false rest ↔ kindAt ts ≠ kind ∧ rest = ts := by
  simp only [accept, reads_bind, reads_peek]
  refine ⟨?_, ?_⟩
  · intro h
    obtain ⟨t, mid, ⟨rfl, rfl⟩, read⟩ := h
    split at read
    · obtain ⟨u, mid, -, read⟩ := reads_bind.1 read
      exact absurd (reads_pure.1 read).1 (by decide)
    · rename_i ne
      exact ⟨ne, (reads_pure.1 read).2⟩
  · intro h
    obtain ⟨ne, rfl⟩ := h
    refine ⟨_, _, ⟨rfl, rfl⟩, ?_⟩
    rw [kindAt] at ne
    rw [if_neg ne]
    exact reads_pure.2 ⟨rfl, rfl⟩

theorem reads_expect {kind : Token.Kind} {ts rest : List Token} {u : Unit} (h : onlyToken kind ≠ .eof) :
    Reads (expect kind) ts u rest ↔ ts = onlyToken kind :: rest := by
  simp only [expect, reads_bind, reads_peek]
  refine ⟨?_, ?_⟩
  · intro h
    obtain ⟨t, mid, ⟨rfl, rfl⟩, read⟩ := h
    split at read
    · rename_i found
      obtain ⟨left, rfl⟩ := (kindAt_eq_iff h).1 found
      rw [(reads_advance h).1 read]
    · exact (reads_throw.1 read).elim
  · rintro rfl
    refine ⟨_, _, ⟨rfl, rfl⟩, ?_⟩
    rw [List.headD_cons, if_pos ((kind_eq_iff h).2 rfl)]
    exact (reads_advance h).2 rfl

/-- `eof` is expected without being passed -/
theorem reads_expect_eof {ts rest : List Token} {u : Unit} :
    Reads (expect .eof) ts u rest ↔ kindAt ts = .eof ∧ rest = ts := by
  simp only [expect, reads_bind, reads_peek]
  refine ⟨?_, ?_⟩
  · intro h
    obtain ⟨t, mid, ⟨rfl, rfl⟩, read⟩ := h
    split at read
    · rename_i found
      exact ⟨found, (reads_advance_eof found).1 read⟩
    · exact (reads_throw.1 read).elim
  · intro h
    obtain ⟨found, rfl⟩ := h
    refine ⟨_, _, ⟨rfl, rfl⟩, ?_⟩
    rw [kindAt] at found
    rw [if_pos found]
    exact (reads_advance_eof found).2 rfl

/-- a parser that takes one token with a payload, and refuses every other one where it stands -/
theorem reads_payload {α : Type} {p : Parser α} {wrap : α → Token}
    (taken : ∀ x rest, p.on (wrap x :: rest) = (.ok x, rest))
    (refused : ∀ ts, (∀ x rest, ts ≠ wrap x :: rest) → ∃ e, p.on ts = (.error e, ts)) {ts rest : List Token} {x : α} :
    Reads p ts x rest ↔ ts = wrap x :: rest := by
  refine ⟨?_, ?_⟩
  · intro read
    by_contra ne
    by_cases other : ∃ y left, ts = wrap y :: left
    · obtain ⟨y, left, rfl⟩ := other
      cases (taken y left).symm.trans read
      exact ne rfl
    · obtain ⟨e, failed⟩ := refused ts fun y left eq => other ⟨y, left, eq⟩
      cases failed.symm.trans read
  · rintro rfl
    exact taken x rest

theorem reads_identifier {ts rest : List Token} {name : String} :
    Reads identifier ts name rest ↔ ts = .symbol name :: rest := by
  refine reads_payload (fun _ _ => rfl) fun ts other => ?_
  rcases ts with _ | ⟨t, ts⟩
  · exact ⟨_, rfl⟩
  · cases t <;> first | exact ⟨_, rfl⟩ | exact absurd rfl (other _ _)

theorem reads_literal {ts rest : List Token} {value : String} :
    Reads literal ts value rest ↔ ts = .text value :: rest := by
  refine reads_payload (fun _ _ => rfl) fun ts other => ?_
  rcases ts with _ | ⟨t, ts⟩
  · exact ⟨_, rfl⟩
  · cases t <;> first | exact ⟨_, rfl⟩ | exact absurd rfl (other _ _)

theorem reads_integer {ts rest : List Token} {value : Int} :
    Reads integer ts value rest ↔ ts = .integer value :: rest := by
  refine reads_payload (fun _ _ => rfl) fun ts other => ?_
  rcases ts with _ | ⟨t, ts⟩
  · exact ⟨_, rfl⟩
  · cases t <;> first | exact ⟨_, rfl⟩ | exact absurd rfl (other _ _)

/-! ## Clauses with a count -/

theorem reads_count {clause : Clause} {ts rest : List Token} {n : Nat} :
    Reads (count clause) ts n rest ↔ ts = .integer n :: rest := by
  simp only [count, reads_bind, reads_integer]
  refine ⟨?_, ?_⟩
  · intro h
    obtain ⟨value, mid, rfl, read⟩ := h
    split at read
    · obtain ⟨u, left, thrown, -⟩ := reads_bind.1 read
      exact (reads_throw.1 thrown).elim
    · rename_i nonneg
      obtain ⟨rfl, rfl⟩ := reads_pure.1 read
      rw [Int.toNat_of_nonneg (by omega)]
  · rintro rfl
    refine ⟨n, rest, rfl, ?_⟩
    rw [if_neg (by omega)]
    simp [reads_pure]

theorem onlyToken_keyword_ne (k : Keyword) : onlyToken (.keyword k) ≠ .eof := by
  simp [onlyToken]

/-- a clause with a count is read where its keyword stands, and missing where it does not -/
theorem reads_count? {clause : Clause} {ts rest : List Token} {n : Option Nat} :
    Reads (count? clause) ts n rest ↔
      ts = countTokens clause n ++ rest ∧ (n = none → kindAt rest ≠ .keyword clause.keyword) := by
  simp only [count?, reads_bind]
  refine ⟨?_, ?_⟩
  · intro h
    obtain ⟨found, mid, accepted, read⟩ := h
    cases found with
    | true =>
      rw [reads_accept_true (onlyToken_keyword_ne _)] at accepted
      simp only [if_true, reads_map, reads_count] at read
      obtain ⟨k, rfl, rfl⟩ := read
      exact ⟨accepted, by simp⟩
    | false =>
      obtain ⟨ne, rfl⟩ := reads_accept_false.1 accepted
      obtain ⟨rfl, rfl⟩ := reads_pure.1 read
      exact ⟨rfl, fun _ => ne⟩
  · intro h
    obtain ⟨rfl, missing⟩ := h
    cases n with
    | none => exact ⟨false, rest, reads_accept_false.2 ⟨missing rfl, rfl⟩, reads_pure.2 ⟨rfl, rfl⟩⟩
    | some n =>
      refine ⟨true, .integer n :: rest, (reads_accept_true (onlyToken_keyword_ne _)).2 rfl, ?_⟩
      simp [reads_map, reads_count]

/-! ## Lists -/

theorem separated_cons {α : Type} (item : α → List Token) (x : α) {xs : List α} (h : xs ≠ []) :
    separated item (x :: xs) = item x ++ .comma :: separated item xs := by
  cases xs with
  | nil => exact absurd rfl h
  | cons y rest => rfl

/-- a list up to its closing parenthesis: as many items as there is room for, each of them read by its own parser -/
theorem reads_items {α : Type} {listing : Listing} {item : Parser α} {tokens : α → List Token} {P : α → Prop}
    (one : ∀ ts x rest, Reads item ts x rest ↔ P x ∧ ts = tokens x ++ rest) {room : Nat} {ts rest : List Token}
    {xs : List α} :
    Reads (items listing item room) ts xs rest ↔
      xs ≠ [] ∧ xs.length ≤ room ∧ (∀ x ∈ xs, P x) ∧ ts = separated tokens xs ++ .closeParen :: rest := by
  induction room generalizing ts rest xs with
  | zero =>
    simp only [items, reads_throw, false_iff]
    intro h
    obtain ⟨ne, len, -⟩ := h
    exact ne (List.eq_nil_of_length_eq_zero (Nat.le_zero.1 len))
  | succ room ih =>
    simp only [items, reads_bind, one]
    refine ⟨?_, ?_⟩
    · intro h
      obtain ⟨x, mid, ⟨ok, rfl⟩, closed, mid', accepted, read⟩ := h
      cases closed with
      | true =>
        rw [reads_accept_true (by decide)] at accepted
        obtain ⟨rfl, rfl⟩ := reads_pure.1 read
        subst accepted
        simp [separated, onlyToken, ok]
      | false =>
        obtain ⟨-, rfl⟩ := reads_accept_false.1 accepted
        simp only [Bool.false_eq_true, if_false, reads_bind, reads_expect (show onlyToken .comma ≠ .eof by decide),
          ih, reads_pure] at read
        obtain ⟨-, left, rfl, more, -, ⟨ne, len, all, rfl⟩, rfl, rfl⟩ := read
        refine ⟨by simp, by simpa using len, by simpa [ok] using all, ?_⟩
        simp [separated_cons _ _ ne, onlyToken]
    · intro h
      obtain ⟨ne, len, all, rfl⟩ := h
      rcases xs with _ | ⟨x, more⟩
      · exact absurd rfl ne
      · by_cases last : more = []
        · subst last
          refine ⟨x, .closeParen :: rest, ⟨all x (by simp), rfl⟩, true, rest, ?_, reads_pure.2 ⟨rfl, rfl⟩⟩
          exact (reads_accept_true (by decide)).2 rfl
        · refine ⟨x, .comma :: (separated tokens more ++ .closeParen :: rest), ⟨all x (by simp), ?_⟩, false, _,
            reads_accept_false.2 ⟨by simp [Token.kind], rfl⟩, ?_⟩
          · simp [separated_cons _ _ last]
          · simp only [Bool.false_eq_true, if_false, reads_bind, reads_expect (show onlyToken .comma ≠ .eof by decide),
              ih, reads_pure]
            refine ⟨(), _, rfl, more, rest, ⟨last, by simpa using len, fun y hy => all y (by simp [hy]), rfl⟩, rfl, rfl⟩

/-- the columns of a select: as many as there is room for, up to where no comma follows -/
theorem reads_names {room : Nat} {ts rest : List Token} {columns : List String} :
    Reads (names room) ts columns rest ↔
      columns ≠ [] ∧ columns.length ≤ room ∧ ts = separated symbolTokens columns ++ rest ∧ kindAt rest ≠ .comma := by
  induction room generalizing ts rest columns with
  | zero =>
    simp only [names, reads_throw, false_iff]
    intro h
    obtain ⟨ne, len, -⟩ := h
    exact ne (List.eq_nil_of_length_eq_zero (Nat.le_zero.1 len))
  | succ room ih =>
    simp only [names, reads_bind, reads_identifier]
    refine ⟨?_, ?_⟩
    · intro h
      obtain ⟨name, mid, rfl, goesOn, mid', accepted, read⟩ := h
      cases goesOn with
      | true =>
        rw [reads_accept_true (by decide)] at accepted
        simp only [if_true, reads_bind, ih, reads_pure] at read
        obtain ⟨more, left, ⟨ne, len, rfl, last⟩, rfl, rfl⟩ := read
        subst accepted
        refine ⟨by simp, by simpa using len, ?_, last⟩
        simp [separated_cons _ _ ne, onlyToken, symbolTokens]
      | false =>
        obtain ⟨last, rfl⟩ := reads_accept_false.1 accepted
        obtain ⟨rfl, rfl⟩ := reads_pure.1 read
        exact ⟨by simp, by simp, rfl, last⟩
    · intro h
      obtain ⟨ne, len, rfl, last⟩ := h
      rcases columns with _ | ⟨name, more⟩
      · exact absurd rfl ne
      · by_cases single : more = []
        · subst single
          exact ⟨name, rest, rfl, false, rest, reads_accept_false.2 ⟨last, rfl⟩, reads_pure.2 ⟨rfl, rfl⟩⟩
        · refine ⟨name, .comma :: (separated symbolTokens more ++ rest), ?_, true, _,
            (reads_accept_true (by decide)).2 rfl, ?_⟩
          · simp [separated_cons _ _ single, symbolTokens]
          · simp only [if_true, reads_bind, ih, reads_pure]
            exact ⟨more, rest, ⟨single, by simpa using len, rfl, last⟩, rfl, rfl⟩

/-! ## Nothing is seen behind an `eof` -/

/-- whatever stands behind an `eof`, the parser answers the same and leaves it there -/
def Bounded {α : Type} (p : Parser α) : Prop :=
  ∀ ts, ∃ r left, ∀ tail, p.on (ts ++ .eof :: tail) = (r, left ++ .eof :: tail)

theorem bounded_bind {α β : Type} {p : Parser α} {f : α → Parser β} (hp : Bounded p) (hf : ∀ a, Bounded (f a)) :
    Bounded (p >>= f) := by
  intro ts
  obtain ⟨r, left, run⟩ := hp ts
  cases r with
  | error e => exact ⟨.error e, left, fun tail => by rw [on_bind, run]⟩
  | ok a =>
    obtain ⟨r, left', run'⟩ := hf a left
    exact ⟨r, left', fun tail => by rw [on_bind, run]; exact run' tail⟩

theorem bounded_pure {α : Type} (a : α) : Bounded (pure a : Parser α) := fun ts => ⟨.ok a, ts, fun _ => rfl⟩

theorem bounded_throw {α : Type} (e : QueryError) : Bounded (throw e : Parser α) :=
  fun ts => ⟨.error e, ts, fun _ => rfl⟩

theorem bounded_peek : Bounded peek := by
  intro ts
  cases ts with
  | nil => exact ⟨.ok .eof, [], fun _ => rfl⟩
  | cons t ts => exact ⟨.ok t, t :: ts, fun _ => rfl⟩

theorem bounded_advance : Bounded advance := by
  intro ts
  cases ts with
  | nil => exact ⟨.ok (), [], fun _ => rfl⟩
  | cons t ts =>
    by_cases h : t = .eof
    · subst h
      exact ⟨.ok (), .eof :: ts, fun _ => rfl⟩
    · exact ⟨.ok (), ts, fun tail => (reads_advance h).2 rfl⟩

theorem bounded_map {α β : Type} {p : Parser α} (f : α → β) (hp : Bounded p) : Bounded (f <$> p) := by
  rw [← bind_pure_comp]
  exact bounded_bind hp fun a => bounded_pure _

theorem bounded_accept (kind : Token.Kind) : Bounded (accept kind) := by
  refine bounded_bind bounded_peek fun t => ?_
  split
  · exact bounded_bind bounded_advance fun _ => bounded_pure _
  · exact bounded_pure _

theorem bounded_expect (kind : Token.Kind) : Bounded (expect kind) := by
  refine bounded_bind bounded_peek fun t => ?_
  show Bounded (if t.kind = kind then advance else throw _)
  split
  · exact bounded_advance
  · exact bounded_throw _

theorem bounded_identifier : Bounded identifier := by
  refine bounded_bind bounded_peek fun t => ?_
  split
  · exact bounded_bind bounded_advance fun _ => bounded_pure _
  · exact bounded_throw _

theorem bounded_literal : Bounded literal := by
  refine bounded_bind bounded_peek fun t => ?_
  split
  · exact bounded_bind bounded_advance fun _ => bounded_pure _
  · exact bounded_throw _

theorem bounded_integer : Bounded integer := by
  refine bounded_bind bounded_peek fun t => ?_
  split
  · exact bounded_bind bounded_advance fun _ => bounded_pure _
  · exact bounded_throw _

theorem bounded_count (clause : Clause) : Bounded (count clause) := by
  refine bounded_bind bounded_integer fun n => ?_
  split
  · exact bounded_bind (bounded_throw _) fun _ => bounded_pure _
  · exact bounded_pure _

theorem bounded_count? (clause : Clause) : Bounded (count? clause) := by
  refine bounded_bind (bounded_accept _) fun found => ?_
  split
  · exact bounded_map _ (bounded_count clause)
  · exact bounded_pure _

theorem bounded_items {α : Type} (listing : Listing) {item : Parser α} (h : Bounded item) (room : Nat) :
    Bounded (items listing item room) := by
  induction room with
  | zero => exact bounded_throw _
  | succ room ih =>
    refine bounded_bind h fun x => bounded_bind (bounded_accept _) fun closed => ?_
    split
    · exact bounded_pure _
    · exact bounded_bind (bounded_expect _) fun _ => bounded_bind ih fun _ => bounded_pure _

theorem bounded_names (room : Nat) : Bounded (names room) := by
  induction room with
  | zero => exact bounded_throw _
  | succ room ih =>
    refine bounded_bind bounded_identifier fun x => bounded_bind (bounded_accept _) fun goesOn => ?_
    split
    · exact bounded_bind ih fun _ => bounded_pure _
    · exact bounded_pure _

end Parser
end TableStore
