/-
A beginning of the tokens can be completed, or it is refused, always in the same way.

`Prospect F p ts`: what is known of the parser `p` when it has been given the tokens `ts` and more may come.
- `refused`: it fails with one error, whatever comes;
- `settled`: it has its answer, whatever comes;
- `pending`: it is still reading, and there are tokens that complete what it reads if `F` holds of what follows them.
For the parsers of statements there is no fourth case: none of them reads on behind a token that no statement can have
there, and none waits with an error for a later token. `Guided F G p` says so of every beginning, and that `p` can be
read from its start by tokens of which `G` holds. It is kept by `bind`, if the second parser can start with tokens that
the first one leaves alone.

Result:
  viable_or_refused   of any tokens, some continuation is a statement, or all continuations fail with the same error.
-/
import Mathlib.Tactic
import TableStore.Proofs.Sql.Failing

namespace TableStore

/-- an integer of 64 bits with its sign, or another token: what a query text can be cut into -/
def Token.Sized : Token → Prop
  | .integer n => -2 ^ 63 ≤ n ∧ n < 2 ^ 63
  | _ => True

namespace Parser
open Grammar

variable {α β : Type} {F G H : List Token → Prop}

/-! ## Beginnings -/

/-- what becomes of a parser that has been given a beginning of its tokens -/
inductive Prospect (F : List Token → Prop) (p : Parser α) (ts : List Token) : Prop
  | refused (e : QueryError) (fails : ∀ tail, Fails p (ts ++ tail) e)
  | settled (a : α) (left : List Token) (reads : ∀ tail, Reads p (ts ++ tail) a (left ++ tail))
  | pending (a : α) (more : List Token) (sized : ∀ t ∈ more, t.Sized)
      (reads : ∀ rest, F rest → Reads p (ts ++ (more ++ rest)) a rest)

/-- every beginning is refused, settled or pending -/
def Online (F : List Token → Prop) (p : Parser α) : Prop := ∀ ts, Prospect F p ts

/-- some tokens are read in front of everything that fulfils `F`, and with it they fulfil `G` -/
def Completable (F G : List Token → Prop) (p : Parser α) : Prop :=
  ∃ a more, (∀ t ∈ more, t.Sized) ∧ ∀ rest, F rest → G (more ++ rest) ∧ Reads p (more ++ rest) a rest

/-- every beginning has its prospect, and so has none at all -/
structure Guided (F G : List Token → Prop) (p : Parser α) : Prop where
  online : Online F p
  completable : Completable F G p

def Anything (_ : List Token) : Prop := True

/-- a token of this kind comes next -/
def At (kind : Token.Kind) (rest : List Token) : Prop := kindAt rest = kind

theorem Prospect.mono {p : Parser α} {ts : List Token} (h : ∀ rest, F rest → G rest) (hp : Prospect G p ts) :
    Prospect F p ts := by
  cases hp with
  | refused e fails => exact .refused e fails
  | settled a left reads => exact .settled a left reads
  | pending a more sized reads => exact .pending a more sized fun rest follows => reads rest (h rest follows)

theorem Guided.before {p : Parser α} (hp : Guided Anything H p) : Guided F H p := by
  obtain ⟨a, more, sized, reads⟩ := hp.completable
  exact ⟨fun ts => (hp.online ts).mono fun _ _ => trivial, a, more, sized, fun rest _ => reads rest trivial⟩

/-! ## Sequences -/

section Sequences

variable {p : Parser α} {f : α → Parser β}

/-- a parser that has its answer hands over to the next one -/
theorem Prospect.after {ts left : List Token} {a : α} (reads : ∀ tail, Reads p (ts ++ tail) a (left ++ tail))
    (h : Prospect F (f a) left) : Prospect F (p >>= f) ts := by
  have run : ∀ tail, (p >>= f).on (ts ++ tail) = (f a).on (left ++ tail) := by
    intro tail
    rw [on_bind, reads tail]
  cases h with
  | refused e fails => exact .refused e fun tail => (congrArg Prod.fst (run tail)).trans (fails tail)
  | settled b left' reads' => exact .settled b left' fun tail => (run tail).trans (reads' tail)
  | pending b more sized reads' => exact .pending b more sized fun rest follows => (run _).trans (reads' rest follows)

theorem completable_bind (hp : Completable G H p) (hf : ∀ a, Completable F G (f a)) : Completable F H (p >>= f) := by
  obtain ⟨a, more, sized, reads⟩ := hp
  obtain ⟨b, more', sized', reads'⟩ := hf a
  refine ⟨b, more ++ more', ?_, fun rest follows => ?_⟩
  · intro t mem
    exact (List.mem_append.1 mem).elim (sized t) (sized' t)
  · obtain ⟨starts, read'⟩ := reads' rest follows
    obtain ⟨starts', read⟩ := reads _ starts
    rw [List.append_assoc]
    exact ⟨starts', reads_bind.2 ⟨a, _, read, read'⟩⟩

/-- the second parser goes on where the first one has settled, and completes what the first one has left open -/
theorem online_bind (hp : Online G p) (hf : ∀ a, Guided F G (f a)) : Online F (p >>= f) := by
  intro ts
  cases hp ts with
  | refused e fails => exact .refused e fun tail => fails_first (fails tail)
  | settled a left reads => exact .after reads ((hf a).online left)
  | pending a more sized reads =>
    obtain ⟨b, more', sized', reads'⟩ := (hf a).completable
    refine .pending b (more ++ more') ?_ fun rest follows => ?_
    · intro t mem
      exact (List.mem_append.1 mem).elim (sized t) (sized' t)
    · obtain ⟨starts, read'⟩ := reads' rest follows
      rw [List.append_assoc]
      exact reads_bind.2 ⟨a, _, reads _ starts, read'⟩

theorem guided_bind (hp : Guided G H p) (hf : ∀ a, Guided F G (f a)) : Guided F H (p >>= f) :=
  ⟨online_bind hp.online hf, completable_bind hp.completable fun a => (hf a).completable⟩

theorem guided_pure (a : α) (h : ∀ rest, F rest → H rest) : Guided F H (pure a : Parser α) :=
  ⟨fun ts => .settled a ts fun _ => reads_pure.2 ⟨rfl, rfl⟩,
    a, [], by simp, fun rest follows => ⟨h rest follows, reads_pure.2 ⟨rfl, rfl⟩⟩⟩

theorem online_throw (e : QueryError) : Online F (throw e : Parser α) := fun _ => .refused e fun _ => fails_throw.2 rfl

theorem online_map (g : α → β) (hp : Online F p) : Online F (g <$> p) := by
  rw [← bind_pure_comp]
  exact online_bind hp fun a => guided_pure _ fun _ => id

theorem guided_map (g : α → β) (hp : Guided F H p) : Guided F H (g <$> p) := by
  rw [← bind_pure_comp]
  exact guided_bind hp fun a => guided_pure _ fun _ => id

end Sequences

/-! ## One token decides -/

section OneToken

variable {p : Parser α} {kind : Token.Kind} {yes no : Parser β}

theorem Completable.pending (h : Completable F G p) : Prospect F p [] := by
  obtain ⟨a, more, sized, reads⟩ := h
  exact .pending a more sized fun rest follows => (reads rest follows).2

/-- a look at the next token, if one answer is told and every token leads to some answer -/
theorem guided_peek {f : Token → Parser α} (start : Completable F H (peek >>= f)) (each : ∀ t, Online F (f t)) :
    Guided F H (peek >>= f) := by
  refine ⟨fun ts => ?_, start⟩
  cases ts with
  | nil => exact start.pending
  | cons t ts => exact .after (fun tail => reads_peek.2 ⟨rfl, rfl⟩) (each t (t :: ts))

/-- a choice by the next token; that the token is of another kind shows in a token -/
theorem online_choice (h : onlyToken kind ≠ .eof)
    (start : Completable F G (accept kind >>= fun found => if found then yes else no))
    (hyes : Online F yes) (hno : ∀ t ts, Prospect F no (t :: ts)) :
    Online F (accept kind >>= fun found => if found then yes else no) := by
  intro ts
  cases ts with
  | nil => exact start.pending
  | cons t ts =>
    by_cases found : t.kind = kind
    · cases (kind_eq_iff h).1 found
      exact .after (fun tail => (reads_accept_true h).2 rfl) (hyes ts)
    · exact .after (fun tail => reads_accept_false.2 ⟨found, rfl⟩) (hno t ts)

/-- a token that is there in the shortest completion -/
theorem guided_yes (h : onlyToken kind ≠ .eof) (hyes : Guided F Anything yes) (hno : ∀ t ts, Prospect F no (t :: ts))
    (starts : ∀ rest, H (onlyToken kind :: rest)) :
    Guided F H (accept kind >>= fun found => if found then yes else no) := by
  obtain ⟨b, more, sized, reads⟩ := hyes.completable
  have start : Completable F H (accept kind >>= fun found => if found then yes else no) := by
    refine ⟨b, onlyToken kind :: more, ?_, fun rest follows => ⟨starts _, ?_⟩⟩
    · intro t mem
      rcases List.mem_cons.1 mem with rfl | mem
      · cases kind <;> trivial
      · exact sized t mem
    · exact reads_bind.2 ⟨true, more ++ rest, (reads_accept_true h).2 rfl, (reads rest follows).2⟩
  exact ⟨online_choice h start hyes.online hno, start⟩

/-- a token that is missing in the shortest completion -/
theorem guided_no (h : onlyToken kind ≠ .eof) (hyes : Online F yes)
    (hno : Guided F (fun rest => H rest ∧ kindAt rest ≠ kind) no) :
    Guided F H (accept kind >>= fun found => if found then yes else no) := by
  obtain ⟨b, more, sized, reads⟩ := hno.completable
  have start : Completable F H (accept kind >>= fun found => if found then yes else no) := by
    refine ⟨b, more, sized, fun rest follows => ?_⟩
    obtain ⟨⟨starts, other⟩, read⟩ := reads rest follows
    exact ⟨starts, reads_bind.2 ⟨false, _, reads_accept_false.2 ⟨other, rfl⟩, read⟩⟩
  exact ⟨online_choice h start hyes fun t ts => hno.online _, start⟩

/-- a parser that takes one token with a payload, and refuses every token of another kind -/
theorem guided_payload (wrap : α → Token) (expected : Token.Kind) (x : α) (sized : (wrap x).Sized)
    (taken : ∀ x rest, p.on (wrap x :: rest) = (.ok x, rest))
    (refused : ∀ t rest, (∀ x, t ≠ wrap x) → Fails p (t :: rest) (.unexpected expected t.kind))
    (starts : ∀ rest, H (wrap x :: rest)) : Guided Anything H p := by
  refine ⟨fun ts => ?_, x, [wrap x], by simpa using sized, fun rest _ => ⟨starts rest, taken x rest⟩⟩
  cases ts with
  | nil => exact .pending x [wrap x] (by simpa using sized) fun rest _ => taken x rest
  | cons t ts =>
    by_cases other : ∃ y, t = wrap y
    · obtain ⟨y, rfl⟩ := other
      exact .settled y ts fun tail => taken y _
    · exact .refused _ fun tail => refused t _ fun y eq => other ⟨y, eq⟩

theorem guided_identifier (starts : ∀ rest, H (.symbol "a" :: rest)) : Guided Anything H identifier := by
  refine guided_payload .symbol .symbol "a" trivial (fun _ _ => rfl) (fun t rest other => ?_) starts
  cases t <;> first | rfl | exact absurd rfl (other _)

theorem guided_literal : Guided Anything Anything literal := by
  refine guided_payload .text .text "a" trivial (fun _ _ => rfl) (fun t rest other => ?_) fun _ => trivial
  cases t <;> first | rfl | exact absurd rfl (other _)

theorem guided_expect (h : onlyToken kind ≠ .eof) (starts : ∀ rest, H (onlyToken kind :: rest)) :
    Guided Anything H (expect kind) := by
  refine guided_payload (fun _ => onlyToken kind) kind () (by cases kind <;> trivial)
    (fun _ rest => (reads_expect h).2 rfl) (fun t rest other => expect_fails ?_ rest) starts
  exact fun eq => other () ((kind_eq_iff h).1 eq)

/-- the end is looked at, and not passed -/
theorem guided_expect_eof : Guided (At .eof) (At .eof) (expect .eof) := by
  have start : Completable (At .eof) (At .eof) (expect .eof) :=
    ⟨(), [], by simp, fun rest atEnd => ⟨atEnd, reads_expect_eof.2 ⟨atEnd, rfl⟩⟩⟩
  refine ⟨fun ts => ?_, start⟩
  cases ts with
  | nil => exact start.pending
  | cons t ts =>
    by_cases eof : t.kind = .eof
    · exact .settled () (t :: ts) fun tail => reads_expect_eof.2 ⟨eof, rfl⟩
    · exact .refused _ fun tail => expect_fails eof _

end OneToken

/-! ## Clauses with a count -/

theorem online_count (clause : Clause) : Online F (count clause) := by
  intro ts
  cases ts with
  | nil => exact .pending 0 [.integer 0] (by simp [Token.Sized]) fun rest _ => reads_count.2 rfl
  | cons t ts =>
    by_cases number : ∃ n, t = .integer n
    · obtain ⟨n, rfl⟩ := number
      by_cases neg : n < 0
      · exact .refused _ fun tail => count_negative neg _
      · obtain ⟨k, rfl⟩ := Int.eq_ofNat_of_zero_le (not_lt.1 neg)
        exact .settled k ts fun tail => reads_count.2 rfl
    · refine .refused (.unexpected .integer t.kind) fun tail => ?_
      cases t <;> first | rfl | exact absurd ⟨_, rfl⟩ number

theorem At.ne {kind other : Token.Kind} {rest : List Token} (h : At kind rest) (ne : kind ≠ other) :
    kindAt rest ≠ other := fun eq => ne (h.symm.trans eq)

/-- clauses may be missing at the end, and do not show there -/
theorem guided_missing {a : α} {kind : Token.Kind} (ne : .eof ≠ kind) (h : ∀ rest, At .eof rest → H rest) :
    Guided (At .eof) (fun rest => H rest ∧ kindAt rest ≠ kind) (pure a : Parser α) :=
  guided_pure a fun rest atEnd => ⟨h rest atEnd, atEnd.ne ne⟩

theorem guided_count? (clause : Clause) (h : ∀ rest, At .eof rest → H rest) : Guided (At .eof) H (count? clause) :=
  guided_no (onlyToken_keyword_ne _) (online_map _ (online_count clause)) (guided_missing (by simp) h)

/-! ## Lists -/

/-- a list of columns can end behind every column -/
theorem online_names (room : Nat) : Online (At (.keyword .from_)) (names room) := by
  induction room with
  | zero => exact online_throw _
  | succ room ih =>
    refine online_bind (guided_identifier (H := Anything) fun _ => trivial).online fun name => ?_
    refine guided_no (by decide) (online_map _ ih) (guided_pure _ fun rest behind => ⟨trivial, behind.ne (by simp)⟩)

/-- a list between parentheses can end behind every item, whether or not there is room for more -/
theorem guided_goesOn {listing : Listing} {item : Parser α} {room : Nat}
    (more : Online Anything (items listing item room)) (x : α) : Guided Anything Anything (do
      if ← accept .closeParen then return [x]
      expect .comma
      return x :: (← items listing item room)) := by
  refine guided_yes (by decide) (guided_pure _ fun _ => id) (fun t ts => ?_) fun _ => trivial
  -- without room nothing completes a comma, so the two parsers behind the choice have no prospect together from nothing
  by_cases comma : t.kind = .comma
  · cases (kind_eq_iff (by decide)).1 comma
    exact .after (a := ()) (fun tail => (reads_expect (by decide)).2 rfl) (online_map _ more ts)
  · exact .refused _ fun tail => fails_first (expect_fails comma _)

theorem online_items (listing : Listing) {item : Parser α} (one : Online Anything item) (room : Nat) :
    Online Anything (items listing item room) := by
  induction room with
  | zero => exact online_throw _
  | succ room ih => exact online_bind one (guided_goesOn ih)

theorem guided_items (listing : Listing) {item : Parser α} (one : Guided Anything Anything item) :
    Guided Anything Anything (items listing item maxItems) :=
  guided_bind one (guided_goesOn (online_items listing one.online (maxItems - 1)))

/-! ## Clauses of a select -/

theorem guided_selection : Guided (At (.keyword .from_)) Anything Parser.selection :=
  guided_yes (by decide) (guided_pure _ fun _ _ => trivial) (fun t ts => online_map _ (online_names _) _)
    fun _ => trivial

theorem guided_condition (h : ∀ rest, At .eof rest → H rest) : Guided (At .eof) H condition := by
  have value : ∀ make : String → Predicate, Guided (At .eof) Anything (do return some (make (← literal))) :=
    fun make => guided_map _ guided_literal.before
  have notEqual : ∀ column : String, Guided (At .eof) Anything (do
      if ← accept .notEqual then return some (Predicate.notEqual column (← literal))
      throw .noComparison) := fun column =>
    guided_yes (by decide) (value _) (fun _ _ => online_throw _ _) fun _ => trivial
  have comparison : ∀ column : String, Guided (At .eof) Anything (do
      if ← accept .equal then return some (Predicate.equal column (← literal))
      if ← accept .notEqual then return some (Predicate.notEqual column (← literal))
      throw .noComparison) := fun column =>
    guided_yes (by decide) (value _) (fun _ _ => (notEqual column).online _) fun _ => trivial
  have column : Guided Anything Anything identifier := guided_identifier fun _ => trivial
  exact guided_no (onlyToken_keyword_ne _) (guided_bind column comparison).online (guided_missing (by simp) h)

theorem guided_direction : Guided (At .eof) Anything direction := by
  have descending : Guided (At .eof) Anything (do
      if ← accept (.keyword .desc) then return Direction.descending
      throw .noDirection) :=
    guided_yes (onlyToken_keyword_ne _) (guided_pure _ fun _ _ => trivial) (fun _ _ => online_throw _ _)
      fun _ => trivial
  exact guided_yes (onlyToken_keyword_ne _) (guided_pure _ fun _ _ => trivial) (fun _ _ => descending.online _)
    fun _ => trivial

theorem guided_order (h : ∀ rest, At .eof rest → H rest) : Guided (At .eof) H Parser.order := by
  have behind : ∀ column : Option String, Guided (At .eof) Anything
      (do return some ({ column, direction := ← direction } : Order)) := fun column => guided_map _ guided_direction
  refine guided_no (onlyToken_keyword_ne _) (Guided.online (G := Anything) ?_) (guided_missing (by simp) h)
  refine guided_yes (onlyToken_keyword_ne _) ?_ (fun _ _ => .refused _ fun _ => fails_first (fails_throw.2 rfl))
    fun _ => trivial
  refine guided_peek ?_ fun t => ?_
  · refine ⟨some ⟨none, .ascending⟩, [.keyword .asc], by simp [Token.Sized], fun rest _ => ⟨trivial, ?_⟩⟩
    simp [reads_bind, reads_map, reads_peek, reads_direction, directionToken]
  · split
    · exact online_bind (online_map _ (guided_identifier (H := Anything) fun _ => trivial).online) behind
    · exact online_bind (guided_pure (H := Anything) _ fun _ => id).online behind

theorem guided_slice (h : ∀ rest, At .eof rest → H rest) : Guided (At .eof) H slice := by
  have last : ∀ (clause : Clause) (make : Option Nat → Option Nat × Option Nat), Guided (At .eof) (At .eof)
      (do return make (← count? clause)) := fun clause make => guided_map _ (guided_count? clause fun _ => id)
  refine guided_bind (guided_count? .limit h) fun limit => ?_
  split
  · exact last .offset _
  · refine guided_bind (guided_count? .offset fun _ => id) fun offset => ?_
    split
    · exact last .limit _
    · exact guided_pure _ fun _ => id

/-! ## Statements -/

theorem guided_keyword (k : Keyword) (starts : ∀ rest, H (.keyword k :: rest)) : Guided Anything H (keyword k) :=
  guided_expect (onlyToken_keyword_ne _) starts

theorem guided_select : Guided (At .eof) Anything Parser.select :=
  guided_bind guided_selection fun _ => guided_bind (guided_keyword _ fun _ => rfl) fun _ =>
    guided_bind (guided_identifier fun _ => trivial) fun _ => guided_bind (guided_condition fun _ _ => trivial) fun _ =>
      guided_bind (guided_order fun _ => id) fun _ => guided_map _ (guided_slice fun _ => id)

theorem guided_insert : Guided (At .eof) Anything Parser.insert := by
  have behind : ∀ (table : String) (columns : List String), Guided (At .eof) Anything (do
      keyword .values
      expect .openParen
      let values ← items .insertValues literal maxItems
      return ({ table, columns, values } : Insert)) := fun table columns =>
    guided_bind (guided_keyword _ fun _ => trivial) fun _ => guided_bind (guided_expect (by decide) fun _ => trivial)
      fun _ => guided_map _ (guided_items _ guided_literal).before
  refine guided_bind (guided_keyword _ fun _ => trivial) fun _ => guided_bind (guided_identifier fun _ => trivial)
    fun table => ?_
  exact guided_yes (by decide) (guided_bind (guided_items _ (guided_identifier fun _ => trivial)) (behind table))
    (fun _ _ => (guided_bind (guided_pure _ fun _ => id) (behind table)).online _) fun _ => trivial

theorem guided_create : Guided (At .eof) Anything Parser.create := by
  have typed : Guided Anything Anything typedColumn := guided_bind (guided_identifier fun _ => trivial) fun _ =>
    guided_bind (guided_keyword _ fun _ => trivial) fun _ => guided_pure _ fun _ => id
  exact guided_bind (guided_keyword _ fun _ => trivial) fun _ => guided_bind (guided_identifier fun _ => trivial)
    fun _ => guided_bind (guided_expect (by decide) fun _ => trivial)
      fun _ => guided_map _ (guided_items _ typed).before

/-- the keyword that opens a statement is looked at and passed -/
theorem online_body : Online (At .eof) body := by
  obtain ⟨s, more, sized, reads⟩ := guided_select.completable
  intro ts
  rcases ts with _ | ⟨t, ts⟩
  · refine .pending (.select s) (.keyword .select :: more) ?_ fun rest atEnd => ?_
    · intro t mem
      rcases List.mem_cons.1 mem with rfl | mem
      · trivial
      · exact sized t mem
    · refine reads_bind.2 ⟨.keyword .select, _, reads_peek.2 ⟨rfl, rfl⟩, reads_bind.2 ⟨(), more ++ rest, ?_, ?_⟩⟩
      · exact (reads_advance (by simp)).2 rfl
      · exact reads_map.2 ⟨s, (reads rest atEnd).2, rfl⟩
  · refine .after (fun tail => reads_peek.2 ⟨rfl, rfl⟩) ?_
    by_cases eof : t = .eof
    · subst eof
      exact .refused _ fun tail => rfl
    · refine .after (a := ()) (fun tail => (reads_advance eof).2 rfl) ?_
      split
      · exact online_map _ guided_select.online ts
      · exact online_map _ guided_insert.online ts
      · exact online_map _ guided_create.online ts
      · exact online_throw _ ts

/-- of every beginning of the tokens it is known what becomes of a statement -/
theorem online_statement : Online (At .eof) statement :=
  online_bind online_body fun _ => guided_map _ guided_expect_eof

end Parser

namespace Grammar
open TableStore.Parser

/-- some tokens that a query text can be cut into make a statement of these -/
def Viable (ts : List Token) : Prop :=
  ∃ tail, (∀ t ∈ tail, t.Sized) ∧ ∃ st, Statement.ofTokens (ts ++ tail) = .ok st

/-- whatever follows these tokens, there is this error -/
def Refused (ts : List Token) (e : QueryError) : Prop := ∀ tail, Statement.ofTokens (ts ++ tail) = .error e

theorem exists_closed_eq (ts : List Token) : ∃ tail, Token.closed ts = ts ++ tail := by
  rw [Token.closed]
  split
  · exact ⟨[], by simp⟩
  · exact ⟨[.eof], rfl⟩

/-- **There is no third way.** Of any tokens, some continuation is a statement, or all continuations fail with the same
error. -/
theorem viable_or_refused (ts : List Token) : Viable ts ∨ ∃ e, Refused ts e := by
  cases online_statement ts with
  | refused e fails =>
    refine .inr ⟨e, fun tail => ?_⟩
    obtain ⟨behind, closed⟩ := exists_closed_eq (ts ++ tail)
    show (statement.on (Token.closed (ts ++ tail))).1 = _
    rw [closed, List.append_assoc]
    exact fails _
  | settled st left reads =>
    refine .inl ⟨[], by simp, st, ?_⟩
    obtain ⟨behind, closed⟩ := exists_closed_eq ts
    show (statement.on (Token.closed (ts ++ []))).1 = _
    rw [List.append_nil, closed]
    exact congrArg Prod.fst (reads behind)
  | pending st more sized reads =>
    refine .inl ⟨more ++ [.eof], ?_, st, ?_⟩
    · intro t mem
      rcases List.mem_append.1 mem with mem | mem
      · exact sized t mem
      · rw [List.mem_singleton.1 mem]
        trivial
    · have closed : Token.closed (ts ++ (more ++ [.eof])) = ts ++ (more ++ [.eof]) := by
        simp [Token.closed]
      show (statement.on (Token.closed (ts ++ (more ++ [.eof])))).1 = _
      rw [closed]
      exact congrArg Prod.fst (reads [.eof] rfl)

end Grammar
end TableStore
