/-
Readers in front of an object that is none of theirs.

An edge is the end of a document, or an opening brace with a line break behind it. No string can run over an edge, for
a line break in a string is a fault, and no number or word does; so a reader that takes bytes before an edge stops
before it (`Stays`). Only a reader of values takes something behind it, if it begins there: the object.

With the end as the edge this says that readers take bytes off the front of a document and do nothing else.
-/
import Mathlib.Tactic
import TableStore.Json.Shapes
import TableStore.Proofs.Json.Texts

namespace TableStore.Json.Reading

variable {σ α β : Type}

/-- the end, or the first bytes of an object that is written in lines -/
def Edge (e : Bytes) : Prop := e = [] ∨ ∃ rest, e = 0x7b :: 0x0a :: rest

/-- a reader that starts before an edge stops before it -/
def Stays (e : Bytes) (r : Reading α) : Prop :=
  ∀ size t a rest, r size (t ++ e) = .ok (a, rest) → ∃ t', t' <:+ t ∧ rest = t' ++ e

/-- the same of a reader that starts at some byte -/
def StaysAt (e : Bytes) (b : UInt8) (r : Reading α) : Prop :=
  ∀ size t a rest, r size (b :: t ++ e) = .ok (a, rest) → ∃ t', t' <:+ b :: t ∧ rest = t' ++ e

/-- a reader that never has a value -/
def Fails (r : Reading α) : Prop := ∀ size bytes a rest, r size bytes ≠ .ok (a, rest)

/-! ## Sequences -/

section Steps

variable {e : Bytes} {b : UInt8}

theorem bind_eq_ok {first : Reading α} {next : α → Reading β} {size : Nat} {bytes rest : Bytes} {v : β}
    (h : (first >>= next) size bytes = .ok (v, rest)) :
    ∃ a left, first size bytes = .ok (a, left) ∧ next a size left = .ok (v, rest) := by
  rw [bind_apply] at h
  rcases ran : first size bytes with stop | ⟨a, left⟩
  · rw [ran] at h
    cases h
  · rw [ran] at h
    exact ⟨a, left, rfl, h⟩

theorem Fails.bind {first : Reading α} (fails : Fails first) (next : α → Reading β) : Fails (first >>= next) := by
  intro size bytes v rest h
  obtain ⟨a, left, ran, -⟩ := bind_eq_ok h
  exact fails _ _ _ _ ran

theorem fails_bind (first : Reading α) {next : α → Reading β} (fails : ∀ a, Fails (next a)) :
    Fails (first >>= next) := by
  intro size bytes v rest h
  obtain ⟨a, left, -, ran⟩ := bind_eq_ok h
  exact fails a _ _ _ _ ran

theorem fails_stop (cause : Cause) : Fails (stop cause : Reading α) := by
  intro size bytes a rest h
  cases h

theorem fails_stopNext (cause : Cause) : Fails (stopNext cause : Reading α) := by
  intro size bytes a rest h
  cases h

theorem Fails.stays {r : Reading α} (fails : Fails r) : Stays e r :=
  fun _ _ _ _ h => absurd h (fails _ _ _ _)

theorem Fails.staysAt {r : Reading α} (fails : Fails r) : StaysAt e b r :=
  fun _ _ _ _ h => absurd h (fails _ _ _ _)

theorem Stays.staysAt {r : Reading α} (stays : Stays e r) : StaysAt e b r :=
  fun size t a rest h => stays size (b :: t) a rest h

theorem stays_pure (a : α) : Stays e (pure a) := by
  intro size t v rest h
  cases h
  exact ⟨t, List.suffix_refl t, rfl⟩

theorem Stays.bind {first : Reading α} {next : α → Reading β} (stays : Stays e first)
    (others : ∀ a, Stays e (next a)) : Stays e (first >>= next) := by
  intro size t v rest h
  obtain ⟨a, left, ran, h⟩ := bind_eq_ok h
  obtain ⟨t₁, suffix₁, rfl⟩ := stays _ _ _ _ ran
  obtain ⟨t₂, suffix₂, rfl⟩ := others a _ _ _ _ h
  exact ⟨t₂, suffix₂.trans suffix₁, rfl⟩

theorem StaysAt.bind {first : Reading α} {next : α → Reading β} (stays : StaysAt e b first)
    (others : ∀ a, Stays e (next a)) : StaysAt e b (first >>= next) := by
  intro size t v rest h
  obtain ⟨a, left, ran, h⟩ := bind_eq_ok h
  obtain ⟨t₁, suffix₁, rfl⟩ := stays _ _ _ _ ran
  obtain ⟨t₂, suffix₂, rfl⟩ := others a _ _ _ _ h
  exact ⟨t₂, suffix₂.trans suffix₁, rfl⟩

theorem Stays.map {r : Reading α} (stays : Stays e r) (f : α → β) : Stays e (f <$> r) := by
  rw [map_eq_pure_bind]
  exact stays.bind fun a => stays_pure (f a)

/-- a byte before the edge may be left behind -/
theorem Stays.skip {next : Unit → Reading α} (stays : Stays e (next ())) : StaysAt e b (skip >>= next) := by
  intro size t v rest h
  obtain ⟨t', suffix, rfl⟩ := stays size t v rest h
  exact ⟨t', suffix.trans (List.suffix_cons b t), rfl⟩

/-! ## Looking at the next byte -/

/-- a reader that looks at the next byte goes on before the edge, or at the edge -/
theorem stays_next? {next : Option UInt8 → Reading α} (before : ∀ b, StaysAt e b (next (some b)))
    (atEdge : ∀ size a rest, next e.head? size e = .ok (a, rest) → rest = e) : Stays e (next? >>= next) := by
  intro size t v rest h
  cases t with
  | nil =>
    have same := atEdge size v rest h
    exact ⟨[], List.suffix_refl [], same⟩
  | cons b t => exact before b size t v rest h

/-- a reader that takes nothing if it finds a brace or the end -/
theorem stays_peek (edge : Edge e) {next : Option UInt8 → Reading α} (before : ∀ b, StaysAt e b (next (some b)))
    (brace : ∃ a, next (some 0x7b) = pure a) (ended : ∃ a, next none = pure a) : Stays e (next? >>= next) := by
  have same {a v : α} {size : Nat} {rest : Bytes} (h : (pure a : Reading α) size e = .ok (v, rest)) : rest = e := by
    cases h
    rfl
  refine stays_next? before fun size v rest h => ?_
  rcases edge with rfl | ⟨rest', rfl⟩
  · obtain ⟨a, eq⟩ := ended
    exact same (eq ▸ h)
  · obtain ⟨a, eq⟩ := brace
    exact same (eq ▸ h)

theorem stays_look : Stays e next? := by
  intro size t v rest h
  cases h
  exact ⟨t, List.suffix_refl t, rfl⟩

theorem stays_take? (edge : Edge e) {next : Option UInt8 → Reading α} (stays : ∀ b, Stays e (next (some b)))
    (brace : Fails (next (some 0x7b))) (ended : Fails (next none)) : Stays e (take? >>= next) := by
  intro size t v rest h
  cases t with
  | nil =>
    rcases edge with rfl | ⟨rest', rfl⟩
    · exact absurd h (ended _ _ _ _)
    · exact absurd h (brace _ _ _ _)
  | cons b t =>
    obtain ⟨t', suffix, rfl⟩ := stays b size t v rest h
    exact ⟨t', suffix.trans (List.suffix_cons b t), rfl⟩

theorem Edge.dropWhile_isBlank (edge : Edge e) : e.dropWhile isBlank = e := by
  rcases edge with rfl | ⟨rest, rfl⟩
  · rfl
  · rfl

/-- blanks before an edge end before it -/
theorem Edge.dropWhile_append (edge : Edge e) (t : Bytes) :
    (t ++ e).dropWhile isBlank = t.dropWhile isBlank ++ e := by
  rw [List.dropWhile_append, edge.dropWhile_isBlank]
  split
  · rename_i blank
    rw [List.isEmpty_iff.1 blank]
    rfl
  · rfl

theorem stays_token? (edge : Edge e) {next : Option UInt8 → Reading α} (before : ∀ b, StaysAt e b (next (some b)))
    (atEdge : ∀ size a rest, next e.head? size e = .ok (a, rest) → rest = e) : Stays e (token? >>= next) := by
  intro size t v rest h
  have looked : (next? >>= next) size ((t ++ e).dropWhile isBlank) = .ok (v, rest) := h
  rw [edge.dropWhile_append] at looked
  obtain ⟨t', suffix, rfl⟩ := stays_next? before atEdge size _ v rest looked
  exact ⟨t', suffix.trans (List.dropWhile_suffix isBlank), rfl⟩

/-- the first byte of a value before the edge, or the brace at the edge -/
theorem stays_token (edge : Edge e) {next : UInt8 → Reading α} (before : ∀ b, StaysAt e b (next b))
    (atEdge : ∀ size a rest, next 0x7b size e = .ok (a, rest) → rest = e) : Stays e (token >>= next) := by
  have none : Fails (do let b ← (stopNext .endInValue : Reading UInt8); next b) := (fails_stopNext _).bind _
  rw [token, bind_assoc]
  refine stays_token? edge (fun b => before b) fun size a rest h => ?_
  rcases edge with rfl | ⟨rest', rfl⟩
  · exact absurd h (none _ _ _ _)
  · exact atEdge size a rest h

/-- the same of a reader that takes no other byte than certain ones -/
theorem stays_mark (edge : Edge e) {next : Option UInt8 → Reading α} (before : ∀ b, StaysAt e b (next (some b)))
    (brace : Fails (next (some 0x7b))) (ended : Fails (next none)) : Stays e (token? >>= next) := by
  refine stays_token? edge before fun size a rest h => ?_
  rcases edge with rfl | ⟨rest', rfl⟩
  · exact absurd h (ended _ _ _ _)
  · exact absurd h (brace _ _ _ _)

theorem stays_takeWhile {p : UInt8 → Bool} (edge : Edge e) (other : p 0x7b = false) : Stays e (takeWhile p) := by
  intro size t v rest h
  have same : e.dropWhile p = e := by
    rcases edge with rfl | ⟨rest', rfl⟩
    · rfl
    · rw [List.dropWhile_cons_of_neg (by simp [other])]
  have left : rest = (t ++ e).dropWhile p := by
    cases h
    rfl
  rw [left, List.dropWhile_append, same]
  split
  · rename_i all
    exact ⟨[], List.nil_suffix, rfl⟩
  · exact ⟨_, List.dropWhile_suffix p, rfl⟩

theorem stays_letters (edge : Edge e) (word : Bytes) (other : 0x7b ∉ word) : Stays e (letters word) := by
  induction word with
  | nil => exact stays_pure ()
  | cons letter word ih =>
    rw [letters]
    refine stays_take? edge (fun b => ?_) ?_ (fails_stop _)
    · show Stays e (if b = letter then letters word else stop .noWord)
      split
      · exact ih fun mem => other (List.mem_cons_of_mem _ mem)
      · exact (fails_stop _).stays
    · have ne : ¬ (0x7b : UInt8) = letter := fun same => other (same ▸ List.mem_cons_self)
      simp only [if_neg ne]
      exact fails_stop _

/-! ## Loops -/

theorem stays_rounds {round : σ → Reading (σ ⊕ α)} (stays : ∀ s, Stays e (round s)) (n : Nat) (s : σ) :
    Stays e (rounds round n s) := by
  induction n generalizing s with
  | zero => exact (fails_stop _).stays
  | succ n ih =>
    rw [rounds]
    refine (stays s).bind fun r => ?_
    cases r with
    | inl s => exact ih s
    | inr a => exact stays_pure a

theorem stays_loop {round : σ → Reading (σ ⊕ α)} (stays : ∀ s, Stays e (round s)) (s : σ) :
    Stays e (loop round s) := by
  intro size t v rest h
  exact stays_rounds stays (size + 1) s size t v rest h

end Steps

/-! ## Strings -/

/-- a brace is no hexadecimal digit -/
theorem hexNumber?_eq_none {bytes : Bytes} (brace : 0x7b ∈ bytes) (high : Nat) : hexNumber? high bytes = none := by
  induction bytes generalizing high with
  | nil => cases brace
  | cons b bytes ih =>
    rw [hexNumber?]
    rcases List.mem_cons.1 brace with rfl | brace
    · rfl
    · cases hexValue? b with
      | none => rfl
      | some n => exact ih brace _

/-- a byte behind a few is among the first ones -/
theorem mem_take_append {n : Nat} {t : Bytes} (short : t.length < n) (b : UInt8) (rest : Bytes) :
    b ∈ (t ++ b :: rest).take n := by
  obtain ⟨k, more⟩ : ∃ k, n - t.length = k + 1 := ⟨n - t.length - 1, by omega⟩
  rw [List.take_append, more, List.take_succ_cons]
  exact List.mem_append_right _ List.mem_cons_self

section Texts

variable {e : Bytes} (edge : Edge e)
include edge

theorem stays_unit : Stays e unit := by
  intro size t v rest h
  rw [unit, get_bind, set_bind] at h
  split at h
  · exact absurd h ((fails_stop _).bind _ _ _ _ _)
  · rename_i enough
    split at h
    · rename_i n number
      have left : rest = (t ++ e).drop 4 := by
        cases h
        rfl
      rcases Nat.lt_or_ge t.length 4 with short | long
      · rcases edge with rfl | ⟨rest', rfl⟩
        · rw [List.append_nil] at enough
          exact absurd short enough
        · -- the four bytes are no digits, for the brace is one of them
          rw [hexNumber?_eq_none (mem_take_append short 0x7b _)] at number
          cases number
      · refine ⟨t.drop 4, List.drop_suffix 4 t, ?_⟩
        rw [left, List.drop_append_of_le_length long]
    · exact absurd h (fails_stop _ _ _ _ _)

theorem stays_pairByte (expected : UInt8) (other : expected ≠ 0x7b) : Stays e (pairByte expected) := by
  rw [pairByte]
  refine stays_take? edge (fun b => ?_) ?_ (fails_stop _)
  · show Stays e (if b ≠ expected then stop .halfPair else pure ())
    split
    · exact (fails_stop _).stays
    · exact stays_pure ()
  · show Fails (if (0x7b : UInt8) ≠ expected then stop .halfPair else pure ())
    rw [if_pos other.symm]
    exact fails_stop _

theorem stays_lowHalf : Stays e lowHalf := by
  rw [lowHalf]
  refine (stays_pairByte edge 0x5c (by decide)).bind fun _ => ?_
  refine (stays_pairByte edge 0x75 (by decide)).bind fun _ => ?_
  refine (stays_unit edge).bind fun low => ?_
  split
  · exact stays_pure low
  · exact (fails_stop _).stays

theorem stays_escapedPoint : Stays e escapedPoint := by
  rw [escapedPoint]
  refine (stays_unit edge).bind fun n => ?_
  split
  · exact (fails_stop _).stays
  · split
    · exact (stays_lowHalf edge).bind fun low => stays_pure _
    · exact stays_pure n

theorem stays_escapeWith {short : UInt8 → α} {long : Reading α} (stays : Stays e long) :
    Stays e (escapeWith short long) := by
  rw [escapeWith]
  refine stays_take? edge (fun b => ?_) (fails_stop _) (fails_stop _)
  dsimp only
  split
  · exact stays
  · split
    · exact stays_pure _
    · exact (fails_stop _).stays

theorem stays_escape : Stays e escape :=
  stays_escapeWith edge ((stays_escapedPoint edge).bind fun _ => stays_pure _)

/-- plain bytes end before the edge, or run over its brace to the line break, or to the end -/
theorem stays_plain {next : Bytes → Option UInt8 → Reading α} (before : ∀ plain b, StaysAt e b (next plain (some b)))
    (newline : ∀ plain, Fails (next plain (some 0x0a))) (ended : ∀ plain, Fails (next plain none)) :
    Stays e (takeWhile isPlain >>= fun plain => next? >>= next plain) := by
  intro size t v rest h
  obtain ⟨plain, left, ran, h⟩ := bind_eq_ok h
  have behind : left = (t ++ e).dropWhile isPlain := by
    cases ran
    rfl
  rw [List.dropWhile_append] at behind
  rcases dropped : t.dropWhile isPlain with _ | ⟨b, t'⟩
  · rw [dropped] at behind
    rcases edge with rfl | ⟨rest', rfl⟩
    · subst behind
      exact absurd h (ended _ _ _ _ _)
    · subst behind
      exact absurd h (newline _ _ _ _ _)
  · rw [dropped] at behind
    subst behind
    obtain ⟨t'', suffix, rfl⟩ := before plain b size t' v rest h
    exact ⟨t'', suffix.trans (dropped ▸ List.dropWhile_suffix isPlain), rfl⟩

theorem stays_piece (read : Bytes) : Stays e (piece read) := by
  rw [piece, take?]
  simp only [bind_assoc, pure_bind]
  refine stays_plain edge (fun plain b => ?_) (fun _ => ?_) fun _ => ?_
  · refine Stays.skip ?_
    dsimp only
    split
    · exact stays_pure _
    · split
      · exact (stays_escape edge).bind fun _ => stays_pure _
      · exact (fails_stop _).stays
  · exact fails_bind _ fun _ => fails_stop _
  · exact fails_bind _ fun _ => fails_stop _

theorem stays_string : Stays e string := by
  rw [string]
  refine (stays_loop (stays_piece edge) []).bind fun bytes => ?_
  split
  · exact stays_pure _
  · exact Fails.stays fun size bytes a rest h => by cases h

theorem stays_skipPiece (s : Unit) : Stays e (skipPiece s) := by
  rw [skipPiece]
  refine stays_plain edge (fun plain b => ?_) (fun _ => fails_stop _) fun _ => fails_stop _
  dsimp only
  split
  · refine Stays.skip ?_
    exact stays_pure _
  · split
    · refine Stays.skip ?_
      exact (stays_escapeWith edge ((stays_unit edge).map _)).bind fun _ => stays_pure _
    · exact (fails_stop _).staysAt

theorem stays_skipString : Stays e skipString := stays_loop (stays_skipPiece edge) ()

end Texts

/-! ## Numbers -/

section Numbers

variable {e : Bytes} (edge : Edge e)
include edge

theorem stays_wholePart (ended : Cause) : Stays e (wholePart ended) := by
  rw [wholePart]
  refine stays_take? edge (fun b => ?_) (fails_stop _) (fails_stop _)
  dsimp only
  split
  · refine stays_look.bind fun o => ?_
    split
    · exact (fails_stopNext _).stays
    · exact stays_pure _
  · split
    · exact (stays_takeWhile edge (by decide)).bind fun _ => stays_pure _
    · exact (fails_stop _).stays

theorem stays_fractionPart (ended : Cause) : Stays e (fractionPart ended) := by
  rw [fractionPart]
  refine stays_peek edge (fun b => ?_) ⟨_, rfl⟩ ⟨_, rfl⟩
  split
  · refine Stays.skip ((stays_takeWhile edge (by decide)).bind fun digits => ?_)
    split
    · exact stays_look.bind fun o => (fails_stopNext _).stays
    · exact stays_pure _
  · exact (stays_pure _).staysAt

theorem stays_exponentSign : Stays e exponentSign := by
  rw [exponentSign]
  refine stays_peek edge (fun b => ?_) ⟨_, rfl⟩ ⟨_, rfl⟩
  split
  · refine Stays.skip ?_
    exact stays_pure _
  · exact (stays_pure _).staysAt

theorem stays_exponentPart (ended : Cause) : Stays e (exponentPart ended) := by
  rw [exponentPart]
  refine stays_peek edge (fun b => ?_) ⟨_, rfl⟩ ⟨_, rfl⟩
  split
  · refine Stays.skip ((stays_exponentSign edge).bind fun negative => ?_)
    refine stays_take? edge (fun b => ?_) (fails_stop _) (fails_stop _)
    dsimp only
    split
    · exact (stays_takeWhile edge (by decide)).bind fun _ => stays_pure _
    · exact (fails_stop _).stays
  · exact (stays_pure _).staysAt

theorem stays_numeral (ended : Cause) : Stays e (numeral ended) := by
  rw [numeral]
  refine (stays_wholePart edge ended).bind fun whole => ?_
  refine (stays_fractionPart edge ended).bind fun fraction => ?_
  exact (stays_exponentPart edge ended).bind fun exponent => stays_pure _

omit edge in
theorem stays_exponentOf (isZero negative : Bool) (digits : Bytes) : Stays e (exponentOf isZero negative digits) := by
  rw [exponentOf]
  split
  · exact stays_pure _
  · split
    · exact stays_pure _
    · exact Fails.stays fun size bytes a rest h => by cases h

omit edge in
theorem stays_floatOf (n : Numeral) : Stays e (floatOf n) := by
  rw [floatOf]
  rcases n.significand with ⟨significand, power⟩
  rcases n.exponent with _ | ⟨negative, digits⟩
  case' none => refine (stays_pure _).bind fun exponent => ?_
  case' some => refine (stays_exponentOf _ _ _).bind fun exponent => ?_
  all_goals
    dsimp only
    split
    · exact stays_pure _
    · split
      · exact stays_pure _
      · exact (fails_stop _).stays

theorem stays_number (negative : Bool) : Stays e (number negative) := by
  rw [number]
  refine (stays_numeral edge _).bind fun n => ?_
  split
  · exact stays_pure _
  · exact (stays_floatOf n).bind fun x => stays_pure _

end Numbers

/-! ## Values without parts -/

section Scalars

variable {e : Bytes} (edge : Edge e)
include edge

/-- a value without parts is taken from its first byte on -/
theorem staysAt_scalar (b : UInt8) (c : UInt8) : StaysAt e c (scalar b) := by
  rw [scalar]
  split
  · exact Stays.skip ((stays_letters edge _ (by decide)).bind fun _ => stays_pure _)
  · split
    · exact Stays.skip ((stays_letters edge _ (by decide)).bind fun _ => stays_pure _)
    · split
      · exact Stays.skip ((stays_letters edge _ (by decide)).bind fun _ => stays_pure _)
      · split
        · exact Stays.skip ((stays_string edge).bind fun _ => stays_pure _)
        · split
          · exact Stays.skip ((stays_number edge true).bind fun _ => stays_pure _)
          · split
            · exact ((stays_number edge false).bind fun _ => stays_pure _).staysAt
            · exact (fails_stopNext _).staysAt

theorem stays_leading : Stays e leading := by
  rw [leading]
  refine stays_token edge (fun b => ?_) fun size a rest h => ?_
  · split
    · exact (stays_pure _).staysAt
    · split
      · exact (stays_pure _).staysAt
      · exact staysAt_scalar edge b b
  · cases h
    rfl

omit edge in
theorem fails_mismatch (expected : String) : Fails (mismatch expected : Reading α) :=
  fails_bind _ fun _ => fails_stop _

theorem stays_text : Stays e text := by
  rw [text]
  refine (stays_leading edge).bind fun v => ?_
  split
  · exact stays_pure _
  · exact (fails_stop _).stays

theorem stays_flag : Stays e flag := by
  rw [flag]
  refine (stays_leading edge).bind fun v => ?_
  split
  · exact stays_pure _
  · exact (fails_stop _).stays

theorem stays_count (most : Nat) (expected : String) : Stays e (count most expected) := by
  rw [count]
  refine (stays_leading edge).bind fun v => ?_
  split
  · split
    · exact stays_pure _
    · exact (fails_stop _).stays
  · exact (fails_stop _).stays

end Scalars

/-! ## Between the parts of arrays and objects -/

section Parts

variable {e : Bytes} (edge : Edge e)
include edge

theorem stays_colon : Stays e colon := by
  rw [colon]
  refine stays_mark edge (fun b => ?_) (fails_stopNext _) (fails_stopNext _)
  dsimp only
  split
  · exact Stays.skip (stays_pure ())
  · exact (fails_stopNext _).staysAt

theorem stays_hasItem (isFirst : Bool) : Stays e (hasItem isFirst) := by
  have comma (b : UInt8) : StaysAt e b (do
      skip
      if (← token) = 0x5d then stopNext .trailingComma else return true : Reading Bool) := by
    refine Stays.skip (stays_token edge (fun b => ?_) fun size a rest h => ?_)
    · split
      · exact (fails_stopNext _).staysAt
      · exact (stays_pure _).staysAt
    · cases h
      rfl
  rw [hasItem]
  refine stays_token? edge (fun b => ?_) fun size a rest h => ?_
  · dsimp only
    split
    · exact (stays_pure _).staysAt
    · split
      · exact (stays_pure _).staysAt
      · split
        · exact comma b
        · exact (fails_stopNext _).staysAt
  · rcases edge with rfl | ⟨rest', rfl⟩
    · exact absurd h (fails_stopNext _ _ _ _ _)
    · cases isFirst with
      | true =>
        cases h
        rfl
      | false => exact absurd h (fails_stopNext _ _ _ _ _)

theorem stays_endArray : Stays e endArray := by
  rw [endArray]
  refine stays_mark edge (fun b => ?_) (fails_stopNext _) (fails_stopNext _)
  dsimp only
  split
  · exact Stays.skip (stays_pure ())
  · split
    · refine Stays.skip ?_
      exact Fails.stays (fails_bind _ fun _ => fails_stopNext _)
    · exact (fails_stopNext _).staysAt

theorem stays_hasKey (isFirst : Bool) : Stays e (hasKey isFirst) := by
  have comma (b : UInt8) : StaysAt e b (do
      skip
      let b ← token
      if b = 0x22 then return true
      else stopNext (if b = 0x7d then .trailingComma else .keyNotString) : Reading Bool) := by
    refine Stays.skip (stays_token edge (fun b => ?_) fun size a rest h => ?_)
    · split
      · exact (stays_pure _).staysAt
      · exact (fails_stopNext _).staysAt
    · exact absurd h (fails_stopNext _ _ _ _ _)
  rw [hasKey]
  refine stays_mark edge (fun b => ?_) ?_ (fails_stopNext _)
  · dsimp only
    split
    · exact (stays_pure _).staysAt
    · split
      · split
        · exact (stays_pure _).staysAt
        · exact (fails_stopNext _).staysAt
      · split
        · exact comma b
        · exact (fails_stopNext _).staysAt
  · cases isFirst with
    | true => exact fails_stopNext _
    | false => exact fails_stopNext _

end Parts

end TableStore.Json.Reading
