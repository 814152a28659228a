/-
An object behind other bytes.

Where an object in lines stands behind bytes that are not all blank, a reader of a record comes to its opening brace
inside the value that it is reading. It then skips the object as the value of an unknown field, and that uses up its
closing brace. Every bracket that is open must be closed by a byte of its own (`closers_skipRounds`), so nothing is
left to close the record with, and the document is refused (`document_behind`).
-/
import Mathlib.Data.List.TakeWhile
import TableStore.Proofs.Json.Edges

namespace TableStore.Json.Reading

variable {σ α : Type}

/-! ## Closing bytes -/

/-- how many bytes there are that can close an array or an object, those in strings too -/
def closers (bytes : Bytes) : Nat := bytes.countP fun b => b == 0x5d || b == 0x7d

theorem closers_le {bytes rest : Bytes} (suffix : rest <:+ bytes) : closers rest ≤ closers bytes :=
  List.Sublist.countP_le suffix.sublist

theorem closers_cons_closing (bracket : Bracket) (bytes : Bytes) :
    closers (bracket.closing :: bytes) = closers bytes + 1 := by
  cases bracket <;> simp [closers, Bracket.closing]

/-! ## What readers leave -/

theorem skip_bind (next : Unit → Reading α) (size : Nat) (b : UInt8) (bytes : Bytes) :
    (skip >>= next) size (b :: bytes) = next () size bytes := rfl

theorem edge_nil : Edge [] := .inl rfl

/-- what a reader leaves is the end of what it was given, if it stays before the end -/
theorem Stays.suffix {r : Reading α} (stays : Stays [] r) {size : Nat} {bytes rest : Bytes} {a : α}
    (h : r size bytes = .ok (a, rest)) : rest <:+ bytes := by
  rw [← List.append_nil bytes] at h
  obtain ⟨t', suffix, rfl⟩ := stays size bytes a rest h
  rwa [List.append_nil]

theorem StaysAt.suffix {r : Reading α} {b : UInt8} (stays : StaysAt [] b r) {size : Nat} {bytes rest : Bytes} {a : α}
    (h : r size (b :: bytes) = .ok (a, rest)) : rest <:+ b :: bytes := by
  rw [← List.append_nil (b :: bytes)] at h
  obtain ⟨t', suffix, rfl⟩ := stays size bytes a rest h
  rwa [List.append_nil]

/-- the next byte behind blanks is the first one of what is left -/
theorem token?_eq_ok {size : Nat} {bytes rest : Bytes} {o : Option UInt8} (h : token? size bytes = .ok (o, rest)) :
    o = rest.head? ∧ rest <:+ bytes := by
  cases h
  exact ⟨rfl, List.dropWhile_suffix isBlank⟩

theorem token_eq_ok {size : Nat} {bytes rest : Bytes} {b : UInt8} (h : token size bytes = .ok (b, rest)) :
    ∃ left, rest = b :: left ∧ rest <:+ bytes := by
  obtain ⟨o, left, looked, h⟩ := bind_eq_ok h
  obtain ⟨rfl, suffix⟩ := token?_eq_ok looked
  rcases left with _ | ⟨b', left⟩
  · exact absurd h (fails_stopNext _ _ _ _ _)
  · cases h
    exact ⟨left, rfl, suffix⟩

/-! ## Skipped values -/

section Skipping

variable {e : Bytes} (edge : Edge e)
include edge

theorem stays_skipKey (bracket : Bracket) : Stays e (skipKey bracket) := by
  cases bracket with
  | array => exact stays_pure ()
  | object =>
    rw [skipKey]
    refine stays_mark edge (fun b => ?_) (fails_stopNext _) (fails_stopNext _)
    dsimp only
    split
    · exact Stays.skip ((stays_skipString edge).bind fun _ => stays_colon edge)
    · exact (fails_stopNext _).staysAt

theorem stays_skipBehind (brackets : List Bracket) : Stays e (skipBehind brackets) := by
  induction brackets with
  | nil => exact stays_pure _
  | cons bracket outer ih =>
    have brace : (0x7b : UInt8) ≠ bracket.closing := by cases bracket <;> decide
    rw [skipBehind]
    refine stays_mark edge (fun b => ?_) ?_ (fails_stopNext _)
    · dsimp only
      split
      · exact Stays.skip ((stays_skipKey edge bracket).bind fun _ => stays_pure _)
      · split
        · exact Stays.skip ih
        · exact (fails_stopNext _).staysAt
    · dsimp only
      rw [if_neg (by decide), if_neg brace]
      exact fails_stopNext _

theorem staysAt_skipInto (bracket : Bracket) (outer : List Bracket) (b : UInt8) :
    StaysAt e b (skipInto bracket outer) := by
  have brace : (0x7b : UInt8) ≠ bracket.closing := by cases bracket <;> decide
  rw [skipInto]
  refine Stays.skip (stays_token? edge (fun b => ?_) fun size a rest h => ?_)
  · dsimp only
    split
    · exact Stays.skip (stays_skipBehind edge outer)
    · exact ((stays_skipKey edge bracket).bind fun _ => stays_pure _).staysAt
  · rcases edge with rfl | ⟨rest', rfl⟩
    · exact absurd h (fails_stopNext _ _ _ _ _)
    · dsimp only [List.head?] at h
      rw [if_neg brace] at h
      -- the object begins where an array has its first value; an object has a key there
      cases bracket with
      | array =>
        cases h
        rfl
      | object => cases h

theorem staysAt_skipScalar (b c : UInt8) : StaysAt e c (skipScalar b) := by
  have numeral : Stays e (discard (numeral .badNumber)) := (stays_numeral edge _).map _
  rw [skipScalar]
  split
  · exact Stays.skip (stays_letters edge _ (by decide))
  · split
    · exact Stays.skip (stays_letters edge _ (by decide))
    · split
      · exact Stays.skip (stays_letters edge _ (by decide))
      · split
        · exact Stays.skip (stays_skipString edge)
        · split
          · exact Stays.skip numeral
          · split
            · exact numeral.staysAt
            · exact (fails_stopNext _).staysAt

end Skipping

/-- how many brackets are open behind a round -/
def depth : Skipped → Nat
  | .inl brackets => brackets.length
  | .inr _ => 0

theorem closers_skipBehind {brackets : List Bracket} {size : Nat} {bytes rest : Bytes} {r : Skipped}
    (h : skipBehind brackets size bytes = .ok (r, rest)) :
    closers rest + brackets.length ≤ closers bytes + depth r := by
  induction brackets generalizing bytes with
  | nil =>
    cases h
    exact Nat.le_refl _
  | cons bracket outer ih =>
    rw [skipBehind] at h
    obtain ⟨o, left, looked, h⟩ := bind_eq_ok h
    obtain ⟨rfl, suffix⟩ := token?_eq_ok looked
    have fewer := closers_le suffix
    rcases left with _ | ⟨b, left⟩
    · exact absurd h (fails_stopNext _ _ _ _ _)
    · dsimp only [List.head?] at h
      split at h
      · rw [skip_bind] at h
        obtain ⟨_, left', ran, h⟩ := bind_eq_ok h
        cases h
        have dropped := closers_le (List.suffix_cons b left)
        have kept := closers_le ((stays_skipKey edge_nil bracket).suffix ran)
        show closers rest + (bracket :: outer).length ≤ closers bytes + (bracket :: outer).length
        omega
      · split at h
        · rename_i closing
          subst closing
          rw [skip_bind] at h
          have inner := ih h
          rw [closers_cons_closing] at fewer
          rw [List.length_cons]
          omega
        · exact absurd h (fails_stopNext _ _ _ _ _)

/-- an opening bracket needs one closing byte more -/
theorem closers_skipInto {bracket : Bracket} {outer : List Bracket} {size : Nat} {opening : UInt8}
    {bytes rest : Bytes} {r : Skipped} (h : skipInto bracket outer size (opening :: bytes) = .ok (r, rest)) :
    closers rest + outer.length + 1 ≤ closers bytes + depth r := by
  rw [skipInto, skip_bind] at h
  obtain ⟨o, left, looked, h⟩ := bind_eq_ok h
  obtain ⟨rfl, suffix⟩ := token?_eq_ok looked
  have fewer := closers_le suffix
  rcases left with _ | ⟨b, left⟩
  · exact absurd h (fails_stopNext _ _ _ _ _)
  · dsimp only [List.head?] at h
    split at h
    · rename_i closing
      subst closing
      rw [skip_bind] at h
      have behind := closers_skipBehind h
      rw [closers_cons_closing] at fewer
      omega
    · obtain ⟨_, left', ran, h⟩ := bind_eq_ok h
      cases h
      have kept := closers_le ((stays_skipKey edge_nil bracket).suffix ran)
      show closers rest + outer.length + 1 ≤ closers bytes + (bracket :: outer).length
      rw [List.length_cons]
      omega

/-- a round, from the first byte of a value on -/
def skipFrom (brackets : List Bracket) (b : UInt8) : Reading Skipped :=
  if b = 0x5b then skipInto .array brackets
  else if b = 0x7b then skipInto .object brackets
  else do
    skipScalar b
    skipBehind brackets

theorem skipRound_eq (brackets : List Bracket) : skipRound brackets = token >>= skipFrom brackets := rfl

/-- every bracket that is open needs a closing byte -/
theorem closers_skipRound {brackets : List Bracket} {size : Nat} {bytes rest : Bytes} {r : Skipped}
    (h : skipRound brackets size bytes = .ok (r, rest)) :
    closers rest + brackets.length ≤ closers bytes + depth r := by
  rw [skipRound_eq] at h
  obtain ⟨b, left, looked, h⟩ := bind_eq_ok h
  obtain ⟨left, rfl, suffix⟩ := token_eq_ok looked
  have fewer := closers_le suffix
  have dropped := closers_le (List.suffix_cons b left)
  unfold skipFrom at h
  split_ifs at h
  · have into := closers_skipInto h
    omega
  · have into := closers_skipInto h
    omega
  · obtain ⟨_, left', ran, h⟩ := bind_eq_ok h
    have scalar := closers_le ((staysAt_skipScalar edge_nil b b).suffix ran)
    have behind := closers_skipBehind h
    omega

theorem closers_skipRounds {n : Nat} {brackets : List Bracket} {size : Nat} {bytes rest : Bytes}
    (h : rounds skipRound n brackets size bytes = .ok ((), rest)) :
    closers rest + brackets.length ≤ closers bytes := by
  induction n generalizing brackets bytes with
  | zero => exact absurd h (fails_stop _ _ _ _ _)
  | succ n ih =>
    rw [rounds] at h
    obtain ⟨r, left, ran, h⟩ := bind_eq_ok h
    have round := closers_skipRound ran
    cases r with
    | inl inner =>
      have others := ih h
      dsimp only [depth] at round
      omega
    | inr =>
      cases h
      exact round

/-! ## Up to the object -/

/-- a token stands before an edge, or is the brace at the edge and has blanks before it -/
theorem token_append_cases {e : Bytes} (edge : Edge e) {size : Nat} {t rest : Bytes} {b : UInt8}
    (h : token size (t ++ e) = .ok (b, rest)) :
    (∃ t', b :: t' <:+ t ∧ rest = b :: t' ++ e) ∨ t.all isBlank = true ∧ b = 0x7b ∧ rest = e := by
  obtain ⟨o, left, looked, h⟩ := bind_eq_ok h
  obtain ⟨rfl, rfl⟩ : o = ((t ++ e).dropWhile isBlank).head? ∧ left = (t ++ e).dropWhile isBlank := by
    cases looked
    exact ⟨rfl, rfl⟩
  rw [edge.dropWhile_append] at h
  rcases dropped : t.dropWhile isBlank with _ | ⟨b', t'⟩
  · rw [dropped] at h
    rcases edge with rfl | ⟨rest', rfl⟩
    · exact absurd h (fails_stopNext _ _ _ _ _)
    · cases h
      exact .inr ⟨List.all_eq_true.2 (List.dropWhile_eq_nil_iff.1 dropped), rfl, rfl⟩
  · rw [dropped] at h
    cases h
    exact .inl ⟨t', dropped ▸ List.dropWhile_suffix isBlank, rfl⟩

theorem staysAt_skipFrom {e : Bytes} (edge : Edge e) (brackets : List Bracket) (b : UInt8) :
    StaysAt e b (skipFrom brackets b) := by
  unfold skipFrom
  split_ifs
  · exact staysAt_skipInto edge .array brackets b
  · exact staysAt_skipInto edge .object brackets b
  · exact (staysAt_skipScalar edge b b).bind fun _ => stays_skipBehind edge brackets

/-- a round stops before an edge, or opens the object at the edge -/
theorem skipRound_cases {e : Bytes} (edge : Edge e) {brackets : List Bracket} {size : Nat} {t rest : Bytes}
    {r : Skipped} (h : skipRound brackets size (t ++ e) = .ok (r, rest)) :
    (∃ t', t' <:+ t ∧ rest = t' ++ e) ∨ skipInto .object brackets size e = .ok (r, rest) := by
  rw [skipRound_eq] at h
  obtain ⟨b, left, looked, h⟩ := bind_eq_ok h
  rcases token_append_cases edge looked with ⟨t', suffix, rfl⟩ | ⟨-, rfl, here⟩
  · obtain ⟨t'', suffix', rfl⟩ := staysAt_skipFrom edge brackets b size t' r rest h
    exact .inl ⟨t'', suffix'.trans suffix, rfl⟩
  · rw [here] at h
    exact .inr h

section Object

variable {e : Bytes} (edge : Edge e) (few : closers e ≤ 1)
include edge few

theorem closers_skipEdge {brackets : List Bracket} {size : Nat} {rest : Bytes} {r : Skipped}
    (h : skipInto .object brackets size e = .ok (r, rest)) : closers rest + brackets.length ≤ depth r := by
  rcases edge with rfl | ⟨rest', rfl⟩
  · cases h
  · have dropped := closers_le (List.suffix_cons 0x7b (0x0a :: rest'))
    have into := closers_skipInto h
    omega

/-- behind an object that was skipped no byte is left that could close anything -/
theorem skipRounds_cases {n : Nat} {brackets : List Bracket} {size : Nat} {t rest : Bytes}
    (h : rounds skipRound n brackets size (t ++ e) = .ok ((), rest)) :
    (∃ t', t' <:+ t ∧ rest = t' ++ e) ∨ closers rest = 0 := by
  induction n generalizing brackets t with
  | zero => exact absurd h (fails_stop _ _ _ _ _)
  | succ n ih =>
    rw [rounds] at h
    obtain ⟨r, left, ran, h⟩ := bind_eq_ok h
    rcases skipRound_cases edge ran with ⟨t', suffix, rfl⟩ | opened
    · cases r with
      | inl inner =>
        rcases ih h with ⟨t'', suffix', rfl⟩ | none
        · exact .inl ⟨t'', suffix'.trans suffix, rfl⟩
        · exact .inr none
      | inr =>
        cases h
        exact .inl ⟨t', suffix, rfl⟩
    · -- the object is open; the rounds that are left use up one closing byte for each bracket, and there is one at most
      have into := closers_skipEdge edge few opened
      cases r with
      | inl inner =>
        have others := closers_skipRounds h
        dsimp only [depth] at into
        omega
      | inr =>
        cases h
        dsimp only [depth] at into
        omega

theorem skipValue_cases {size : Nat} {t rest : Bytes} (h : skipValue size (t ++ e) = .ok ((), rest)) :
    (∃ t', t' <:+ t ∧ rest = t' ++ e) ∨ closers rest = 0 :=
  skipRounds_cases edge few h

end Object

/-! ## Records -/

/-- a key begins with a quote; an object that has no more keys ends with a brace -/
theorem hasKey_eq_ok {isFirst more : Bool} {size : Nat} {bytes rest : Bytes}
    (h : hasKey isFirst size bytes = .ok (more, rest)) :
    ∃ left, rest = (if more then 0x22 else 0x7d) :: left := by
  rw [hasKey] at h
  obtain ⟨o, left, looked, h⟩ := bind_eq_ok h
  obtain ⟨rfl, -⟩ := token?_eq_ok looked
  rcases left with _ | ⟨b, left⟩
  · exact absurd h (fails_stopNext _ _ _ _ _)
  · dsimp only [List.head?] at h
    split_ifs at h with brace first quote comma
    · cases h
      exact ⟨left, by rw [brace]; rfl⟩
    · cases h
      exact ⟨left, by rw [quote]; rfl⟩
    · exact absurd h (fails_stopNext _ _ _ _ _)
    · rw [skip_bind] at h
      obtain ⟨b', left', looked, h⟩ := bind_eq_ok h
      obtain ⟨left', rfl, -⟩ := token_eq_ok looked
      split_ifs at h with quote brace
      · cases h
        exact ⟨left', by rw [quote]; rfl⟩
      · exact absurd h (fails_stopNext _ _ _ _ _)
      · exact absurd h (fails_stopNext _ _ _ _ _)
    · exact absurd h (fails_stopNext _ _ _ _ _)

/-- so both stand before an edge -/
theorem hasKey_append {e : Bytes} (edge : Edge e) {isFirst more : Bool} {size : Nat} {t rest : Bytes}
    (h : hasKey isFirst size (t ++ e) = .ok (more, rest)) :
    ∃ t', (if more then 0x22 else 0x7d) :: t' <:+ t ∧ rest = (if more then 0x22 else 0x7d) :: t' ++ e := by
  obtain ⟨t', suffix, same⟩ := stays_hasKey edge isFirst size t more rest h
  obtain ⟨left, head⟩ := hasKey_eq_ok h
  rcases t' with _ | ⟨b, t'⟩
  · have begins : e = (if more then 0x22 else 0x7d) :: left := same.symm.trans head
    rcases edge with rfl | ⟨rest', rfl⟩
    · cases begins
    · cases more <;> cases begins
  · have begins : b :: t' ++ e = (if more then 0x22 else 0x7d) :: left := same.symm.trans head
    obtain rfl : b = if more then 0x22 else 0x7d := (List.cons.inj begins).1
    exact ⟨t', suffix, same⟩

theorem staysAt_key {e : Bytes} (edge : Edge e) (b : UInt8) : StaysAt e b key := Stays.skip (stays_string edge)

/-- fields whose values are no objects: each is read before an edge -/
def FieldsStay (fields : List (Field σ)) : Prop := ∀ e, Edge e → ∀ field ∈ fields, ∀ s, Stays e (field.read s)

theorem fieldsStay_nil : FieldsStay ([] : List (Field σ)) := fun _ _ _ mem => absurd mem (List.not_mem_nil)

theorem FieldsStay.optional {value : Reading α} {name : String} {put : σ → α → σ} {fields : List (Field σ)}
    (stays : ∀ e, Edge e → Stays e value) (others : FieldsStay fields) :
    FieldsStay (.optional name value put :: fields) := by
  intro e edge field mem s
  rcases List.mem_cons.1 mem with rfl | mem
  · exact (stays e edge).bind fun _ => stays_pure _
  · exact others e edge field mem s

theorem stays_fieldsInOrder {e : Bytes} (edge : Edge e) {fields : List (Field σ)} (reads : FieldsStay fields)
    (expected : String) (i : Nat) (s : σ) : Stays e (fieldsInOrder expected i fields s) := by
  induction fields generalizing i s with
  | nil => exact (stays_endArray edge).bind fun _ => stays_pure s
  | cons field fields ih =>
    have others := ih fun e edge other mem => reads e edge other (List.mem_cons_of_mem _ mem)
    rw [fieldsInOrder]
    refine (stays_hasItem edge _).bind fun more => ?_
    split_ifs
    · exact (reads e edge field List.mem_cons_self s).bind fun s => others (i + 1) s
    · exact Fails.stays (fails_bind _ fun _ => fails_stop _)
    · exact others (i + 1) s

theorem fails_repeatedField {α : Type} (name : String) : Fails (repeatedField name : Reading α) := by
  unfold repeatedField
  refine fails_bind _ fun o => ?_
  split
  · exact fails_bind _ fun _ => fails_stop _
  · exact fails_stop _

section Object

variable {e : Bytes} (edge : Edge e) (few : closers e ≤ 1) {fields : List (Field σ)} (reads : FieldsStay fields)
include edge few reads

/-- a round takes a member before the edge, or skips the object, or takes the closing brace before the edge -/
theorem fieldRound_cases {st : Fields σ} {r : Fields σ ⊕ Fields σ} {size : Nat} {t rest : Bytes}
    (h : fieldRound fields st size (t ++ e) = .ok (r, rest)) :
    (∃ st' t', t' <:+ t ∧ rest = t' ++ e ∧ r = .inl st')
      ∨ (∃ st', closers rest = 0 ∧ r = .inl st')
      ∨ ∃ t', 0x7d :: t' <:+ t ∧ rest = t' ++ e ∧ r = .inr st := by
  rw [fieldRound] at h
  obtain ⟨more, left, ran, h⟩ := bind_eq_ok h
  obtain ⟨t₁, suffix, rfl⟩ := hasKey_append edge ran
  cases more with
  | false =>
    cases h
    exact .inr (.inr ⟨t₁, suffix, rfl, rfl⟩)
  | true =>
    obtain ⟨name, left, ran, h⟩ := bind_eq_ok h
    obtain ⟨t₂, suffix₂, rfl⟩ := staysAt_key edge _ _ _ _ _ ran
    have behind := suffix₂.trans suffix
    rcases found : fields.find? (·.name == name) with _ | field
    · rw [found] at h
      obtain ⟨_, left, ran, h⟩ := bind_eq_ok h
      obtain ⟨t₃, suffix₃, rfl⟩ := stays_colon edge _ _ _ _ ran
      obtain ⟨_, left, ran, h⟩ := bind_eq_ok h
      cases h
      rcases skipValue_cases edge few ran with ⟨t₄, suffix₄, rfl⟩ | none
      · exact .inl ⟨_, t₄, suffix₄.trans (suffix₃.trans behind), rfl, rfl⟩
      · exact .inr (.inl ⟨_, none, rfl⟩)
    · rw [found] at h
      dsimp only at h
      split_ifs at h
      · exact absurd h ((fails_repeatedField name).bind _ _ _ _ _)
      · obtain ⟨_, left, ran, h⟩ := bind_eq_ok h
        obtain ⟨t₃, suffix₃, rfl⟩ := stays_colon edge _ _ _ _ ran
        obtain ⟨value, left, ran, h⟩ := bind_eq_ok h
        have stays := reads e edge field (List.mem_of_find?_eq_some found) st.value
        obtain ⟨t₄, suffix₄, rfl⟩ := stays _ _ _ _ ran
        cases h
        exact .inl ⟨_, t₄, suffix₄.trans (suffix₃.trans behind), rfl, rfl⟩

end Object

/-- members end with a closing brace, so they do not end where no byte can close anything -/
theorem fieldRounds_ne_ok {fields : List (Field σ)} (reads : FieldsStay fields) {n : Nat} {st st' : Fields σ}
    {size : Nat} {bytes rest : Bytes} (none : closers bytes = 0) :
    rounds (fieldRound fields) n st size bytes ≠ .ok (st', rest) := by
  intro h
  induction n generalizing st bytes with
  | zero => exact absurd h (fails_stop _ _ _ _ _)
  | succ n ih =>
    rw [rounds] at h
    obtain ⟨r, left, ran, h⟩ := bind_eq_ok h
    rw [← List.append_nil bytes] at ran
    rcases fieldRound_cases edge_nil (Nat.zero_le 1) reads ran with
      ⟨st₁, t', suffix, rfl, rfl⟩ | ⟨st₁, gone, rfl⟩ | ⟨t', suffix, -, -⟩
    · have fewer := closers_le suffix
      refine ih ?_ h
      rw [List.append_nil]
      omega
    · exact ih gone h
    · have fewer := closers_le suffix
      have more : closers (0x7d :: t') = closers t' + 1 := closers_cons_closing .object t'
      omega

section Object

variable {e : Bytes} (edge : Edge e) (few : closers e ≤ 1) {fields : List (Field σ)} (reads : FieldsStay fields)
include edge few reads

theorem stays_fieldRounds (n : Nat) (st : Fields σ) : Stays e (rounds (fieldRound fields) n st) := by
  induction n generalizing st with
  | zero => exact (fails_stop _).stays
  | succ n ih =>
    intro size t st' rest h
    rw [rounds] at h
    obtain ⟨r, left, ran, h⟩ := bind_eq_ok h
    rcases fieldRound_cases edge few reads ran with
      ⟨st₁, t₁, suffix, rfl, rfl⟩ | ⟨st₁, none, rfl⟩ | ⟨t₁, suffix, rfl, rfl⟩
    · obtain ⟨t₂, suffix₂, rfl⟩ := ih st₁ size t₁ st' rest h
      exact ⟨t₂, suffix₂.trans suffix, rfl⟩
    · -- the object was the value of an unknown field, and the brace that ends the members is missing
      exact absurd h (fieldRounds_ne_ok reads none)
    · cases h
      exact ⟨t₁, (List.suffix_cons _ t₁).trans suffix, rfl⟩

theorem stays_fieldsByName (start : σ) : Stays e (fieldsByName fields start) := by
  have rounds : Stays e (loop (fieldRound fields) { value := start }) :=
    fun size t st rest h => stays_fieldRounds edge few reads (size + 1) { value := start } size t st rest h
  rw [fieldsByName]
  refine rounds.bind fun st => ?_
  split
  · exact (fails_stop _).stays
  · exact stays_pure _

/-- a record that begins before the edge ends before it -/
theorem record_append {name : String} {start s : σ} {size : Nat} {t rest : Bytes} (begins : t.all isBlank = false)
    (h : record name fields start size (t ++ e) = .ok (s, rest)) : ∃ t', rest = t' ++ e := by
  rw [record] at h
  obtain ⟨b, left, looked, h⟩ := bind_eq_ok h
  rcases token_append_cases edge looked with ⟨t₁, -, rfl⟩ | ⟨blank, -, -⟩
  · split_ifs at h
    · have stays := stays_fieldsInOrder edge reads (recordArray name fields) 0 start
      obtain ⟨t₂, -, rfl⟩ := stays _ _ _ _ h
      exact ⟨t₂, rfl⟩
    · obtain ⟨t₂, -, rfl⟩ := stays_fieldsByName edge few reads start _ _ _ _ h
      exact ⟨t₂, rfl⟩
    · exact absurd h (fails_mismatch _ _ _ _ _)
  · rw [begins] at blank
    cases blank

end Object

/-- behind an object that is left over no document ends -/
theorem finish_append {e : Bytes} (edge : Edge e) (some : e ≠ []) (size : Nat) (t rest : Bytes) (u : Unit) :
    finish size (t ++ e) ≠ .ok (u, rest) := by
  intro h
  rw [finish] at h
  obtain ⟨o, left, looked, h⟩ := bind_eq_ok h
  have here : o = ((t ++ e).dropWhile isBlank).head? := by
    cases looked
    rfl
  rw [edge.dropWhile_append] at here
  have more : o.isSome = true := by
    rw [here, List.isSome_head?]
    simpa using fun _ => some
  rw [if_pos more] at h
  exact absurd h (fails_stopNext _ _ _ _ _)

/-- an object in lines that stands behind bytes that are not all blank is no document -/
theorem document_behind {e : Bytes} (edge : Edge e) (some : e ≠ []) (few : closers e ≤ 1) {fields : List (Field σ)}
    (reads : FieldsStay fields) (name : String) (start : σ) {t : Bytes} (begins : t.all isBlank = false) :
    ∃ fault, (record name fields start).document (t ++ e) = .error fault := by
  rcases ran : (do let s ← record name fields start; finish; return s : Reading σ) (t ++ e).length (t ++ e)
    with stop | ⟨s, rest⟩
  · exact ⟨_, by rw [document, ran]⟩
  · obtain ⟨s, left, taken, h⟩ := bind_eq_ok ran
    obtain ⟨t', rfl⟩ := record_append edge few reads begins taken
    obtain ⟨u, left, finished, -⟩ := bind_eq_ok h
    exact absurd finished (finish_append edge some _ t' left u)

end TableStore.Json.Reading
