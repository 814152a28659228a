/-
Readers on what they are meant to read.

A reader takes some bytes for a value if it does so whatever stands behind them, in any document that is large enough
to hold them (`Takes`). Such facts compose: a sequence takes the bytes of its parts one after the other
(`takes_bind`), a loop those of its rounds (`Rounds.takes`), and a reader that looks at the next byte first takes what
its branch for that byte takes (`takes_token`).
-/
import Mathlib.Tactic
import TableStore.Json.Reading

namespace TableStore.Json.Reading

variable {σ α β : Type}

/-- a reader takes these bytes for a value and leaves what is behind them -/
def Takes (r : Reading α) (bytes : Bytes) (a : α) : Prop :=
  ∀ size rest, (bytes ++ rest).length ≤ size → r size (bytes ++ rest) = .ok (a, rest)

theorem takes_pure (a : α) : Takes (pure a) [] a := fun _ _ _ => rfl

theorem takes_bind {first : Reading α} {next : α → Reading β} {b₁ b₂ : Bytes} {a : α} {b : β}
    (h₁ : Takes first b₁ a) (h₂ : Takes (next a) b₂ b) : Takes (first >>= next) (b₁ ++ b₂) b := by
  intro size rest fits
  rw [List.append_assoc] at fits ⊢
  rw [bind_apply, h₁ size (b₂ ++ rest) fits]
  refine h₂ size rest ?_
  rw [List.length_append] at fits
  omega

/-- what comes last may only make something of the value -/
theorem takes_bind_pure {r : Reading α} {next : α → Reading β} {bytes : Bytes} {a : α} {b : β} (h : Takes r bytes a)
    (made : next a = pure b) : Takes (r >>= next) bytes b := by
  rw [← List.append_nil bytes]
  refine takes_bind h ?_
  rw [made]
  exact takes_pure b

theorem takes_map {r : Reading α} {bytes : Bytes} {a : α} (h : Takes r bytes a) (f : α → β) :
    Takes (f <$> r) bytes (f a) := by
  rw [map_eq_pure_bind]
  exact takes_bind_pure h rfl

/-! ## The next byte -/

theorem takes_skip {next : Unit → Reading α} {b : UInt8} {bytes : Bytes} {a : α} (h : Takes (next ()) bytes a) :
    Takes (skip >>= next) (b :: bytes) a := by
  intro size rest fits
  refine h size rest ?_
  simp only [List.cons_append, List.length_cons] at fits
  omega

theorem takes_take {next : Option UInt8 → Reading α} {b : UInt8} {bytes : Bytes} {a : α}
    (h : Takes (next (some b)) bytes a) : Takes (take? >>= next) (b :: bytes) a := by
  intro size rest fits
  refine h size rest ?_
  simp only [List.cons_append, List.length_cons] at fits
  omega

/-- bytes of a kind, up to one that is not -/
theorem takes_while {p : UInt8 → Bool} {next : Bytes → Reading α} {kind : Bytes} {b : UInt8} {bytes : Bytes} {a : α}
    (all : ∀ x ∈ kind, p x = true) (other : p b = false) (h : Takes (next kind) (b :: bytes) a) :
    Takes (takeWhile p >>= next) (kind ++ b :: bytes) a := by
  intro size rest fits
  have behind : (b :: bytes ++ rest).takeWhile p = [] ∧ (b :: bytes ++ rest).dropWhile p = b :: bytes ++ rest := by
    simp [other]
  have taken : takeWhile p size (kind ++ b :: bytes ++ rest) = .ok (kind, b :: bytes ++ rest) := by
    show Except.ok ((kind ++ b :: bytes ++ rest).takeWhile p, (kind ++ b :: bytes ++ rest).dropWhile p) = _
    rw [List.append_assoc, List.takeWhile_append_of_pos all, List.dropWhile_append_of_pos all, behind.1, behind.2,
      List.append_nil]
  rw [bind_apply, taken]
  refine h size rest ?_
  rw [List.append_assoc, List.length_append] at fits
  omega

theorem takes_token? {next : Option UInt8 → Reading α} {b : UInt8} {bytes : Bytes} {a : α} (mark : isBlank b = false)
    (h : Takes (next (some b)) (b :: bytes) a) : Takes (token? >>= next) (b :: bytes) a := by
  intro size rest fits
  have looked : token? size (b :: bytes ++ rest) = .ok (some b, b :: bytes ++ rest) := by
    show Except.ok ((((b :: bytes ++ rest).dropWhile isBlank).head?, (b :: bytes ++ rest).dropWhile isBlank)) = _
    rw [List.cons_append, List.dropWhile_cons_of_neg (by simp [mark])]
    rfl
  rw [bind_apply, looked]
  exact h size rest fits

theorem takes_token {next : UInt8 → Reading α} {b : UInt8} {bytes : Bytes} {a : α} (mark : isBlank b = false)
    (h : Takes (next b) (b :: bytes) a) : Takes (token >>= next) (b :: bytes) a := by
  rw [token, bind_assoc]
  exact takes_token? mark h

/-! ## Loops -/

/-- rounds of a loop that take some bytes, each but the last one a byte or more -/
inductive Rounds (round : σ → Reading (σ ⊕ α)) : σ → Bytes → α → Prop where
  | last {s bytes a} : Takes (round s) bytes (.inr a) → Rounds round s bytes a
  | more {s s' b₁ b₂ a} : Takes (round s) b₁ (.inl s') → b₁ ≠ [] → Rounds round s' b₂ a → Rounds round s (b₁ ++ b₂) a

theorem Rounds.takes_rounds {round : σ → Reading (σ ⊕ α)} {s : σ} {bytes : Bytes} {a : α} (h : Rounds round s bytes a)
    {n : Nat} (enough : bytes.length < n) : Takes (rounds round n s) bytes a := by
  induction h generalizing n with
  | @last s bytes a step =>
    obtain ⟨n, rfl⟩ : ∃ m, n = m + 1 := ⟨n - 1, by omega⟩
    rw [rounds, ← List.append_nil bytes]
    exact takes_bind step (takes_pure _)
  | more step some _ ih =>
    obtain ⟨n, rfl⟩ : ∃ m, n = m + 1 := ⟨n - 1, by omega⟩
    have positive := List.length_pos_iff.2 some
    rw [List.length_append] at enough
    exact takes_bind step (ih (by omega))

/-- a loop has a round for every byte and one more -/
theorem takes_loop {round : σ → Reading (σ ⊕ α)} {s : σ} {bytes : Bytes} {a : α}
    (h : ∀ n, bytes.length < n → Takes (rounds round n s) bytes a) : Takes (loop round s) bytes a := by
  intro size rest fits
  refine h (size + 1) ?_ size rest fits
  rw [List.length_append] at fits
  omega

/-- a loop takes what its rounds take -/
theorem Rounds.takes {round : σ → Reading (σ ⊕ α)} {s : σ} {bytes : Bytes} {a : α} (h : Rounds round s bytes a) :
    Takes (loop round s) bytes a :=
  takes_loop fun _ enough => h.takes_rounds enough

/-! ## Documents -/

/-- a document holds the value that is read if nothing but blanks is left -/
theorem document_eq_ok {r : Reading α} {bytes left : Bytes} {a : α} (taken : r bytes.length bytes = .ok (a, left))
    (finished : finish bytes.length left = .ok ((), [])) : r.document bytes = .ok a := by
  have all : (do let a ← r; finish; return a : Reading α) bytes.length bytes = .ok (a, []) := by
    rw [bind_apply, taken]
    show (finish >>= fun _ => pure a) bytes.length left = _
    rw [bind_apply, finished]
    rfl
  rw [document, all]

/-- a document that is just what a reader takes holds the value -/
theorem document_eq {r : Reading α} {bytes : Bytes} {a : α} (h : Takes r bytes a) : r.document bytes = .ok a := by
  have taken : r bytes.length bytes = .ok (a, []) := by
    have whole := h bytes.length [] (by simp)
    rwa [List.append_nil] at whole
  exact document_eq_ok taken rfl

end TableStore.Json.Reading
