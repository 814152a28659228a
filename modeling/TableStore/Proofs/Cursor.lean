/-
Programs that read a list at a position, one element after the other.

The library reads lists from the front and hands on what is left. A program that keeps the list and a position in it must
find out before every access whether the position is still inside, and may set it back. Here such programs are written
with the stop that an access outside would be (`Cursor.current`), and each is compared with the list that stands behind
its position: `Moves` says that a program, wherever it stands before these elements, is not stopped, what it answers, and
what stands behind its position afterwards.
-/
import Mathlib.Tactic
import TableStore.Proofs.Traps

namespace TableStore

/-- programs that read a list at a position of their own -/
abbrev Cursor (α : Type) := ReaderT (List α) (StateT Nat Checked)

namespace Cursor

variable {α β γ : Type}

/-- nothing is left to be read -/
def atEnd : Cursor α Bool := do return decide ((← read).length ≤ (← get))

/-- the element at the position, which must be inside -/
def current : Cursor α α := fun text pos => do return (← Checked.get text pos, pos)

/-- the element at the position, which moves behind it -/
def advance : Cursor α α := do
  let a ← current
  modify (· + 1)
  return a

/-- advance to the first element that is not of a kind, or to the end -/
def advanceWhile (p : α → Bool) : Cursor α (List α) := fun text pos =>
  if text.length ≤ pos then .ok ([], pos)
  else do
    let a ← Checked.get text pos
    if p a then
      let (more, last) ← advanceWhile p text (pos + 1)
      return (a :: more, last)
    else return ([], pos)
termination_by text pos => text.length - pos

/-- go back to where a program began if it has no value -/
def orBack (program : Cursor α (Option β)) : Cursor α (Option β) := do
  let start ← get
  match ← program with
  | some b => return some b
  | none =>
    set start
    return none

/-! ## Positions -/

/-- a position inside a list or at its end, and what stands behind it -/
structure At (text : List α) (pos : Nat) (rest : List α) : Prop where
  le : pos ≤ text.length
  drop : text.drop pos = rest

section At

variable {text rest : List α} {pos : Nat} {a : α}

theorem at_drop (le : pos ≤ text.length) : At text pos (text.drop pos) := ⟨le, rfl⟩

theorem At.length (h : At text pos rest) : pos + rest.length = text.length := by
  have le := h.le
  rw [← h.drop, List.length_drop]
  omega

theorem At.getElem? (h : At text pos (a :: rest)) : text[pos]? = some a := by
  have first := congrArg (·[0]?) h.drop
  simpa using first

theorem At.succ (h : At text pos (a :: rest)) : At text (pos + 1) rest := by
  constructor
  · have length := h.length
    rw [List.length_cons] at length
    omega
  · rw [← List.drop_drop, h.drop, List.drop_one, List.tail_cons]

end At

/-! ## Programs -/

/-- a program that stands before some elements answers a value and then stands before others, in whatever list -/
def Moves (program : Cursor α β) (before : List α) (b : β) (after : List α) : Prop :=
  ∀ text pos, At text pos before → ∃ pos', program text pos = .ok (b, pos') ∧ At text pos' after

theorem bind_apply (first : Cursor α β) (next : β → Cursor α γ) (text : List α) (pos : Nat) :
    (first >>= next) text pos = (first text pos).bind fun (b, pos) => next b text pos := rfl

section Moves

variable {before between after : List α} {a : α} {b : β} {c : γ}

theorem moves_pure (b : β) (before : List α) : Moves (pure b) before b before :=
  fun _ pos here => ⟨pos, rfl, here⟩

theorem Moves.bind {first : Cursor α β} {next : β → Cursor α γ} (h : Moves first before b between)
    (h' : Moves (next b) between c after) : Moves (first >>= next) before c after := by
  intro text pos here
  obtain ⟨middle, ran, there⟩ := h text pos here
  obtain ⟨last, ran', behind⟩ := h' text middle there
  refine ⟨last, ?_, behind⟩
  rw [bind_apply, ran]
  exact ran'

theorem Moves.map {program : Cursor α β} (h : Moves program before b after) (f : β → γ) :
    Moves (f <$> program) before (f b) after := by
  rw [map_eq_pure_bind]
  exact h.bind (moves_pure (f b) after)

theorem moves_atEnd (before : List α) : Moves (atEnd : Cursor α Bool) before before.isEmpty before := by
  intro text pos here
  refine ⟨pos, ?_, here⟩
  have length := here.length
  have same : decide (text.length ≤ pos) = before.isEmpty := by
    cases before with
    | nil => simpa using length.ge
    | cons a before =>
      rw [List.length_cons] at length
      simp only [List.isEmpty_cons, decide_eq_false_iff_not]
      omega
  rw [← same]
  rfl

theorem moves_current (a : α) (before : List α) : Moves current (a :: before) a (a :: before) := by
  intro text pos here
  refine ⟨pos, ?_, here⟩
  rw [current, Checked.get_eq_ok here.getElem?]
  rfl

theorem moves_advance (a : α) (before : List α) : Moves advance (a :: before) a before := by
  intro text pos here
  refine ⟨pos + 1, ?_, here.succ⟩
  rw [advance, bind_apply, current, Checked.get_eq_ok here.getElem?]
  rfl

/-- the elements of a kind that stand at the front are passed: by induction on what stands behind the position -/
theorem moves_advanceWhile (p : α → Bool) (before : List α) :
    Moves (advanceWhile p) before (before.takeWhile p) (before.dropWhile p) := by
  induction before with
  | nil =>
    intro text pos here
    have ended : text.length ≤ pos := by simpa using here.length.ge
    refine ⟨pos, ?_, here⟩
    rw [advanceWhile, if_pos ended]
    rfl
  | cons a before ih =>
    intro text pos here
    have inside : ¬ text.length ≤ pos := by
      have length := here.length
      rw [List.length_cons] at length
      omega
    rw [advanceWhile, if_neg inside, Checked.get_eq_ok here.getElem?]
    by_cases kind : p a = true
    · obtain ⟨last, ran, behind⟩ := ih text (pos + 1) here.succ
      refine ⟨last, ?_, ?_⟩
      · show (if p a = true then _ else _ : Checked (List α × Nat)) = _
        rw [if_pos kind, ran, List.takeWhile_cons_of_pos kind]
        rfl
      · rwa [List.dropWhile_cons_of_pos kind]
    · refine ⟨pos, ?_, ?_⟩
      · show (if p a = true then _ else _ : Checked (List α × Nat)) = _
        rw [if_neg kind, List.takeWhile_cons_of_neg kind]
        rfl
      · rwa [List.dropWhile_cons_of_neg kind]

theorem Moves.orBack_some {program : Cursor α (Option β)} (h : Moves program before (some b) after) :
    Moves (orBack program) before (some b) after := by
  intro text pos here
  obtain ⟨last, ran, behind⟩ := h text pos here
  refine ⟨last, ?_, behind⟩
  show (program text pos).bind _ = _
  rw [ran]
  rfl

/-- wherever a program without a value has moved, the position is what it was -/
theorem Moves.orBack_none {program : Cursor α (Option β)} (h : Moves program before none after) :
    Moves (orBack program) before none before := by
  intro text pos here
  obtain ⟨last, ran, -⟩ := h text pos here
  refine ⟨pos, ?_, here⟩
  show (program text pos).bind _ = _
  rw [ran]
  rfl

end Moves

end Cursor
end TableStore
