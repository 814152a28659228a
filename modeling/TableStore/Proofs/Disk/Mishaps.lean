/-
Programs in which calls to the file system may fail, as often as they are made.

`Program.Stumbles` lets one call fail. Here it is said which calls may fail, each of them by the call that was made
before it (`Mishaps`), and `Program.Ends` says how a program may end then: each call does its work, or it is one that
may fail and fails. A sequence ends as its second part does behind the first one (`Program.ends_bind`), the run of a
program is one of its ends (`Program.ends_run`), and the only one if no call may fail (`Program.Ends.run_eq`).

Most programs go no further behind a failed call, so an answer that is no error was come to without one (`Earnest`).
-/
import TableStore.Proofs.Disk.Unsaved

namespace TableStore

/-- which calls may fail, by the call that was made before them -/
abbrev Mishaps := Option Call → Call → Prop

namespace Mishaps

/-- some call may fail -/
def Any (may : Mishaps) : Prop := ∃ last c, may last c

/-- no call may fail -/
def none : Mishaps := fun _ _ => False

theorem not_any_none : ¬ none.Any := fun ⟨_, _, allowed⟩ => allowed

end Mishaps

namespace Program

/-- the call that was made last, and the disk behind it -/
structure Moment where
  last : Option Call
  disk : Disk

/-- how a program may end if these calls may fail -/
inductive Ends {α : Type} (may : Mishaps) : Program α → Moment → α → Moment → Prop where
  | done {a : α} {s : Moment} : Ends may (.done a) s a s
  | works {c : Call} {next : c.Reply → Program α} {s s' : Moment} {a : α} :
      Ends may (next (c.exec s.disk).1) ⟨some c, (c.exec s.disk).2⟩ a s' → Ends may (.call c next) s a s'
  | fails {c : Call} {next : c.Reply → Program α} {s s' : Moment} {a : α} {left : Disk} (fault : Fault) :
      may s.last c → c.Falters s.disk left → Ends may (next (c.refusal fault)) ⟨some c, left⟩ a s' →
        Ends may (.call c next) s a s'

section Ends

variable {α β : Type} {may : Mishaps} {s s' : Moment}

theorem ends_pure {a b : α} : Ends may (pure a) s b s' ↔ b = a ∧ s' = s := by
  refine ⟨fun ends => ?_, fun ⟨same, still⟩ => ?_⟩
  · cases ends
    exact ⟨rfl, rfl⟩
  · subst same still
    exact .done

theorem ends_call {c : Call} {next : c.Reply → Program α} {a : α} :
    Ends may (.call c next) s a s' ↔
      Ends may (next (c.exec s.disk).1) ⟨some c, (c.exec s.disk).2⟩ a s'
        ∨ ∃ fault left, may s.last c ∧ c.Falters s.disk left
            ∧ Ends may (next (c.refusal fault)) ⟨some c, left⟩ a s' := by
  refine ⟨fun ends => ?_, fun ends => ?_⟩
  · cases ends with
    | works ends => exact .inl ends
    | fails fault allowed falters ends => exact .inr ⟨fault, _, allowed, falters, ends⟩
  · rcases ends with ends | ⟨fault, left, allowed, falters, ends⟩
    · exact .works ends
    · exact .fails fault allowed falters ends

/-- a sequence ends as its second part does, begun where the first one ends -/
theorem ends_bind {p : Program α} {f : α → Program β} {b : β} :
    Ends may (p >>= f) s b s' ↔ ∃ a mid, Ends may p s a mid ∧ Ends may (f a) mid b s' := by
  induction p generalizing s with
  | done a =>
    refine ⟨fun ends => ⟨a, s, .done, ends⟩, fun ⟨a', mid, first, second⟩ => ?_⟩
    obtain ⟨rfl, rfl⟩ := ends_pure.1 first
    exact second
  | call c next ih =>
    have step : Ends may (call c next >>= f) s b s' ↔
        Ends may (next (c.exec s.disk).1 >>= f) ⟨some c, (c.exec s.disk).2⟩ b s'
          ∨ ∃ fault left, may s.last c ∧ c.Falters s.disk left
              ∧ Ends may (next (c.refusal fault) >>= f) ⟨some c, left⟩ b s' := ends_call
    simp only [step, ih, ends_call]
    refine ⟨fun ends => ?_, fun ends => ?_⟩
    · rcases ends with ⟨a, mid, first, second⟩ | ⟨fault, left, allowed, falters, a, mid, first, second⟩
      · exact ⟨a, mid, .inl first, second⟩
      · exact ⟨a, mid, .inr ⟨fault, left, allowed, falters, first⟩, second⟩
    · obtain ⟨a, mid, first | ⟨fault, left, allowed, falters, first⟩, second⟩ := ends
      · exact .inl ⟨a, mid, first, second⟩
      · exact .inr ⟨fault, left, allowed, falters, a, mid, first, second⟩

theorem ends_map {p : Program α} {f : α → β} {b : β} :
    Ends may (f <$> p) s b s' ↔ ∃ a, Ends may p s a s' ∧ b = f a := by
  rw [map_eq_pure_bind, ends_bind]
  refine ⟨fun ⟨a, mid, first, second⟩ => ?_, fun ⟨a, ends, same⟩ => ⟨a, s', ends, ends_pure.2 ⟨same, rfl⟩⟩⟩
  obtain ⟨rfl, rfl⟩ := ends_pure.1 second
  exact ⟨a, first, rfl⟩

theorem ends_perform {c : Call} {reply : c.Reply} :
    Ends may (perform c) s reply s' ↔
      (reply = (c.exec s.disk).1 ∧ s' = ⟨some c, (c.exec s.disk).2⟩)
        ∨ ∃ fault left, may s.last c ∧ c.Falters s.disk left ∧ reply = c.refusal fault ∧ s' = ⟨some c, left⟩ := by
  refine ends_call.trans (or_congr ends_pure ?_)
  simp only [← pure_def, ends_pure]

/-- a run without failures is always possible -/
theorem ends_run (may : Mishaps) (p : Program α) (s : Moment) :
    ∃ last, Ends may p s (p.run s.disk).1 ⟨last, (p.run s.disk).2⟩ := by
  induction p generalizing s with
  | done a => exact ⟨s.last, .done⟩
  | call c next ih =>
    obtain ⟨last, ends⟩ := ih (c.exec s.disk).1 ⟨some c, (c.exec s.disk).2⟩
    exact ⟨last, .works ends⟩

theorem ends_of_run (may : Mishaps) {p : Program α} {a : α} {d d' : Disk} (ran : p.run d = (a, d')) :
    ∃ last, Ends may p ⟨none, d⟩ a ⟨last, d'⟩ := by
  obtain ⟨last, ends⟩ := ends_run may p ⟨none, d⟩
  rw [ran] at ends
  exact ⟨last, ends⟩

/-- the run in which the chosen calls fail and do nothing -/
def failing (fault : Fault) (chosen : Option Call → Call → Bool) : Program α → Moment → α × Moment
  | .done a, s => (a, s)
  | .call c next, s =>
    if chosen s.last c then failing fault chosen (next (c.refusal fault)) ⟨some c, s.disk⟩
    else failing fault chosen (next (c.exec s.disk).1) ⟨some c, (c.exec s.disk).2⟩

theorem ends_failing (fault : Fault) {chosen : Option Call → Call → Bool}
    (falters : ∀ last c d, chosen last c = true → c.Falters d d) (p : Program α) (s : Moment) :
    Ends (fun last c => chosen last c = true) p s (failing fault chosen p s).1 (failing fault chosen p s).2 := by
  induction p generalizing s with
  | done a => exact .done
  | call c next ih =>
    rw [failing]
    by_cases fails : chosen s.last c = true
    · rw [if_pos fails]
      exact .fails fault fails (falters _ _ _ fails) (ih _ _)
    · rw [if_neg fails]
      exact .works (ih _ _)

/-! ## Ends that are runs -/

/-- no call may fail while a program runs from here -/
def Unfailing (may : Mishaps) : Program α → Moment → Prop
  | .done _, _ => True
  | .call c next, s => ¬ may s.last c ∧ Unfailing may (next (c.exec s.disk).1) ⟨some c, (c.exec s.disk).2⟩

theorem Ends.run_of_unfailing {p : Program α} {a : α} (ends : Ends may p s a s') (h : Unfailing may p s) :
    p.run s.disk = (a, s'.disk) := by
  induction ends with
  | done => rfl
  | works _ ih => exact ih h.2
  | fails _ allowed => exact absurd allowed h.1

theorem unfailing_of_not_any (calm : ¬ may.Any) (p : Program α) (s : Moment) : Unfailing may p s := by
  induction p generalizing s with
  | done a => trivial
  | call c next ih => exact ⟨fun allowed => calm ⟨_, _, allowed⟩, ih _ _⟩

/-- where no call may fail a program ends as it runs -/
theorem Ends.run_eq {p : Program α} {a : α} (ends : Ends may p s a s') (calm : ¬ may.Any) :
    p.run s.disk = (a, s'.disk) := ends.run_of_unfailing (unfailing_of_not_any calm p s)

/-! ## Programs that change no disk -/

/-- all calls of a program leave the disk as it is, whatever is answered to them -/
def Still : Program α → Prop
  | .done _ => True
  | .call c next =>
    (∀ d, (c.exec d).2 = d) ∧ (∀ d left, c.Falters d left → left = d) ∧ ∀ reply, Still (next reply)

theorem Still.disk_eq {p : Program α} {a : α} (h : p.Still) (ends : Ends may p s a s') : s'.disk = s.disk := by
  induction ends with
  | done => rfl
  | works _ ih => exact (ih (h.2.2 _)).trans (h.1 _)
  | fails _ _ falters _ ih => exact (ih (h.2.2 _)).trans (h.2.1 _ _ falters)

theorem Still.disk_run {p : Program α} (h : p.Still) (d : Disk) : (p.run d).2 = d := by
  obtain ⟨last, ends⟩ := ends_run .none p ⟨none, d⟩
  exact h.disk_eq ends

theorem Still.bind {p : Program α} {f : α → Program β} (first : p.Still) (second : ∀ a, (f a).Still) :
    (p >>= f).Still := by
  induction p with
  | done a => exact second a
  | call c next ih => exact ⟨first.1, first.2.1, fun reply => ih reply (first.2.2 reply)⟩

end Ends
end Program

/-! ## Programs that answer -/

section Answers

open Program

variable {ε ε' α β : Type} {may : Mishaps} {s s' : Moment} {x : ExceptT ε Program α}

/-- a sequence ends in an error of its first part, or as its second part does -/
theorem ends_then {g : α → ExceptT ε Program β} {r : Except ε β} :
    Ends may (x >>= g).run s r s' ↔
      (∃ e, Ends may x.run s (.error e) s' ∧ r = .error e)
        ∨ ∃ a mid, Ends may x.run s (.ok a) mid ∧ Ends may (g a).run mid r s' := by
  rw [ExceptT.run_bind, ends_bind]
  refine ⟨fun ⟨answer, mid, first, second⟩ => ?_, fun ends => ?_⟩
  · cases answer with
    | error e =>
      obtain ⟨rfl, rfl⟩ := ends_pure.1 second
      exact .inl ⟨e, first, rfl⟩
    | ok a => exact .inr ⟨a, mid, first, second⟩
  · rcases ends with ⟨e, first, rfl⟩ | ⟨a, mid, first, second⟩
    · exact ⟨.error e, s', first, .done⟩
    · exact ⟨.ok a, mid, first, second⟩

theorem ends_adapt {f : ε → ε'} {r : Except ε' α} :
    Ends may (ExceptT.adapt f x).run s r s' ↔ ∃ answer, Ends may x.run s answer s' ∧ r = answer.mapError f := by
  show Ends may (Except.mapError f <$> x.run) s r s' ↔ _
  exact ends_map

theorem ends_adapt_error {f : ε → ε'} {e' : ε'} :
    Ends may (ExceptT.adapt f x).run s (.error e') s' ↔ ∃ e, Ends may x.run s (.error e) s' ∧ e' = f e := by
  rw [ends_adapt]
  refine ⟨fun ⟨answer, ends, same⟩ => ?_, fun ⟨e, ends, same⟩ => ⟨.error e, ends, congrArg Except.error same⟩⟩
  cases answer with
  | error e =>
    cases same
    exact ⟨e, ends, rfl⟩
  | ok a => cases same

theorem ends_adapt_ok {f : ε → ε'} {a : α} :
    Ends may (ExceptT.adapt f x).run s (.ok a) s' ↔ Ends may x.run s (.ok a) s' := by
  rw [ends_adapt]
  refine ⟨fun ⟨answer, ends, same⟩ => ?_, fun ends => ⟨.ok a, ends, rfl⟩⟩
  cases answer with
  | error e => cases same
  | ok b =>
    cases same
    exact ends

/-- a program that answers with its own errors only -/
theorem ends_lift {p : Program α} {r : Except ε α} :
    Ends may (ExceptT.lift p : ExceptT ε Program α).run s r s' ↔ ∃ a, Ends may p s a s' ∧ r = .ok a := by
  show Ends may (Except.ok <$> p) s r s' ↔ _
  exact ends_map

/-! ### Still programs -/

/-- all calls of a program leave the disk as it is -/
def Still (x : ExceptT ε Program α) : Prop := x.run.Still

theorem still_pure (a : α) : Still (pure a : ExceptT ε Program α) := trivial

theorem still_throw (e : ε) : Still (throw e : ExceptT ε Program α) := trivial

theorem Still.disk_eq {r : Except ε α} (h : Still x) (ends : Ends may x.run s r s') : s'.disk = s.disk :=
  Program.Still.disk_eq h ends

theorem Still.disk_run (h : Still x) (d : Disk) : (x.run.run d).2 = d := Program.Still.disk_run h d

/-- the run of a program that changes nothing is its answer -/
theorem Still.run_eq (h : Still x) (d : Disk) : x.run.run d = ((x.run.run d).1, d) := Prod.ext rfl (h.disk_run d)

theorem Still.bind {g : α → ExceptT ε Program β} (first : Still x) (second : ∀ a, Still (g a)) : Still (x >>= g) := by
  rw [Still, ExceptT.run_bind]
  refine Program.Still.bind first fun answer => ?_
  cases answer with
  | error e => trivial
  | ok a => exact second a

theorem Still.adapt (h : Still x) (f : ε → ε') : Still (ExceptT.adapt f x) := by
  show (Except.mapError f <$> x.run).Still
  rw [map_eq_pure_bind]
  exact Program.Still.bind h fun _ => trivial

/-! ### Earnest programs -/

/-- an answer that is no error is the one of the run: no call has failed on the way -/
def Earnest (x : ExceptT ε Program α) : Prop :=
  ∀ may s a s', Ends may x.run s (.ok a) s' → x.run.run s.disk = (.ok a, s'.disk)

theorem earnest_of_pure (r : Except ε α) : Earnest (ExceptT.mk (pure r) : ExceptT ε Program α) := by
  intro may s a s' ends
  obtain ⟨rfl, rfl⟩ := ends_pure.1 ends
  rfl

/-- a call that is answered with an error if it fails -/
theorem earnest_call {c : Call} {next : c.Reply → Program (Except ε α)}
    (refused : ∀ fault, ∃ e, next (c.refusal fault) = pure (.error e)) (rest : ∀ reply, Earnest (.mk (next reply))) :
    Earnest (ExceptT.mk (.call c next) : ExceptT ε Program α) := by
  intro may s a s' ends
  rcases ends_call.1 ends with ends | ⟨fault, left, -, -, ends⟩
  · exact rest _ may _ a s' ends
  · obtain ⟨e, refused⟩ := refused fault
    rw [refused] at ends
    cases (ends_pure.1 ends).1

theorem Earnest.bind {g : α → ExceptT ε Program β} (first : Earnest x) (second : ∀ a, Earnest (g a)) :
    Earnest (x >>= g) := by
  intro may s b s' ends
  rcases ends_then.1 ends with ⟨e, -, same⟩ | ⟨a, mid, ends, ends'⟩
  · cases same
  · rw [DataFile.run_then (first may s a mid ends)]
    exact second a may mid b s' ends'

theorem Earnest.adapt (h : Earnest x) (f : ε → ε') : Earnest (ExceptT.adapt f x) := by
  intro may s a s' ends
  have ran := h may s a s' (ends_adapt_ok.1 ends)
  show (Except.mapError f <$> x.run).run s.disk = _
  rw [run_map, ran]
  rfl

end Answers
end TableStore
