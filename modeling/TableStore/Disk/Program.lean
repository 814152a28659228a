/-
Programs on a disk: a value, or a call and what to do with each answer to it.

`run` performs all calls. `Stops` says which disks are left if the process ends somewhere on the way: before any of the
calls, after the last one, or inside a write of which only the first bytes arrive.
-/
import TableStore.Disk.Basic

namespace TableStore

inductive Program (α : Type) where
  | done (a : α)
  | call (c : Call) (next : c.Reply → Program α)

namespace Program
variable {α β : Type}

def bind : Program α → (α → Program β) → Program β
  | .done a, f => f a
  | .call c next, f => .call c fun reply => bind (next reply) f

instance : Monad Program where
  pure := .done
  bind := bind

theorem pure_def (a : α) : (pure a : Program α) = .done a := rfl

theorem bind_done (p : Program α) : p.bind .done = p := by
  induction p with
  | done a => rfl
  | call c next ih => exact congrArg (call c) (funext ih)

theorem bind_assoc {γ : Type} (p : Program α) (f : α → Program β) (g : β → Program γ) :
    (p.bind f).bind g = p.bind fun a => (f a).bind g := by
  induction p with
  | done a => rfl
  | call c next ih => exact congrArg (call c) (funext ih)

instance : LawfulMonad Program := LawfulMonad.mk' Program bind_done (fun _ _ => rfl) bind_assoc

/-- one call -/
def perform (c : Call) : Program c.Reply := .call c .done

/-- the value of a program and the disk after it -/
def run : Program α → Disk → α × Disk
  | .done a, d => (a, d)
  | .call c next, d => (next (c.exec d).1).run (c.exec d).2

theorem run_pure (a : α) (d : Disk) : (pure a : Program α).run d = (a, d) := rfl

theorem run_bind (p : Program α) (f : α → Program β) (d : Disk) :
    (p >>= f).run d = (f (p.run d).1).run (p.run d).2 := by
  induction p generalizing d with
  | done a => rfl
  | call c next ih => exact ih _ _

theorem run_perform (c : Call) (d : Disk) : (perform c).run d = c.exec d := rfl

/-- what a call leaves if the process ends inside it: of a write the first bytes, of any other call nothing -/
def torn : Call → Disk → Disk → Prop
  | .write h place bytes, d, left => ∃ n, left = ((Call.write h place (bytes.take n)).exec d).2
  | _, d, left => left = d

/-- the disks that are left if the process ends while it runs a program -/
inductive Stops : Program α → Disk → Disk → Prop where
  | between (p : Program α) (d : Disk) : Stops p d d
  | inside {c : Call} {next : c.Reply → Program α} {d left : Disk} : torn c d left → Stops (.call c next) d left
  | later {c : Call} {next : c.Reply → Program α} {d left : Disk} :
      Stops (next (c.exec d).1) (c.exec d).2 left → Stops (.call c next) d left

end Program
end TableStore
