/-
Queries in turns.

The clients of a database share one lock. A create and an insert hold it once; a select holds it to look the schema up,
lets it go, and if there is a schema holds it again to read the rows. All else that is done for a query touches no
file. So what is left to do of a query is a `Task`: an answer, or one turn under the lock and what to do with the reply
to it.

The task of a query is its execution over again, with turns in the place of operations (`Task.execute`). Taking all its
turns without a pause is executing the query (`Task.through_execute`). It has at most one turn, unless it is the task of
a select (`Task.execute_cases`).
-/
import TableStore.Proofs.Store.Growing

namespace TableStore

open Tables (Operation)

/-- an answer, or a turn under the lock and what to do with the reply to it -/
inductive Task (α : Type) where
  | done (a : α)
  | turn (operation : Operation) (next : operation.Reply → Task α)

namespace Task

section Monad

variable {α β γ : Type}

def bind : Task α → (α → Task β) → Task β
  | .done a, f => f a
  | .turn operation next, f => .turn operation fun reply => bind (next reply) f

instance : Monad Task where
  pure := .done
  bind := bind

theorem bind_done (p : Task α) : p.bind .done = p := by
  induction p with
  | done a => rfl
  | turn operation next ih => exact congrArg (turn operation) (funext ih)

theorem bind_bind (p : Task α) (f : α → Task β) (g : β → Task γ) :
    (p.bind f).bind g = p.bind fun a => (f a).bind g := by
  induction p with
  | done a => rfl
  | turn operation next ih => exact congrArg (turn operation) (funext ih)

instance : LawfulMonad Task := LawfulMonad.mk' Task bind_done (fun _ _ => rfl) bind_bind

end Monad

/-! ## The task of a query -/

def create (table : String) (columns types : List String) : ExceptT Error Task Unit :=
  ExceptT.mk (turn (.create table columns types) done)

def insert (table : String) (columns values : List String) : ExceptT Error Task Unit :=
  ExceptT.mk (turn (.insert table columns values) done)

/-- the tables as what selects read from, one turn for the schema and one for the rows -/
def source : Source Task where
  schema table := ExceptT.mk (turn (.schema table) done)
  rows table := ExceptT.mk (turn (.rows table) done)

def perform : Statement → ExceptT Error Task Answer
  | .create c => inContext "execute create statement" do
    create c.table c.columns c.types
    return .created c.table
  | .insert i => inContext "execute insert statement" do
    insert i.table i.columns i.values
    return .inserted
  | .select s => inContext "execute select statement" do
    return .records (← (Plan.ofSelect s).run source)

def execute (query : String) : ExceptT Error Task Answer := do
  let statement ← inContext "grammatically invalid" (ExceptT.mk (pure (Statement.parse query)))
  perform statement

/-! ## All turns without a pause -/

section Through

variable {α β : Type}

/-- a task through an instance that nobody else uses -/
def on (t : Tables) : Task α → Program α
  | .done a => pure a
  | .turn operation next => operation.ask t >>= fun reply => on t (next reply)

def through (t : Tables) (p : ExceptT Error Task α) : StoreM α := ExceptT.mk (p.run.on t)

variable {t : Tables}

/-- the first turn, and then the rest on the disk that it leaves -/
theorem run_turn {operation : Operation} {next : operation.Reply → Task α} {reply : operation.Reply} {d d' : Disk}
    (asked : (operation.ask t).run d = (reply, d')) :
    ((turn operation next).on t).run d = ((next reply).on t).run d' := by
  rw [on, Program.run_bind, asked]

theorem on_bind (p : Task α) (f : α → Task β) : (p >>= f).on t = p.on t >>= fun a => (f a).on t := by
  induction p with
  | done a => rfl
  | turn operation next ih =>
    calc ((turn operation next) >>= f).on t
      _ = operation.ask t >>= fun reply => (next reply >>= f).on t := rfl
      _ = operation.ask t >>= fun reply => (next reply).on t >>= fun a => (f a).on t := bind_congr ih
      _ = (turn operation next).on t >>= fun a => (f a).on t := (bind_assoc _ _ _).symm

theorem through_bind (x : ExceptT Error Task α) (f : α → ExceptT Error Task β) :
    through t (x >>= f) = through t x >>= fun a => through t (f a) := by
  refine (on_bind x.run _).trans (bind_congr fun result => ?_)
  cases result <;> rfl

theorem through_inContext (context : String) (x : ExceptT Error Task α) :
    through t (inContext context x) = inContext context (through t x) := by
  show (Except.mapError _ <$> x.run).on t = Except.mapError _ <$> x.run.on t
  rw [map_eq_pure_bind, on_bind, map_eq_pure_bind]
  rfl

theorem through_foldlM {f : β → α → ExceptT Error Task β} {g : β → α → StoreM β}
    (same : ∀ b a, through t (f b a) = g b a) (l : List α) (b : β) : through t (l.foldlM f b) = l.foldlM g b := by
  induction l generalizing b with
  | nil => rfl
  | cons a rest ih =>
    rw [List.foldlM_cons, List.foldlM_cons, through_bind, same]
    exact bind_congr ih

theorem through_step (step : Step) (records : List Record) :
    through t (step.run source records) = step.run t.source records := by
  cases step with
  | scan table =>
    rw [Step.run_scan, Step.run_scan, through_bind]
    have schema : through t (source.schema table) = t.source.schema table := bind_pure _
    have rows : through t (source.rows table) = t.source.rows table := bind_pure _
    rw [schema]
    refine bind_congr fun schema => ?_
    rw [through_bind, rows]
    rfl
  | filter condition => rfl
  | sort order => rfl
  | slice limit offset => rfl
  | project selection => rfl

theorem through_perform (db : Database) (statement : Statement) :
    through db.tables (perform statement) = db.perform statement := by
  cases statement with
  | create c =>
    have turn : through db.tables (create c.table c.columns c.types) = db.tables.create c.table c.columns c.types :=
      bind_pure _
    rw [perform, Database.perform, through_inContext, through_bind, turn]
    rfl
  | insert i =>
    have turn : through db.tables (insert i.table i.columns i.values) = db.tables.insert i.table i.columns i.values :=
      bind_pure _
    rw [perform, Database.perform, through_inContext, through_bind, turn]
    rfl
  | select s =>
    rw [perform, Database.perform, through_inContext, through_bind, Plan.run, Plan.run, through_inContext,
      through_foldlM fun records step => through_step step records]
    rfl

/-- **Taking all turns of a query without a pause is executing it.** -/
theorem through_execute (db : Database) (query : String) : through db.tables (execute query) = db.execute query := by
  rw [execute, Database.execute, through_bind, through_inContext]
  exact bind_congr fun statement => through_perform db statement

end Through

/-! ## The forms of a task -/

/-- what is left of a select once its schema is known -/
def reading (s : Select) (schema : Schema) : Task (Except Error Answer) :=
  turn (.rows s.table) fun
    | .error e => done (.error (.inContext "execute select statement" (.inContext "compute select result" e)))
    | .ok rows => done (.ok (.records (s.meaning schema (rows.map Keyed.find?))))

/-- a select: the schema, and if there is one the rows -/
def selecting (s : Select) : Task (Except Error Answer) :=
  turn (.schema s.table) fun
    | .error e => done (.error (.inContext "execute select statement" (.inContext "compute select result" e)))
    | .ok schema => reading s schema

theorem perform_select (s : Select) : (perform (.select s)).run = selecting s := by
  rw [perform, Plan.run, Plan.foldlM_ofSelect]
  refine congrArg (turn (.schema s.table)) (funext fun schema => ?_)
  cases schema with
  | error e => rfl
  | ok schema =>
    refine congrArg (turn (.rows s.table)) (funext fun rows => ?_)
    cases rows <;> rfl

/-- a query is answered without a turn, in one turn, or is a select -/
theorem execute_cases (query : String) :
    (∃ result, (execute query).run = done result)
      ∨ (∃ (operation : Operation) (answer : operation.Reply → Except Error Answer),
          (execute query).run = turn operation fun reply => done (answer reply))
      ∨ ∃ s, Statement.parse query = .ok (.select s) ∧ (execute query).run = selecting s := by
  cases parsed : Statement.parse query with
  | error e =>
    refine .inl ⟨.error (.inContext "grammatically invalid" e), ?_⟩
    rw [execute, parsed]
    rfl
  | ok statement =>
    have whole : (execute query).run = (perform statement).run := by
      rw [execute, parsed]
      rfl
    rw [whole]
    cases statement with
    | create c =>
      refine .inr (.inl ⟨.create c.table c.columns c.types, fun reply => match reply with
        | .ok () => .ok (.created c.table)
        | .error e => .error (.inContext "execute create statement" e), ?_⟩)
      refine congrArg (turn (.create c.table c.columns c.types)) (funext fun reply => ?_)
      cases reply <;> rfl
    | insert i =>
      refine .inr (.inl ⟨.insert i.table i.columns i.values, fun reply => match reply with
        | .ok () => .ok .inserted
        | .error e => .error (.inContext "execute insert statement" e), ?_⟩)
      refine congrArg (turn (.insert i.table i.columns i.values)) (funext fun reply => ?_)
      cases reply <;> rfl
    | select s => exact .inr (.inr ⟨s, rfl, perform_select s⟩)

end Task
end TableStore
