/-
Whole runs of a database.

Instances of one database are opened one after the other on the same options, and each of them takes queries from then
on, in any order. `Use.runAll` runs a list of such uses on a disk; `Use.idealAll` answers the same list from one ideal
store, where an instance is nothing but a number. An instance that another one replaces is one that is not used any
more.

`Simulates` is what every use preserves: before the first opening nothing is on the disk, and after it the two files
keep the ideal store and all instances are open at these files, so it does not matter which of them takes the next
query. No instance remembers anything that a query of another one could make untrue.
-/
import TableStore.Proofs.Database.Refinement
import TableStore.Proofs.Store.Placing

namespace TableStore

open DataFile (run_then)

/-- what is done with the instances of a database -/
inductive Use where
  | openAnother
  | execute (which : Nat) (query : String)

inductive Reply where
  | opened
  | notOpened (error : Error)
  | answered (result : Except Error Answer)
  | noInstance
  deriving DecidableEq

namespace Use

def run (o : Options) (instances : List Database) : Use → Program (Reply × List Database)
  | openAnother => do
    match ← (Database.openWith o).run with
    | .ok db => return (.opened, instances ++ [db])
    | .error e => return (.notOpened e, instances)
  | execute which query =>
    match instances[which]? with
    | none => return (.noInstance, instances)
    | some db => return (.answered (← (db.execute query).run), instances)

def runAll (o : Options) (instances : List Database) : List Use → Program (List Reply)
  | [] => return []
  | use :: rest => do
    let (reply, instances) ← use.run o instances
    return reply :: (← runAll o instances rest)

/-- the reply, the number of instances and the store after it -/
def ideal (instances : Nat) (store : Ideal) : Use → Reply × Nat × Ideal
  | openAnother => (.opened, instances + 1, store)
  | execute which query =>
    if which < instances then
      let (answer, store) := store.execute query
      (.answered answer, instances, store)
    else (.noInstance, instances, store)

def idealAll (instances : Nat) (store : Ideal) : List Use → List Reply
  | [] => []
  | use :: rest =>
    let (reply, instances, store) := use.ideal instances store
    reply :: idealAll instances store rest

end Use

/-- the instances and the disk of a run, and the ideal store that they amount to -/
inductive Simulates (o : Options) : List Database → Disk → Ideal → Prop where
  | unopened {d : Disk} : Tables.Fresh o d → Simulates o [] d .empty
  | opened {instances : List Database} {d : Disk} {store : Ideal} {catalog tablespace : Site} :
      Keeps o catalog tablespace d store → (∀ db ∈ instances, db.tables.IsOpen o catalog tablespace) →
      Simulates o instances d store

variable {o : Options} {d : Disk} {store : Ideal} {instances : List Database}

namespace Database

/-- a database whose files have no content is opened as the empty ideal store -/
theorem run_openWith_unused (unused : Tables.Unused o d) :
    ∃ db d' catalog tablespace, (openWith o).run.run d = (.ok db, d') ∧ db.tables.IsOpen o catalog tablespace
      ∧ Keeps o catalog tablespace d' .empty := by
  obtain ⟨catalog, tablespace, t, d', made, opened, stored⟩ := Tables.run_openWith_unused unused
  exact ⟨⟨t⟩, d', catalog, tablespace, (run_then made _).trans rfl, opened, _, _, stored, represents_empty⟩

/-- a database whose files keep an ideal store is opened as it is -/
theorem run_openWith_kept {catalog tablespace : Site} (keeps : Keeps o catalog tablespace d store) :
    ∃ db, (openWith o).run.run d = (.ok db, d) ∧ db.tables.IsOpen o catalog tablespace := by
  obtain ⟨schemas, content, stored, -⟩ := keeps
  obtain ⟨t, there, opened⟩ := Tables.run_openWith stored
  exact ⟨⟨t⟩, (run_then there _).trans rfl, opened⟩

theorem isOpen_snoc {catalog tablespace : Site} {new : Database}
    (all : ∀ db ∈ instances, db.tables.IsOpen o catalog tablespace) (opened : new.tables.IsOpen o catalog tablespace) :
    ∀ db ∈ instances ++ [new], db.tables.IsOpen o catalog tablespace := by
  intro db mem
  rcases List.mem_append.1 mem with before | last
  · exact all db before
  · exact List.mem_singleton.1 last ▸ opened

end Database

/-- an instance can be opened, the first and any other one -/
theorem Simulates.openWith (h : Simulates o instances d store) :
    ∃ db d', (Database.openWith o).run.run d = (.ok db, d') ∧ Simulates o (instances ++ [db]) d' store := by
  cases h with
  | unopened fresh =>
    obtain ⟨db, d', catalog, tablespace, made, opened, keeps⟩ := Database.run_openWith_unused fresh.unused
    exact ⟨db, d', made, .opened keeps (Database.isOpen_snoc (by simp) opened)⟩
  | opened keeps all =>
    obtain ⟨db, there, opened⟩ := Database.run_openWith_kept keeps
    exact ⟨db, d, there, .opened keeps (Database.isOpen_snoc all opened)⟩

/-- an open instance answers as the ideal store does -/
theorem Simulates.execute (h : Simulates o instances d store) {db : Database} (mem : db ∈ instances) (query : String) :
    ∃ d', (db.execute query).run.run d = ((store.execute query).1, d')
      ∧ Simulates o instances d' (store.execute query).2 := by
  cases h with
  | unopened fresh => cases mem
  | opened keeps all =>
    obtain ⟨d', answered, keeps'⟩ := Database.execute_refines keeps (all db mem) query
    exact ⟨d', answered, .opened keeps' all⟩

/-- **One use.** Its reply is the ideal one, and what it leaves amounts to the ideal store after it. -/
theorem Simulates.step (h : Simulates o instances d store) (use : Use) :
    ∃ instances' d', (use.run o instances).run d = (((use.ideal instances.length store).1, instances'), d')
      ∧ instances'.length = (use.ideal instances.length store).2.1
      ∧ Simulates o instances' d' (use.ideal instances.length store).2.2 := by
  cases use with
  | openAnother =>
    obtain ⟨db, d', opened, simulates⟩ := h.openWith
    refine ⟨instances ++ [db], d', ?_, List.length_append, simulates⟩
    rw [Use.run, Program.run_bind, opened]
    rfl
  | execute which query =>
    by_cases there : which < instances.length
    · obtain ⟨d', answered, simulates⟩ := h.execute (List.getElem_mem there) query
      simp only [Use.run, Use.ideal, List.getElem?_eq_getElem there, if_pos there]
      refine ⟨instances, d', ?_, rfl, simulates⟩
      rw [Program.run_bind, answered]
      rfl
    · simp only [Use.run, Use.ideal, List.getElem?_eq_none (not_lt.1 there), if_neg there]
      exact ⟨instances, d, rfl, rfl, h⟩

/-- whatever a run starts from, all its replies are the ideal ones -/
theorem Simulates.runAll (h : Simulates o instances d store) (uses : List Use) :
    ((Use.runAll o instances uses).run d).1 = Use.idealAll instances.length store uses := by
  induction uses generalizing instances d store with
  | nil => rfl
  | cons use rest ih =>
    obtain ⟨instances', d', replied, count, simulates⟩ := h.step use
    have answers := ih simulates
    rw [count] at answers
    rw [Use.runAll, Program.run_bind, replied, Program.run_bind]
    exact congrArg (List.cons _) answers

/-- **A database is its ideal store, over every run.** Where there is nothing yet at the two files and their backups,
which are four different places, all openings succeed, and every query through whatever open instance is answered as
the one ideal store answers it that has taken all queries so far. -/
theorem Use.runAll_eq_idealAll (fresh : Tables.Fresh o d) (uses : List Use) :
    ((Use.runAll o [] uses).run d).1 = Use.idealAll 0 .empty uses :=
  (Simulates.unopened fresh).runAll uses

/-- a row that goes in through one instance comes out of another, on an empty disk with the usual names -/
theorem Use.runAll_eq_idealAll_empty :
    Tables.Fresh {} {}
      ∧ ((Use.runAll {} [] [.openAnother, .execute 0 "create table item (id string)", .openAnother,
            .execute 1 "insert into item values ('7')", .execute 0 "create table item (x string)",
            .execute 0 "select * from item"]).run {}).1
        = [.opened, .answered (.ok (.created "item")), .opened, .answered (.ok .inserted),
            .answered (.error (.inContext "execute create statement"
              (.inContext "add table item in catalog" (.tableExists "item")))),
            .answered (.ok (.records [⟨["id"], ["string"], ["7"]⟩]))] := by
  have bare : ( { } : Disk).Bare "." [] := ⟨rfl, rfl, by simp⟩
  have catalog : Path.Plain "flatdb.catalog" := by constructor <;> decide
  have tablespace : Path.Plain "flatdb.data" := by constructor <;> decide
  have fresh : Tables.Fresh {} {} := Tables.fresh_of_bare bare rfl rfl catalog tablespace (by decide)
  exact ⟨fresh, (Use.runAll_eq_idealAll fresh _).trans (by decide +kernel)⟩

end TableStore
