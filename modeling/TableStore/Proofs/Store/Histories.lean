/-
Stores after any history.

Instances are opened one after the other on the same options, and each of them takes operations from then on, in any
order: creates and inserts with whatever arguments, and reads. `Tables.runAll` runs a list of such actions on a disk.

`Keeping` is what every action preserves: before the first opening the files have no content, and after it they have a
catalog and a tablespace that are sound (`Sound`), with as many rows in a table as inserts into it have succeeded. An
operation that fails has changed nothing, and one that succeeds has done one of two things, a new table or a new row
(`Tables.run_create_cases`, `Tables.run_insert_cases`); so no check of one file can pass where the other one's fails.

Results:
  runAll_sound   after every history the files decode to what is sound, both backups are gone, every opening has
                 succeeded, and a table has a schema exactly if it has rows, through every instance.
-/
import TableStore.Proofs.Disk.Crash
import TableStore.Proofs.Store.Placing
import TableStore.Proofs.Store.Soundness

namespace TableStore

namespace Tables

/-! ## Histories -/

/-- what is done with the instances of a store -/
inductive Action where
  | openAnother
  | through (which : Nat) (operation : Operation)

inductive Outcome where
  | opened
  | notOpened (error : Error)
  | done (result : Except Error Unit)
  | schema (result : Except Error Schema)
  | rows (result : Except Error (List Row))
  | noInstance

def Operation.outcome : (operation : Operation) → operation.Reply → Outcome
  | create .. | insert .. => .done
  | schema _ => .schema
  | rows _ => .rows

def Operation.run (t : Tables) (operation : Operation) : Program Outcome := return operation.outcome (← operation.ask t)

def Action.run (o : Options) (instances : List Tables) : Action → Program (Outcome × List Tables)
  | openAnother => do
    match ← (openWith o).run with
    | .ok t => return (.opened, instances ++ [t])
    | .error e => return (.notOpened e, instances)
  | through which operation =>
    match instances[which]? with
    | none => return (.noInstance, instances)
    | some t => return (← operation.run t, instances)

/-- the outcomes of some actions, and the instances after them -/
def runAll (o : Options) (instances : List Tables) : List Action → Program (List Outcome × List Tables)
  | [] => return ([], instances)
  | action :: rest => do
    let (outcome, instances) ← action.run o instances
    let (outcomes, instances) ← runAll o instances rest
    return (outcome :: outcomes, instances)

/-- an action was an insert into a table, and has succeeded -/
def Action.inserted (table : String) : Action → Outcome → Bool
  | through _ (.insert into _ _), .done (.ok ()) => into == table
  | _, _ => false

/-- how many inserts into a table have succeeded -/
def insertsInto (table : String) (history : List (Action × Outcome)) : Nat :=
  history.countP fun (action, outcome) => action.inserted table outcome

theorem insertsInto_cons (table : String) (action : Action) (outcome : Outcome) (history : List (Action × Outcome)) :
    insertsInto table ((action, outcome) :: history)
      = (if action.inserted table outcome then 1 else 0) + insertsInto table history := by
  rw [insertsInto, List.countP_cons, Nat.add_comm]
  rfl

/-! ## What is kept up -/

/-- the instances and the disk of a history, and how many inserts have succeeded into each table -/
inductive Keeping (o : Options) : List Tables → Disk → (String → Nat) → Prop where
  | unopened {d : Disk} {inserted : String → Nat} : Unused o d → (∀ table, inserted table = 0) →
      Keeping o [] d inserted
  | opened {instances : List Tables} {d : Disk} {inserted : String → Nat} {catalog tablespace : Site}
      {schemas : List Schema} {content : Option (Keyed (List Row))} :
      Stored o catalog tablespace d schemas content → Sound schemas content inserted →
      (∀ t ∈ instances, t.IsOpen o catalog tablespace) → Keeping o instances d inserted

variable {o : Options} {catalog tablespace : Site} {t : Tables} {instances : List Tables} {d : Disk}
  {schemas : List Schema} {content : Option (Keyed (List Row))} {inserted : String → Nat}

/-- an operation is run as it is asked -/
theorem Operation.run_of_ask (operation : Operation) {reply : operation.Reply} {d' : Disk}
    (asked : (operation.ask t).run d = (reply, d')) : (operation.run t).run d = (operation.outcome reply, d') := by
  rw [Operation.run, Program.run_bind, asked]
  rfl

/-- how many inserts have succeeded after one more action -/
def tally (inserted : String → Nat) (action : Action) (outcome : Outcome) : String → Nat :=
  fun table => inserted table + if action.inserted table outcome then 1 else 0

theorem tally_other {action : Action} {outcome : Outcome} (other : ∀ table, action.inserted table outcome = false) :
    tally inserted action outcome = inserted := by
  funext table
  rw [tally, other, if_neg Bool.false_ne_true, Nat.add_zero]

theorem tally_insert (which : Nat) (table : String) (columns values : List String) :
    tally inserted (.through which (.insert table columns values)) (.done (.ok ()))
      = Function.update inserted table (inserted table + 1) := by
  funext other
  by_cases here : table = other
  · subst here
    simp [tally, Action.inserted]
  · rw [Function.update_of_ne (Ne.symm here)]
    simp [tally, Action.inserted, here]

/-- **One operation.** Through an open instance it leaves what is sound as it was, or a sound store with one table or
one row more. -/
theorem run_operation (h : Stored o catalog tablespace d schemas content) (sound : Sound schemas content inserted)
    (opened : t.IsOpen o catalog tablespace) (which : Nat) (operation : Operation) :
    ∃ outcome d' schemas' content', (operation.run t).run d = (outcome, d') ∧ (∀ e, outcome ≠ .notOpened e)
      ∧ Stored o catalog tablespace d' schemas' content'
      ∧ Sound schemas' content' (tally inserted (.through which operation) outcome) := by
  -- what does not count as an insert leaves the numbers of rows
  have counted {outcome : Outcome} {schemas' : List Schema} {content' : Option (Keyed (List Row))}
      (other : ∀ table, (Action.through which operation).inserted table outcome = false)
      (sound' : Sound schemas' content' inserted) :
      Sound schemas' content' (tally inserted (.through which operation) outcome) := by
    rw [tally_other other]
    exact sound'
  cases operation with
  | create table columns types =>
    have other (outcome : Outcome) (table' : String) :
        (Action.through which (.create table columns types)).inserted table' outcome = false := rfl
    rcases run_create_cases h opened sound.same table columns types with ⟨e, failed⟩ | ⟨creatable, new, d', made, h'⟩
    · have ran := Operation.run_of_ask (.create table columns types) failed
      exact ⟨.done (.error e), d, schemas, content, ran, by simp, h, counted (other _) sound⟩
    · have ran := Operation.run_of_ask (.create table columns types) made
      exact ⟨.done (.ok ()), d', _, _, ran, by simp, h', counted (other _) (sound.create creatable new)⟩
  | insert table columns values =>
    rcases run_insert_cases h opened sound.same table columns values with
      ⟨e, failed⟩ | ⟨s, mem, rfl, row, rows, made, before, d', inserted', h'⟩
    · have ran := Operation.run_of_ask (.insert table columns values) failed
      exact ⟨.done (.error e), d, schemas, content, ran, by simp, h, counted (fun _ => rfl) sound⟩
    · have ran := Operation.run_of_ask (.insert s.table columns values) inserted'
      refine ⟨.done (.ok ()), d', _, _, ran, by simp, h', ?_⟩
      rw [tally_insert]
      exact sound.insert mem (Schema.fits_of_row (sound.columns s mem).1 made) before
  | schema table =>
    have ran := Operation.run_of_ask (.schema table) ((t.catalog.still_schema table).run_eq d)
    exact ⟨.schema _, d, schemas, content, ran, by simp, h, counted (fun _ => rfl) sound⟩
  | rows table =>
    have ran := Operation.run_of_ask (.rows table) ((t.tablespace.still_rows table).run_eq d)
    exact ⟨.rows _, d, schemas, content, ran, by simp, h, counted (fun _ => rfl) sound⟩

/-- an instance can be opened, the first and any other one -/
theorem Keeping.openWith (h : Keeping o instances d inserted) :
    ∃ t d', (Tables.openWith o).run.run d = (.ok t, d') ∧ Keeping o (instances ++ [t]) d' inserted := by
  cases h with
  | unopened unused none =>
    obtain ⟨catalog, tablespace, t, d', made, opened, stored⟩ := run_openWith_unused unused
    have start : inserted = fun _ => 0 := funext none
    refine ⟨t, d', made, .opened stored (start ▸ sound_empty) fun t' mem => ?_⟩
    rw [List.nil_append, List.mem_singleton] at mem
    exact mem ▸ opened
  | opened stored sound all =>
    obtain ⟨t, there, opened⟩ := run_openWith stored
    refine ⟨t, d, there, .opened stored sound fun t' mem => ?_⟩
    rcases List.mem_append.1 mem with before | new
    · exact all t' before
    · exact List.mem_singleton.1 new ▸ opened

/-- **One action.** -/
theorem Keeping.step (h : Keeping o instances d inserted) (action : Action) :
    ∃ outcome instances' d', (action.run o instances).run d = ((outcome, instances'), d')
      ∧ (∀ e, outcome ≠ .notOpened e) ∧ Keeping o instances' d' (tally inserted action outcome) := by
  cases action with
  | openAnother =>
    obtain ⟨t, d', opened, keeping⟩ := h.openWith
    refine ⟨.opened, instances ++ [t], d', ?_, by simp, ?_⟩
    · rw [Action.run, Program.run_bind, opened]
      rfl
    · rw [tally_other fun _ => rfl]
      exact keeping
  | through which operation =>
    cases found : instances[which]? with
    | none =>
      have other (table : String) : (Action.through which operation).inserted table .noInstance = false := by
        cases operation <;> rfl
      refine ⟨.noInstance, instances, d, ?_, by simp, ?_⟩
      · simp only [Action.run, found]
        rfl
      · rw [tally_other other]
        exact h
    | some t =>
      have mem : t ∈ instances := List.mem_of_getElem? found
      cases h with
      | unopened unused none => cases mem
      | opened stored sound all =>
        obtain ⟨outcome, d', schemas', content', ran, fine, stored', sound'⟩ :=
          run_operation stored sound (all t mem) which operation
        refine ⟨outcome, instances, d', ?_, fine, .opened stored' sound' all⟩
        simp only [Action.run, found]
        rw [Program.run_bind, ran]
        rfl

/-- **Any number of actions**, whatever they start from. -/
theorem Keeping.runAll (h : Keeping o instances d inserted) (actions : List Action) :
    ∃ outcomes instances' d', (Tables.runAll o instances actions).run d = ((outcomes, instances'), d')
      ∧ (∀ e, Outcome.notOpened e ∉ outcomes)
      ∧ Keeping o instances' d' fun table => inserted table + insertsInto table (actions.zip outcomes) := by
  induction actions generalizing instances d inserted with
  | nil => exact ⟨[], instances, d, rfl, by simp, h⟩
  | cons action rest ih =>
    obtain ⟨outcome, instances₁, d₁, ran, fine, keeping⟩ := h.step action
    obtain ⟨outcomes, instances₂, d₂, ranRest, fineRest, keepingRest⟩ := ih keeping
    refine ⟨outcome :: outcomes, instances₂, d₂, ?_, ?_, ?_⟩
    · rw [Tables.runAll, Program.run_bind, ran, Program.run_bind, ranRest]
      rfl
    · intro e mem
      rcases List.mem_cons.1 mem with first | later
      · exact fine e first.symm
      · exact fineRest e later
    · have counts : (fun table => tally inserted action outcome table + insertsInto table (rest.zip outcomes))
          = fun table => inserted table + insertsInto table ((action, outcome) :: rest.zip outcomes) := by
        funext table
        rw [insertsInto_cons, tally, Nat.add_assoc]
      rw [List.zip_cons_cons, ← counts]
      exact keepingRest

/-! ## What it amounts to -/

theorem bytesAt?_blank {path : String} {loc : Location} (h : d.Blank path loc) :
    (d.bytesAt? path).getD [] = [] := by
  cases h with
  | absent vacant => rw [vacant.bytesAt?]; rfl
  | empty named empty => rw [named.bytesAt?, empty]; rfl

/-- what is on the disk at the paths of a store is sound, and there are no backups -/
theorem Keeping.on_disk (h : Keeping o instances d inserted) :
    ∃ schemas content, Catalog.decode ((d.bytesAt? o.catalogPath).getD []) = .ok schemas
      ∧ Tablespace.decode ((d.bytesAt? o.tablespacePath).getD []) = .ok content ∧ Sound schemas content inserted
      ∧ d.isThere (Path.backup o.catalogPath) = false ∧ d.isThere (Path.backup o.tablespacePath) = false := by
  cases h with
  | unopened unused none =>
    obtain ⟨catalog, catalogBackup, tablespace, tablespaceBackup, blankC, vacantC, blankT, vacantT, -⟩ := unused
    have start : inserted = fun _ => 0 := funext none
    refine ⟨[], Option.none, ?_, ?_, start ▸ sound_empty, vacantC.isThere, vacantT.isThere⟩
    · rw [bytesAt?_blank blankC]
      rfl
    · rw [bytesAt?_blank blankT]
      rfl
  | @opened _ _ _ catalog tablespace schemas content stored sound all =>
    refine ⟨schemas, content, ?_, ?_, sound, stored.catalogFile.vacant.isThere, stored.tablespaceFile.vacant.isThere⟩
    · rw [stored.catalogFile.named.bytesAt?]
      exact stored.decodedSchemas
    · rw [stored.tablespaceFile.named.bytesAt?]
      exact stored.decodedContent

/-- through every instance a table has a schema exactly if it has rows -/
theorem Keeping.agree (h : Keeping o instances d inserted) (mem : t ∈ instances) (table : String) :
    ((t.catalog.schema table).run.run d).1.isOk = ((t.tablespace.rows table).run.run d).1.isOk := by
  cases h with
  | unopened unused none => cases mem
  | opened stored sound all => exact schema_ok_iff stored (all t mem) sound.same table

/-- **A store is sound after every history.** Where neither file has any content and there are no backups, at four
different places, every history of openings, creates, inserts and reads, with whatever arguments and whether they
succeed or fail, leaves two files that decode to a sound catalog and tablespace: no table is named twice, each has
columns, all of the one type, both files have the same tables, the rows of a table give values to columns of it, each
row to one at least, and there are as many of them as inserts into the table have succeeded. Neither backup is there,
and every instance finds the schema of a table exactly if it finds its rows. -/
theorem runAll_sound (unused : Unused o d) (actions : List Action) :
    ∃ outcomes instances d', (runAll o [] actions).run d = ((outcomes, instances), d')
      ∧ (∀ e, Outcome.notOpened e ∉ outcomes)
      ∧ (∃ schemas content, Catalog.decode ((d'.bytesAt? o.catalogPath).getD []) = .ok schemas
          ∧ Tablespace.decode ((d'.bytesAt? o.tablespacePath).getD []) = .ok content
          ∧ Sound schemas content fun table => insertsInto table (actions.zip outcomes))
      ∧ d'.isThere (Path.backup o.catalogPath) = false ∧ d'.isThere (Path.backup o.tablespacePath) = false
      ∧ ∀ t ∈ instances, ∀ table,
          ((t.catalog.schema table).run.run d').1.isOk = ((t.tablespace.rows table).run.run d').1.isOk := by
  have start : Keeping o [] d fun _ => 0 := .unopened unused fun _ => rfl
  obtain ⟨outcomes, instances, d', ran, fine, keeping⟩ := start.runAll actions
  simp only [Nat.zero_add] at keeping
  obtain ⟨schemas, content, catalog, tablespace, sound, noBackupC, noBackupT⟩ := keeping.on_disk
  exact ⟨outcomes, instances, d', ran, fine, ⟨schemas, content, catalog, tablespace, sound⟩, noBackupC, noBackupT,
    fun t mem => keeping.agree mem⟩

/-- a table without a name and with one column twice, two inserts into it that succeed and one that fails -/
def nameless : List Action :=
  [.openAnother, .through 0 (.create "" ["a", "a"] ["string", "string"]), .through 0 (.insert "" [] ["1", "2"]),
    .through 0 (.insert "" [] ["1"]), .openAnother, .through 1 (.insert "" ["a"] ["3"]), .through 1 (.rows "")]

/-- a tablespace that is there and empty beside a catalog that is not there, and a history with odd names -/
theorem runAll_sound_nameless :
    Unused {} (({} : Disk).withFile ["flatdb.data"] [])
      ∧ ∃ outcomes instances d',
          (runAll {} [] nameless).run (({} : Disk).withFile ["flatdb.data"] []) = ((outcomes, instances), d')
        ∧ insertsInto "" (nameless.zip outcomes) = 2
        ∧ ∃ schemas content, Catalog.decode ((d'.bytesAt? "./flatdb.catalog").getD []) = .ok schemas
          ∧ Tablespace.decode ((d'.bytesAt? "./flatdb.data").getD []) = .ok content
          ∧ Sound schemas content fun table => insertsInto table (nameless.zip outcomes) := by
  have empty : (({} : Disk).withFile ["flatdb.data"] []).Names "./flatdb.data" ["flatdb.data"] 0 :=
    ⟨rfl, rfl, by decide⟩
  have unused : Unused {} (({} : Disk).withFile ["flatdb.data"] []) :=
    ⟨["flatdb.catalog"], ["flatdb.catalog.safe"], ["flatdb.data"], ["flatdb.data.safe"],
      .absent ⟨rfl, rfl, by decide⟩, ⟨rfl, rfl, by decide⟩, .empty empty rfl, ⟨rfl, rfl, by decide⟩, by decide⟩
  obtain ⟨outcomes, instances, d', ran, -, ⟨schemas, content, catalog, tablespace, sound⟩, -⟩ :=
    runAll_sound unused nameless
  have first : outcomes = ((runAll {} [] nameless).run (({} : Disk).withFile ["flatdb.data"] [])).1.1 := by rw [ran]
  refine ⟨unused, outcomes, instances, d', ran, ?_, schemas, content, catalog, tablespace, sound⟩
  rw [first]
  decide +kernel

end Tables
end TableStore
