/-
Tables do not interfere.

All tables of a database are in the same two files, and every change writes one of them as a whole. Whoever asks about
one table is still answered as if there were no other one: queries about other tables, and texts that are no queries,
can be left out of a run without any effect on the answers to the rest.

A statement changes the ideal store at its own table only (`Ideal.perform_ne`), and what it answers and leaves there
depends on that table only (`Ideal.perform_congr`). So two runs that agree on a table stay in step on it, whatever one
of them does to other tables in between (`Ideal.executeAll_about`), and a database is its ideal store.

Results:
  answers_about   from a store without content, the answers to the queries about a table are those of a run of these
                  queries alone.
-/
import TableStore.Proofs.Database.Runs

namespace TableStore

/-! ## What a query is about -/

/-- the table that a statement names -/
def Statement.table : Statement → String
  | .select s => s.table
  | .insert i => i.table
  | .create c => c.table

/-- a query is a statement that names a table -/
def Statement.about (table query : String) : Bool :=
  match parse query with
  | .ok statement => statement.table == table
  | .error _ => false

/-- of the answers to some queries those to the queries about a table -/
def Database.answersAbout (table : String) (queries : List String) (answers : List (Except Error Answer)) :
    List (Except Error Answer) :=
  ((queries.zip answers).filter fun pair => Statement.about table pair.1).map Prod.snd

theorem Database.answersAbout_cons (table query : String) (queries : List String) (answer : Except Error Answer)
    (answers : List (Except Error Answer)) :
    answersAbout table (query :: queries) (answer :: answers)
      = if Statement.about table query then answer :: answersAbout table queries answers
        else answersAbout table queries answers := by
  simp only [answersAbout, List.zip_cons_cons, List.filter_cons]
  split <;> rfl

/-! ## One statement -/

namespace Ideal

variable {store store' : Ideal} {table query : String}

/-- a statement changes its own table only -/
theorem perform_ne {statement : Statement} (other : table ≠ statement.table) :
    (store.perform statement).2 table = store table := by
  cases statement with
  | create c =>
    simp only [perform]
    cases store c.table with
    | some t => rfl
    | none => exact put_ne other ..
  | insert i =>
    simp only [perform]
    cases store i.table with
    | none => rfl
    | some t =>
      dsimp only
      cases t.row i.table i.columns i.values with
      | error fault => rfl
      | ok row => exact put_ne other ..
  | select s =>
    simp only [perform]
    cases store s.table <;> rfl

/-- what a statement answers, and what it makes of its table, depends on that table only -/
theorem perform_congr {statement : Statement} (same : store statement.table = store' statement.table) :
    (store.perform statement).1 = (store'.perform statement).1
      ∧ (store.perform statement).2 statement.table = (store'.perform statement).2 statement.table := by
  cases statement with
  | create c =>
    have same' : store c.table = store' c.table := same
    cases there : store' c.table with
    | some t => simp only [perform, same', there, Statement.table, and_self]
    | none => simp only [perform, same', there, Statement.table, put_self, and_self]
  | insert i =>
    have same' : store i.table = store' i.table := same
    cases there : store' i.table with
    | none => simp only [perform, same', there, Statement.table, and_self]
    | some t =>
      cases made : t.row i.table i.columns i.values with
      | error fault => simp only [perform, same', there, made, Statement.table, and_self]
      | ok row => simp only [perform, same', there, made, Statement.table, put_self, and_self]
  | select s =>
    have same' : store s.table = store' s.table := same
    cases there : store' s.table with
    | none => simp only [perform, same', there, Statement.table, and_self]
    | some t => simp only [perform, same', there, Statement.table, and_self]

/-- **A query that is not about a table leaves it.** -/
theorem execute_other (other : Statement.about table query = false) : (store.execute query).2 table = store table := by
  rw [execute]
  cases parsed : Statement.parse query with
  | error e => rfl
  | ok statement =>
    rw [Statement.about, parsed, beq_eq_false_iff_ne] at other
    exact perform_ne other.symm

/-- **A query about a table depends on this table only.** -/
theorem execute_about (about : Statement.about table query = true) (same : store table = store' table) :
    (store.execute query).1 = (store'.execute query).1
      ∧ (store.execute query).2 table = (store'.execute query).2 table := by
  rw [execute, execute]
  cases parsed : Statement.parse query with
  | error e =>
    rw [Statement.about, parsed] at about
    cases about
  | ok statement =>
    rw [Statement.about, parsed, beq_iff_eq] at about
    subst about
    exact perform_congr same

/-! ## Runs -/

/-- the answers to queries one after another, and the store after them -/
def executeAll (store : Ideal) : List String → List (Except Error Answer) × Ideal
  | [] => ([], store)
  | query :: rest =>
    let (answer, store) := store.execute query
    let (answers, store) := store.executeAll rest
    (answer :: answers, store)

theorem length_executeAll (store : Ideal) (queries : List String) :
    (store.executeAll queries).1.length = queries.length := by
  induction queries generalizing store with
  | nil => rfl
  | cons query rest ih => exact congrArg Nat.succ (ih _)

/-- runs from stores that agree on a table stay in step on it, also if one of them is without all other queries -/
theorem executeAll_about (same : store table = store' table) (queries : List String) :
    Database.answersAbout table queries (store.executeAll queries).1
      = (store'.executeAll (queries.filter (Statement.about table))).1 := by
  induction queries generalizing store store' with
  | nil => rfl
  | cons query rest ih =>
    rw [executeAll, Database.answersAbout_cons, List.filter_cons]
    cases about : Statement.about table query with
    | false =>
      have left : (store.execute query).2 table = store' table := (execute_other about).trans same
      exact ih left
    | true =>
      obtain ⟨answer, left⟩ := execute_about about same
      rw [if_pos rfl, if_pos rfl, executeAll, answer, ih left]

end Ideal

namespace Database

variable {o : Options} {catalog tablespace : Site} {d : Disk} {store : Ideal} {db : Database}

/-- queries through one open instance are answered as the ideal store answers them -/
theorem executeAll_refines (keeps : Keeps o catalog tablespace d store) (opened : db.tables.IsOpen o catalog tablespace)
    (queries : List String) :
    ∃ d', (db.executeAll queries).run d = ((store.executeAll queries).1, d')
      ∧ Keeps o catalog tablespace d' (store.executeAll queries).2 := by
  induction queries generalizing d store with
  | nil => exact ⟨d, rfl, keeps⟩
  | cons query rest ih =>
    obtain ⟨d₁, answered, keeps₁⟩ := execute_refines keeps opened query
    obtain ⟨d₂, answers, keeps₂⟩ := ih keeps₁
    refine ⟨d₂, ?_, keeps₂⟩
    rw [executeAll_cons, Program.run_bind, answered, Program.run_bind, answers]
    rfl

/-- **Tables do not interfere.** Where neither file of a store has any content and there are no backups, at four
different places, the store can be opened, every query is answered, and for every table the answers to the queries
about it, results and errors, are what they are in a run of these queries alone. -/
theorem answers_about (unused : Tables.Unused o d) (table : String) (queries : List String) :
    ∃ db d', (openWith o).run.run d = (.ok db, d')
      ∧ ((db.executeAll queries).run d').1.length = queries.length
      ∧ answersAbout table queries ((db.executeAll queries).run d').1
        = ((db.executeAll (queries.filter (Statement.about table))).run d').1 := by
  obtain ⟨db, d', catalog, tablespace, made, opened, keeps⟩ := run_openWith_unused unused
  obtain ⟨d₁, whole, -⟩ := executeAll_refines keeps opened queries
  obtain ⟨d₂, alone, -⟩ := executeAll_refines keeps opened (queries.filter (Statement.about table))
  refine ⟨db, d', made, ?_, ?_⟩
  · rw [whole]
    exact Ideal.length_executeAll _ queries
  · rw [whole, alone]
    exact Ideal.executeAll_about rfl queries

/-- queries about two tables, and a text that is no query -/
def mixedQueries : List String :=
  ["create table user (id string)", "create table item (id string)", "insert into user values ('7')",
    "insert item ('7')", "insert into item values ('1', '2')", "insert into item values ('3')", "select * from item"]

/-- what happens to users, and to no table at all, makes no difference to items -/
theorem answers_about_item :
    Tables.Unused {} {}
      ∧ mixedQueries.filter (Statement.about "item")
        = ["create table item (id string)", "insert into item values ('1', '2')", "insert into item values ('3')",
            "select * from item"]
      ∧ ∃ db d', (openWith {}).run.run {} = (.ok db, d')
        ∧ answersAbout "item" mixedQueries ((db.executeAll mixedQueries).run d').1
          = ((db.executeAll (mixedQueries.filter (Statement.about "item"))).run d').1
        ∧ answersAbout "item" mixedQueries ((db.executeAll mixedQueries).run d').1
          = [.ok (.created "item"),
              .error (.inContext "execute insert statement"
                (.columnMismatch "table item has 1 columns but 2 values were given")),
              .ok .inserted, .ok (.records [⟨["id"], ["string"], ["3"]⟩])] := by
  have unused := Tables.fresh_default.unused
  obtain ⟨db, d', made, -, isolated⟩ := answers_about unused "item" mixedQueries
  obtain ⟨db', d'', _, _, made', opened, keeps⟩ := run_openWith_unused unused
  obtain ⟨rfl, rfl⟩ : db = db' ∧ d' = d'' := by
    rw [made] at made'
    cases made'
    exact ⟨rfl, rfl⟩
  obtain ⟨_, whole, -⟩ := executeAll_refines keeps opened mixedQueries
  refine ⟨unused, by decide +kernel, db, d', made, isolated, ?_⟩
  rw [whole]
  show answersAbout "item" mixedQueries (Ideal.empty.executeAll mixedQueries).1 = _
  decide +kernel

end Database
end TableStore
