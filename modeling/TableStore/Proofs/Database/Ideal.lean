/-
The store that a database is meant to be, without files.

An ideal store is a function from names to tables; a table has its columns in the order of its creation and its rows,
each of them a finite map, in the order of their insertion. A statement answers from this and changes it at one name
at most.

Results:
  row_eq_ok_iff      when an insert makes a row, and which one: as many values as the table has columns where none are
                     named, else as many as are named, all of them columns of the table;
  execute_unchanged  a query that answers an error leaves the store as it was.
-/
import TableStore.Database
import TableStore.Proofs.Query.Meaning
import TableStore.Proofs.Store.Maps

namespace TableStore

/-- a table without files -/
structure Ideal.Table where
  columns : List String
  rows : List (String → Option String)

/-- a store without files: which names have tables, and which -/
def Ideal : Type := String → Option Ideal.Table

namespace Ideal

def empty : Ideal := fun _ => none

/-- the store with a table put at a name -/
def put (store : Ideal) (name : String) (table : Table) : Ideal := Function.update store name (some table)

theorem put_self (store : Ideal) (name : String) (table : Table) : store.put name table name = some table :=
  Function.update_self ..

theorem put_ne {other name : String} (h : other ≠ name) (store : Ideal) (table : Table) :
    store.put name table other = store other :=
  Function.update_of_ne h ..

/-! ## Rows -/

/-- names paired with values, as a finite map: of a repeated name the last pair counts -/
def pairing (names values : List String) : String → Option String :=
  fun name => ((names.zip values).reverse.find? (·.1 == name)).map (·.2)

/-- the row that an insert makes of a table -/
def Table.row (t : Table) (name : String) (columns values : List String) :
    Except RowFault (String → Option String) :=
  if columns = [] then
    if values.length = t.columns.length then .ok (pairing t.columns values)
    else .error (.valueCount name t.columns.length values.length)
  else if columns.length ≠ values.length then .error (.pairCount columns.length values.length)
  else
    match columns.find? (· ∉ t.columns) with
    | some column => .error (.unknownColumn column name)
    | none => .ok (pairing columns values)

/-- an insert makes a row exactly if it gives a value for each column of the table, or one for each column that it
names and the table has -/
theorem Table.row_eq_ok_iff {t : Table} {name : String} {columns values : List String} {row : String → Option String} :
    t.row name columns values = .ok row ↔
      (columns = [] ∧ values.length = t.columns.length ∧ row = pairing t.columns values)
        ∨ (columns ≠ [] ∧ columns.length = values.length ∧ (∀ column ∈ columns, column ∈ t.columns)
            ∧ row = pairing columns values) := by
  rw [Table.row]
  by_cases positional : columns = []
  · by_cases count : values.length = t.columns.length <;> simp [positional, count, eq_comm]
  · by_cases count : columns.length = values.length
    · cases unknown : columns.find? (· ∉ t.columns) with
      | some column =>
        have missing : column ∉ t.columns := by simpa using List.find?_some unknown
        have named := List.mem_of_find?_eq_some unknown
        simp only [positional, count, ne_eq, not_true_eq_false, if_false, reduceCtorEq, false_and, not_false_eq_true,
          true_and, false_or, false_iff]
        exact fun h => missing (h.1 column named)
      | none =>
        have known : ∀ column ∈ columns, column ∈ t.columns := by simpa using unknown
        simp only [positional, count, ne_eq, not_true_eq_false, if_false, Except.ok.injEq, false_and,
          not_false_eq_true, true_and, false_or]
        exact ⟨fun same => ⟨known, same.symm⟩, fun h => h.2.symm⟩
    · simp [positional, count]

/-! ## Statements -/

/-- the schema of a table: all its columns have the one type -/
def Table.schema (t : Table) (name : String) : Schema :=
  ⟨name, t.columns.map fun column => ⟨column, Catalog.columnType⟩⟩

def perform (store : Ideal) : Statement → Except Error Answer × Ideal
  | .create c =>
    match store c.table with
    | some _ =>
      (.error (.inContext "execute create statement"
        (.inContext ("add table " ++ c.table ++ " in catalog") (.tableExists c.table))), store)
    | none => (.ok (.created c.table), store.put c.table ⟨c.columns, []⟩)
  | .insert i =>
    match store i.table with
    | none => (.error (.inContext "execute insert statement" (.tableNotFound i.table)), store)
    | some t =>
      match t.row i.table i.columns i.values with
      | .error fault => (.error (.inContext "execute insert statement" (.columnMismatch fault.message)), store)
      | .ok row => (.ok .inserted, store.put i.table { t with rows := t.rows ++ [row] })
  | .select s =>
    match store s.table with
    | none =>
      (.error (.inContext "execute select statement"
        (.inContext "compute select result" (.tableNotFound s.table))), store)
    | some t => (.ok (.records (s.meaning (t.schema s.table) t.rows)), store)

/-- a query text is answered as its statement is, and without a statement by the error of the parser -/
def execute (store : Ideal) (query : String) : Except Error Answer × Ideal :=
  match Statement.parse query with
  | .error e => (.error (.inContext "grammatically invalid" e), store)
  | .ok statement => store.perform statement

theorem perform_unchanged {store : Ideal} {statement : Statement} {e : Error}
    (h : (store.perform statement).1 = .error e) : (store.perform statement).2 = store := by
  cases statement with
  | create c =>
    simp only [perform] at h ⊢
    cases there : store c.table with
    | some t => rfl
    | none =>
      rw [there] at h
      cases h
  | insert i =>
    simp only [perform] at h ⊢
    cases there : store i.table with
    | none => rfl
    | some t =>
      simp only [there] at h ⊢
      cases made : t.row i.table i.columns i.values with
      | error fault => rfl
      | ok row =>
        rw [made] at h
        cases h
  | select s =>
    simp only [perform]
    cases store s.table <;> rfl

/-- only what succeeds changes the store -/
theorem execute_unchanged {store : Ideal} {query : String} {e : Error} (h : (store.execute query).1 = .error e) :
    (store.execute query).2 = store := by
  unfold execute at h ⊢
  cases parsed : Statement.parse query with
  | error fault => rfl
  | ok statement =>
    simp only [parsed] at h
    exact perform_unchanged h

end Ideal
end TableStore
