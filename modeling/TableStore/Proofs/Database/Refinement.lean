/-
A database is its ideal store.

A disk keeps an ideal store (`Keeps`) if its two files decode to schemas and rows that stand for it (`Represents`): a
name has a schema exactly if it has rows, and both are those of its table. Every statement keeps this up, through
whatever open instance it comes (`execute_refines`): it answers what the ideal store answers, and leaves a disk that
keeps what the ideal store has become.
-/
import TableStore.Proofs.Database.Ideal
import TableStore.Proofs.Sql.Rendering

namespace TableStore

open DataFile (run_then run_then_error)

variable {o : Options} {catalog tablespace : Site} {d : Disk} {schemas : List Schema}
  {content : Option (Keyed (List Row))} {store : Ideal} {name : String}

/-! ## What stands for an ideal store -/

/-- a name without a table -/
structure Missing (schemas : List Schema) (content : Option (Keyed (List Row))) (store : Ideal) (name : String) :
    Prop where
  schema : schemas.find? (·.table == name) = none
  stored : content >>= (·.find? name) = none
  table : store name = none

/-- a name with a table -/
structure Found (schemas : List Schema) (content : Option (Keyed (List Row))) (store : Ideal) (name : String)
    (rows : List Row) (t : Ideal.Table) : Prop where
  schema : schemas.find? (·.table == name) = some (t.schema name)
  stored : content >>= (·.find? name) = some rows
  table : store name = some t
  same : t.rows = rows.map Keyed.find?

def Represents (schemas : List Schema) (content : Option (Keyed (List Row))) (store : Ideal) : Prop :=
  ∀ name, Missing schemas content store name ∨ ∃ rows t, Found schemas content store name rows t

theorem represents_empty : Represents [] none .empty := by
  intro name
  exact .inl ⟨rfl, rfl, rfl⟩

theorem Missing.any (h : Missing schemas content store name) : schemas.any (·.table == name) = false := by
  simpa using h.schema

theorem Missing.contains (h : Missing schemas content store name) : (content.getD ∅).contains name = false := by
  rw [Keyed.contains, Keyed.find?_getD, h.stored]
  rfl

theorem Found.any {rows : List Row} {t : Ideal.Table} (h : Found schemas content store name rows t) :
    schemas.any (·.table == name) = true := by
  have there : (schemas.find? (·.table == name)).isSome := by simp [h.schema]
  simpa using there

/-- the schema of columns that can be created is that of a table with these columns -/
theorem ofColumns_eq_schema {columns types : List String} (creatable : Catalog.Creatable columns types)
    (name : String) : Schema.ofColumns name columns types = (⟨columns, []⟩ : Ideal.Table).schema name := by
  have all : types = List.replicate columns.length Catalog.columnType :=
    List.eq_replicate_iff.2 ⟨creatable.length_eq.symm, creatable.typed⟩
  have zipped : List.zipWith Column.mk columns (List.replicate columns.length Catalog.columnType)
      = columns.map fun column => ⟨column, Catalog.columnType⟩ := by
    rw [← List.map_const', List.zipWith_map_right]
    simp
  rw [all, Schema.ofColumns, zipped]
  rfl

/-- what is the same at a name stands for the same table -/
theorem Represents.carry (h : Represents schemas content store) {schemas' : List Schema}
    {content' : Option (Keyed (List Row))} {store' : Ideal} {other : String}
    (schema : schemas'.find? (·.table == other) = schemas.find? (·.table == other))
    (kept : content' >>= (·.find? other) = content >>= (·.find? other)) (table : store' other = store other) :
    Missing schemas' content' store' other ∨ ∃ rows t, Found schemas' content' store' other rows t := by
  rcases h other with missing | ⟨rows, t, found⟩
  · exact .inl ⟨schema.trans missing.schema, kept.trans missing.stored, table.trans missing.table⟩
  · exact .inr ⟨rows, t, schema.trans found.schema, kept.trans found.stored, table.trans found.table, found.same⟩

/-- a new table stands for itself and leaves the other names alone -/
theorem Represents.create (h : Represents schemas content store) (missing : Missing schemas content store name)
    (columns : List String) :
    Represents (schemas ++ [(⟨columns, []⟩ : Ideal.Table).schema name]) (some ((content.getD ∅).insert name []))
      (store.put name ⟨columns, []⟩) := by
  intro other
  by_cases eq : other = name
  · subst eq
    refine .inr ⟨[], ⟨columns, []⟩, ?_, ?_, Ideal.put_self .., rfl⟩
    · rw [List.find?_append, missing.schema]
      simp [Ideal.Table.schema]
    · rw [Keyed.find?_getD_insert, if_pos rfl]
  · refine h.carry ?_ ?_ (Ideal.put_ne eq ..)
    · simp [List.find?_append, Ideal.Table.schema, Ne.symm eq]
    · rw [Keyed.find?_getD_insert, if_neg (Ne.symm eq)]

/-- a new row stands behind the rows of its table and leaves the other names alone -/
theorem Represents.insert (h : Represents schemas content store) {rows : List Row} {t : Ideal.Table}
    (found : Found schemas content store name rows t) (row : Row) :
    Represents schemas (some ((content.getD ∅).insert name (rows ++ [row])))
      (store.put name { t with rows := t.rows ++ [row.find?] }) := by
  intro other
  by_cases eq : other = name
  · subst eq
    refine .inr ⟨rows ++ [row], { t with rows := t.rows ++ [row.find?] }, found.schema, ?_, Ideal.put_self .., ?_⟩
    · rw [Keyed.find?_getD_insert, if_pos rfl]
    · rw [List.map_append, found.same]
      rfl
  · refine h.carry rfl ?_ (Ideal.put_ne eq ..)
    rw [Keyed.find?_getD_insert, if_neg (Ne.symm eq)]

/-! ## Rows -/

theorem names_schema (t : Ideal.Table) (name : String) : (t.schema name).names = t.columns := by
  simp [Ideal.Table.schema, Schema.names, Function.comp_def]

theorem isNone_column? (t : Ideal.Table) (name column : String) :
    ((t.schema name).column? column).isNone = decide (column ∉ t.columns) := by
  rw [Bool.eq_iff_iff, Option.isNone_iff_eq_none, Schema.column?, List.find?_eq_none]
  simpa [Ideal.Table.schema] using List.forall_mem_ne'

theorem find?_pairs (names values : List String) :
    (Keyed.ofPairs (names.zip values)).find? = Ideal.pairing names values :=
  funext fun name => Keyed.find?_ofPairs (names.zip values) name

/-- the row of an insert is the ideal one -/
theorem row_schema (t : Ideal.Table) (name : String) (columns values : List String) :
    ((t.schema name).row columns values).map Keyed.find? = t.row name columns values := by
  have width : (t.schema name).columns.length = t.columns.length := List.length_map _
  simp only [Schema.row, Ideal.Table.row, names_schema, isNone_column?, width, List.isEmpty_iff]
  by_cases positional : columns = []
  · by_cases count : values.length = t.columns.length
    · simp [positional, count, Except.map, find?_pairs]
    · simp [positional, count, Except.map, Ideal.Table.schema]
  · by_cases count : columns.length = values.length
    · simp only [positional, count, ne_eq, not_true_eq_false, if_false]
      cases columns.find? (· ∉ t.columns) with
      | some column => rfl
      | none => exact congrArg Except.ok (find?_pairs columns values)
    · simp [positional, count, Except.map]

/-! ## Statements -/

/-- the two files have what stands for an ideal store -/
def Keeps (o : Options) (catalog tablespace : Site) (d : Disk) (store : Ideal) : Prop :=
  ∃ schemas content, Stored o catalog tablespace d schemas content ∧ Represents schemas content store

namespace Database

variable {db : Database}

/-- a program answers what an ideal store answers, and the files have what that store becomes -/
def Answers (o : Options) (catalog tablespace : Site) (d : Disk) (p : StoreM Answer)
    (ideal : Except Error Answer × Ideal) : Prop :=
  ∃ d', p.run.run d = (ideal.1, d') ∧ Keeps o catalog tablespace d' ideal.2

theorem perform_create (keeps : Keeps o catalog tablespace d store) (opened : db.tables.IsOpen o catalog tablespace)
    {c : Create} (creatable : Catalog.Creatable c.columns c.types) :
    Answers o catalog tablespace d (db.perform (.create c)) (store.perform (.create c)) := by
  obtain ⟨schemas, content, stored, stands⟩ := keeps
  simp only [perform, Ideal.perform]
  rcases stands c.table with missing | ⟨rows, t, found⟩
  · obtain ⟨d', created, stored'⟩ := Tables.run_create_new stored opened creatable missing.any missing.contains
    rw [missing.table]
    rw [ofColumns_eq_schema creatable c.table] at stored'
    refine ⟨d', run_inContext_ok ?_ _, _, _, stored', stands.create missing c.columns⟩
    rw [run_then created]
    rfl
  · have there := Tables.run_create_exists stored opened creatable found.any
    rw [found.table]
    exact ⟨d, run_inContext_error (run_then_error there _) _, _, _, stored, stands⟩

theorem perform_insert (keeps : Keeps o catalog tablespace d store) (opened : db.tables.IsOpen o catalog tablespace)
    (i : Insert) : Answers o catalog tablespace d (db.perform (.insert i)) (store.perform (.insert i)) := by
  obtain ⟨schemas, content, stored, stands⟩ := keeps
  simp only [perform, Ideal.perform]
  rcases stands i.table with missing | ⟨rows, t, found⟩
  · rw [missing.table]
    have refused := Tables.run_insert_missing stored opened missing.schema i.columns i.values
    exact ⟨d, run_inContext_error (run_then_error refused _) _, _, _, stored, stands⟩
  · have same := row_schema t i.table i.columns i.values
    simp only [found.table]
    cases made : (t.schema i.table).row i.columns i.values with
    | error fault =>
      rw [← same, made]
      have refused := Tables.run_insert_mismatch stored opened found.schema made
      exact ⟨d, run_inContext_error (run_then_error refused _) _, _, _, stored, stands⟩
    | ok row =>
      rw [← same, made]
      obtain ⟨d', inserted, stored'⟩ := Tables.run_insert stored opened found.schema made found.stored
      refine ⟨d', run_inContext_ok ?_ _, _, _, stored', stands.insert found row⟩
      rw [run_then inserted]
      rfl

theorem perform_select (keeps : Keeps o catalog tablespace d store) (opened : db.tables.IsOpen o catalog tablespace)
    (s : Select) : Answers o catalog tablespace d (db.perform (.select s)) (store.perform (.select s)) := by
  obtain ⟨schemas, content, stored, stands⟩ := keeps
  simp only [perform, Ideal.perform]
  rcases stands s.table with missing | ⟨rows, t, found⟩
  · have refused := Tables.run_select_missing stored opened s missing.schema
    rw [missing.table]
    exact ⟨d, run_inContext_error (run_then_error refused _) _, _, _, stored, stands⟩
  · have read := Tables.run_select stored opened s found.schema found.stored
    rw [found.table]
    refine ⟨d, run_inContext_ok ?_ _, _, _, stored, stands⟩
    rw [run_then read, found.same]
    rfl

/-- one query through one open instance is answered as the ideal store answers it -/
theorem execute_refines (keeps : Keeps o catalog tablespace d store) (opened : db.tables.IsOpen o catalog tablespace)
    (query : String) : Answers o catalog tablespace d (db.execute query) (store.execute query) := by
  rw [Ideal.execute]
  cases parsed : Statement.parse query with
  | error e => exact ⟨d, run_execute_error parsed, keeps⟩
  | ok statement =>
    have answered : Answers o catalog tablespace d (db.perform statement) (store.perform statement) := by
      cases statement with
      | create c => exact perform_create keeps opened (Statement.wellFormed_of_parse parsed).creatable
      | insert i => exact perform_insert keeps opened i
      | select s => exact perform_select keeps opened s
    obtain ⟨d', ran, keeps'⟩ := answered
    exact ⟨d', (run_execute_ok parsed).trans ran, keeps'⟩

end Database
end TableStore
