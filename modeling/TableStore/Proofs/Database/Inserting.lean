/-
What an accepted insert stores.

A row is a map from names to values, so of a name that is given two values only the last one is stored. An insert gives
every value a name: the one that stands with it, or else that of the table's column in the same place. Neither a create
nor an insert objects to names that are repeated; what an insert gives is all stored exactly if the repeated names have
equal values (`Agreeing`).

A state of a database is reachable if it comes from openings and queries (`Reachable`). In such a state an insert that
is answered with success has put one row behind the others of its table (`Ideal.execute_inserted`), and a select of the
whole table shows every row as one record (`Ideal.execute_selectAll`).

Results:
  select_after_insert     a select behind an accepted insert shows one record more than a select before it, with the
                          last value for every name; all given values are in it exactly if they agree.
  not_all_values_stored   a table with a repeated column takes two values and stores one.
-/
import TableStore.Proofs.Database.Isolation
import TableStore.Proofs.Store.Reading

namespace TableStore

variable {o : Options} {catalog tablespace : Site} {instances : List Database} {d : Disk} {db : Database}
  {store : Ideal} {name : String}

/-! ## Reachable states -/

/-- the instances of a database and the disk, after openings and queries in any order -/
inductive Reachable (o : Options) : List Database → Disk → Prop where
  | first {d d' : Disk} {db : Database} : Tables.Unused o d → (Database.openWith o).run.run d = (.ok db, d') →
      Reachable o [db] d'
  | another {instances : List Database} {d d' : Disk} {db : Database} : Reachable o instances d →
      (Database.openWith o).run.run d = (.ok db, d') → Reachable o (instances ++ [db]) d'
  | executed {instances : List Database} {d d' : Disk} {db : Database} {query : String}
      {result : Except Error Answer} : Reachable o instances d → db ∈ instances →
      (db.execute query).run.run d = (result, d') → Reachable o instances d'

/-- in a reachable state the files keep an ideal store, and all instances are open at them -/
theorem Reachable.keeps (h : Reachable o instances d) :
    ∃ catalog tablespace store, Keeps o catalog tablespace d store
      ∧ ∀ db ∈ instances, db.tables.IsOpen o catalog tablespace := by
  induction h with
  | first unused made =>
    obtain ⟨db, d', catalog, tablespace, made', opened, keeps⟩ := Database.run_openWith_unused unused
    rw [made] at made'
    cases made'
    exact ⟨catalog, tablespace, .empty, keeps, fun db mem => List.mem_singleton.1 mem ▸ opened⟩
  | another _ made ih =>
    obtain ⟨catalog, tablespace, store, keeps, all⟩ := ih
    obtain ⟨db, made', opened⟩ := Database.run_openWith_kept keeps
    rw [made] at made'
    cases made'
    exact ⟨catalog, tablespace, store, keeps, Database.isOpen_snoc all opened⟩
  | @executed _ _ _ _ query _ _ mem ran ih =>
    obtain ⟨catalog, tablespace, store, keeps, all⟩ := ih
    obtain ⟨d', ran', keeps'⟩ := Database.execute_refines keeps (all _ mem) query
    rw [ran] at ran'
    cases ran'
    exact ⟨catalog, tablespace, _, keeps', all⟩

/-! ## What an insert gives -/

/-- the names that the values of an insert are for: those it has, or else the columns of the table -/
def Insert.targets (i : Insert) (columns : List String) : List String := if i.columns = [] then columns else i.columns

/-- the values of an insert with the names that they are for -/
def Insert.given (i : Insert) (columns : List String) : List (String × String) := (i.targets columns).zip i.values

/-- no name is given two values -/
def Agreeing (given : List (String × String)) : Prop := ∀ g ∈ given, ∀ g' ∈ given, g.1 = g'.1 → g.2 = g'.2

/-- the names and values of a record -/
def Record.pairs (r : Record) : List (String × String) := r.columns.zip r.values

/-- a record has all that an insert gives: in the places of the columns, or at every column of a name, and then nothing
at the other columns -/
def Insert.StoredIn (i : Insert) (r : Record) : Prop :=
  if i.columns = [] then r.values = i.values
  else (∀ g ∈ i.columns.zip i.values, ∀ p ∈ r.pairs, p.1 = g.1 → p.2 = g.2)
    ∧ ∀ p ∈ r.pairs, p.1 ∉ i.columns → p.2 = ""

theorem agreeing_of_nodup {names values : List String} (count : names.length = values.length) (distinct : names.Nodup) :
    Agreeing (names.zip values) := by
  intro g mem g' mem' same
  have keys : ((names.zip values).map Prod.fst).Nodup := by
    rwa [List.map_fst_zip count.le]
  rw [List.inj_on_of_nodup_map keys mem mem' same]

namespace Ideal

theorem pairing_none {names values : List String} (missing : name ∉ names) : pairing names values name = none := by
  have absent : (names.zip values).reverse.find? (·.1 == name) = none := by
    rw [List.find?_eq_none]
    rintro ⟨n, v⟩ mem
    have known := (List.of_mem_zip (List.mem_reverse.1 mem)).1
    simpa using fun same : n = name => missing (same ▸ known)
  rw [pairing, absent]
  rfl

/-- what is stored at a name was given to it -/
theorem mem_of_pairing {names values : List String} {value : String} (stored : pairing names values name = some value) :
    (name, value) ∈ names.zip values := by
  obtain ⟨⟨n, v⟩, found, rfl⟩ := Option.map_eq_some_iff.1 stored
  obtain rfl : n = name := by simpa using List.find?_some found
  exact List.mem_reverse.1 (List.mem_of_find?_eq_some found)

/-- every name that was given a value has one -/
theorem exists_pairing {names values : List String} {g : String × String} (mem : g ∈ names.zip values) :
    ∃ value, pairing names values g.1 = some value := by
  have found : ((names.zip values).reverse.find? (·.1 == g.1)).isSome := by
    rw [List.find?_isSome]
    exact ⟨g, List.mem_reverse.2 mem, beq_self_eq_true _⟩
  obtain ⟨pair, there⟩ := Option.isSome_iff_exists.1 found
  exact ⟨pair.2, by rw [pairing, there]; rfl⟩

/-- where values agree, every one of them is stored -/
theorem pairing_of_agreeing {names values : List String} (agree : Agreeing (names.zip values)) {g : String × String}
    (mem : g ∈ names.zip values) : pairing names values g.1 = some g.2 := by
  obtain ⟨value, stored⟩ := exists_pairing mem
  have same : value = g.2 := agree _ (mem_of_pairing stored) g mem rfl
  rw [stored, same]

/-- names with what is read off each of them -/
theorem mem_zip_map {columns : List String} {f : String → String} {p : String × String} :
    p ∈ columns.zip (columns.map f) ↔ p.1 ∈ columns ∧ p.2 = f p.1 := by
  rw [← List.map_prod_left_eq_zip, List.mem_map]
  refine ⟨?_, fun ⟨mem, value⟩ => ⟨p.1, mem, Prod.ext rfl value.symm⟩⟩
  rintro ⟨column, mem, rfl⟩
  exact ⟨mem, rfl⟩

/-- the values of a row are those given in the places of the columns exactly if these agree -/
theorem values_eq_iff {columns values : List String} (count : columns.length = values.length) :
    (columns.map fun column => (pairing columns values column).getD "") = values ↔ Agreeing (columns.zip values) := by
  refine ⟨fun same => ?_, fun agree => ?_⟩
  · intro g mem g' mem' name
    rw [← same] at mem mem'
    rw [(mem_zip_map.1 mem).2, (mem_zip_map.1 mem').2, name]
  · refine List.ext_getElem (by simpa using count) fun k k_lt k_lt' => ?_
    have k_lt_columns : k < columns.length := by simpa using k_lt
    have mem : (columns[k], values[k]) ∈ columns.zip values :=
      List.mem_iff_getElem.2 ⟨k, by simp [count, k_lt'], by simp⟩
    have stored := pairing_of_agreeing agree mem
    simp only [List.getElem_map, stored, Option.getD_some]

/-- every value that is given to a name is at all columns of it exactly if the given ones agree -/
theorem stored_iff {columns names values : List String} (known : ∀ name ∈ names, name ∈ columns) :
    (∀ g ∈ names.zip values,
        ∀ p ∈ columns.zip (columns.map fun column => (pairing names values column).getD ""), p.1 = g.1 → p.2 = g.2)
      ↔ Agreeing (names.zip values) := by
  refine ⟨fun all g mem g' mem' same => ?_, fun agree g mem p there same => ?_⟩
  · have column : g.1 ∈ columns := known _ (List.of_mem_zip mem).1
    have there : (g.1, (pairing names values g.1).getD "")
        ∈ columns.zip (columns.map fun column => (pairing names values column).getD "") := mem_zip_map.2 ⟨column, rfl⟩
    exact (all g mem _ there rfl).symm.trans (all g' mem' _ there same)
  · rw [(mem_zip_map.1 there).2, same, pairing_of_agreeing agree mem]
    rfl

/-! ## The row of an insert -/

/-- the record that a select of all columns shows of a row -/
def Table.record (t : Table) (row : String → Option String) : Record :=
  { columns := t.columns
    types := t.columns.map fun _ => Catalog.columnType
    values := t.columns.map fun column => (row column).getD "" }

/-- an insert that makes a row gives one value to each of some columns of the table -/
theorem Table.row_given {t : Table} {i : Insert} {row : String → Option String}
    (made : t.row i.table i.columns i.values = .ok row) :
    (i.targets t.columns).length = i.values.length ∧ (∀ column ∈ i.targets t.columns, column ∈ t.columns)
      ∧ row = pairing (i.targets t.columns) i.values := by
  rcases row_eq_ok_iff.1 made with ⟨positional, count, rfl⟩ | ⟨named, count, known, rfl⟩
  · rw [Insert.targets, if_pos positional]
    exact ⟨count.symm, fun _ mem => mem, rfl⟩
  · rw [Insert.targets, if_neg named]
    exact ⟨count, known, rfl⟩

/-- **All that an insert gives is stored exactly if it agrees.** -/
theorem Table.storedIn_iff {t : Table} {i : Insert} {row : String → Option String}
    (made : t.row i.table i.columns i.values = .ok row) :
    i.StoredIn (t.record row) ↔ Agreeing (i.given t.columns) := by
  obtain ⟨count, known, rfl⟩ := row_given made
  rw [Insert.StoredIn, Insert.given]
  by_cases positional : i.columns = []
  · have all : i.targets t.columns = t.columns := if_pos positional
    rw [if_pos positional, all]
    rw [all] at count
    exact values_eq_iff count
  · have own : i.targets t.columns = i.columns := if_neg positional
    rw [own] at known
    rw [if_neg positional, own]
    have others : ∀ p ∈ (t.record (pairing i.columns i.values)).pairs, p.1 ∉ i.columns → p.2 = "" := by
      intro p there missing
      rw [(mem_zip_map.1 there).2, pairing_none missing]
      rfl
    exact (and_iff_left others).trans (stored_iff known)

/-! ## Queries -/

/-- a select of a whole table shows its rows -/
theorem meaning_all (name : String) (t : Table) :
    (⟨.all, name, none, none, none, none⟩ : Select).meaning (t.schema name) t.rows = t.rows.map t.record := by
  simp only [Select.meaning, Select.kept, Select.ordered, Select.part, Option.getD_none, List.drop_zero, List.map_map]
  refine List.map_congr_left fun row _ => ?_
  simp [Schema.fieldsOf, Table.schema, Record.ofFields, Table.record, Selection.contains, Function.comp_def]

theorem execute_selectAll (isName : IsName name) {t : Table} (there : store name = some t) :
    store.execute ("select * from " ++ name) = (.ok (.records (t.rows.map t.record)), store) := by
  rw [execute, parse_selectAll isName]
  simp only [perform, there, meaning_all]

/-- **An accepted insert** has put one row behind the others of a table that is there. -/
theorem execute_inserted {query : String} (inserted : (store.execute query).1 = .ok .inserted) :
    ∃ i t row, Statement.parse query = .ok (.insert i) ∧ store i.table = some t
      ∧ t.row i.table i.columns i.values = .ok row
      ∧ (store.execute query).2 = store.put i.table { t with rows := t.rows ++ [row] } := by
  rw [execute] at inserted ⊢
  cases parsed : Statement.parse query with
  | error e =>
    rw [parsed] at inserted
    cases inserted
  | ok statement =>
    rw [parsed] at inserted
    cases statement with
    | create c =>
      simp only [perform] at inserted
      split at inserted <;> cases inserted
    | select s =>
      simp only [perform] at inserted
      split at inserted <;> cases inserted
    | insert i =>
      cases there : store i.table with
      | none =>
        simp only [perform, there] at inserted
        cases inserted
      | some t =>
        cases made : t.row i.table i.columns i.values with
        | error fault =>
          simp only [perform, there, made] at inserted
          cases inserted
        | ok row => exact ⟨i, t, row, rfl, there, made, by simp only [perform, there, made]⟩

end Ideal

/-! ## Selects before and behind an insert -/

namespace Database

/-- the schema of a table that is there -/
theorem run_schema_kept (keeps : Keeps o catalog tablespace d store) (opened : db.tables.IsOpen o catalog tablespace)
    {t : Ideal.Table} (there : store name = some t) :
    (db.tables.catalog.schema name).run.run d = (.ok (t.schema name), d) := by
  obtain ⟨schemas, content, stored, stands⟩ := keeps
  rcases stands name with missing | ⟨rows, t', found⟩
  · rw [missing.table] at there
    cases there
  · rw [found.table] at there
    cases there
    exact Tables.run_schema_there stored opened found.schema

/-- a select of a whole table shows its rows and changes nothing -/
theorem run_selectAll (keeps : Keeps o catalog tablespace d store) (opened : db.tables.IsOpen o catalog tablespace)
    (isName : IsName name) {t : Ideal.Table} (there : store name = some t) :
    (db.execute ("select * from " ++ name)).run.run d = (.ok (.records (t.rows.map t.record)), d) := by
  obtain ⟨d', ran, -⟩ := execute_refines keeps opened ("select * from " ++ name)
  rw [Ideal.execute_selectAll isName there] at ran
  have still : ((db.execute ("select * from " ++ name)).run.run d).2 = d := by
    rw [run_execute_ok (parse_selectAll isName)]
    exact (still_select db _).disk_run d
  rw [ran] at still
  exact ran.trans (congrArg (Prod.mk _) still)

end Database

/-- behind an accepted insert a select through any instance shows one record more, that of the row of the insert -/
theorem Reachable.selects (reachable : Reachable o instances d) (mem : db ∈ instances) {query : String} {d' : Disk}
    (inserted : (db.execute query).run.run d = (.ok .inserted, d')) :
    ∃ (i : Insert) (t : Ideal.Table) (row : String → Option String), Statement.parse query = .ok (.insert i)
      ∧ (db.tables.catalog.schema i.table).run.run d = (.ok (t.schema i.table), d)
      ∧ t.row i.table i.columns i.values = .ok row
      ∧ ∀ other ∈ instances,
          (other.execute ("select * from " ++ i.table)).run.run d = (.ok (.records (t.rows.map t.record)), d)
            ∧ (other.execute ("select * from " ++ i.table)).run.run d'
              = (.ok (.records (t.rows.map t.record ++ [t.record row])), d') := by
  obtain ⟨catalog, tablespace, store, keeps, all⟩ := reachable.keeps
  obtain ⟨d₁, ran, keeps'⟩ := Database.execute_refines keeps (all db mem) query
  rw [inserted] at ran
  cases congrArg Prod.snd ran
  have accepted : (store.execute query).1 = .ok .inserted := (congrArg Prod.fst ran).symm
  obtain ⟨i, t, row, parsed, there, made, after⟩ := Ideal.execute_inserted accepted
  rw [after] at keeps'
  have isName : IsName i.table := (Statement.wellFormed_of_parse parsed).names _ (by simp [Statement.names])
  refine ⟨i, t, row, parsed, Database.run_schema_kept keeps (all db mem) there, made, fun other mem' => ⟨?_, ?_⟩⟩
  · exact Database.run_selectAll keeps (all other mem') isName there
  · have last := Database.run_selectAll keeps' (all other mem') isName (Ideal.put_self ..)
    rwa [List.map_append] at last

/-- **A select behind an accepted insert** shows, through any instance, the records of a select before it and one more.
That one has the columns of the table, and at each of them the last value that the insert gives for its name, or empty
text if it gives none. It has all values that the insert gives exactly if no name is given two different ones; so it
has them where no name is repeated. -/
theorem select_after_insert (reachable : Reachable o instances d) (mem : db ∈ instances) {query : String} {d' : Disk}
    (inserted : (db.execute query).run.run d = (.ok .inserted, d')) :
    ∃ (i : Insert) (s : Schema) (before : List Record) (new : Record), Statement.parse query = .ok (.insert i)
      ∧ (db.tables.catalog.schema i.table).run.run d = (.ok s, d)
      ∧ (∀ other ∈ instances,
          (other.execute ("select * from " ++ i.table)).run.run d = (.ok (.records before), d)
            ∧ (other.execute ("select * from " ++ i.table)).run.run d' = (.ok (.records (before ++ [new])), d'))
      ∧ new.columns = s.names ∧ new.types = s.types
      ∧ (i.targets s.names).length = i.values.length ∧ (∀ column ∈ i.targets s.names, column ∈ s.names)
      ∧ new.values = s.names.map (fun column =>
          (((i.given s.names).reverse.find? (·.1 == column)).map (·.2)).getD "")
      ∧ (i.StoredIn new ↔ Agreeing (i.given s.names))
      ∧ ((i.targets s.names).Nodup → i.StoredIn new) := by
  obtain ⟨i, t, row, parsed, schema, made, selects⟩ := reachable.selects mem inserted
  obtain ⟨count, known, same⟩ := Ideal.Table.row_given made
  have all := Ideal.Table.storedIn_iff made
  refine ⟨i, t.schema i.table, t.rows.map t.record, t.record row, parsed, schema, selects, ?_, ?_, ?_⟩
  · exact (names_schema t i.table).symm
  · simp [Ideal.Table.record, Ideal.Table.schema, Schema.types, Function.comp_def]
  · rw [names_schema]
    refine ⟨count, known, ?_, all, fun distinct => all.2 (agreeing_of_nodup count distinct)⟩
    rw [same]
    rfl

/-! ## One table with a name that is left out, and one with a name that is repeated -/

/-- queries through an open instance lead from reachable states to reachable states -/
theorem Reachable.executeAll (reachable : Reachable o instances d) (mem : db ∈ instances)
    (keeps : Keeps o catalog tablespace d store) (opened : db.tables.IsOpen o catalog tablespace)
    (queries : List String) :
    ∃ d', Reachable o instances d' ∧ Keeps o catalog tablespace d' (store.executeAll queries).2 := by
  induction queries generalizing d store with
  | nil => exact ⟨d, reachable, keeps⟩
  | cons query rest ih =>
    obtain ⟨d₁, ran, keeps₁⟩ := Database.execute_refines keeps opened query
    exact ih (reachable.executed mem ran) keeps₁

/-- an insert that succeeds after some queries on an empty disk -/
theorem exists_inserted (queries : List String) (query name : String) (columns : List String)
    (accepted : ((Ideal.empty.executeAll queries).2.execute query).1 = .ok .inserted)
    (there : ((Ideal.empty.executeAll queries).2 name).map (·.columns) = some columns) :
    ∃ db d d' t, Reachable {} [db] d ∧ (db.execute query).run.run d = (.ok .inserted, d')
      ∧ (db.tables.catalog.schema name).run.run d = (.ok (Ideal.Table.schema t name), d) ∧ t.columns = columns := by
  have unused := Tables.fresh_default.unused
  obtain ⟨db, d₀, catalog, tablespace, made, opened, keeps₀⟩ := Database.run_openWith_unused unused
  obtain ⟨d, reachable, keeps⟩ :=
    (Reachable.first unused made).executeAll (List.mem_singleton_self db) keeps₀ opened queries
  obtain ⟨d', ran, -⟩ := Database.execute_refines keeps opened query
  obtain ⟨t, table, names⟩ := Option.map_eq_some_iff.1 there
  exact ⟨db, d, d', t, reachable, ran.trans (congrArg (·, d') accepted),
    Database.run_schema_kept keeps opened table, names⟩

/-- an insert that names one of two columns leaves the other one empty -/
theorem select_after_insert_ink :
    ∃ db d d', Reachable {} [db] d ∧ db ∈ [db]
      ∧ (db.execute "insert into item (name) values ('ink')").run.run d = (.ok .inserted, d')
      ∧ ∃ before new, (db.execute "select * from item").run.run d = (.ok (.records before), d)
        ∧ (db.execute "select * from item").run.run d' = (.ok (.records (before ++ [new])), d')
        ∧ new.columns = ["id", "name"] ∧ new.values = ["", "ink"] := by
  obtain ⟨db, d, d', t, reachable, inserted, schema, columns⟩ :=
    exists_inserted ["create table item (id string, name string)", "insert into item values ('1', 'pen')"]
      "insert into item (name) values ('ink')" "item" ["id", "name"] (by decide +kernel) (by decide +kernel)
  have mem : db ∈ [db] := List.mem_singleton_self db
  obtain ⟨i, s, before, new, parsed, schema', selects, newColumns, -, -, -, newValues, -⟩ :=
    select_after_insert reachable mem inserted
  obtain rfl : i = ⟨"item", ["name"], ["ink"]⟩ := by
    have read : Statement.parse "insert into item (name) values ('ink')"
        = .ok (.insert ⟨"item", ["name"], ["ink"]⟩) := by decide +kernel
    rw [read] at parsed
    cases parsed
    rfl
  obtain rfl : s = t.schema "item" := by
    rw [schema] at schema'
    cases schema'
    rfl
  rw [names_schema, columns] at newColumns newValues
  exact ⟨db, d, d', reachable, mem, inserted, before, new, (selects db mem).1, (selects db mem).2, newColumns,
    newValues.trans (by decide)⟩

/-- **Not all given values are stored.** A table with a repeated column takes a value for each place, and then has the
last one of them at both. -/
theorem not_all_values_stored :
    ¬ ∀ (o : Options) (instances : List Database) (d d' : Disk) (db : Database) (query : String),
        Reachable o instances d → db ∈ instances → (db.execute query).run.run d = (.ok .inserted, d') →
        ∃ (i : Insert) (before : List Record) (new : Record), Statement.parse query = .ok (.insert i)
          ∧ (db.execute ("select * from " ++ i.table)).run.run d = (.ok (.records before), d)
          ∧ (db.execute ("select * from " ++ i.table)).run.run d' = (.ok (.records (before ++ [new])), d')
          ∧ i.StoredIn new := by
  intro all
  obtain ⟨db, d, d', t, reachable, inserted, schema, columns⟩ :=
    exists_inserted ["create table t (a string, a string)"] "insert into t values ('1', '2')" "t" ["a", "a"]
      (by decide +kernel) (by decide +kernel)
  have mem : db ∈ [db] := List.mem_singleton_self db
  obtain ⟨i, before, new, parsed, -, after, stored⟩ := all _ _ d d' db _ reachable mem inserted
  obtain ⟨i', t', row, parsed', schema', made, selects⟩ := reachable.selects mem inserted
  obtain rfl : i = ⟨"t", [], ["1", "2"]⟩ := by
    have read : Statement.parse "insert into t values ('1', '2')" = .ok (.insert ⟨"t", [], ["1", "2"]⟩) := by
      decide +kernel
    rw [read] at parsed
    cases parsed
    rfl
  rw [parsed] at parsed'
  cases parsed'
  have names : t'.columns = ["a", "a"] := by
    rw [schema] at schema'
    have same : t.schema "t" = t'.schema "t" := Except.ok.inj (congrArg Prod.fst schema')
    rw [← columns, ← names_schema t "t", same, names_schema]
  obtain rfl : new = t'.record row := by
    rw [(selects db mem).2] at after
    have records : t'.rows.map t'.record ++ [t'.record row] = before ++ [new] := by
      simpa using congrArg Prod.fst after
    exact (List.singleton_injective (List.append_inj' records rfl).2).symm
  have agree : Agreeing [("a", "1"), ("a", "2")] := by
    have agreeing := (Ideal.Table.storedIn_iff made).1 stored
    rwa [names] at agreeing
  have equal : "1" = "2" := agree ("a", "1") (by simp) ("a", "2") (by simp) rfl
  exact absurd equal (by decide)

end TableStore
