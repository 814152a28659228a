/-
What a catalog and a tablespace are to each other.

A catalog and a tablespace fit if they name the same tables (`SameTables`). They are sound if in addition no table is
named twice, all columns have the one type and every table has some, and the rows of a table give values to columns of
that table, each row to at least one (`Sound`). A sound store also knows its own history: a table has as many rows as
inserts into it have succeeded.

Of each operation on a store that fits, one lemma says that it fails and changes nothing or succeeds and what it has
changed then (`Tables.run_create_cases`, `Tables.run_insert_cases`); soundness is kept by both (`Sound.create`,
`Sound.insert`).
-/
import TableStore.Proofs.Store.Reading

namespace TableStore

open DataFile (run_then_error)

/-! ## Stores that fit -/

/-- the tables of a catalog are the tables of a tablespace -/
def SameTables (schemas : List Schema) (content : Option (Keyed (List Row))) : Prop :=
  ∀ name, name ∈ schemas.map (·.table) ↔ name ∈ (content.getD ∅).keys

section Names

variable {schemas : List Schema} {content : Option (Keyed (List Row))} {name : String}

theorem any_table_eq_false : schemas.any (·.table == name) = false ↔ name ∉ schemas.map (·.table) := by
  simp

theorem find?_table_eq_none : schemas.find? (·.table == name) = none ↔ name ∉ schemas.map (·.table) := by
  simp

theorem mem_of_find?_table {s : Schema} (found : schemas.find? (·.table == name) = some s) :
    s ∈ schemas ∧ s.table = name :=
  ⟨List.mem_of_find?_eq_some found, by simpa using List.find?_some found⟩

/-- a new table behind all others is found by its name -/
theorem find?_last {s : Schema} (new : s.table ∉ schemas.map (·.table)) :
    (schemas ++ [s]).find? (·.table == s.table) = some s := by
  rw [List.find?_append, find?_table_eq_none.2 new]
  simp

theorem SameTables.contains (h : SameTables schemas content) (new : name ∉ schemas.map (·.table)) :
    (content.getD ∅).contains name = false := by
  rw [h, Keyed.mem_keys_iff] at new
  simpa [Keyed.contains] using new

theorem SameTables.missing (h : SameTables schemas content) (new : name ∉ schemas.map (·.table)) :
    content >>= (·.find? name) = none := by
  rw [← Keyed.find?_getD]
  simpa [Keyed.contains] using h.contains new

theorem SameTables.stored (h : SameTables schemas content) (there : name ∈ schemas.map (·.table)) :
    ∃ rows, content >>= (·.find? name) = some rows := by
  rw [h, Keyed.mem_keys_iff, Keyed.find?_getD] at there
  exact Option.isSome_iff_exists.1 there

end Names

/-! ## Sound stores -/

/-- a row of a table: it gives values to columns of the table, to one at least -/
structure Schema.Fits (s : Schema) (row : Row) : Prop where
  some : row.keys ≠ []
  known : ∀ column ∈ row.keys, column ∈ s.names

/-- a catalog and a tablespace after inserts, so many of which have succeeded into each table -/
structure Sound (schemas : List Schema) (content : Option (Keyed (List Row))) (inserted : String → Nat) : Prop where
  distinct : (schemas.map (·.table)).Nodup
  columns : ∀ s ∈ schemas, s.columns ≠ [] ∧ ∀ column ∈ s.columns, column.type = Catalog.columnType
  same : SameTables schemas content
  rows : ∀ s ∈ schemas, ∀ rows, (content.getD ∅).find? s.table = some rows →
    rows.length = inserted s.table ∧ ∀ row ∈ rows, s.Fits row
  unknown : ∀ name, name ∉ schemas.map (·.table) → inserted name = 0

variable {schemas : List Schema} {content : Option (Keyed (List Row))} {inserted : String → Nat}

theorem sound_empty : Sound [] none fun _ => 0 := by
  refine ⟨.nil, by simp, fun name => ?_, by simp, fun _ _ => rfl⟩
  exact ⟨fun mem => (nomatch mem), fun mem => (nomatch mem)⟩

/-- columns that can be created are all of the one type -/
theorem Catalog.Creatable.columns {columns types : List String} (creatable : Creatable columns types) (table : String) :
    (Schema.ofColumns table columns types).columns ≠ []
      ∧ ∀ column ∈ (Schema.ofColumns table columns types).columns, column.type = columnType := by
  refine ⟨fun nil => ?_, fun column mem => ?_⟩
  · have size := congrArg List.length nil
    rw [Schema.ofColumns, List.length_zipWith, ← creatable.length_eq, Nat.min_self] at size
    exact creatable.ne_nil (List.length_eq_zero_iff.1 size)
  · rw [Schema.ofColumns, ← List.map_uncurry_zip_eq_zipWith] at mem
    obtain ⟨⟨name, type⟩, pair, rfl⟩ := List.mem_map.1 mem
    exact creatable.typed type (List.of_mem_zip pair).2

theorem SameTables.create (h : SameTables schemas content) (s : Schema) :
    SameTables (schemas ++ [s]) (some ((content.getD ∅).insert s.table [])) := by
  intro name
  rw [Option.getD_some, Keyed.mem_keys_insert, ← h name]
  simp [or_comm]

/-- an insert into a table that is there leaves the tables that there are -/
theorem SameTables.insert (h : SameTables schemas content) {table : String} (there : table ∈ schemas.map (·.table))
    (rows : List Row) : SameTables schemas (some ((content.getD ∅).insert table rows)) := by
  intro name
  rw [Option.getD_some, Keyed.mem_keys_insert, ← h name]
  refine ⟨.inr, fun mem => ?_⟩
  rcases mem with rfl | mem
  · exact there
  · exact mem

theorem Sound.create (h : Sound schemas content inserted) {table : String} {columns types : List String}
    (creatable : Catalog.Creatable columns types) (new : table ∉ schemas.map (·.table)) :
    Sound (schemas ++ [.ofColumns table columns types]) (some ((content.getD ∅).insert table [])) inserted where
  distinct := by
    rw [List.map_append, List.nodup_append]
    refine ⟨h.distinct, by simp, fun name mem other mem' => ?_⟩
    rintro rfl
    have last : name = table := List.mem_singleton.1 mem'
    exact new (last ▸ mem)
  columns s mem := by
    rcases List.mem_append.1 mem with old | last
    · exact h.columns s old
    · rw [List.mem_singleton.1 last]
      exact creatable.columns table
  same := h.same.create (.ofColumns table columns types)
  rows s mem rows found := by
    rw [Option.getD_some, Keyed.find?_insert] at found
    rcases List.mem_append.1 mem with old | last
    · have apart : table ≠ s.table := by
        rintro rfl
        exact new (List.mem_map_of_mem old)
      rw [if_neg apart] at found
      exact h.rows s old rows found
    · obtain rfl := List.mem_singleton.1 last
      have made : some [] = some rows := (if_pos rfl).symm.trans found
      cases made
      exact ⟨(h.unknown table new).symm, by simp⟩
  unknown name missing := by
    refine h.unknown name fun mem => missing ?_
    rw [List.map_append]
    exact List.mem_append_left _ mem

/-- a row that an insert makes gives values to columns of its table -/
theorem Schema.fits_of_row {s : Schema} (some : s.columns ≠ []) {columns values : List String} {row : Row}
    (made : s.row columns values = .ok row) : s.Fits row := by
  -- the row is made of pairs of names and values, as many of them as there are names
  obtain ⟨names, size, ne, known, rfl⟩ : ∃ names, names.length = values.length ∧ names ≠ []
      ∧ (∀ name ∈ names, name ∈ s.names) ∧ row = Keyed.ofPairs (names.zip values) := by
    rw [Schema.row] at made
    split at made
    · split at made
      · cases made
      · rename_i count
        cases made
        refine ⟨s.names, ?_, by simpa [Schema.names] using some, fun _ mem => mem, rfl⟩
        rw [Schema.names, List.length_map]
        exact (not_not.1 count).symm
    · rename_i positional
      split at made
      · cases made
      · rename_i count
        split at made
        · cases made
        · rename_i unknown
          cases made
          refine ⟨columns, not_not.1 count, by simpa using positional, fun name mem => ?_, rfl⟩
          have there : ∃ column ∈ s.columns, column.name = name := by
            simpa [Schema.column?] using List.find?_eq_none.1 unknown name mem
          obtain ⟨column, mem', rfl⟩ := there
          exact List.mem_map_of_mem mem'
  have keys (name : String) : name ∈ (Keyed.ofPairs (names.zip values)).keys ↔ name ∈ names := by
    rw [Keyed.mem_keys_ofPairs, List.map_fst_zip size.le]
  refine ⟨fun nil => ?_, fun column mem => known column ((keys column).1 mem)⟩
  obtain ⟨name, mem⟩ := List.exists_mem_of_ne_nil names ne
  have there := (keys name).2 mem
  rw [nil] at there
  cases there

theorem Sound.insert (h : Sound schemas content inserted) {s : Schema} (mem : s ∈ schemas) {row : Row}
    (fits : s.Fits row) {rows : List Row} (before : (content.getD ∅).find? s.table = some rows) :
    Sound schemas (some ((content.getD ∅).insert s.table (rows ++ [row])))
      (Function.update inserted s.table (inserted s.table + 1)) where
  distinct := h.distinct
  columns := h.columns
  same := h.same.insert (List.mem_map_of_mem mem) _
  rows s' mem' rows' found := by
    rw [Option.getD_some, Keyed.find?_insert] at found
    by_cases here : s.table = s'.table
    · obtain rfl := List.inj_on_of_nodup_map h.distinct mem mem' here
      rw [if_pos rfl] at found
      cases found
      obtain ⟨size, all⟩ := h.rows s mem rows before
      refine ⟨?_, fun r mem => ?_⟩
      · rw [List.length_append, size, Function.update_self, List.length_singleton]
      · rcases List.mem_append.1 mem with old | last
        · exact all r old
        · exact List.mem_singleton.1 last ▸ fits
    · rw [if_neg here] at found
      rw [Function.update_of_ne (Ne.symm here)]
      exact h.rows s' mem' rows' found
  unknown name missing := by
    have apart : name ≠ s.table := by
      rintro rfl
      exact missing (List.mem_map_of_mem mem)
    rw [Function.update_of_ne apart]
    exact h.unknown name missing

/-! ## What an operation does -/

/-- a table is added if its columns can be created and the catalog has none of that name, and else nothing is changed -/
theorem Catalog.run_add_refused {o : Options} {catalog tablespace : Site} {c : Catalog} {d : Disk}
    (h : Stored o catalog tablespace d schemas content) (opened : catalog.IsOpen o.catalogPath c.file) {table : String}
    {columns types : List String} (refused : ¬ (Creatable columns types ∧ table ∉ schemas.map (·.table))) :
    ∃ e, (c.add table columns types).run.run d = (.error e, d) := by
  by_cases creatable : Creatable columns types
  · have there : schemas.any (·.table == table) = true := by simpa using fun new => refused ⟨creatable, new⟩
    refine ⟨.tableExists table, ?_⟩
    rw [run_add h opened table creatable, if_pos there]
  · exact c.add_refused table creatable d

namespace Tables

variable {o : Options} {catalog tablespace : Site} {t : Tables} {d : Disk}

/-- a create fails and changes nothing, or puts a new table into both files -/
theorem run_create_cases (h : Stored o catalog tablespace d schemas content) (opened : t.IsOpen o catalog tablespace)
    (same : SameTables schemas content) (table : String) (columns types : List String) :
    (∃ e, (t.create table columns types).run.run d = (.error e, d)) ∨
      Catalog.Creatable columns types ∧ table ∉ schemas.map (·.table)
        ∧ ∃ d', (t.create table columns types).run.run d = (.ok (), d')
          ∧ Stored o catalog tablespace d' (schemas ++ [.ofColumns table columns types])
              (some ((content.getD ∅).insert table [])) := by
  by_cases possible : Catalog.Creatable columns types ∧ table ∉ schemas.map (·.table)
  · obtain ⟨creatable, new⟩ := possible
    exact .inr ⟨creatable, new, run_create_new h opened creatable (any_table_eq_false.2 new) (same.contains new)⟩
  · obtain ⟨e, refused⟩ := Catalog.run_add_refused h opened.catalog possible
    exact .inl ⟨_, run_create_refused refused⟩

/-- an insert fails and changes nothing, or puts a row behind the rows of its table -/
theorem run_insert_cases (h : Stored o catalog tablespace d schemas content) (opened : t.IsOpen o catalog tablespace)
    (same : SameTables schemas content) (table : String) (columns values : List String) :
    (∃ e, (t.insert table columns values).run.run d = (.error e, d)) ∨
      ∃ s ∈ schemas, s.table = table ∧ ∃ row rows, s.row columns values = .ok row
        ∧ (content.getD ∅).find? table = some rows
        ∧ ∃ d', (t.insert table columns values).run.run d = (.ok (), d')
          ∧ Stored o catalog tablespace d' schemas (some ((content.getD ∅).insert table (rows ++ [row]))) := by
  cases found : schemas.find? (·.table == table) with
  | none => exact .inl ⟨_, run_insert_missing h opened found columns values⟩
  | some s =>
    cases made : s.row columns values with
    | error fault => exact .inl ⟨_, run_insert_mismatch h opened found made⟩
    | ok row =>
      obtain ⟨mem, rfl⟩ := mem_of_find?_table found
      obtain ⟨rows, before⟩ := same.stored (List.mem_map_of_mem mem)
      refine .inr ⟨s, mem, rfl, row, rows, made, ?_, run_insert h opened found made before⟩
      rw [Keyed.find?_getD, before]

/-- a table has a schema exactly if it has rows, through every open instance -/
theorem schema_ok_iff (h : Stored o catalog tablespace d schemas content) (opened : t.IsOpen o catalog tablespace)
    (same : SameTables schemas content) (table : String) :
    ((t.catalog.schema table).run.run d).1.isOk = ((t.tablespace.rows table).run.run d).1.isOk := by
  rw [Catalog.run_schema h opened.catalog, Tablespace.run_rows h opened.tablespace]
  by_cases there : table ∈ schemas.map (·.table)
  · obtain ⟨rows, stored⟩ := same.stored there
    rw [stored]
    cases found : schemas.find? (·.table == table) with
    | none => exact absurd there (find?_table_eq_none.1 found)
    | some s => rfl
  · rw [same.missing there, find?_table_eq_none.2 there]
    rfl

end Tables
end TableStore
