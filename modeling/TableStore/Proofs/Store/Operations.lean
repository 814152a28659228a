/-
The operations of a catalog and a tablespace, on a disk that has stored something.

Of each operation one lemma says what it answers and which disk it leaves, by what is stored: the same disk where it
only reads or fails, else the disk with one file saved.
-/
import TableStore.Database
import TableStore.Proofs.Query.Meaning
import TableStore.Proofs.Store.Documents

namespace TableStore

open DataFile (run_then run_then_error run_lift)

variable {o : Options} {catalog tablespace : Site} {d : Disk} {schemas : List Schema}
  {content : Option (Keyed (List Row))}

/-! ## The catalog -/

namespace Catalog

variable {c : Catalog}

theorem run_schemas (h : Stored o catalog tablespace d schemas content) (opened : catalog.IsOpen o.catalogPath c.file) :
    c.schemas.run.run d = (.ok schemas, d) := by
  rw [Catalog.schemas, run_then (Document.run_bytes opened .catalog), Document.decoded, h.decodedSchemas]
  rfl

theorem run_save (h : Stored o catalog tablespace d schemas content) (opened : catalog.IsOpen o.catalogPath c.file)
    (new : List Schema) :
    (c.save new).run.run d = (.ok (), d.saved catalog.node catalog.spare (encode new)) :=
  Document.run_save h.catalogFile opened .catalog (encode new)

theorem run_schema (h : Stored o catalog tablespace d schemas content) (opened : catalog.IsOpen o.catalogPath c.file)
    (table : String) :
    (c.schema table).run.run d
      = (match schemas.find? (·.table == table) with
          | some schema => .ok schema
          | none => .error (.tableNotFound table), d) := by
  rw [Catalog.schema, run_then (run_schemas h opened)]
  cases schemas.find? (·.table == table) <;> rfl

/-- columns that a statement can create: some, all with the one type -/
structure Creatable (columns types : List String) : Prop where
  ne_nil : columns ≠ []
  length_eq : columns.length = types.length
  typed : ∀ type ∈ types, type = columnType

/-- columns that can be created pass all checks, so what is left is to look the table up and to save -/
theorem add_eq (c : Catalog) (table : String) {columns types : List String} (creatable : Creatable columns types) :
    c.add table columns types = (do
      let schemas ← c.schemas
      if schemas.any (·.table == table) then throw (.tableExists table)
      c.save (schemas ++ [.ofColumns table columns types])) := by
  have typed : types.find? (· != columnType) = none := by
    simpa using creatable.typed
  have some : columns.isEmpty = false := List.isEmpty_eq_false_iff.2 creatable.ne_nil
  rw [add, if_neg (not_not.2 creatable.length_eq), some, if_neg Bool.false_ne_true, typed]

theorem run_add (h : Stored o catalog tablespace d schemas content) (opened : catalog.IsOpen o.catalogPath c.file)
    (table : String) {columns types : List String} (creatable : Creatable columns types) :
    (c.add table columns types).run.run d
      = if schemas.any (·.table == table) then (.error (.tableExists table), d)
        else (.ok (), d.saved catalog.node catalog.spare (encode (schemas ++ [.ofColumns table columns types]))) := by
  rw [add_eq c table creatable, run_then (run_schemas h opened)]
  split
  · rfl
  · exact run_save h opened _

end Catalog

/-! ## The tablespace -/

namespace Tablespace

variable {t : Tablespace}

theorem run_content (h : Stored o catalog tablespace d schemas content)
    (opened : tablespace.IsOpen o.tablespacePath t.file) : t.content.run.run d = (.ok content, d) := by
  rw [Tablespace.content, run_then (Document.run_bytes opened .tablespace), Document.decoded, h.decodedContent]
  rfl

theorem run_save (h : Stored o catalog tablespace d schemas content)
    (opened : tablespace.IsOpen o.tablespacePath t.file) (new : Keyed (List Row)) :
    (t.save new).run.run d = (.ok (), d.saved tablespace.node tablespace.spare (encode new)) :=
  Document.run_save h.tablespaceFile opened .tablespace (encode new)

theorem run_create (h : Stored o catalog tablespace d schemas content)
    (opened : tablespace.IsOpen o.tablespacePath t.file) (table : String) :
    (t.create table).run.run d
      = if (content.getD ∅).contains table then (.error (.tableExists table), d)
        else (.ok (), d.saved tablespace.node tablespace.spare (encode ((content.getD ∅).insert table []))) := by
  rw [create, run_then (run_content h opened)]
  by_cases there : (content.getD ∅).contains table = true
  · simp only [there, if_true]
    rfl
  · simp only [there]
    exact run_save h opened _

/-- what is read of one table is what the whole content has of it -/
theorem run_rows_of_content (read : t.content.run.run d = (.ok content, d)) (table : String) :
    (t.rows table).run.run d
      = (match content >>= (·.find? table) with
          | some rows => .ok rows
          | none => .error (.tableNotFound table), d) := by
  rw [rows, run_then read]
  cases content >>= (·.find? table) <;> rfl

theorem run_rows (h : Stored o catalog tablespace d schemas content)
    (opened : tablespace.IsOpen o.tablespacePath t.file) (table : String) :
    (t.rows table).run.run d
      = (match content >>= (·.find? table) with
          | some rows => .ok rows
          | none => .error (.tableNotFound table), d) :=
  run_rows_of_content (run_content h opened) table

theorem run_append (h : Stored o catalog tablespace d schemas content)
    (opened : tablespace.IsOpen o.tablespacePath t.file) (table : String) (row : Row) :
    (t.append table row).run.run d
      = match content >>= (·.find? table) with
        | none => (.error (.tableNotFound table), d)
        | some rows =>
          (.ok (), d.saved tablespace.node tablespace.spare
            (encode ((content.getD ∅).insert table (rows ++ [row])))) := by
  rw [append, run_then (run_content h opened)]
  rcases content with _ | content
  · rfl
  · simp only [Option.bind_eq_bind, Option.bind_some, Option.getD_some]
    cases content.find? table with
    | none => rfl
    | some rows => exact run_save h opened _

end Tablespace

/-! ## Both -/

theorem run_inContext_ok {α : Type} {x : StoreM α} {a : α} {d' : Disk} (h : x.run.run d = (.ok a, d'))
    (context : String) : (inContext context x).run.run d = (.ok a, d') := by
  rw [run_inContext, Program.run_bind, h]
  rfl

theorem run_inContext_error {α : Type} {x : StoreM α} {e : Error} {d' : Disk} (h : x.run.run d = (.error e, d'))
    (context : String) : (inContext context x).run.run d = (.error (.inContext context e), d') := by
  rw [run_inContext, Program.run_bind, h]
  rfl

namespace Tables

/-- what can be asked of an instance -/
inductive Operation where
  | create (table : String) (columns types : List String)
  | insert (table : String) (columns values : List String)
  | schema (table : String)
  | rows (table : String)

def Operation.Reply : Operation → Type
  | create .. | insert .. => Except Error Unit
  | schema _ => Except Error Schema
  | rows _ => Except Error (List Row)

def Operation.ask (t : Tables) : (operation : Operation) → Program operation.Reply
  | create table columns types => (t.create table columns types).run
  | insert table columns values => (t.insert table columns values).run
  | schema table => (t.catalog.schema table).run
  | rows table => (t.tablespace.rows table).run

variable {t : Tables}

/-- the files of an instance are open at the two sites -/
structure IsOpen (t : Tables) (o : Options) (catalog tablespace : Site) : Prop where
  catalog : catalog.IsOpen o.catalogPath t.catalog.file
  tablespace : tablespace.IsOpen o.tablespacePath t.tablespace.file

/-- a create that is refused by the catalog ends there -/
theorem run_create_refused {table : String} {columns types : List String} {d' : Disk} {e : Error}
    (refused : (t.catalog.add table columns types).run.run d = (.error e, d')) :
    (t.create table columns types).run.run d
      = (.error (.inContext ("add table " ++ table ++ " in catalog") e), d') := by
  rw [create, run_then_error (run_inContext_error refused _)]

theorem run_create_exists (h : Stored o catalog tablespace d schemas content) (opened : t.IsOpen o catalog tablespace)
    {table : String} {columns types : List String} (creatable : Catalog.Creatable columns types)
    (there : schemas.any (·.table == table) = true) :
    (t.create table columns types).run.run d
      = (.error (.inContext ("add table " ++ table ++ " in catalog") (.tableExists table)), d) := by
  have added := Catalog.run_add h opened.catalog table creatable
  rw [if_pos there] at added
  exact run_create_refused added

/-- a create is done once both halves are -/
theorem run_create_done {table : String} {columns types : List String} {d₁ d₂ : Disk}
    (added : (t.catalog.add table columns types).run.run d = (.ok (), d₁))
    (created : (t.tablespace.create table).run.run d₁ = (.ok (), d₂)) :
    (t.create table columns types).run.run d = (.ok (), d₂) := by
  have whole : (ExceptT.lift (t.tablespace.create table).run : StoreM _).run.run d₁ = (.ok (.ok ()), d₂) :=
    run_lift created
  rw [create, run_then (run_inContext_ok added _), run_then whole]
  rfl

/-- a create whose second half fails answers its error, and takes its first half back -/
theorem run_create_failed {table : String} {columns types : List String} {d₁ d₂ d₃ : Disk} {e : Error}
    {result : Except Error Unit} (added : (t.catalog.add table columns types).run.run d = (.ok (), d₁))
    (refused : (t.tablespace.create table).run.run d₁ = (.error e, d₂))
    (removed : (t.catalog.remove table).run.run d₂ = (result, d₃)) :
    (t.create table columns types).run.run d = (.error (.inContext ("create table " ++ table) e), d₃) := by
  have half : (ExceptT.lift (t.tablespace.create table).run : StoreM _).run.run d₁ = (.ok (.error e), d₂) :=
    run_lift refused
  have undone : (ExceptT.lift (t.catalog.remove table).run : StoreM _).run.run d₂ = (.ok result, d₃) :=
    run_lift removed
  rw [create, run_then (run_inContext_ok added _), run_then half, run_then undone]
  rfl

/-- a new table is put into both files -/
theorem run_create_new (h : Stored o catalog tablespace d schemas content) (opened : t.IsOpen o catalog tablespace)
    {table : String} {columns types : List String} (creatable : Catalog.Creatable columns types)
    (new : schemas.any (·.table == table) = false) (noRows : (content.getD ∅).contains table = false) :
    ∃ d', (t.create table columns types).run.run d = (.ok (), d')
      ∧ Stored o catalog tablespace d' (schemas ++ [.ofColumns table columns types])
          (some ((content.getD ∅).insert table [])) := by
  have added := Catalog.run_add h opened.catalog table creatable
  rw [if_neg (by simp [new])] at added
  have between := h.save_catalog (schemas ++ [.ofColumns table columns types])
  have created := Tablespace.run_create between opened.tablespace table
  rw [if_neg (by simp [noRows])] at created
  exact ⟨_, run_create_done added created, between.save_tablespace _⟩

theorem run_schema_missing (h : Stored o catalog tablespace d schemas content) (opened : t.IsOpen o catalog tablespace)
    {table : String} (missing : schemas.find? (·.table == table) = none) :
    (t.catalog.schema table).run.run d = (.error (.tableNotFound table), d) := by
  rw [Catalog.run_schema h opened.catalog, missing]

theorem run_schema_there (h : Stored o catalog tablespace d schemas content) (opened : t.IsOpen o catalog tablespace)
    {table : String} {schema : Schema} (there : schemas.find? (·.table == table) = some schema) :
    (t.catalog.schema table).run.run d = (.ok schema, d) := by
  rw [Catalog.run_schema h opened.catalog, there]

theorem run_insert_missing (h : Stored o catalog tablespace d schemas content) (opened : t.IsOpen o catalog tablespace)
    {table : String} (missing : schemas.find? (·.table == table) = none) (columns values : List String) :
    (t.insert table columns values).run.run d = (.error (.tableNotFound table), d) := by
  rw [insert, run_then_error (run_schema_missing h opened missing)]

/-- an insert that makes no row changes nothing -/
theorem run_insert_mismatch (h : Stored o catalog tablespace d schemas content) (opened : t.IsOpen o catalog tablespace)
    {table : String} {columns values : List String} {schema : Schema} {fault : RowFault}
    (there : schemas.find? (·.table == table) = some schema) (mismatch : schema.row columns values = .error fault) :
    (t.insert table columns values).run.run d = (.error (.columnMismatch fault.message), d) := by
  rw [insert, run_then (run_schema_there h opened there), mismatch]
  rfl

/-- an insert puts its row behind the rows of the table -/
theorem run_insert (h : Stored o catalog tablespace d schemas content) (opened : t.IsOpen o catalog tablespace)
    {table : String} {columns values : List String} {schema : Schema} {row : Row} {rows : List Row}
    (there : schemas.find? (·.table == table) = some schema) (made : schema.row columns values = .ok row)
    (before : content >>= (·.find? table) = some rows) :
    ∃ d', (t.insert table columns values).run.run d = (.ok (), d')
      ∧ Stored o catalog tablespace d' schemas (some ((content.getD ∅).insert table (rows ++ [row]))) := by
  have appended := Tablespace.run_append h opened.tablespace table row
  rw [before] at appended
  refine ⟨_, ?_, h.save_tablespace _⟩
  rw [insert, run_then (run_schema_there h opened there), made]
  exact run_inContext_ok appended _

/-- a select reads and answers what it means -/
theorem run_select (h : Stored o catalog tablespace d schemas content) (opened : t.IsOpen o catalog tablespace)
    (s : Select) {schema : Schema} {rows : List Row} (there : schemas.find? (·.table == s.table) = some schema)
    (stored : content >>= (·.find? s.table) = some rows) :
    ((Plan.ofSelect s).run t.source).run.run d = (.ok (s.meaning schema (rows.map Keyed.find?)), d) := by
  have read := Tablespace.run_rows h opened.tablespace s.table
  rw [stored] at read
  refine run_inContext_ok ?_ _
  rw [Plan.foldlM_ofSelect, source, run_then (run_schema_there h opened there), run_then read]
  rfl

theorem run_select_missing (h : Stored o catalog tablespace d schemas content) (opened : t.IsOpen o catalog tablespace)
    (s : Select) (missing : schemas.find? (·.table == s.table) = none) :
    ((Plan.ofSelect s).run t.source).run.run d
      = (.error (.inContext "compute select result" (.tableNotFound s.table)), d) := by
  refine run_inContext_error ?_ _
  rw [Plan.foldlM_ofSelect, source, run_then_error (run_schema_missing h opened missing)]

/-! ## Opening -/

/-- opening the files that are there changes nothing -/
theorem run_openWith (h : Stored o catalog tablespace d schemas content) :
    ∃ t, (openWith o).run.run d = (.ok t, d) ∧ t.IsOpen o catalog tablespace := by
  have first := Document.run_openAs h.catalogFile .catalog
  have second := Document.run_openAs h.tablespaceFile .tablespace
  refine ⟨⟨⟨.fresh o.catalogPath catalog.node (d.content catalog.node).length⟩,
    ⟨.fresh o.tablespacePath tablespace.node (d.content tablespace.node).length⟩⟩, ?_,
    catalog.isOpen_fresh _ _, tablespace.isOpen_fresh _ _⟩
  rw [openWith, Catalog.openWith, Tablespace.openWith, bind_assoc, run_then first, pure_bind, bind_assoc,
    run_then second]
  rfl

/-- neither file of a store has any content yet, nor is there a backup, at four different places -/
def Unused (o : Options) (d : Disk) : Prop :=
  ∃ catalog catalogBackup tablespace tablespaceBackup : Location,
    d.Blank o.catalogPath catalog ∧ d.Vacant (Path.backup o.catalogPath) catalogBackup
      ∧ d.Blank o.tablespacePath tablespace ∧ d.Vacant (Path.backup o.tablespacePath) tablespaceBackup
      ∧ [catalog, catalogBackup, tablespace, tablespaceBackup].Nodup

/-- the first opening makes the files that are missing, and both are empty -/
theorem run_openWith_unused (h : Unused o d) :
    ∃ catalog tablespace t d', (openWith o).run.run d = (.ok t, d') ∧ t.IsOpen o catalog tablespace
      ∧ Stored o catalog tablespace d' [] none := by
  obtain ⟨catalog, catalogBackup, tablespace, tablespaceBackup, blankC, vacantC, blankT, vacantT, distinct⟩ := h
  simp only [List.nodup_cons, List.mem_cons, not_or, List.not_mem_nil, not_false_eq_true, and_true] at distinct
  obtain ⟨⟨c_cb, c_t, c_tb⟩, ⟨cb_t, -⟩, t_tb, -⟩ := distinct
  obtain ⟨nodeC, d₁, first, madeC, siteC, emptyC⟩ := Document.run_openAs_blank blankC vacantC (Ne.symm c_cb) .catalog
  -- the tablespace and its backup keep their places while the catalog is made, and so do the catalog and its backup
  obtain ⟨nodeT, d₂, second, madeT, siteT, emptyT⟩ := Document.run_openAs_blank (blankT.made madeC (Ne.symm c_t))
    (madeC.vacant vacantT (Ne.symm c_tb)) (Ne.symm t_tb) .tablespace
  have siteC' : (⟨catalog, nodeC, catalogBackup⟩ : Site).Holds o.catalogPath d₂ :=
    ⟨madeT.names siteC.named, madeT.vacant siteC.vacant cb_t⟩
  refine ⟨⟨catalog, nodeC, catalogBackup⟩, ⟨tablespace, nodeT, tablespaceBackup⟩,
    ⟨⟨.fresh o.catalogPath nodeC 0⟩, ⟨.fresh o.tablespacePath nodeT 0⟩⟩, d₂, ?_,
    ⟨Site.isOpen_fresh _ _ _, Site.isOpen_fresh _ _ _⟩, siteC', siteT, ?_, ?_, ?_⟩
  · rw [openWith, Catalog.openWith, Tablespace.openWith, bind_assoc, run_then first, pure_bind, bind_assoc,
      run_then second]
    rfl
  · rintro rfl
    exact c_t (siteC'.named.loc_eq siteT.named)
  · rw [madeT.content siteC.named.node_lt, emptyC]
    rfl
  · rw [emptyT]
    rfl

/-- nothing is at the four paths of a store, which lead to different places where files can be made -/
def Fresh (o : Options) (d : Disk) : Prop :=
  ∃ catalog catalogBackup tablespace tablespaceBackup : Location,
    d.Vacant o.catalogPath catalog ∧ d.Vacant (Path.backup o.catalogPath) catalogBackup
      ∧ d.Vacant o.tablespacePath tablespace ∧ d.Vacant (Path.backup o.tablespacePath) tablespaceBackup
      ∧ [catalog, catalogBackup, tablespace, tablespaceBackup].Nodup

/-- a store without files is one whose files have no content -/
theorem Fresh.unused (h : Fresh o d) : Unused o d := by
  obtain ⟨catalog, catalogBackup, tablespace, tablespaceBackup, vacantC, vacantCB, vacantT, vacantTB, distinct⟩ := h
  exact ⟨_, _, _, _, .absent vacantC, vacantCB, .absent vacantT, vacantTB, distinct⟩

end Tables

/-! ## Queries -/

namespace Database

/-- queries executed one after another, each once -/
def executeAll (db : Database) (queries : List String) : Program (List (Except Error Answer)) :=
  queries.mapM fun query => (db.execute query).run

theorem executeAll_cons (db : Database) (query : String) (rest : List String) :
    db.executeAll (query :: rest) = (do
      let result ← (db.execute query).run
      return result :: (← db.executeAll rest)) := List.mapM_cons

variable {db : Database}

theorem run_executeAll_snoc {queries : List String} {query : String} {results : List (Except Error Answer)}
    {result : Except Error Answer} {d₁ d₂ : Disk} (before : (db.executeAll queries).run d = (results, d₁))
    (last : (db.execute query).run.run d₁ = (result, d₂)) :
    (db.executeAll (queries ++ [query])).run d = (results ++ [result], d₂) := by
  have ended : (db.executeAll [query]).run d₁ = ([result], d₂) := by
    rw [executeAll_cons, Program.run_bind, last]
    rfl
  have both : db.executeAll (queries ++ [query])
      = db.executeAll queries >>= fun first => db.executeAll [query] >>= fun second => pure (first ++ second) :=
    List.mapM_append
  rw [both, Program.run_bind, before, Program.run_bind, ended]
  rfl

/-- a query that is a statement does what the statement does -/
theorem run_execute_ok {query : String} {statement : Statement} (parsed : Statement.parse query = .ok statement) :
    (db.execute query).run.run d = (db.perform statement).run.run d := by
  rw [execute, parsed]
  exact run_then (run_inContext_ok (rfl : (ExceptT.mk (pure (.ok statement)) : StoreM Statement).run.run d = _) _) _

/-- a query that is no statement touches nothing -/
theorem run_execute_error {query : String} {e : Error} (parsed : Statement.parse query = .error e) :
    (db.execute query).run.run d = (.error (.inContext "grammatically invalid" e), d) := by
  rw [execute, parsed]
  exact run_then_error (run_inContext_error (rfl : (ExceptT.mk (pure (.error e)) : StoreM Statement).run.run d = _) _) _

end Database

end TableStore
