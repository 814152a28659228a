/-
A create that is stopped.

A create saves the catalog and then the tablespace. Where a process ends inside one of the saves, a backup is left, and
what the next opening makes of it is said elsewhere (`DataFile.reread_stopped`). Here every save is taken to be done or
not: the stops that count are those that leave no backup. There are three kinds (`Progress`): nothing is done, both
saves are, or the first one is and the second one is not. Undoing the first save can be stopped in the same way, so it
is no way out.

The next opening looks at backups only and repairs nothing, so a table of which half is done stays so: it is in the
catalog, which refuses to create it again, and not in the tablespace, which has no rows of it and takes none.

Results:
  create_stopped      after a stop between saves the store can be opened, and has come to one of the three; catalog and
                      tablespace name the same tables exactly if it is not half; each of the three can be left.
  not_all_or_nothing  so a create is not all or nothing, although every save is.
-/
import TableStore.Proofs.Disk.Crash
import TableStore.Proofs.Store.Placing
import TableStore.Proofs.Store.Soundness

namespace TableStore

open DataFile (run_then run_lift stops_then stops_saveWrite)
open Program (Stops stops_map stops_pure)

/-! ## Where programs of the store can be stopped -/

section Programs

variable {α : Type} {d d' left : Disk} {x : StoreM α}

theorem stops_inContext (context : String) : Stops (inContext context x).run d left ↔ Stops x.run d left := stops_map

theorem stops_guarded (error : Fault → Error) (p : ExceptT Fault Program α) :
    Stops (Document.guarded error p).run d left ↔ Stops p.run d left := stops_map

theorem stops_lift (p : Program α) : Stops (ExceptT.lift p : StoreM α).run d left ↔ Stops p d left := stops_map

end Programs

namespace Document

variable {s : Site} {path : String} {d left : Disk} {f : DataFile}

/-- a reading that is stopped has changed nothing -/
theorem stops_bytes (opened : s.IsOpen path f) (kind : Document) :
    Stops (bytes kind f).run d left ↔ left = d := by
  rw [bytes, stops_guarded]
  refine stops_map.trans ?_
  obtain ⟨path, mode, handle, position, size⟩ := f
  cases opened.writes
  refine (Program.stops_still (c := .rewind _) (fun _ same => same) rfl).trans ?_
  refine (Program.stops_still (c := .read _ _) (fun _ same => same) rfl).trans ?_
  exact stops_pure _

theorem stops_decoded {β : Type} (kind : Document) (decode : Bytes → Except Json.Fault β) (bytes : Bytes) :
    Stops (decoded kind f decode bytes).run d left ↔ left = d := by
  rw [decoded]
  cases decode bytes <;> exact stops_pure _

/-- a save that is stopped and leaves no backup is done or not -/
theorem stops_save (h : s.Holds path d) (opened : s.IsOpen path f) (kind : Document) (bytes : Bytes)
    (noBackup : left.isThere (Path.backup path) = false) :
    Stops (save kind f bytes).run d left ↔ left = d ∨ left = d.saved s.node s.spare bytes := by
  rw [save, stops_guarded]
  refine (stops_map.trans (stops_saveWrite (h.ready opened) bytes)).trans ⟨fun stop => ?_, fun stop => ?_⟩
  · -- in the copy and in the write the backup has its name
    have named (content : Bytes) : (d.withFile s.spare content).Names (Path.backup path) s.spare d.nodes.size :=
      h.vacant.names_addFile.congr rfl
    rcases stop with same | ⟨n, copying⟩ | ⟨n, writing⟩ | saved
    · exact .inl same
    · have there := (named ((d.content s.node).take n)).isThere
      rw [← copying, noBackup] at there
      cases there
    · have backup : left.Names (Path.backup path) s.spare d.nodes.size :=
        (named (d.content s.node)).congr (by rw [writing]; rfl)
      rw [backup.isThere] at noBackup
      cases noBackup
    · exact .inr saved
  · rcases stop with same | saved
    · exact .inl same
    · exact .inr (.inr (.inr saved))

end Document

variable {o : Options} {catalog tablespace : Site} {d left : Disk} {schemas : List Schema}
  {content : Option (Keyed (List Row))}

namespace Catalog

variable {c : Catalog}

theorem stops_schemas (h : catalog.IsOpen o.catalogPath c.file) : Stops c.schemas.run d left ↔ left = d := by
  rw [schemas, stops_then (Document.run_bytes h .catalog), Document.stops_bytes h, Document.stops_decoded, or_self]

/-- an add that is stopped and leaves no backup has put a new table into the catalog, or not -/
theorem stops_add (h : Stored o catalog tablespace d schemas content) (opened : catalog.IsOpen o.catalogPath c.file)
    {table : String} {columns types : List String} (creatable : Creatable columns types)
    (new : table ∉ schemas.map (·.table)) (noBackup : left.isThere (Path.backup o.catalogPath) = false) :
    Stops (c.add table columns types).run d left ↔
      left = d
        ∨ left = d.saved catalog.node catalog.spare (encode (schemas ++ [.ofColumns table columns types])) := by
  rw [add_eq c table creatable, stops_then (run_schemas h opened), stops_schemas opened, any_table_eq_false.2 new,
    if_neg Bool.false_ne_true]
  refine (or_congr_right (Document.stops_save h.catalogFile opened .catalog _ noBackup)).trans ?_
  rw [← or_assoc, or_self]

/-- what adds nothing leaves the disk as it was, also if it is stopped -/
theorem stops_add_refused (h : Stored o catalog tablespace d schemas content)
    (opened : catalog.IsOpen o.catalogPath c.file) {table : String} {columns types : List String}
    (refused : ¬ (Creatable columns types ∧ table ∉ schemas.map (·.table)))
    (stop : Stops (c.add table columns types).run d left) : left = d := by
  by_cases creatable : Creatable columns types
  · have there : schemas.any (·.table == table) = true := by simpa using fun new => refused ⟨creatable, new⟩
    rw [add_eq c table creatable, stops_then (run_schemas h opened), stops_schemas opened, there, if_pos rfl] at stop
    rcases stop with same | later
    · exact same
    · exact (stops_pure _).1 later
  · obtain ⟨e, thrown⟩ := c.add_eq_throw table creatable
    rw [thrown] at stop
    exact (stops_pure _).1 stop

/-- a removal of a table that is stopped and leaves no backup has taken it out of the catalog, or not -/
theorem stops_remove {s : Schema} (h : Stored o catalog tablespace d (schemas ++ [s]) content)
    (opened : catalog.IsOpen o.catalogPath c.file) (new : s.table ∉ schemas.map (·.table))
    (noBackup : left.isThere (Path.backup o.catalogPath) = false) :
    Stops (c.remove s.table).run d left ↔
      left = d ∨ left = d.saved catalog.node catalog.spare (encode schemas) := by
  rw [remove, stops_then (run_schemas h opened), stops_schemas opened, filter_last (any_table_eq_false.2 new),
    if_pos (by simp)]
  refine (or_congr_right (Document.stops_save h.catalogFile opened .catalog _ noBackup)).trans ?_
  rw [← or_assoc, or_self]

end Catalog

namespace Tablespace

variable {t : Tablespace}

theorem stops_create (h : Stored o catalog tablespace d schemas content)
    (opened : tablespace.IsOpen o.tablespacePath t.file) {table : String}
    (noRows : (content.getD ∅).contains table = false)
    (noBackup : left.isThere (Path.backup o.tablespacePath) = false) :
    Stops (t.create table).run d left ↔
      left = d ∨ left = d.saved tablespace.node tablespace.spare (encode ((content.getD ∅).insert table [])) := by
  have reading : Stops t.content.run d left ↔ left = d := by
    rw [Tablespace.content, stops_then (Document.run_bytes opened .tablespace), Document.stops_bytes opened,
      Document.stops_decoded, or_self]
  rw [create, stops_then (run_content h opened), reading]
  simp only [noRows, Bool.false_eq_true, if_false]
  refine (or_congr_right (Document.stops_save h.tablespaceFile opened .tablespace _ noBackup)).trans ?_
  rw [← or_assoc, or_self]

end Tablespace

namespace Tables

/-! ## How far a create has come -/

/-- neither file of a store has a backup -/
structure NoBackups (o : Options) (d : Disk) : Prop where
  catalog : d.isThere (Path.backup o.catalogPath) = false
  tablespace : d.isThere (Path.backup o.tablespacePath) = false

theorem noBackups (h : Stored o catalog tablespace d schemas content) : NoBackups o d :=
  ⟨h.catalogFile.vacant.isThere, h.tablespaceFile.vacant.isThere⟩

/-- how much of a create is done -/
inductive Progress where
  | nothing | half | whole
  deriving DecidableEq

namespace Progress

/-- the catalog then -/
def inCatalog (before : List Schema) (s : Schema) : Progress → List Schema
  | nothing => before
  | half | whole => before ++ [s]

/-- the tablespace then -/
def inTablespace (before : Option (Keyed (List Row))) (s : Schema) : Progress → Option (Keyed (List Row))
  | nothing | half => before
  | whole => some ((before.getD ∅).insert s.table [])

/-- what an instance makes of the table then -/
def Shows (t : Tables) (d : Disk) (s : Schema) : Progress → Prop
  | nothing => ∀ columns types, Catalog.Creatable columns types →
      ((t.create s.table columns types).run.run d).1 = .ok ()
  | half =>
      (∀ columns types, ((t.create s.table columns types).run.run d).1.isOk = false)
        ∧ ((t.catalog.schema s.table).run.run d).1 = .ok s
        ∧ ((t.tablespace.rows s.table).run.run d).1 = .error (.tableNotFound s.table)
        ∧ ∀ columns values, ((t.insert s.table columns values).run.run d).1.isOk = false
  | whole =>
      ((t.catalog.schema s.table).run.run d).1 = .ok s ∧ ((t.tablespace.rows s.table).run.run d).1 = .ok []
        ∧ ∀ values, values.length = s.columns.length → ((t.insert s.table [] values).run.run d).1 = .ok ()

end Progress

/-- a disk on which a store can be opened; it is read as what a create leaves that has come so far -/
def Reopens (o : Options) (schemas : List Schema) (content : Option (Keyed (List Row))) (s : Schema) (p : Progress)
    (d : Disk) : Prop :=
  ∃ t, (openWith o).run.run d = (.ok t, d) ∧ t.catalog.schemas.run.run d = (.ok (p.inCatalog schemas s), d)
    ∧ t.tablespace.content.run.run d = (.ok (p.inTablespace content s), d) ∧ p.Shows t d s

variable {t : Tables} {s : Schema}

/-- both files name the same tables exactly if the create is not half done -/
theorem sameTables_iff (same : SameTables schemas content) (new : s.table ∉ schemas.map (·.table)) (p : Progress) :
    SameTables (p.inCatalog schemas s) (p.inTablespace content s) ↔ p ≠ .half := by
  cases p with
  | nothing => exact ⟨fun _ => by simp, fun _ => same⟩
  | half =>
    refine ⟨fun both => ?_, fun no => absurd rfl no⟩
    have mem : s.table ∈ (schemas ++ [s]).map (·.table) := by simp
    exact absurd ((same s.table).2 ((both s.table).1 mem)) new
  | whole => exact ⟨fun _ => by simp, fun _ => same.create s⟩

/-- a table that is in the catalog only is no table that anything can be done with -/
theorem shows_half (h : Stored o catalog tablespace d (schemas ++ [s]) content) (opened : t.IsOpen o catalog tablespace)
    (same : SameTables schemas content) (new : s.table ∉ schemas.map (·.table)) : Progress.half.Shows t d s := by
  have found := find?_last new
  have noRows := same.missing new
  refine ⟨fun columns types => ?_, ?_, ?_, fun columns values => ?_⟩
  · have there : ¬ (Catalog.Creatable columns types ∧ s.table ∉ (schemas ++ [s]).map (·.table)) :=
      fun possible => possible.2 (by simp)
    obtain ⟨e, refused⟩ := Catalog.run_add_refused h opened.catalog there
    rw [run_create_refused refused]
    rfl
  · rw [Catalog.run_schema h opened.catalog, found]
  · rw [Tablespace.run_rows h opened.tablespace, noRows]
  · cases made : s.row columns values with
    | error fault =>
      rw [run_insert_mismatch h opened found made]
      rfl
    | ok row =>
      have refused := Tablespace.run_append h opened.tablespace s.table row
      rw [noRows] at refused
      rw [insert, run_then (run_schema_there h opened found), made]
      exact congrArg (fun r => r.1.isOk) (run_inContext_error refused _)

/-- a table that is in both files can be read and takes rows -/
theorem shows_whole (h : Stored o catalog tablespace d (schemas ++ [s]) (some ((content.getD ∅).insert s.table [])))
    (opened : t.IsOpen o catalog tablespace) (new : s.table ∉ schemas.map (·.table)) :
    Progress.whole.Shows t d s := by
  have found := find?_last new
  have stored : some ((content.getD ∅).insert s.table []) >>= (·.find? s.table) = some [] := by
    rw [Keyed.find?_getD_insert, if_pos rfl]
  refine ⟨?_, ?_, fun values count => ?_⟩
  · rw [Catalog.run_schema h opened.catalog, found]
  · rw [Tablespace.run_rows h opened.tablespace, stored]
  · have made : s.row [] values = .ok (Keyed.ofPairs (s.names.zip values)) := by simp [Schema.row, count]
    obtain ⟨d', inserted, -⟩ := run_insert h opened found made stored
    rw [inserted]

/-- what a create leaves can be opened, however far it has come -/
theorem reopens (p : Progress) (h : Stored o catalog tablespace d (p.inCatalog schemas s) (p.inTablespace content s))
    (same : SameTables schemas content) (new : s.table ∉ schemas.map (·.table)) :
    Reopens o schemas content s p d := by
  obtain ⟨t, openedAs, opened⟩ := run_openWith h
  refine ⟨t, openedAs, Catalog.run_schemas h opened.catalog, Tablespace.run_content h opened.tablespace, ?_⟩
  cases p with
  | nothing =>
    intro columns types creatable
    obtain ⟨d', made, -⟩ := run_create_new h opened creatable (any_table_eq_false.2 new) (same.contains new)
    rw [made]
  | half => exact shows_half h opened same new
  | whole => exact shows_whole h opened new

/-! ## Stops between saves -/

/-- the disk that a create leaves that has come so far -/
def leftBy (catalog tablespace : Site) (d : Disk) (schemas : List Schema) (content : Option (Keyed (List Row)))
    (s : Schema) : Progress → Disk
  | .nothing => d
  | .half => d.saved catalog.node catalog.spare (Catalog.encode (schemas ++ [s]))
  | .whole =>
    (d.saved catalog.node catalog.spare (Catalog.encode (schemas ++ [s]))).saved tablespace.node tablespace.spare
      (Tablespace.encode ((content.getD ∅).insert s.table []))

theorem stored_leftBy (h : Stored o catalog tablespace d schemas content) (s : Schema) (p : Progress) :
    Stored o catalog tablespace (leftBy catalog tablespace d schemas content s p) (p.inCatalog schemas s)
      (p.inTablespace content s) := by
  cases p with
  | nothing => exact h
  | half => exact h.save_catalog _
  | whole => exact (h.save_catalog _).save_tablespace _

/-- a create that is stopped and leaves no backup has come to one of three points -/
theorem stops_create_new (h : Stored o catalog tablespace d schemas content) (opened : t.IsOpen o catalog tablespace)
    (same : SameTables schemas content) {table : String} {columns types : List String}
    (creatable : Catalog.Creatable columns types) (new : table ∉ schemas.map (·.table)) (quiet : NoBackups o left) :
    Stops (t.create table columns types).run d left ↔
      ∃ p, left = leftBy catalog tablespace d schemas content (.ofColumns table columns types) p := by
  have added := Catalog.run_add h opened.catalog table creatable
  rw [any_table_eq_false.2 new, if_neg Bool.false_ne_true] at added
  have between := h.save_catalog (schemas ++ [.ofColumns table columns types])
  have created := Tablespace.run_create between opened.tablespace table
  rw [same.contains new, if_neg Bool.false_ne_true] at created
  have whole : (ExceptT.lift (t.tablespace.create table).run : StoreM _).run.run
      (d.saved catalog.node catalog.spare (Catalog.encode (schemas ++ [.ofColumns table columns types]))) = _ :=
    run_lift created
  rw [create, stops_then (run_inContext_ok added _), stops_inContext,
    Catalog.stops_add h opened.catalog creatable new quiet.catalog, stops_then whole, stops_lift,
    Tablespace.stops_create between opened.tablespace (same.contains new) quiet.tablespace]
  refine ⟨fun stop => ?_, fun stop => ?_⟩
  · rcases stop with (same | half) | (half | whole) | ended
    · exact ⟨.nothing, same⟩
    · exact ⟨.half, half⟩
    · exact ⟨.half, half⟩
    · exact ⟨.whole, whole⟩
    · exact ⟨.whole, (stops_pure _).1 ended⟩
  · obtain ⟨p, rfl⟩ := stop
    cases p with
    | nothing => exact .inl (.inl rfl)
    | half => exact .inl (.inr rfl)
    | whole => exact .inr (.inl (.inr rfl))

/-- what creates nothing leaves the disk as it was, also if it is stopped -/
theorem stops_create_refused (h : Stored o catalog tablespace d schemas content)
    (opened : t.IsOpen o catalog tablespace) {table : String} {columns types : List String}
    (refused : ¬ (Catalog.Creatable columns types ∧ table ∉ schemas.map (·.table)))
    (stop : Stops (t.create table columns types).run d left) : left = d := by
  obtain ⟨e, failed⟩ := Catalog.run_add_refused h opened.catalog refused
  rw [create, ExceptT.run_bind, Program.stops_bind, run_inContext_error failed, stops_inContext] at stop
  rcases stop with adding | thrown
  · exact Catalog.stops_add_refused h opened.catalog refused adding
  · exact (stops_pure _).1 thrown

/-- **What a create leaves that is stopped between saves.** On a store whose two files name the same tables, let a
process end inside a create and leave no backup, so that each save is done or not.
- If the create is one of a new table, the store can be opened, and has come to one of three points: nothing is done,
  and the table can be created; the table is in both files, and can be read and takes rows; or it is in the catalog
  only, and can neither be created nor read nor take rows. Each of the three can be left.
- The two files name the same tables exactly if the create is not half done.
- Undoing a create that is half done leaves, if it is stopped, a store where it is half done or not done at all, and
  can leave each of these.
- If the create is refused, nothing is changed. -/
theorem create_stopped (h : Stored o catalog tablespace d schemas content) (opened : t.IsOpen o catalog tablespace)
    (same : SameTables schemas content) (table : String) (columns types : List String) :
    (Catalog.Creatable columns types → table ∉ schemas.map (·.table) →
      (∀ left, Stops (t.create table columns types).run d left → NoBackups o left →
          ∃ p, Reopens o schemas content (.ofColumns table columns types) p left)
        ∧ (∀ p, ∃ left, Stops (t.create table columns types).run d left ∧ NoBackups o left
            ∧ Reopens o schemas content (.ofColumns table columns types) p left)
        ∧ (∀ p : Progress, SameTables (p.inCatalog schemas (.ofColumns table columns types))
            (p.inTablespace content (.ofColumns table columns types)) ↔ p ≠ .half)
        ∧ ∀ e, Stored o catalog tablespace e (schemas ++ [.ofColumns table columns types]) content →
          (∀ left, Stops (t.catalog.remove table).run e left → NoBackups o left →
              ∃ p, p ≠ .whole ∧ Reopens o schemas content (.ofColumns table columns types) p left)
            ∧ ∀ p, p ≠ .whole → ∃ left, Stops (t.catalog.remove table).run e left ∧ NoBackups o left
                ∧ Reopens o schemas content (.ofColumns table columns types) p left)
      ∧ (¬ (Catalog.Creatable columns types ∧ table ∉ schemas.map (·.table)) →
          ∀ left, Stops (t.create table columns types).run d left → left = d) := by
  refine ⟨fun creatable new => ⟨?_, ?_, sameTables_iff same new, ?_⟩, fun refused left =>
    stops_create_refused h opened refused⟩
  · intro left stop quiet
    obtain ⟨p, rfl⟩ := (stops_create_new h opened same creatable new quiet).1 stop
    exact ⟨p, reopens p (stored_leftBy h _ p) same new⟩
  · intro p
    have stored := stored_leftBy h (.ofColumns table columns types) p
    have quiet := noBackups stored
    exact ⟨_, (stops_create_new h opened same creatable new quiet).2 ⟨p, rfl⟩, quiet, reopens p stored same new⟩
  · intro e half
    have stops {left : Disk} (quiet : NoBackups o left) := Catalog.stops_remove (s := .ofColumns table columns types)
      half opened.catalog new quiet.catalog
    have undone := half.save_catalog schemas
    refine ⟨fun left stop quiet => ?_, fun p notWhole => ?_⟩
    · rcases (stops quiet).1 stop with rfl | rfl
      · exact ⟨.half, by simp, reopens .half half same new⟩
      · exact ⟨.nothing, by simp, reopens .nothing undone same new⟩
    · cases p with
      | nothing =>
        exact ⟨_, (stops (noBackups undone)).2 (.inr rfl), noBackups undone, reopens .nothing undone same new⟩
      | half => exact ⟨e, (stops (noBackups half)).2 (.inl rfl), noBackups half, reopens .half half same new⟩
      | whole => exact absurd rfl notWhole

/-- a store on an empty disk, whose first create is stopped halfway -/
theorem create_stopped_first :
    ∃ t d catalog tablespace, (openWith {}).run.run {} = (.ok t, d) ∧ Stored {} catalog tablespace d [] none
      ∧ t.IsOpen {} catalog tablespace ∧ SameTables [] none ∧ Catalog.Creatable ["id"] ["string"]
      ∧ "item" ∉ ([] : List Schema).map (·.table)
      ∧ ∃ left, Stops (t.create "item" ["id"] ["string"]).run d left ∧ NoBackups {} left
        ∧ Reopens {} [] none (.ofColumns "item" ["id"] ["string"]) .half left := by
  obtain ⟨catalog, tablespace, t, d, made, opened, stored⟩ := run_openWith_unused fresh_default.unused
  have same : SameTables [] none := sound_empty.same
  have creatable : Catalog.Creatable ["id"] ["string"] := ⟨by decide, rfl, by simp [Catalog.columnType]⟩
  have new : "item" ∉ ([] : List Schema).map (·.table) := by simp
  obtain ⟨-, left, -⟩ := (create_stopped stored opened same "item" ["id"] ["string"]).1 creatable new
  exact ⟨t, d, catalog, tablespace, made, stored, opened, same, creatable, new, left .half⟩

/-- **A create is not all or nothing**: not every stop that leaves no backup leaves two files that name the same tables
when the store is opened again. -/
theorem not_all_or_nothing :
    ¬ ∀ (o : Options) (catalog tablespace : Site) (d left : Disk) (schemas : List Schema)
        (content : Option (Keyed (List Row))) (t : Tables) (table : String) (columns types : List String),
      Stored o catalog tablespace d schemas content → t.IsOpen o catalog tablespace → SameTables schemas content →
        Stops (t.create table columns types).run d left → NoBackups o left →
        ∃ t' d' schemas' content', (openWith o).run.run left = (.ok t', d')
          ∧ (t'.catalog.schemas.run.run d').1 = .ok schemas' ∧ (t'.tablespace.content.run.run d').1 = .ok content'
          ∧ SameTables schemas' content' := by
  intro allOrNothing
  obtain ⟨catalog, tablespace, t, d, -, opened, stored⟩ := run_openWith_unused fresh_default.unused
  have same : SameTables [] none := sound_empty.same
  have creatable : Catalog.Creatable ["id"] ["string"] := ⟨by decide, rfl, by simp [Catalog.columnType]⟩
  have half := stored_leftBy stored (.ofColumns "item" ["id"] ["string"]) .half
  have stop := (stops_create_new stored opened same creatable (by simp) (noBackups half)).2 ⟨.half, rfl⟩
  obtain ⟨t', d', schemas', content', reopened, schemas, content, same'⟩ :=
    allOrNothing _ _ _ _ _ _ _ _ "item" _ _ stored opened same stop (noBackups half)
  obtain ⟨t₁, opened₁, schemas₁, content₁, -⟩ := reopens .half half same (by simp [Schema.ofColumns])
  rw [opened₁] at reopened
  cases reopened
  rw [schemas₁] at schemas
  rw [content₁] at content
  cases schemas
  cases content
  exact (sameTables_iff same (by simp) .half).1 same' rfl

end Tables
end TableStore
