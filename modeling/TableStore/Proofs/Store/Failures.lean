/-
Failing and reading statements leave the data as it was.

A create saves twice. If its second half fails, the first one is taken back by a save of the schemas that were there
before (`Catalog.ends_remove`). An insert saves once, and a select not at all. So a failing statement leaves both files
to be read as before (`Tables.SameData`), whatever they hold, and wherever they have been moved since they were opened,
except to the place of the catalog's backup.

The same holds where calls to the file system fail, as long as they are not calls of a save behind its copy
(`DataFile.Spares`), no open file stands in the place of a backup (`Tables.Aside`), and no call fails while a create
is taken back: then the catalog keeps the table (`Tables.Unreverted`).

Results:
  failures_leave_data   for all statements: what they leave if they fail, without failing calls and with them
  not_always_left       none of the conditions can be left out: a run for each of them in which a failing statement
                        changes the data, and one in which it leaves a backup
-/
import TableStore.Proofs.Store.Sparing

namespace TableStore

open DataFile (run_then run_then_error Replaces Spares ButForBackup)
open Program (Ends Moment ends_run)

namespace Tables

/-- an instance holds two different files of a disk; they may have lost their names, and others may have taken them,
but the second one does not stand where the first one's backup is made -/
structure Holds (t : Tables) (catalogNode tablespaceNode : Nat) (d : Disk) : Prop where
  catalog : t.catalog.file.Holds catalogNode d
  tablespace : t.tablespace.file.Holds tablespaceNode d
  apart : tablespaceNode ≠ catalogNode
  noBackup : ∀ loc, ¬ d.Names (Path.backup t.catalog.file.path) loc tablespaceNode

/-- neither file stands where a backup is made -/
def Aside (t : Tables) (catalogNode tablespaceNode : Nat) (d : Disk) : Prop :=
  ∀ file ∈ [t.catalog.file, t.tablespace.file], ∀ node ∈ [catalogNode, tablespaceNode], ∀ loc,
    ¬ d.Names (Path.backup file.path) loc node

/-- both files are read as the same: the schemas in their order and the rows, or the error that reading them is -/
def SameData (t : Tables) (d d' : Disk) : Prop :=
  (t.catalog.schemas.run.run d').1 = (t.catalog.schemas.run.run d).1
    ∧ (t.tablespace.content.run.run d').1 = (t.tablespace.content.run.run d).1

/-- a create whose second half has failed, and whose first half could not be taken back since a call has failed in that
too: the catalog has the table behind all others, and the rows are as before -/
structure Unreverted (t : Tables) (may : Mishaps) (table : String) (columns types : List String) (d d' : Disk) :
    Prop where
  steps : ∃ last added refused left e e', Ends may (t.catalog.add table columns types).run ⟨last, d⟩ (.ok ()) added
    ∧ Ends may (t.tablespace.create table).run added (.error e) refused
    ∧ Ends may (t.catalog.remove table).run refused (.error e') left ∧ left.disk = d'
    ∧ ((t.catalog.remove table).run.run refused.disk).1 = .ok ()
  catalog : ∃ schemas, (t.catalog.schemas.run.run d).1 = .ok schemas
    ∧ (t.catalog.schemas.run.run d').1 = .ok (schemas ++ [.ofColumns table columns types])
  tablespace : (t.tablespace.content.run.run d').1 = (t.tablespace.content.run.run d).1

instance (t : Tables) (d d' : Disk) : Decidable (t.SameData d d') := inferInstanceAs (Decidable (_ ∧ _))

variable {t : Tables} {catalogNode tablespaceNode : Nat} {d d₁ d₂ : Disk} {may : Mishaps}

/-- what a create cannot take back, it could have taken back if no call had failed -/
theorem Unreverted.any {table : String} {columns types : List String} (h : t.Unreverted may table columns types d d₁) :
    may.Any := by
  by_contra calm
  obtain ⟨last, added, refused, left, e, e', -, -, removing, -, undisturbed⟩ := h.steps
  rw [removing.run_eq calm] at undisturbed
  cases undisturbed

/-! ## Inserts -/

theorem sparing_insert (h : t.Holds catalogNode tablespaceNode d) (spares : Spares may t.tablespace.file)
    (table : String) (columns values : List String) :
    Sparing may t.tablespace.file.path d (t.insert table columns values) := by
  refine (t.catalog.still_schema table).bind_sparing fun schema => ?_
  cases schema.row columns values with
  | error fault => exact (still_throw _).sparing
  | ok row => exact sparing_inContext (Tablespace.sparing_append h.tablespace spares table row) _

/-! ## Data that stays -/

theorem sameData_of_content (h : t.Holds catalogNode tablespaceNode d) (size : d.nodes.size ≤ d₁.nodes.size)
    (schemas : Catalog.decode (d₁.content catalogNode) = Catalog.decode (d.content catalogNode))
    (rows : d₁.content tablespaceNode = d.content tablespaceNode) : t.SameData d d₁ := by
  unfold SameData
  rw [Catalog.run_schemas_held (h.catalog.mono size), Catalog.run_schemas_held h.catalog, schemas,
    Tablespace.run_content_held (h.tablespace.mono size), Tablespace.run_content_held h.tablespace, rows]
  exact ⟨rfl, rfl⟩

/-- a backup that was begun is no matter to files that stand somewhere else -/
theorem sameData_of_begun (h : t.Holds catalogNode tablespaceNode d)
    (aside : may.Any → t.Aside catalogNode tablespaceNode d) {file : DataFile}
    (mem : file ∈ [t.catalog.file, t.tablespace.file]) (left : ButForBackup may file.path d d₁) : t.SameData d d₁ := by
  have same {node : Nat} (lt : node < d.nodes.size) (held : node ∈ [catalogNode, tablespaceNode]) :
      d₁.content node = d.content node := left.content lt fun any => aside any file mem node held
  exact sameData_of_content h left.size_le (by rw [same h.catalog.node_lt (by simp)])
    (same h.tablespace.node_lt (by simp))

/-! ## Creates -/

/-- a failing create ends with its first half, or with taking it back -/
theorem ends_create_error {table : String} {columns types : List String} {s s' : Moment} {e : Error}
    (ends : Ends may (t.create table columns types).run s (.error e) s') :
    (∃ e', Ends may (t.catalog.add table columns types).run s (.error e') s') ∨
      ∃ added refused e' answer, Ends may (t.catalog.add table columns types).run s (.ok ()) added
        ∧ Ends may (t.tablespace.create table).run added (.error e') refused
        ∧ Ends may (t.catalog.remove table).run refused answer s' := by
  rcases ends_then.1 ends with ⟨_, failed, -⟩ | ⟨_, added, adding, rest⟩
  · obtain ⟨e', adding, -⟩ := ends_adapt_error.1 failed
    exact .inl ⟨e', adding⟩
  · rcases ends_then.1 rest with ⟨_, never, -⟩ | ⟨half, refused, second, rest⟩
    · obtain ⟨_, -, same⟩ := ends_lift.1 never
      cases same
    · obtain ⟨_, creating, same⟩ := ends_lift.1 second
      cases same
      cases half with
      | ok _ => cases (Program.ends_pure.1 rest).1
      | error e' =>
        rcases ends_then.1 rest with ⟨_, never, -⟩ | ⟨answer, mid, undoing, thrown⟩
        · obtain ⟨_, -, same⟩ := ends_lift.1 never
          cases same
        · obtain ⟨_, removing, same⟩ := ends_lift.1 undoing
          cases same
          obtain ⟨-, rfl⟩ := Program.ends_pure.1 thrown
          exact .inr ⟨added, refused, e', answer, ends_adapt_ok.1 adding, creating, removing⟩

/-- what a create leaves whose second half has failed: the catalog has one more table, the tablespace is as it was, and
the catalog can be saved again -/
structure HalfFailed (t : Tables) (catalogNode tablespaceNode : Nat) (schemas : List Schema) (d d' : Disk) : Prop where
  catalog : t.catalog.file.Holds catalogNode d'
  size_le : d.nodes.size ≤ d'.nodes.size
  schemas : d'.content catalogNode = Catalog.encode schemas
  rows : d'.content tablespaceNode = d.content tablespaceNode
  unnamed : ∀ node ∈ [catalogNode, tablespaceNode], ∀ loc, ¬ d'.Names (Path.backup t.catalog.file.path) loc node
  named : ∃ loc m, d'.Names t.catalog.file.path loc m
  opens : ∃ k d₁, d'.openForWriting (Path.backup t.catalog.file.path) = .ok (k, d₁)

theorem halfFailed (h : t.Holds catalogNode tablespaceNode d) (aside : may.Any → t.Aside catalogNode tablespaceNode d)
    {schemas : List Schema}
    (replaces : Replaces t.catalog.file.path catalogNode (Catalog.encode schemas) d d₁)
    (left : ButForBackup may t.tablespace.file.path d₁ d₂) :
    t.HalfFailed catalogNode tablespaceNode schemas d d₂ := by
  have size := replaces.size_le
  have same {node : Nat} (lt : node < d.nodes.size) (held : node ∈ [catalogNode, tablespaceNode]) :
      d₂.content node = d₁.content node := by
    refine left.content (lt.trans_le size) fun any loc named => ?_
    exact aside any _ (by simp) node held loc (replaces.names_old _ _ _ lt named)
  have lt : ∀ node ∈ [catalogNode, tablespaceNode], node < d.nodes.size := by
    simpa using ⟨h.catalog.node_lt, h.tablespace.node_lt⟩
  obtain ⟨spare, vacant⟩ := replaces.vacant
  obtain ⟨loc, m, named⟩ := replaces.named
  refine ⟨(h.catalog.mono size).mono left.size_le, size.trans left.size_le, ?_, ?_, ?_, ⟨loc, m, left.names named⟩,
    left.opens vacant⟩
  · rw [same h.catalog.node_lt (by simp), replaces.content]
  · rw [same h.tablespace.node_lt (by simp),
      replaces.content_ne _ h.tablespace.node_lt h.apart h.noBackup]
  · intro node held loc named
    have found := (left.names_old ((lt node held).trans_le size) named).lookup
    rw [vacant.lookup] at found
    cases found

/-- **A failing create leaves the data**, unless a call fails while it is taken back. -/
theorem create_unharmed (h : t.Holds catalogNode tablespaceNode d) (catalog : Spares may t.catalog.file)
    (tablespace : Spares may t.tablespace.file) (aside : may.Any → t.Aside catalogNode tablespaceNode d)
    {table : String} {columns types : List String} {last : Option Call} {e : Error} {s' : Moment}
    (ends : Ends may (t.create table columns types).run ⟨last, d⟩ (.error e) s') :
    t.SameData d s'.disk ∨ t.Unreverted may table columns types d s'.disk := by
  have held : t.catalog.file.Holds catalogNode (⟨last, d⟩ : Moment).disk := h.catalog
  rcases ends_create_error ends with ⟨e', adding⟩ | ⟨added, refused, e', answer, adding, creating, removing⟩
  · rcases Catalog.ends_add held catalog adding with ⟨-, left⟩ | ⟨_, saved, -⟩
    · exact .inl (sameData_of_begun h aside (by simp) left)
    · cases saved
  rcases Catalog.ends_add held catalog adding with ⟨⟨_, failed⟩, -⟩ | ⟨schemas, -, decoded, absent, replaces⟩
  · cases failed
  have decoded : Catalog.decode (d.content catalogNode) = .ok schemas := decoded
  have absent : schemas.any (·.table == (Schema.ofColumns table columns types).table) = false := absent
  have left := Tablespace.sparing_create (h.tablespace.mono replaces.size_le) tablespace table _ _ _ creating
  have half := halfFailed h aside replaces left
  have entered : Catalog.decode (refused.disk.content catalogNode)
      = .ok (schemas ++ [.ofColumns table columns types]) := by
    rw [half.schemas]
    exact Catalog.decode_encode _
  have lt := h.tablespace.node_lt.trans_le half.size_le
  rcases Catalog.ends_remove absent half.catalog catalog entered removing with
    ⟨⟨e₂, rfl⟩, left'⟩ | ⟨-, replaces'⟩
  · -- the catalog keeps the table, whatever has been begun in the place of its backup
    have same {node : Nat} (lt : node < refused.disk.nodes.size) (held : node ∈ [catalogNode, tablespaceNode]) :
        s'.disk.content node = refused.disk.content node := left'.content lt fun _ => half.unnamed node held
    have size := half.size_le.trans left'.size_le
    obtain ⟨loc, m, named⟩ := half.named
    obtain ⟨k, d₁, opened⟩ := half.opens
    refine .inr ⟨⟨last, added, refused, s', e', e₂, adding, creating, removing, rfl, ?_⟩, ⟨schemas, ?_, ?_⟩, ?_⟩
    · exact Catalog.run_remove_ok absent half.catalog entered named opened
    · rw [Catalog.run_schemas_held h.catalog, decoded]
      rfl
    · rw [Catalog.run_schemas_held (h.catalog.mono size), same half.catalog.node_lt (by simp), entered]
      rfl
    · rw [Tablespace.run_content_held (h.tablespace.mono size), Tablespace.run_content_held h.tablespace,
        same lt (by simp), half.rows]
  · -- the schemas are back, and the rows were never touched
    refine .inl (sameData_of_content h (half.size_le.trans replaces'.size_le) ?_ ?_)
    · rw [replaces'.content, Catalog.decode_encode, decoded]
    · rw [replaces'.content_ne _ lt h.apart (half.unnamed _ (by simp)), half.rows]

end Tables

/-! ## Databases -/

namespace Database

/-- what statements leave on a disk if they fail or read, and these calls may fail -/
structure Unharmed (db : Database) (may : Mishaps) (d : Disk) : Prop where
  query : ∀ query last e s', Ends may (db.execute query).run ⟨last, d⟩ (.error e) s' →
    db.tables.SameData d s'.disk
      ∨ ∃ c, Statement.parse query = .ok (.create c)
          ∧ db.tables.Unreverted may c.table c.columns c.types d s'.disk
  create : ∀ table columns types last e s',
    Ends may (db.tables.create table columns types).run ⟨last, d⟩ (.error e) s' →
      db.tables.SameData d s'.disk ∨ db.tables.Unreverted may table columns types d s'.disk
  insert : ∀ table columns values last e s',
    Ends may (db.tables.insert table columns values).run ⟨last, d⟩ (.error e) s' →
      db.tables.SameData d s'.disk ∧ ButForBackup may db.tables.tablespace.file.path d s'.disk
  insertQuery : ∀ query i last e s', Statement.parse query = .ok (.insert i) →
    Ends may (db.execute query).run ⟨last, d⟩ (.error e) s' →
      ButForBackup may db.tables.tablespace.file.path d s'.disk
  select : ∀ query s last r s', Statement.parse query = .ok (.select s) →
    Ends may (db.execute query).run ⟨last, d⟩ r s' → s'.disk = d
  unparsable : ∀ query e last r s', Statement.parse query = .error e →
    Ends may (db.execute query).run ⟨last, d⟩ r s' → s'.disk = d

variable {db : Database} {catalogNode tablespaceNode : Nat} {d : Disk} {may : Mishaps}

theorem execute_eq_perform {query : String} {statement : Statement} (parsed : Statement.parse query = .ok statement) :
    db.execute query = db.perform statement := by
  rw [execute, parsed]
  rfl

theorem execute_eq_throw {query : String} {e : Error} (parsed : Statement.parse query = .error e) :
    db.execute query = throw (.inContext "grammatically invalid" e) := by
  rw [execute, parsed]
  rfl

theorem sparing_insert (h : db.tables.Holds catalogNode tablespaceNode d)
    (spares : Spares may db.tables.tablespace.file) (i : Insert) :
    Sparing may db.tables.tablespace.file.path d (db.perform (.insert i)) :=
  sparing_inContext (Tables.sparing_insert h spares i.table i.columns i.values).bind_pure _

/-- a create statement fails as the create does -/
theorem ends_create {c : Create} {s s' : Moment} {e : Error}
    (ends : Ends may (db.perform (.create c)).run s (.error e) s') :
    ∃ e', Ends may (db.tables.create c.table c.columns c.types).run s (.error e') s' := by
  obtain ⟨_, failed, -⟩ := ends_adapt_error.1 ends
  rcases ends_then.1 failed with ⟨e', creating, -⟩ | ⟨_, _, -, done⟩
  · exact ⟨e', creating⟩
  · cases (Program.ends_pure.1 done).1

theorem unharmed (h : db.tables.Holds catalogNode tablespaceNode d) (catalog : Spares may db.tables.catalog.file)
    (tablespace : Spares may db.tables.tablespace.file)
    (aside : may.Any → db.tables.Aside catalogNode tablespaceNode d) : db.Unharmed may d where
  query query last e s' ends := by
    cases parsed : Statement.parse query with
    | error e' =>
      rw [execute_eq_throw parsed] at ends
      exact .inl (((still_throw _).disk_eq ends : s'.disk = d) ▸ ⟨rfl, rfl⟩)
    | ok statement =>
      rw [execute_eq_perform parsed] at ends
      cases statement with
      | create c =>
        obtain ⟨e', creating⟩ := ends_create ends
        exact (Tables.create_unharmed h catalog tablespace aside creating).imp_right fun kept => ⟨c, rfl, kept⟩
      | insert i => exact .inl (Tables.sameData_of_begun h aside (by simp) (sparing_insert h tablespace i _ _ _ ends))
      | select s => exact .inl (((still_select db s).disk_eq ends : s'.disk = d) ▸ ⟨rfl, rfl⟩)
  create _ _ _ _ _ _ ends := Tables.create_unharmed h catalog tablespace aside ends
  insert table columns values last e s' ends := by
    have left := Tables.sparing_insert h tablespace table columns values last e s' ends
    exact ⟨Tables.sameData_of_begun h aside (by simp) left, left⟩
  insertQuery query i last e s' parsed ends := by
    rw [execute_eq_perform parsed] at ends
    exact sparing_insert h tablespace i last e s' ends
  select query s last r s' parsed ends := by
    rw [execute_eq_perform parsed] at ends
    exact (still_select db s).disk_eq ends
  unparsable query e last r s' parsed ends := by
    rw [execute_eq_throw parsed] at ends
    exact (still_throw _).disk_eq ends

/-- an instance, its catalog opened on the first file that was made, and its tablespace on the second one -/
def pair : Database := ⟨⟨.fresh "c" 0 0⟩, ⟨.fresh "t" 1 0⟩⟩

/-- an empty catalog, and a tablespace that was cut short and then removed under the instance that has it open -/
def bereftDisk : Disk := ((({} : Disk).withFile ["c"] []).withFile ["t"] [123]).erase ["t"]

/-- the calls that read bytes may fail -/
def readings : Mishaps := fun _ c => ∃ h place, c = .read h place

theorem spares_readings (f : DataFile) : Spares readings f := by
  rintro last c ⟨h, place, rfl⟩
  exact id

theorem not_names_of_isThere {d : Disk} {path : String} (absent : d.isThere path = false) {loc : Location}
    {node : Nat} : ¬ d.Names path loc node := by
  intro named
  rw [named.isThere] at absent
  cases absent

theorem aside_bereft : pair.tables.Aside 0 1 bereftDisk := by
  have absent : ∀ file ∈ [pair.tables.catalog.file, pair.tables.tablespace.file],
      bereftDisk.isThere (Path.backup file.path) = false := by decide
  intro file mem node _ loc
  exact not_names_of_isThere (absent file mem)

theorem holds_bereft : pair.tables.Holds 0 1 bereftDisk :=
  ⟨⟨rfl, rfl, by decide⟩, ⟨rfl, rfl, by decide⟩, by decide, aside_bereft _ (by simp) _ (by simp)⟩

/-- a catalog with one table and a tablespace without rows of it, the first two files of a disk, at two places -/
def storedDisk (catalog tablespace : String) : Disk :=
  (({} : Disk).withFile [catalog] (Catalog.encode [.ofColumns "item" ["id"] ["string"]])).withFile [tablespace]
    (Tablespace.encode ((∅ : Keyed (List Row)).insert "item" []))

/-- the seek behind a truncation -/
def seeking : Option Call → Call → Bool
  | some (.empty _), .rewind _ => true
  | _, _ => false

def removing (_ : Option Call) : Call → Bool
  | .remove _ => true
  | _ => false

/-- the reading of a file that is copied -/
def copying (_ : Option Call) : Call → Bool
  | .read h _ => !h.writable
  | _ => false

/-- the seek in the catalog behind a reading of the tablespace: with it begins taking back a create -/
def undoing : Option Call → Call → Bool
  | some (.read ⟨.file 1, _⟩ _), .rewind ⟨.file 0, _⟩ => true
  | _, _ => false

/-- none of these calls truncates, writes or syncs a file -/
def Lenient (chosen : Option Call → Call → Bool) : Prop :=
  ∀ last c, chosen last c = true → c matches .rewind _ | .read _ _ | .remove _

theorem lenient_none : Lenient fun _ _ => false := fun _ _ never => absurd never Bool.false_ne_true

theorem lenient_seeking : Lenient seeking := by
  intro last c chosen
  cases c <;> simp_all [seeking]

theorem lenient_removing : Lenient removing := by
  intro last c chosen
  cases c <;> simp_all [removing]

theorem lenient_copying : Lenient copying := by
  intro last c chosen
  cases c <;> simp_all [copying]

theorem lenient_undoing : Lenient undoing := by
  intro last c chosen
  cases c <;> simp_all [undoing]

/-- a statement fails on a disk that holds both files, and changes their data, where the chosen calls may fail, none of
which truncates, writes or syncs one of the files -/
structure Harms (chosen : Option Call → Call → Bool) (d : Disk) (p : StoreM Unit) : Prop where
  catalog : pair.tables.catalog.file.Holds 0 d
  tablespace : pair.tables.tablespace.file.Holds 1 d
  others : ∀ last c, chosen last c = true →
    ¬ pair.tables.catalog.file.ChangedBy c ∧ ¬ pair.tables.tablespace.file.ChangedBy c
  changes : ∃ e s', Ends (fun last c => chosen last c = true) p.run ⟨none, d⟩ (.error e) s'
    ∧ ¬ pair.tables.SameData d s'.disk

section Harms

variable {chosen : Option Call → Call → Bool} {d : Disk} {p : StoreM Unit}

/-- a chosen call that fails does nothing, and it is none of those that change an open file -/
theorem Lenient.harmless (lenient : Lenient chosen) {last : Option Call} {c : Call} (picked : chosen last c = true) :
    (∀ d, c.Falters d d) ∧ ∀ f : DataFile, ¬ f.ChangedBy c := by
  have kind := lenient last c picked
  split at kind
  · exact ⟨fun _ => rfl, fun _ => id⟩
  · exact ⟨fun _ => rfl, fun _ => id⟩
  · exact ⟨fun _ => rfl, fun _ => id⟩
  · cases kind

theorem Lenient.ends_error (lenient : Lenient chosen)
    (fails : (Program.failing .notRegular chosen p.run ⟨none, d⟩).1.isOk = false) :
    ∃ e, Ends (fun last c => chosen last c = true) p.run ⟨none, d⟩ (.error e)
      (Program.failing .notRegular chosen p.run ⟨none, d⟩).2 := by
  have falters : ∀ last c d, chosen last c = true → c.Falters d d := fun _ _ d picked => (lenient.harmless picked).1 d
  have ends := Program.ends_failing .notRegular falters p.run ⟨none, d⟩
  rcases answered : (Program.failing .notRegular chosen p.run ⟨none, d⟩).1 with e | a
  · exact ⟨e, answered ▸ ends⟩
  · rw [answered] at fails
    cases fails

theorem Lenient.harms (lenient : Lenient chosen) (both : 2 ≤ d.nodes.size)
    (fails : (Program.failing .notRegular chosen p.run ⟨none, d⟩).1.isOk = false
      ∧ ¬ pair.tables.SameData d (Program.failing .notRegular chosen p.run ⟨none, d⟩).2.disk) : Harms chosen d p where
  catalog := ⟨rfl, rfl, Nat.lt_of_lt_of_le Nat.zero_lt_two both⟩
  tablespace := ⟨rfl, rfl, both⟩
  others last c picked := ⟨(lenient.harmless picked).2 _, (lenient.harmless picked).2 _⟩
  changes := by
    obtain ⟨e, ends⟩ := lenient.ends_error fails.1
    exact ⟨e, _, ends, fails.2⟩

end Harms

end Database

/-! ## Saves in which a call to the file system fails -/

namespace Catalog

variable {c : Catalog} {d : Disk}

theorem run_schemas_reads {bytes : Bytes} {schemas : List Schema} (reads : c.file.Reads d bytes)
    (decoded : decode bytes = .ok schemas) : c.schemas.run.run d = (.ok schemas, d) := by
  have read : (Document.bytes .catalog c.file).run.run d = (.ok bytes, d) :=
    Document.run_guarded (reads c.file.position c.file.size) _
  rw [Catalog.schemas, run_then read, Document.decoded, decoded]
  rfl

/-- **After a save that failed, a running catalog may forget all tables but the next one**: it takes the emptied file
for an empty catalog, and saves that with the new table. -/
theorem add_after_stumble {node : Nat} {loc : Location} {m : Nat} (holds : c.file.Holds node d)
    (named : d.Names c.file.path loc m) (alone : d.isThere (Path.backup c.file.path) = false) (fault : Fault)
    (new : List Schema) (table : String) {columns types : List String} (creatable : Creatable columns types) :
    ∃ call out d', Program.Stumbles fault call (c.file.run (DataFile.saveWrite (encode new))) d out
      ∧ (c.add table columns types).run.run out.2 = (.ok (), d')
      ∧ c.schemas.run.run d' = (.ok [.ofColumns table columns types], d')
      ∧ d'.isThere (Path.backup c.file.path) = false := by
  obtain ⟨call, out, stumble, empty⟩ :=
    (DataFile.reads_stumbled_iff holds alone fault (encode new) []).2 (.inr ⟨List.nil_prefix, loc, m, named⟩)
  have stumbled := DataFile.stumbled_of_stumbles holds alone stumble
  obtain ⟨d', saved, reads, gone⟩ := stumbled.overwrites ⟨loc, m, named⟩ c.file.position c.file.size
    (encode ([] ++ [.ofColumns table columns types]))
  refine ⟨call, out, d', stumble, ?_, run_schemas_reads reads (decode_encode _), gone⟩
  rw [add_eq c table creatable, run_then (run_schemas_reads empty rfl)]
  exact Document.run_guarded saved _

end Catalog
end TableStore
