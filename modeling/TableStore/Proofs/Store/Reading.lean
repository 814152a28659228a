/-
What the operations of a store read before they save.

Every operation reads whole files and then saves one, or nothing. Reading changes no disk, whatever is in the file,
where it is now and which calls fail (`Still`), and what it answers is what the file holds (`Earnest`): an open file
reads the content of its node, under whatever name that node still has. So a select changes nothing at all
(`Database.still_select`), and a change of the catalog is a single save of schemas that were read
(`Catalog.ends_add_eq_save`, `Catalog.run_remove_eq_save`).
-/
import TableStore.Database
import TableStore.Proofs.Disk.Spared
import TableStore.Proofs.Query.Meaning
import TableStore.Proofs.Store.Operations

namespace TableStore

open DataFile (run_then run_then_error)
open Program (Ends Moment ends_run ends_pure)

theorem still_inContext {α : Type} {p : StoreM α} (h : Still p) (context : String) : Still (inContext context p) :=
  h.adapt _

/-! ## Documents -/

namespace Document

theorem still_bytes (kind : Document) (file : DataFile) : Still (bytes kind file) := file.still_readAll.adapt _

theorem earnest_bytes (kind : Document) (file : DataFile) : Earnest (bytes kind file) := file.earnest_readAll.adapt _

/-- decoding does not look at the disk -/
theorem run_decoded {α : Type} (kind : Document) (file : DataFile) (decode : Bytes → Except Json.Fault α)
    (bytes : Bytes) (d : Disk) :
    (decoded kind file decode bytes).run.run d
      = ((decode bytes).mapError fun fault => .cannotDecode kind file.path fault.message, d) := by
  rw [decoded]
  cases decode bytes <;> rfl

theorem still_decoded {α : Type} (kind : Document) (file : DataFile) (decode : Bytes → Except Json.Fault α)
    (bytes : Bytes) : Still (decoded kind file decode bytes) := by
  rw [decoded]
  cases decode bytes with
  | error fault => exact still_throw _
  | ok content => exact still_pure _

theorem earnest_decoded {α : Type} (kind : Document) (file : DataFile) (decode : Bytes → Except Json.Fault α)
    (bytes : Bytes) : Earnest (decoded kind file decode bytes) := by
  rw [decoded]
  cases decode bytes with
  | error fault => exact earnest_of_pure _
  | ok content => exact earnest_of_pure _

end Document

/-! ## The catalog -/

namespace Catalog

variable {c : Catalog} {node : Nat} {d : Disk} {may : Mishaps} {s s' : Moment}

theorem still_schemas (c : Catalog) : Still c.schemas :=
  (Document.still_bytes _ _).bind fun _ => Document.still_decoded _ _ _ _

theorem still_schema (c : Catalog) (table : String) : Still (c.schema table) := by
  refine c.still_schemas.bind fun schemas => ?_
  split
  · exact still_pure _
  · exact still_throw _

theorem run_schemas_held (h : c.file.Holds node d) :
    c.schemas.run.run d
      = ((decode (d.content node)).mapError fun fault => .cannotDecode .catalog c.file.path fault.message, d) := by
  rw [schemas, run_then (Document.run_bytes_of_writes h.writes .catalog), Document.run_decoded]

/-- the schemas that are read are those in the file -/
theorem decode_of_ends_schemas (h : c.file.Holds node s.disk) {schemas : List Schema}
    (ends : Ends may c.schemas.run s (.ok schemas) s') : decode (s.disk.content node) = .ok schemas := by
  have earnest : Earnest c.schemas := (Document.earnest_bytes _ _).bind fun _ => Document.earnest_decoded _ _ _ _
  have answer := congrArg Prod.fst (earnest may s schemas s' ends)
  rw [run_schemas_held h] at answer
  cases decoded : decode (s.disk.content node) with
  | error fault =>
    rw [decoded] at answer
    cases answer
  | ok found =>
    rw [decoded] at answer
    cases answer
    rfl

/-- columns that cannot be created are refused unread -/
theorem add_eq_throw (c : Catalog) (table : String) {columns types : List String} (h : ¬ Creatable columns types) :
    ∃ e, c.add table columns types = throw e := by
  rw [add]
  by_cases length : columns.length = types.length
  · rw [if_neg (not_not.2 length)]
    by_cases empty : columns = []
    · rw [empty]
      exact ⟨_, rfl⟩
    · have some : columns.isEmpty = false := List.isEmpty_eq_false_iff.2 empty
      rw [some, if_neg Bool.false_ne_true]
      cases typed : types.find? (· != columnType) with
      | some type => exact ⟨_, rfl⟩
      | none => exact absurd ⟨empty, length, by simpa using typed⟩ h
  · rw [if_pos length]
    exact ⟨_, rfl⟩

theorem add_refused (c : Catalog) (table : String) {columns types : List String} (h : ¬ Creatable columns types)
    (d : Disk) : ∃ e, (c.add table columns types).run.run d = (.error e, d) := by
  obtain ⟨e, refused⟩ := c.add_eq_throw table h
  exact ⟨e, by rw [refused]; rfl⟩

/-- adding a table fails and changes nothing, or saves a schema behind those of all other tables -/
theorem ends_add_eq_save (h : c.file.Holds node s.disk) {table : String} {columns types : List String}
    {r : Except Error Unit} (ends : Ends may (c.add table columns types).run s r s') :
    ((∃ e, r = .error e) ∧ s'.disk = s.disk) ∨
      ∃ schemas mid, decode (s.disk.content node) = .ok schemas ∧ schemas.any (·.table == table) = false
        ∧ mid.disk = s.disk ∧ Ends may (c.save (schemas ++ [.ofColumns table columns types])).run mid r s' := by
  by_cases creatable : Creatable columns types
  · rw [add_eq c table creatable] at ends
    rcases ends_then.1 ends with ⟨e, reading, rfl⟩ | ⟨schemas, mid, reading, rest⟩
    · exact .inl ⟨⟨e, rfl⟩, c.still_schemas.disk_eq reading⟩
    · have same := c.still_schemas.disk_eq reading
      cases there : schemas.any (·.table == table) with
      | true =>
        rw [there] at rest
        obtain ⟨rfl, rfl⟩ := ends_pure.1 rest
        exact .inl ⟨⟨_, rfl⟩, same⟩
      | false =>
        rw [there] at rest
        exact .inr ⟨schemas, mid, decode_of_ends_schemas h reading, there, same, rest⟩
  · obtain ⟨e, refused⟩ := c.add_eq_throw table creatable
    rw [refused] at ends
    obtain ⟨rfl, rfl⟩ := ends_pure.1 ends
    exact .inl ⟨⟨e, rfl⟩, rfl⟩

theorem run_add_eq_save (h : c.file.Holds node d) (table : String) (columns types : List String) :
    (∃ e, (c.add table columns types).run.run d = (.error e, d)) ∨
      ∃ schemas, decode (d.content node) = .ok schemas ∧ schemas.any (·.table == table) = false
        ∧ (c.add table columns types).run.run d
            = (c.save (schemas ++ [.ofColumns table columns types])).run.run d := by
  obtain ⟨last, ends⟩ := ends_run .none (c.add table columns types).run ⟨none, d⟩
  rcases ends_add_eq_save h ends with ⟨⟨e, answer⟩, same⟩ | ⟨schemas, mid, decoded, absent, same, saving⟩
  · exact .inl ⟨e, Prod.ext answer same⟩
  · have saved := saving.run_eq Mishaps.not_any_none
    rw [same] at saved
    exact .inr ⟨schemas, decoded, absent, saved.symm⟩

/-- of a new table behind all others these are what is kept without it -/
theorem filter_last {schemas : List Schema} {s : Schema} (absent : schemas.any (·.table == s.table) = false) :
    (schemas ++ [s]).filter (·.table != s.table) = schemas := by
  have others : ∀ other ∈ schemas, (other.table != s.table) = true := by
    simpa [bne_iff_ne] using absent
  rw [List.filter_append, List.filter_eq_self.2 others]
  simp

/-- taking back the table behind all others saves these -/
theorem run_remove_eq_save (h : c.file.Holds node d) {schemas : List Schema} {s : Schema}
    (absent : schemas.any (·.table == s.table) = false) (decoded : decode (d.content node) = .ok (schemas ++ [s])) :
    (c.remove s.table).run.run d = (c.save schemas).run.run d := by
  have read : c.schemas.run.run d = (.ok (schemas ++ [s]), d) := by
    rw [run_schemas_held h, decoded]
    rfl
  rw [remove, run_then read, filter_last absent, if_pos (by simp)]

end Catalog

/-! ## The tablespace -/

namespace Tablespace

variable {t : Tablespace} {node : Nat} {d : Disk}

theorem still_content (t : Tablespace) : Still t.content :=
  (Document.still_bytes _ _).bind fun _ => Document.still_decoded _ _ _ _

theorem run_content_held (h : t.file.Holds node d) :
    t.content.run.run d
      = ((decode (d.content node)).mapError fun fault => .cannotDecode .tablespace t.file.path fault.message, d) := by
  rw [content, run_then (Document.run_bytes_of_writes h.writes .tablespace), Document.run_decoded]

theorem still_rows (t : Tablespace) (table : String) : Still (t.rows table) := by
  refine t.still_content.bind fun content => ?_
  split
  · exact still_pure _
  · exact still_throw _

end Tablespace

/-! ## Selects -/

/-- a plan does nothing but ask its source -/
theorem Plan.still_run {source : Source Program} (schema : ∀ table, Still (source.schema table))
    (rows : ∀ table, Still (source.rows table)) (plan : Plan) : Still (plan.run source) := by
  have step (s : Step) (records : List Record) : Still (s.run source records) := by
    cases s with
    | scan table => exact (schema table).bind fun _ => (rows table).bind fun _ => still_pure _
    | filter => exact still_pure _
    | sort => exact still_pure _
    | slice => exact still_pure _
    | project => exact still_pure _
  have steps (plan : Plan) (records : List Record) :
      Still (plan.foldlM (fun records step => step.run source records) records) := by
    induction plan generalizing records with
    | nil => exact still_pure _
    | cons s rest ih =>
      rw [List.foldlM_cons]
      exact (step s records).bind ih
  exact still_inContext (steps plan []) _

theorem Database.still_select (db : Database) (s : Select) : Still (db.perform (.select s)) := by
  refine still_inContext (.bind ?_ fun _ => still_pure _) _
  exact Plan.still_run db.tables.catalog.still_schema db.tables.tablespace.still_rows _

end TableStore
