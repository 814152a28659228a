/-
A catalog only grows.

Where both files of a store are at their sites no call on them fails (`Placed`), whatever bytes they have: neither has
to decode, and the two need not fit. There every create and every insert leaves both sites, and a catalog that could be
decoded before can be decoded after it, to the same schemas and perhaps more behind them (`Grows`). A create that fails
in its second half takes its own schema back, and no other one: it would have failed in its first half if there had
been another table of that name.

So the schema that a table was once found to have is found ever after (`Grows.schema`).
-/
import TableStore.Proofs.Store.Reading

namespace TableStore

open DataFile (run_then run_then_error run_lift)

variable {o : Options} {catalog tablespace : Site} {d d' d'' : Disk}

/-! ## Files at their sites -/

/-- the two files of a store are where they were opened, and neither has a backup -/
structure Placed (o : Options) (catalog tablespace : Site) (d : Disk) : Prop where
  catalogFile : catalog.Holds o.catalogPath d
  tablespaceFile : tablespace.Holds o.tablespacePath d
  apart : catalog.node ≠ tablespace.node

theorem Site.Holds.holds {s : Site} {path : String} {f : DataFile} (h : s.Holds path d) (opened : s.IsOpen path f) :
    f.Holds s.node d :=
  ⟨opened.mode, opened.writes, h.named.node_lt⟩

theorem Placed.congr (h : Placed o catalog tablespace d) (same : d.entries = d'.entries) :
    Placed o catalog tablespace d' :=
  ⟨h.catalogFile.congr same, h.tablespaceFile.congr same, h.apart⟩

theorem Placed.save_catalog (h : Placed o catalog tablespace d) (bytes : Bytes) :
    Placed o catalog tablespace (d.saved catalog.node catalog.spare bytes) :=
  h.congr (Disk.entries_saved h.catalogFile.vacant.entry).symm

theorem Placed.save_tablespace (h : Placed o catalog tablespace d) (bytes : Bytes) :
    Placed o catalog tablespace (d.saved tablespace.node tablespace.spare bytes) :=
  h.congr (Disk.entries_saved h.tablespaceFile.vacant.entry).symm

/-- a save of the tablespace leaves the bytes of the catalog -/
theorem Placed.content_catalog (h : Placed o catalog tablespace d) (bytes : Bytes) :
    (d.saved tablespace.node tablespace.spare bytes).content catalog.node = d.content catalog.node :=
  Disk.content_saved_ne h.catalogFile.named.node_lt h.apart.symm

/-! ## Growing -/

/-- both files are still at their sites, and the catalog has what it had, and perhaps more -/
structure Grows (o : Options) (catalog tablespace : Site) (d d' : Disk) : Prop where
  placed : Placed o catalog tablespace d'
  schemas : ∀ schemas, Catalog.decode (d.content catalog.node) = .ok schemas →
    ∃ more, Catalog.decode (d'.content catalog.node) = .ok (schemas ++ more)

theorem Grows.refl (h : Placed o catalog tablespace d) : Grows o catalog tablespace d d :=
  ⟨h, fun schemas decoded => ⟨[], by rw [List.append_nil]; exact decoded⟩⟩

theorem Grows.save_tablespace (h : Placed o catalog tablespace d) (bytes : Bytes) :
    Grows o catalog tablespace d (d.saved tablespace.node tablespace.spare bytes) := by
  refine ⟨h.save_tablespace bytes, fun schemas decoded => ⟨[], ?_⟩⟩
  rw [List.append_nil, h.content_catalog]
  exact decoded

/-- a catalog of which it is known what it decodes to, before and after -/
theorem Grows.of_decoded {schemas : List Schema} (more : List Schema) (placed : Placed o catalog tablespace d')
    (before : Catalog.decode (d.content catalog.node) = .ok schemas)
    (after : Catalog.decode (d'.content catalog.node) = .ok (schemas ++ more)) : Grows o catalog tablespace d d' := by
  refine ⟨placed, fun schemas' decoded => ⟨more, ?_⟩⟩
  rw [before] at decoded
  cases decoded
  exact after

/-- the schema of a table stays -/
theorem Grows.schema {c : Catalog} (h : Grows o catalog tablespace d d') (placed : Placed o catalog tablespace d)
    (opened : catalog.IsOpen o.catalogPath c.file) {table : String} {s : Schema}
    (found : ((c.schema table).run.run d).1 = .ok s) : ((c.schema table).run.run d').1 = .ok s := by
  have read := Catalog.run_schemas_held (placed.catalogFile.holds opened)
  have read' := Catalog.run_schemas_held (h.placed.catalogFile.holds opened)
  cases decoded : Catalog.decode (d.content catalog.node) with
  | error fault =>
    rw [decoded] at read
    rw [Catalog.schema, run_then_error read] at found
    cases found
  | ok schemas =>
    obtain ⟨more, decoded'⟩ := h.schemas schemas decoded
    have ran : c.schemas.run.run d = (.ok schemas, d) := by
      rw [read, decoded]
      rfl
    have ran' : c.schemas.run.run d' = (.ok (schemas ++ more), d') := by
      rw [read', decoded']
      rfl
    rw [Catalog.schema, run_then ran] at found
    rw [Catalog.schema, run_then ran', List.find?_append]
    cases there : schemas.find? (·.table == table) with
    | none =>
      rw [there] at found
      cases found
    | some first =>
      rw [there] at found
      exact found

/-! ## Programs that save one file -/

/-- a program fails and changes nothing, or succeeds and saves a file -/
def Saves (s : Site) (d : Disk) (p : StoreM Unit) : Prop :=
  (∃ e, p.run.run d = (.error e, d)) ∨ ∃ bytes, p.run.run d = (.ok (), d.saved s.node s.spare bytes)

section Saves

variable {s : Site}

theorem saves_throw (e : Error) : Saves s d (throw e) := .inl ⟨e, rfl⟩

theorem Still.bind_saves {α : Type} {x : StoreM α} {g : α → StoreM Unit} (first : Still x)
    (second : ∀ a, Saves s d (g a)) : Saves s d (x >>= g) := by
  have ran := first.run_eq d
  cases answer : (x.run.run d).1 with
  | error e =>
    rw [answer] at ran
    exact .inl ⟨e, run_then_error ran g⟩
  | ok a =>
    rw [answer] at ran
    rw [Saves, run_then ran]
    exact second a

theorem saves_inContext {p : StoreM Unit} (h : Saves s d p) (context : String) : Saves s d (inContext context p) := by
  rcases h with ⟨e, failed⟩ | ⟨bytes, saved⟩
  · exact .inl ⟨_, run_inContext_error failed context⟩
  · exact .inr ⟨bytes, run_inContext_ok saved context⟩

theorem Document.saves_save {path : String} {f : DataFile} (h : s.Holds path d) (opened : s.IsOpen path f)
    (kind : Document) (bytes : Bytes) : Saves s d (Document.save kind f bytes) :=
  .inr ⟨bytes, Document.run_save h opened kind bytes⟩

end Saves

namespace Tablespace

variable {t : Tablespace} (h : Placed o catalog tablespace d) (opened : tablespace.IsOpen o.tablespacePath t.file)
include h opened

theorem saves_create (table : String) : Saves tablespace d (t.create table) := by
  refine t.still_content.bind_saves fun content => ?_
  dsimp only
  split
  · exact (still_throw _).bind_saves fun _ => Document.saves_save h.tablespaceFile opened _ _
  · exact Document.saves_save h.tablespaceFile opened _ _

theorem saves_append (table : String) (row : Row) : Saves tablespace d (t.append table row) := by
  refine t.still_content.bind_saves fun content => ?_
  split
  · exact saves_throw _
  · split
    · exact saves_throw _
    · exact Document.saves_save h.tablespaceFile opened _ _

end Tablespace

/-- an add fails and changes nothing, or puts a new table behind what the catalog decodes to -/
theorem Catalog.run_add_placed {c : Catalog} (h : Placed o catalog tablespace d)
    (opened : catalog.IsOpen o.catalogPath c.file) (table : String) (columns types : List String) :
    (∃ e, (c.add table columns types).run.run d = (.error e, d)) ∨
      ∃ schemas, decode (d.content catalog.node) = .ok schemas ∧ schemas.any (·.table == table) = false
        ∧ (c.add table columns types).run.run d
            = (.ok (), d.saved catalog.node catalog.spare (encode (schemas ++ [.ofColumns table columns types]))) := by
  rcases run_add_eq_save (h.catalogFile.holds opened) table columns types with
    failed | ⟨schemas, decoded, absent, saving⟩
  · exact .inl failed
  · exact .inr ⟨schemas, decoded, absent, saving.trans (Document.run_save h.catalogFile opened .catalog _)⟩

/-- taking back the table behind all others saves these -/
theorem Catalog.run_remove_placed {c : Catalog} (h : Placed o catalog tablespace d)
    (opened : catalog.IsOpen o.catalogPath c.file) {schemas : List Schema} {s : Schema}
    (absent : schemas.any (·.table == s.table) = false)
    (decoded : decode (d.content catalog.node) = .ok (schemas ++ [s])) :
    (c.remove s.table).run.run d = (.ok (), d.saved catalog.node catalog.spare (encode schemas)) := by
  rw [run_remove_eq_save (h.catalogFile.holds opened) absent decoded]
  exact Document.run_save h.catalogFile opened .catalog _

namespace Tables

variable {t : Tables}

/-- an insert leaves a catalog as it was -/
theorem insert_grows (h : Placed o catalog tablespace d) (opened : t.IsOpen o catalog tablespace) (table : String)
    (columns values : List String) :
    Grows o catalog tablespace d ((t.insert table columns values).run.run d).2 := by
  have saves : Saves tablespace d (t.insert table columns values) := by
    refine (t.catalog.still_schema table).bind_saves fun schema => ?_
    cases schema.row columns values with
    | error fault => exact saves_throw _
    | ok row => exact saves_inContext (Tablespace.saves_append h opened.tablespace table row) _
  rcases saves with ⟨e, failed⟩ | ⟨bytes, saved⟩
  · rw [failed]
    exact .refl h
  · rw [saved]
    exact .save_tablespace h bytes

/-- a create leaves a catalog as it was, or puts one table behind it -/
theorem create_grows (h : Placed o catalog tablespace d) (opened : t.IsOpen o catalog tablespace) (table : String)
    (columns types : List String) :
    Grows o catalog tablespace d ((t.create table columns types).run.run d).2 := by
  rcases Catalog.run_add_placed h opened.catalog table columns types with
    ⟨e, refused⟩ | ⟨schemas, decoded, absent, added⟩
  · rw [run_create_refused refused]
    exact .refl h
  · -- the first half is done
    have placed := h.save_catalog (Catalog.encode (schemas ++ [.ofColumns table columns types]))
    have content : Catalog.decode ((d.saved catalog.node catalog.spare
        (Catalog.encode (schemas ++ [.ofColumns table columns types]))).content catalog.node)
          = .ok (schemas ++ [.ofColumns table columns types]) := by
      rw [Disk.content_saved h.catalogFile.named.node_lt]
      exact Catalog.decode_encode _
    rcases Tablespace.saves_create placed opened.tablespace table with ⟨e, failed⟩ | ⟨bytes, created⟩
    · -- and taken back
      have removed :=
        Catalog.run_remove_placed (s := .ofColumns table columns types) placed opened.catalog absent content
      rw [run_create_failed added failed removed]
      refine .of_decoded [] (placed.save_catalog _) decoded ?_
      rw [List.append_nil, Disk.content_saved placed.catalogFile.named.node_lt]
      exact Catalog.decode_encode _
    · rw [run_create_done added created]
      refine .of_decoded [.ofColumns table columns types] (placed.save_tablespace bytes) decoded ?_
      rw [placed.content_catalog]
      exact content

/-- **A catalog only grows**, whatever is asked of an instance. -/
theorem grows (h : Placed o catalog tablespace d) (opened : t.IsOpen o catalog tablespace) (operation : Operation) :
    Grows o catalog tablespace d ((operation.ask t).run d).2 := by
  cases operation with
  | create table columns types => exact create_grows h opened table columns types
  | insert table columns values => exact insert_grows h opened table columns values
  | schema table =>
    show Grows o catalog tablespace d ((t.catalog.schema table).run.run d).2
    rw [(t.catalog.still_schema table).disk_run d]
    exact .refl h
  | rows table =>
    show Grows o catalog tablespace d ((t.tablespace.rows table).run.run d).2
    rw [(t.tablespace.still_rows table).disk_run d]
    exact .refl h

end Tables
end TableStore
