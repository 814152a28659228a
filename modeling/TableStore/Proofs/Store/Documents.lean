/-
The two files of a store on a disk.

A site is where a data file has its name, its node and the vacant place of its backup. Every operation of the store
reads a whole file or saves one. Reading changes nothing (`Document.run_bytes`); a save puts an encoding in the place
of one file's content (`Document.run_save`) and leaves the sites and the other file's content as they were
(`Stored.save_catalog`, `Stored.save_tablespace`). So a disk has what was saved last in each file (`Stored`), through
whatever open files it was saved.
-/
import TableStore.Proofs.Disk.Saving
import TableStore.Proofs.Store.RoundTrip
import TableStore.Store.Tables

namespace TableStore

open DataFile (run_then run_then_error)

/-! ## Sites -/

structure Site where
  loc : Location
  node : Nat
  spare : Location

/-- a data file is at a path, and there is no backup of it -/
structure Site.Holds (s : Site) (path : String) (d : Disk) : Prop where
  named : d.Names path s.loc s.node
  vacant : d.Vacant (Path.backup path) s.spare

/-- a file was opened there to be read and written -/
structure Site.IsOpen (s : Site) (path : String) (f : DataFile) : Prop where
  path : f.path = path
  mode : f.mode = .readWrite
  writes : f.Writes s.node

variable {s other : Site} {path : String} {d : Disk} {f : DataFile}

theorem Site.Holds.congr {e : Disk} (h : s.Holds path d) (same : d.entries = e.entries) : s.Holds path e :=
  ⟨h.named.congr same, h.vacant.congr same⟩

theorem Site.Holds.ready (h : s.Holds path d) (opened : s.IsOpen path f) : f.Ready d s.loc s.node s.spare :=
  ⟨opened.mode, opened.writes, opened.path ▸ h.named, opened.path ▸ h.vacant⟩

theorem Site.isOpen_fresh (s : Site) (path : String) (size : Nat) : s.IsOpen path (.fresh path s.node size) :=
  ⟨rfl, rfl, rfl⟩

/-! ## Documents -/

namespace Document

/-- reporting errors in other words changes neither the answer nor the disk -/
theorem run_adapt {ε ε' α : Type} (f : ε → ε') (p : ExceptT ε Program α) (d : Disk) :
    (ExceptT.adapt f p).run.run d = ((p.run.run d).1.mapError f, (p.run.run d).2) := by
  show (Except.mapError f <$> p.run).run d = _
  rw [Program.run_map]

theorem run_guarded {α : Type} {p : ExceptT Fault Program α} {a : α} {d' : Disk} (h : p.run.run d = (.ok a, d'))
    (error : Fault → Error) : (guarded error p).run.run d = (.ok a, d') := by
  rw [guarded, run_adapt, h]
  rfl

/-- a file that is there is opened as it is -/
theorem run_openAs (h : s.Holds path d) (kind : Document) :
    (openAs kind path .readWrite).run.run d = (.ok (.fresh path s.node (d.content s.node).length), d) := by
  exact run_guarded (DataFile.run_openAs_plain (DataFile.run_openPlain_there h.named) rfl h.vacant.isThere) _

/-- a file that is not there is made -/
theorem run_openAs_made {loc spare : Location} (vacant : d.Vacant path loc)
    (backup : d.Vacant (Path.backup path) spare) (apart : spare ≠ loc) (kind : Document) :
    (openAs kind path .readWrite).run.run d = (.ok (.fresh path d.nodes.size 0), d.addFile loc) := by
  have alone : (d.addFile loc).isThere (Path.backup path) = false := (backup.addFile vacant.entry apart).isThere
  exact run_guarded (DataFile.run_openAs_plain (DataFile.run_openPlain_made vacant) rfl alone) _

/-- a file that can be made, or is there and empty, is there and empty then -/
theorem run_openAs_blank {loc spare : Location} (blank : d.Blank path loc) (backup : d.Vacant (Path.backup path) spare)
    (apart : spare ≠ loc) (kind : Document) :
    ∃ node d', (openAs kind path .readWrite).run.run d = (.ok (.fresh path node 0), d') ∧ d.Made loc d'
      ∧ (⟨loc, node, spare⟩ : Site).Holds path d' ∧ d'.content node = [] := by
  cases blank with
  | absent vacant =>
    refine ⟨d.nodes.size, d.addFile loc, run_openAs_made vacant backup apart kind, .inr ⟨vacant.entry, rfl⟩, ?_,
      Disk.content_addFile_new⟩
    exact ⟨vacant.names_addFile, backup.addFile vacant.entry apart⟩
  | @empty node named empty =>
    have site : (⟨loc, node, spare⟩ : Site).Holds path d := ⟨named, backup⟩
    have opened := run_openAs site kind
    rw [empty] at opened
    exact ⟨node, d, opened, .inl rfl, site, empty⟩

/-- what an open document is read as is the content of its node -/
theorem run_bytes_of_entry {node : Nat} (entry : f.handle.entry = .file node) (kind : Document) :
    (bytes kind f).run.run d = (.ok (d.content node), d) :=
  run_guarded (DataFile.run_outcome (DataFile.run_readAll entry)) _

theorem run_bytes_of_writes {node : Nat} (h : f.Writes node) (kind : Document) :
    (bytes kind f).run.run d = (.ok (d.content node), d) :=
  run_bytes_of_entry (congrArg Handle.entry h) kind

theorem run_bytes (opened : s.IsOpen path f) (kind : Document) :
    (bytes kind f).run.run d = (.ok (d.content s.node), d) :=
  run_bytes_of_writes opened.writes kind

theorem run_save (h : s.Holds path d) (opened : s.IsOpen path f) (kind : Document) (bytes : Bytes) :
    (save kind f bytes).run.run d = (.ok (), d.saved s.node s.spare bytes) :=
  run_guarded (DataFile.run_outcome (DataFile.run_saveWrite (h.ready opened) bytes)) _

end Document

/-! ## What a disk has stored -/

/-- the two files of a store, and what they decode to -/
structure Stored (o : Options) (catalog tablespace : Site) (d : Disk) (schemas : List Schema)
    (content : Option (Keyed (List Row))) : Prop where
  catalogFile : catalog.Holds o.catalogPath d
  tablespaceFile : tablespace.Holds o.tablespacePath d
  apart : catalog.node ≠ tablespace.node
  decodedSchemas : Catalog.decode (d.content catalog.node) = .ok schemas
  decodedContent : Tablespace.decode (d.content tablespace.node) = .ok content

variable {o : Options} {catalog tablespace : Site} {schemas : List Schema} {content : Option (Keyed (List Row))}

/-- a save of the catalog replaces the schemas and nothing else -/
theorem Stored.save_catalog (h : Stored o catalog tablespace d schemas content) (new : List Schema) :
    Stored o catalog tablespace (d.saved catalog.node catalog.spare (Catalog.encode new)) new content := by
  have same : d.entries = (d.saved catalog.node catalog.spare (Catalog.encode new)).entries :=
    (Disk.entries_saved h.catalogFile.vacant.entry).symm
  refine ⟨h.catalogFile.congr same, h.tablespaceFile.congr same, h.apart, ?_, ?_⟩
  · rw [Disk.content_saved h.catalogFile.named.node_lt]
    exact Catalog.decode_encode new
  · rw [Disk.content_saved_ne h.tablespaceFile.named.node_lt h.apart]
    exact h.decodedContent

/-- a save of the tablespace replaces the rows and nothing else -/
theorem Stored.save_tablespace (h : Stored o catalog tablespace d schemas content) (new : Keyed (List Row)) :
    Stored o catalog tablespace (d.saved tablespace.node tablespace.spare (Tablespace.encode new)) schemas
      (some new) := by
  have same : d.entries = (d.saved tablespace.node tablespace.spare (Tablespace.encode new)).entries :=
    (Disk.entries_saved h.tablespaceFile.vacant.entry).symm
  refine ⟨h.catalogFile.congr same, h.tablespaceFile.congr same, h.apart, ?_, ?_⟩
  · rw [Disk.content_saved_ne h.catalogFile.named.node_lt h.apart.symm]
    exact h.decodedSchemas
  · rw [Disk.content_saved h.tablespaceFile.named.node_lt]
    exact Tablespace.decode_encode new

end TableStore
