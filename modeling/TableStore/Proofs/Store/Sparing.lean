/-
Changes of one file of a store where calls to the file system may fail.

The operations on the catalog and on the tablespace read first and save last. If no call of the save behind its copy
fails, such an operation does what it is for, or it fails and leaves everything as it was but for the backup of its file
(`Sparing`). The two halves of a create, and taking the first one back, are looked at in full: what they leave if they
fail, and what they have saved if they do not (`Catalog.ends_add`, `Catalog.ends_remove`).
-/
import TableStore.Proofs.Store.Reading

namespace TableStore

open DataFile (run_then Spares ButForBackup Replaces)
open Program (Ends Moment ends_pure)

/-- a program that fails on this disk leaves it as it was, but for the backup of the file at a path -/
def Sparing {α : Type} (may : Mishaps) (path : String) (d : Disk) (p : StoreM α) : Prop :=
  ∀ last e s', Ends may p.run ⟨last, d⟩ (.error e) s' → ButForBackup may path d s'.disk

section Programs

variable {α β : Type} {may : Mishaps} {path : String} {d : Disk}

theorem Still.sparing {p : StoreM α} (h : Still p) : Sparing may path d p :=
  fun _ _ _ ends => .inl (h.disk_eq ends)

/-- a program that only reads before its last step is as sparing as that step -/
theorem Still.bind_sparing {x : StoreM α} {g : α → StoreM β} (first : Still x)
    (second : ∀ a, Sparing may path d (g a)) : Sparing may path d (x >>= g) := by
  intro last e s' ends
  rcases ends_then.1 ends with ⟨_, failed, -⟩ | ⟨a, ⟨last', d'⟩, read, rest⟩
  · exact .inl (first.disk_eq failed)
  · obtain rfl : d' = d := first.disk_eq read
    exact second a last' e s' rest

/-- a last step that cannot fail makes no difference -/
theorem Sparing.bind_pure {x : StoreM α} {g : α → β} (first : Sparing may path d x) :
    Sparing may path d (x >>= fun a => pure (g a)) := by
  intro last e s' ends
  rcases ends_then.1 ends with ⟨e', failed, -⟩ | ⟨a, mid, -, rest⟩
  · exact first last e' s' failed
  · cases (ends_pure.1 rest).1

theorem sparing_inContext {p : StoreM α} (h : Sparing may path d p) (context : String) :
    Sparing may path d (inContext context p) := by
  intro last e s' ends
  obtain ⟨e', failed, -⟩ := ends_adapt_error.1 ends
  exact h last e' s' failed

end Programs

/-! ## Saves -/

namespace Document

variable {may : Mishaps} {file : DataFile} {node : Nat} {s s' : Moment}

theorem ends_save (h : file.Holds node s.disk) (spares : Spares may file) {kind : Document} {bytes : Bytes}
    {r : Except Error Unit} (ends : Ends may (save kind file bytes).run s r s') :
    ((∃ e, r = .error e) ∧ ButForBackup may file.path s.disk s'.disk)
      ∨ r = .ok () ∧ Replaces file.path node bytes s.disk s'.disk := by
  obtain ⟨answer, saving, rfl⟩ := ends_adapt.1 ends
  rcases DataFile.ends_saveWrite h spares saving with ⟨fault, rfl, left⟩ | ⟨rfl, replaces⟩
  · exact .inl ⟨⟨_, rfl⟩, left⟩
  · exact .inr ⟨rfl, replaces⟩

theorem sparing_save {d : Disk} (h : file.Holds node d) (spares : Spares may file) (kind : Document) (bytes : Bytes) :
    Sparing may file.path d (save kind file bytes) := by
  intro last e s' ends
  have h' : file.Holds node (⟨last, d⟩ : Moment).disk := h
  rcases ends_save h' spares ends with ⟨-, left⟩ | ⟨saved, -⟩
  · exact left
  · cases saved

end Document

/-! ## The catalog -/

namespace Catalog

variable {c : Catalog} {node : Nat} {may : Mishaps} {s s' : Moment} {r : Except Error Unit}

/-- adding a table fails, or puts its schema behind those of all other tables -/
theorem ends_add (h : c.file.Holds node s.disk) (spares : Spares may c.file) {table : String}
    {columns types : List String} (ends : Ends may (c.add table columns types).run s r s') :
    ((∃ e, r = .error e) ∧ ButForBackup may c.file.path s.disk s'.disk) ∨
      ∃ schemas, r = .ok () ∧ decode (s.disk.content node) = .ok schemas ∧ schemas.any (·.table == table) = false
        ∧ Replaces c.file.path node (encode (schemas ++ [.ofColumns table columns types])) s.disk s'.disk := by
  rcases ends_add_eq_save h ends with ⟨failed, same⟩ | ⟨schemas, mid, decoded, absent, same, saving⟩
  · exact .inl ⟨failed, .inl same⟩
  · have h' : c.file.Holds node mid.disk := by rwa [same]
    rcases Document.ends_save h' spares saving with ⟨failed, left⟩ | ⟨rfl, replaces⟩
    · rw [same] at left
      exact .inl ⟨failed, left⟩
    · rw [same] at replaces
      exact .inr ⟨schemas, rfl, decoded, absent, replaces⟩

variable {schemas : List Schema} {new : Schema} (absent : schemas.any (·.table == new.table) = false)
include absent

/-- taking back the table behind all others fails, or brings the schemas back that were there before it -/
theorem ends_remove (h : c.file.Holds node s.disk) (spares : Spares may c.file)
    (decoded : decode (s.disk.content node) = .ok (schemas ++ [new]))
    (ends : Ends may (c.remove new.table).run s r s') :
    ((∃ e, r = .error e) ∧ ButForBackup may c.file.path s.disk s'.disk)
      ∨ r = .ok () ∧ Replaces c.file.path node (encode schemas) s.disk s'.disk := by
  rcases ends_then.1 ends with ⟨e, reading, rfl⟩ | ⟨found, mid, reading, saving⟩
  · exact .inl ⟨⟨e, rfl⟩, .inl (c.still_schemas.disk_eq reading)⟩
  · have same : mid.disk = s.disk := c.still_schemas.disk_eq reading
    obtain rfl : schemas ++ [new] = found := Except.ok.inj (decoded.symm.trans (decode_of_ends_schemas h reading))
    dsimp only at saving
    rw [filter_last absent, if_pos (by simp)] at saving
    have h' : c.file.Holds node mid.disk := by rwa [same]
    have outcome := Document.ends_save h' spares saving
    rwa [same] at outcome

/-- where the catalog and its backup can be opened, and no call fails, the table is taken back -/
theorem run_remove_ok {d d₁ : Disk} {loc : Location} {m k : Nat} (h : c.file.Holds node d)
    (decoded : decode (d.content node) = .ok (schemas ++ [new])) (named : d.Names c.file.path loc m)
    (opened : d.openForWriting (Path.backup c.file.path) = .ok (k, d₁)) :
    ((c.remove new.table).run.run d).1 = .ok () := by
  obtain ⟨d', saved, -⟩ := DataFile.run_saveWrite_copied h (DataFile.run_copy_into named opened) (encode schemas)
  have removed := (run_remove_eq_save h absent decoded).trans (Document.run_guarded saved _)
  exact congrArg Prod.fst removed

end Catalog

/-! ## The tablespace -/

namespace Tablespace

variable {t : Tablespace} {node : Nat} {d : Disk} {may : Mishaps}

theorem sparing_create (h : t.file.Holds node d) (spares : Spares may t.file) (table : String) :
    Sparing may t.file.path d (t.create table) := by
  refine t.still_content.bind_sparing fun content => ?_
  dsimp only
  split
  · exact (still_throw _).bind_sparing fun _ => Document.sparing_save h spares _ _
  · exact Document.sparing_save h spares _ _

theorem sparing_append (h : t.file.Holds node d) (spares : Spares may t.file) (table : String) (row : Row) :
    Sparing may t.file.path d (t.append table row) := by
  refine t.still_content.bind_sparing fun content => ?_
  split
  · exact (still_throw _).sparing
  · split
    · exact (still_throw _).sparing
    · exact Document.sparing_save h spares _ _

end Tablespace
end TableStore
