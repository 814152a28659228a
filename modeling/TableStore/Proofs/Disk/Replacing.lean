/-
Saving through an open file, whatever has become of its name.

`run_saveWrite` speaks of a file that still has its name and no backup. An open file may have lost its name, another
file may stand under it, and anything may stand where the backup goes. A save then still does one of two things
(`run_copy_cases`):
- the copy fails, for there is nothing to copy or no place to copy to; the save ends with it, and nothing has been
  changed (`run_saveWrite_uncopied`);
- the copy is made, and everything after it succeeds (`run_saveWrite_behind`): the open file has its new content, only
  the backup's place lost what it had, and that place is now vacant, so the next save will not fail (`Replaces`).
-/
import TableStore.Proofs.Disk.Saving

namespace TableStore

namespace Disk

/-! ## Removed names -/

section Erase

variable {d : Disk} {spare : Location}

theorem entry_erase_ne {other : Location} (h : other ≠ spare) : Disk.entry? (d.erase spare) other = d.entry? other := by
  simp only [ Disk.entry?, erase, keep, List.find?_filter]
  congr 3
  funext e
  by_cases same : e.1 = other
  · simp [same, h]
  · simp [same]

theorem entry_erase_self (below : spare ≠ []) : Disk.entry? (d.erase spare) spare = none := by
  rw [ Disk.entry?, if_neg below]
  simp [erase, keep]

theorem locate_erase {path : String} {target : Location} {k : Nat} (file : d.entry? spare = some (.file k))
    (h : d.locate path = .ok target) : (d.erase spare).locate path = .ok target := by
  refine locate_mono (fun other directory => ?_) h
  rwa [entry_erase_ne]
  rintro rfl
  rw [file] at directory
  cases directory

theorem Names.erase {path : String} {loc : Location} {node k : Nat} (h : d.Names path loc node)
    (file : d.entry? spare = some (.file k)) (apart : loc ≠ spare) : (d.erase spare).Names path loc node :=
  ⟨locate_erase file h.located, (entry_erase_ne apart).trans h.entry, h.plain⟩

theorem Names.of_erase {path : String} {loc : Location} {node : Nat} (h : (d.erase spare).Names path loc node)
    (below : spare ≠ []) : d.Names path loc node := by
  have kept : ∀ {other entry}, Disk.entry? (d.erase spare) other = some entry → d.entry? other = some entry := by
    intro other entry found
    rwa [entry_erase_ne] at found
    rintro rfl
    rw [entry_erase_self below] at found
    cases found
  exact ⟨locate_mono (fun _ directory => kept directory) h.located, kept h.entry, h.plain⟩

theorem Names.below {path : String} {k : Nat} (h : d.Names path spare k) : spare ≠ [] := by
  rintro rfl
  have entry := h.entry
  simp [ Disk.entry?] at entry

/-- where a name was removed, a file can be made -/
theorem Names.vacant_erase {path : String} {k : Nat} (h : d.Names path spare k) :
    (d.erase spare).Vacant path spare :=
  ⟨locate_erase h.entry h.located, entry_erase_self h.below, h.plain⟩

end Erase

/-- a file never stands in the place of its own backup -/
theorem Names.ne_backup {d : Disk} {path : String} {loc spare : Location} {node k : Nat} (h : d.Names path loc node)
    (backup : d.Names (Path.backup path) spare k) : loc ≠ spare := by
  have file : d.entry? loc ≠ some .directory := by simp [h.entry]
  obtain ⟨dir, name, rfl, located⟩ := locate_backup h.located h.plain file
  have there : spare = dir ++ [name ++ Path.backupSuffix] := Except.ok.inj (backup.located.symm.trans located)
  intro same
  have equal : name = name ++ Path.backupSuffix := by
    simpa using same.trans there
  have lengths := congrArg String.length equal
  rw [String.length_append] at lengths
  have : Path.backupSuffix.length = 5 := by decide
  omega

/-! ## Files that are opened to be written -/

/-- a file at a path, on the disk that opening it to be written leaves; if it was made, it is a node of its own -/
structure Provides (d : Disk) (path : String) (spare : Location) (k : Nat) (d' : Disk) : Prop where
  names : d'.Names path spare k
  keeps : ∀ {other loc n}, d.Names other loc n → d'.Names other loc n
  size_le : d.nodes.size ≤ d'.nodes.size
  content : ∀ n < d.nodes.size, d'.content n = d.content n
  old : k < d.nodes.size → d.Names path spare k
  names_old : ∀ {other loc n}, n < d.nodes.size → d'.Names other loc n → d.Names other loc n

theorem provides_of_openForWriting {d d' : Disk} {path : String} {k : Nat} (h : d.openForWriting path = .ok (k, d')) :
    ∃ spare, d.Provides path spare k d' := by
  obtain ⟨spare, there | made⟩ := openForWriting_cases h
  · obtain ⟨named, rfl⟩ := there
    exact ⟨spare, named, id, le_refl _, fun _ _ => rfl, fun _ => named, fun _ => id⟩
  · obtain ⟨vacant, rfl, rfl⟩ := made
    refine ⟨spare, vacant.names_addFile, fun named => named.addFile vacant.entry, ?_, fun n => content_addFile, ?_, ?_⟩
    · rw [size_addFile]
      exact Nat.le_succ _
    · intro lt
      exact absurd lt (lt_irrefl _)
    · intro other loc n older named
      exact named.of_addFile vacant.entry older

end Disk

namespace DataFile
open Program (perform)

/-! ## The copy -/

section Calls

variable {d d' : Disk} {path : String} {fault : Fault}

theorem exec_openRead_error (h : d.lookup path = .error fault) :
    (Call.openAs path .read).exec d = (.error fault, d) := by
  simp only [Call.exec, Call.execOpen, h]
  rfl

theorem exec_openReplace_error (h : d.openForWriting path = .error fault) :
    (Call.openAs path .replace).exec d = (.error fault, d) := by
  simp only [Call.exec, Call.execOpen, h]
  rfl

/-- the bytes of a copy go into an emptied file, and no bytes need no write -/
theorem run_fill {k : Nat} (h : k < d.nodes.size) (bytes : Bytes) :
    (if bytes.isEmpty then pure () else ExceptT.mk (perform (.write ⟨.file k, true⟩ 0 bytes)) :
        ExceptT Fault Program Unit).run.run (d.setContent k [])
      = (.ok (), d.setContent k bytes) := by
  cases bytes with
  | nil => rfl
  | cons b rest =>
    rw [← setContent_emptied h (b :: rest)]
    rfl

end Calls

/-- a copy of a file puts its bytes into the file at its target -/
theorem run_copy_into {d d₁ : Disk} {source target : String} {loc : Location} {m k : Nat} (old : d.Names source loc m)
    (opened : d.openForWriting target = .ok (k, d₁)) :
    (copy source target).run.run d = (.ok (), d₁.setContent k ((d₁.setContent k []).content m)) := by
  obtain ⟨spare, provides⟩ := Disk.provides_of_openForWriting opened
  have read : (Call.read ⟨.file m, false⟩ 0).exec (d₁.setContent k [])
      = (.ok ((d₁.setContent k []).content m), d₁.setContent k []) := rfl
  rw [copy, run_then (x := .mk (perform (.openAs source .read))) (exec_openRead old), if_neg (by simp),
    run_then (x := .mk (perform (.openAs target .replace))) (exec_openReplace_ok opened),
    run_then (x := .mk (perform (.read ⟨.file m, false⟩ 0))) read]
  exact run_fill provides.names.node_lt _

/-- a copy fails and changes nothing, or it puts bytes into the file at its target, made if it was not there -/
theorem run_copy_cases (source target : String) (d : Disk) :
    (∃ fault, (copy source target).run.run d = (.error fault, d)) ∨
      ∃ loc m spare k d₁ bytes, d.Names source loc m ∧ d.Provides target spare k d₁
        ∧ (copy source target).run.run d = (.ok (), d₁.setContent k bytes) := by
  rcases found : d.lookup source with fault | ⟨loc, entry⟩
  · have failed := exec_openRead_error found
    exact .inl ⟨fault, run_then_error (x := .mk (perform (.openAs source .read))) failed _⟩
  cases entry with
  | directory =>
    refine .inl ⟨.notRegular, ?_⟩
    rw [copy, run_then (x := .mk (perform (.openAs source .read))) (exec_openRead_ok found)]
    rfl
  | file m =>
    have old := Disk.names_of_lookup found
    rcases opened : d.openForWriting target with fault | ⟨k, d₁⟩
    · have failed := exec_openReplace_error opened
      refine .inl ⟨fault, ?_⟩
      rw [copy, run_then (x := .mk (perform (.openAs source .read))) (exec_openRead old), if_neg (by simp)]
      exact run_then_error (x := .mk (perform (.openAs target .replace))) failed _
    · obtain ⟨spare, provides⟩ := Disk.provides_of_openForWriting opened
      exact .inr ⟨loc, m, spare, k, d₁, _, old, provides, run_copy_into old opened⟩

/-! ## The save -/

/-- a file is open to be read and written on a node of the disk, under whatever name that node still has -/
structure Holds (f : DataFile) (node : Nat) (d : Disk) : Prop where
  mode : f.mode = .readWrite
  writes : f.Writes node
  node_lt : node < d.nodes.size

theorem Holds.mono {f : DataFile} {node : Nat} {d d' : Disk} (h : f.Holds node d)
    (size : d.nodes.size ≤ d'.nodes.size) : f.Holds node d' :=
  ⟨h.mode, h.writes, h.node_lt.trans_le size⟩

/-- what a save through an open file has done: its node has the new content, other nodes have theirs unless one stood
in the place of the backup, none has a new name, and that place is vacant beside a file to be copied -/
structure Replaces (path : String) (node : Nat) (bytes : Bytes) (d d' : Disk) : Prop where
  size_le : d.nodes.size ≤ d'.nodes.size
  content : d'.content node = bytes
  content_ne : ∀ n < d.nodes.size, n ≠ node → (∀ loc, ¬ d.Names (Path.backup path) loc n) → d'.content n = d.content n
  names_old : ∀ other loc n, n < d.nodes.size → d'.Names other loc n → d.Names other loc n
  named : ∃ loc m, d'.Names path loc m
  vacant : ∃ spare, d'.Vacant (Path.backup path) spare

section Save

variable {f : DataFile} {node : Nat} {d : Disk}

/-- a save begins with the copy, and ends with it if it fails -/
theorem run_saveWrite_uncopied (h : f.Holds node d) {fault : Fault} {d' : Disk}
    (refused : (copy f.path (Path.backup f.path)).run.run d = (.error fault, d')) (bytes : Bytes) :
    (f.run (saveWrite bytes)).run d = ((.error fault, f), d') := by
  have attempted : (f.run (attempt (copy f.path (Path.backup f.path)))).run d = ((.error fault, f), d') :=
    run_attempt_error refused
  rw [run_saveWrite_eq h.mode]
  exact run_bind_error attempted _

/-- behind the copy a save cannot fail, and the file is left behind its new content -/
theorem run_saveWrite_behind (h : f.Holds node d) {d₂ : Disk}
    (copied : (copy f.path (Path.backup f.path)).run.run d = (.ok (), d₂)) (bytes : Bytes) :
    ∃ d', (f.run (saveWrite bytes)).run d = ((.ok (), f.replaced bytes), d') ∧ Replaces f.path node bytes d d' := by
  rcases run_copy_cases f.path (Path.backup f.path) d with
    ⟨fault, refused⟩ | ⟨loc, m, spare, k, d₁, old, source, provides, ran⟩
  · rw [refused] at copied
    cases copied
  rw [ran] at copied
  cases copied
  have size : d.nodes.size ≤ (d₁.setContent k old).nodes.size := provides.size_le.trans Disk.size_setContent.ge
  have lt : node < (d₁.setContent k old).nodes.size := h.node_lt.trans_le size
  have backup : ((d₁.setContent k old).setContent node bytes).Names (Path.backup f.path) spare k :=
    provides.names.congr rfl
  have source' : ((d₁.setContent k old).setContent node bytes).Names f.path loc m := (provides.keeps source).congr rfl
  have attempted : (f.run (attempt (copy f.path (Path.backup f.path)))).run d = ((.ok (), f), d₁.setContent k old) :=
    run_attempt_ok ran
  have saved : (f.run (saveWrite bytes)).run d
      = ((.ok (), f.replaced bytes), ((d₁.setContent k old).setContent node bytes).erase spare) := by
    rw [saveWrite, run_get, h.mode]
    show (f.run (attempt (copy f.path (Path.backup f.path)) >>= _)).run d = _
    rw [run_bind_ok attempted, run_bind_ok (run_clear h.writes), run_bind_ok (run_write_emptied h.writes lt bytes),
      run_bind_ok run_sync]
    exact run_attempt_ok (exec_remove backup)
  refine ⟨_, saved, ?_, ?_, ?_, ?_, ?_, ?_⟩
  · exact size.trans Disk.size_setContent.ge
  · exact Disk.content_setContent lt bytes
  · intro n n_lt ne unnamed
    have apart : k ≠ n := by
      rintro rfl
      exact unnamed spare (provides.old n_lt)
    show ((d₁.setContent k old).setContent node bytes).content n = _
    rw [Disk.content_setContent_ne ne.symm, Disk.content_setContent_ne apart, provides.content n n_lt]
  · intro other loc n n_lt named
    exact provides.names_old n_lt ((named.of_erase backup.below).congr rfl)
  · exact ⟨loc, m, source'.erase backup.entry (source'.ne_backup backup)⟩
  · exact ⟨spare, backup.vacant_erase⟩

theorem run_saveWrite_copied (h : f.Holds node d) {d₂ : Disk}
    (copied : (copy f.path (Path.backup f.path)).run.run d = (.ok (), d₂)) (bytes : Bytes) :
    ∃ d', (f.outcome (saveWrite bytes)).run.run d = (.ok (), d') ∧ Replaces f.path node bytes d d' := by
  obtain ⟨d', saved, replaces⟩ := run_saveWrite_behind h copied bytes
  exact ⟨d', run_outcome saved, replaces⟩

/-- what a save has done that did not fail -/
theorem replaces_of_saved (h : f.Holds node d) {bytes : Bytes} {g : DataFile} {d' : Disk}
    (saved : (f.run (saveWrite bytes)).run d = ((.ok (), g), d')) :
    g = f.replaced bytes ∧ Replaces f.path node bytes d d' := by
  rcases run_copy_cases f.path (Path.backup f.path) d with ⟨fault, refused⟩ | ⟨_, _, _, _, _, _, _, _, copied⟩
  · rw [run_saveWrite_uncopied h refused bytes] at saved
    cases saved
  · obtain ⟨left, ran, replaces⟩ := run_saveWrite_behind h copied bytes
    rw [ran] at saved
    cases saved
    exact ⟨rfl, replaces⟩

end Save

end DataFile
end TableStore
