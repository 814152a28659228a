/-
Saving a file, and opening it again.

A save copies the old content into a backup, replaces the content in place, and removes the backup. Run to its end it
changes the content of its file and nothing else that has a name (`run_saveWrite`, `Disk.saved`). Stopped on the way
it leaves one of four kinds of disk (`stops_saveWrite`): nothing done, a first part of the copy, a whole copy next to
a first part of the new content, or all done.

An opening for writing looks for the backup. Without one the file is opened as it is (`run_openAs_plain`); with one
the backup's bytes go into the file, whatever they are, and the backup goes away (`run_recover`).
-/
import TableStore.Proofs.Disk.Running

namespace TableStore

namespace Disk

/-- the disk in the middle of a save: the old content of a file in its backup, and other bytes in the file -/
def saving (d : Disk) (node : Nat) (spare : Location) (bytes : Bytes) : Disk :=
  (d.withFile spare (d.content node)).setContent node bytes

/-- the disk after a save -/
def saved (d : Disk) (node : Nat) (spare : Location) (bytes : Bytes) : Disk :=
  (d.saving node spare bytes).erase spare

variable {d : Disk} {node : Nat} {spare : Location} {bytes : Bytes}

theorem content_saving (h : node < d.nodes.size) : (d.saving node spare bytes).content node = bytes := by
  refine content_setContent ?_ bytes
  rw [size_withFile]
  omega

theorem content_saved (h : node < d.nodes.size) : (d.saved node spare bytes).content node = bytes :=
  content_saving h

/-- a save leaves all other contents as they were -/
theorem content_saved_ne {other : Nat} (h : other < d.nodes.size) (ne : node ≠ other) :
    (d.saved node spare bytes).content other = d.content other := by
  show (d.saving node spare bytes).content other = _
  rw [saving, content_setContent_ne ne, content_withFile h]

/-- a save leaves all names as they were -/
theorem entries_saved (vacant : d.entry? spare = none) : (d.saved node spare bytes).entries = d.entries :=
  entries_erase_addFile vacant

end Disk

namespace DataFile
open Program (Stops perform)

/-! ## Saving -/

/-- a file is open to be read and written under its name, and its backup has a vacant place -/
structure Ready (f : DataFile) (d : Disk) (loc : Location) (node : Nat) (spare : Location) : Prop where
  mode : f.mode = .readWrite
  writes : f.Writes node
  named : d.Names f.path loc node
  vacant : d.Vacant (Path.backup f.path) spare

section Save

variable {f : DataFile} {d left : Disk} {loc : Location} {node : Nat} {spare : Location}

/-- a file that can be written saves in five operations -/
theorem run_saveWrite_eq (mode : f.mode = .readWrite) (bytes : Bytes) :
    f.run (saveWrite bytes) = f.run (do
      attempt (copy f.path (Path.backup f.path))
      clear
      write bytes
      sync
      attempt (perform (.remove (Path.backup f.path)))) := by
  rw [saveWrite, run_get, mode]

theorem Ready.run_backup (h : f.Ready d loc node spare) :
    (f.run (attempt (copy f.path (Path.backup f.path)))).run d
      = ((.ok (), f), d.withFile spare (d.content node)) :=
  run_attempt_ok (run_copy h.named h.vacant)

theorem Ready.size_lt (h : f.Ready d loc node spare) : node < (d.withFile spare (d.content node)).nodes.size := by
  have size : node < d.nodes.size := h.named.node_lt
  rw [Disk.size_withFile]
  omega

theorem Ready.run_emptied (h : f.Ready d loc node spare) :
    (f.run clear).run (d.withFile spare (d.content node)) = ((.ok (), f.emptied), d.saving node spare []) :=
  run_clear h.writes

theorem Ready.run_written (h : f.Ready d loc node spare) (bytes : Bytes) :
    (f.emptied.run (write bytes)).run (d.saving node spare [])
      = ((.ok (), f.replaced bytes), d.saving node spare bytes) :=
  run_write_emptied h.writes h.size_lt bytes

/-- in the middle of a save the backup has its name -/
theorem Ready.names_backup (h : f.Ready d loc node spare) (bytes : Bytes) :
    (d.saving node spare bytes).Names (Path.backup f.path) spare d.nodes.size :=
  h.vacant.names_addFile.congr rfl

/-- **A save changes the content of its file and nothing else**: it succeeds, and takes its backup away again. -/
theorem run_saveWrite (h : f.Ready d loc node spare) (bytes : Bytes) :
    (f.run (saveWrite bytes)).run d = ((.ok (), f.replaced bytes), d.saved node spare bytes) := by
  rw [run_saveWrite_eq h.mode, run_bind_ok h.run_backup, run_bind_ok h.run_emptied, run_bind_ok (h.run_written bytes),
    run_bind_ok run_sync]
  exact run_attempt_ok (exec_remove (h.names_backup bytes))

/-- **Where a save can be stopped**: before it, in the copy, in the write, and after it. -/
theorem stops_saveWrite (h : f.Ready d loc node spare) (bytes : Bytes) :
    Stops (f.run (saveWrite bytes)) d left ↔
      left = d ∨ (∃ n, left = d.withFile spare ((d.content node).take n))
        ∨ (∃ n, left = d.saving node spare (bytes.take n)) ∨ left = d.saved node spare bytes := by
  have copying : Stops (f.run (attempt (copy f.path (Path.backup f.path)))) d left
      ↔ left = d ∨ ∃ n, left = d.withFile spare ((d.content node).take n) :=
    (stops_attempt _).trans (stops_copy h.named h.vacant)
  have emptying : Stops (f.run clear) (d.withFile spare (d.content node)) left
      ↔ left = d.withFile spare (d.content node) ∨ left = d.saving node spare [] := stops_clear h.writes
  have writing : Stops (f.emptied.run (write bytes)) (d.saving node spare []) left
      ↔ ∃ n, left = d.saving node spare (bytes.take n) := stops_write_emptied h.writes h.size_lt bytes
  have removing : Stops ((f.replaced bytes).run (attempt (perform (.remove (Path.backup f.path)))))
        (d.saving node spare bytes) left
      ↔ left = d.saving node spare bytes ∨ left = d.saved node spare bytes := by
    rw [stops_attempt, Program.stops_perform (c := .remove _) fun _ same => same, exec_remove (h.names_backup bytes)]
    rfl
  rw [run_saveWrite_eq h.mode, stops_bind_ok h.run_backup, stops_bind_ok h.run_emptied, stops_bind_ok (h.run_written bytes),
    stops_bind_ok run_sync, copying, emptying, writing, stops_sync, removing]
  refine ⟨fun stop => ?_, fun stop => ?_⟩
  · rcases stop with (same | copying) | (copied | emptied) | writing | written | written | saved
    · exact .inl same
    · exact .inr (.inl copying)
    · exact .inr (.inl ⟨(d.content node).length, by rw [copied, List.take_length]⟩)
    · exact .inr (.inr (.inl ⟨0, by rw [emptied, List.take_zero]⟩))
    · exact .inr (.inr (.inl writing))
    · exact .inr (.inr (.inl ⟨bytes.length, by rw [written, List.take_length]⟩))
    · exact .inr (.inr (.inl ⟨bytes.length, by rw [written, List.take_length]⟩))
    · exact .inr (.inr (.inr saved))
  · rcases stop with same | copying | writing | saved
    · exact .inl (.inl same)
    · exact .inl (.inr copying)
    · exact .inr (.inr (.inl writing))
    · exact .inr (.inr (.inr (.inr (.inr saved))))

end Save

/-! ## Opening and reading -/

section Open

variable {d : Disk} {path : String} {loc : Location} {node : Nat}

/-- a file that was just opened to be read and written -/
def fresh (path : String) (node size : Nat) : DataFile :=
  { path, mode := .readWrite, handle := ⟨.file node, true⟩, position := 0, size }

theorem run_readAll {f : DataFile} (h : f.handle.entry = .file node) :
    (f.run readAll).run d = ((.ok (d.content node), { f with position := (d.content node).length }), d) := by
  obtain ⟨path, mode, ⟨entry, writable⟩, position, size⟩ := f
  cases h
  rfl

theorem run_outcome {α : Type} {f f' : DataFile} {op : FileM α} {r : Except Fault α} {d' : Disk}
    (h : (f.run op).run d = ((r, f'), d')) : (f.outcome op).run.run d = (r, d') := by
  show ((·.1) <$> f.run op).run d = (r, d')
  rw [Program.run_map, h]

theorem run_openPlain {mode : Mode} {handle : Handle} {d' : Disk}
    (h : (Call.openAs path mode.access).exec d = (.ok handle, d')) :
    (openPlain path mode).run.run d
      = (.ok { path, mode, handle, position := 0, size := Call.execLength d' handle }, d') := by
  rw [openPlain, run_then (x := .mk (perform (.openAs path mode.access))) h]
  rfl

/-- a file that is opened to be written counts the bytes that are there -/
theorem run_openPlain_opened {d₁ : Disk} (opened : d.openForWriting path = .ok (node, d₁)) :
    (openPlain path .readWrite).run.run d = (.ok (fresh path node (d₁.content node).length), d₁) :=
  run_openPlain (exec_openUpdate_ok opened)

theorem run_openPlain_there (h : d.Names path loc node) :
    (openPlain path .readWrite).run.run d = (.ok (fresh path node (d.content node).length), d) :=
  run_openPlain_opened h.openForWriting

theorem run_openPlain_made (h : d.Vacant path loc) :
    (openPlain path .readWrite).run.run d = (.ok (fresh path d.nodes.size 0), d.addFile loc) := by
  have empty : ((d.addFile loc).content d.nodes.size).length = 0 := congrArg List.length Disk.content_addFile_new
  rw [run_openPlain_opened h.openForWriting, empty]

theorem run_openAs_refused {fault : Fault} (refused : d.openForWriting path = .error fault) :
    (openAs path .readWrite).run.run d = (.error fault, d) := by
  have failed : (perform (.openAs path Mode.readWrite.access)).run d = (.error fault, d) :=
    exec_openUpdate_error refused
  rw [openAs]
  refine run_then_error ?_ _
  exact run_then_error (x := .mk (perform (.openAs path Mode.readWrite.access))) failed _

/-- an opening goes on with the recovery, unless the file is a backup itself, and says what that said -/
theorem run_openAs_recovering {f f' : DataFile} {d₁ d₂ : Disk} {r : Except Fault Unit}
    (plain : (openPlain path .readWrite).run.run d = (.ok f, d₁)) (recovery : (f.run recover).run d₁ = ((r, f'), d₂))
    (proper : Path.isBackup path = false) :
    (openAs path .readWrite).run.run d = (r.map fun _ => f', d₂) := by
  rw [openAs, run_then plain]
  simp only [proper, Bool.false_eq_true, if_false]
  rw [run_then (run_lift recovery)]
  rfl

theorem run_openAs {f f' : DataFile} {d₁ d₂ : Disk} (plain : (openPlain path .readWrite).run.run d = (.ok f, d₁))
    (recovery : (f.run recover).run d₁ = ((.ok (), f'), d₂)) (proper : Path.isBackup path = false) :
    (openAs path .readWrite).run.run d = (.ok f', d₂) := run_openAs_recovering plain recovery proper

/-- the opening of a backup itself looks for no other one -/
theorem run_openAs_backup {f : DataFile} {d₁ : Disk} (plain : (openPlain path .readWrite).run.run d = (.ok f, d₁))
    (backup : Path.isBackup path = true) : (openAs path .readWrite).run.run d = (.ok f, d₁) := by
  rw [openAs, run_then plain]
  simp only [backup, if_true]
  rfl

theorem run_recover_nothing {f : DataFile} (missing : d.isThere (Path.backup f.path) = false) :
    (f.run recover).run d = ((.ok (), f), d) := by
  have asked : (perform (.exists_ (Path.backup f.path))).run d = (false, d) := congrArg (·, d) missing
  rw [recover, run_get, run_bind_ok (run_liftFile asked)]
  rfl

/-- a directory in the place of a backup cannot be read -/
theorem run_recover_directory {f : DataFile} {spare : Location}
    (found : d.lookup (Path.backup f.path) = .ok (spare, .directory)) :
    (f.run recover).run d = ((.error (.system .isDirectory), f), d) := by
  have asked : (perform (.exists_ (Path.backup f.path))).run d = (true, d) := by
    rw [Program.run_perform, Call.exec, Disk.isThere, found]
    rfl
  have opened : (f.run (attempt (openPlain (Path.backup f.path) .readOnly))).run d = _ :=
    run_attempt_ok (run_openPlain (exec_openRead_ok found))
  rw [recover, run_get, run_bind_ok (run_liftFile asked), if_pos rfl, run_bind_ok opened]
  refine run_bind_error (run_attempt_error ?_) _
  rfl

/-- a file is opened as it is where no backup is -/
theorem run_openAs_plain {f : DataFile} {d₁ : Disk} (plain : (openPlain path .readWrite).run.run d = (.ok f, d₁))
    (same : f.path = path) (missing : d₁.isThere (Path.backup path) = false) :
    (openAs path .readWrite).run.run d = (.ok f, d₁) := by
  by_cases backup : Path.isBackup path = true
  · exact run_openAs_backup plain backup
  · exact run_openAs plain (run_recover_nothing (same ▸ missing)) (by simpa using backup)

/-- the backup of a file, opened to be read -/
def backupOf (path : String) (copy size : Nat) : DataFile :=
  { path := Path.backup path, mode := .readOnly, handle := ⟨.file copy, false⟩, position := 0, size }

section Backup

variable {f : DataFile} {spare : Location} {copy : Nat} (backup : d.Names (Path.backup f.path) spare copy)
include backup

theorem run_asked : (f.run (liftM (perform (.exists_ (Path.backup f.path))))).run d = ((.ok true, f), d) := by
  refine run_liftFile ?_
  rw [Program.run_perform, Call.exec, backup.isThere]

theorem run_opened : (f.run (attempt (openPlain (Path.backup f.path) .readOnly))).run d
    = ((.ok (backupOf f.path copy (d.content copy).length), f), d) :=
  run_attempt_ok (run_openPlain (exec_openRead backup))

theorem run_deleted {size : Nat} {bytes : Bytes} :
    ((backupOf f.path copy size).outcome delete).run.run (d.setContent node bytes)
      = (.ok (), (d.setContent node bytes).erase spare) :=
  run_outcome (run_attempt_ok (exec_remove (backup.congr rfl)))

end Backup

/-- what is read of the backup of a file -/
theorem run_taken {f : DataFile} {copy size : Nat} :
    (f.run (attempt ((backupOf f.path copy size).outcome readAll))).run d = ((.ok (d.content copy), f), d) :=
  run_attempt_ok (run_outcome (run_readAll rfl))

/-- the file after its backup's content was put back -/
theorem run_recover {f : DataFile} {spare : Location} {copy : Nat} (writes : f.Writes node)
    (size : node < d.nodes.size) (backup : d.Names (Path.backup f.path) spare copy) :
    (f.run recover).run d
      = ((.ok (), f.replaced (d.content copy)), (d.setContent node (d.content copy)).erase spare) := by
  rw [recover, run_get, run_bind_ok (run_asked backup), if_pos rfl, run_bind_ok (run_opened backup),
    run_bind_ok run_taken, run_bind_ok (run_clear writes), run_bind_ok (run_write_emptied writes size _),
    run_bind_ok run_sync]
  exact run_attempt_ok (run_deleted backup)

end Open

end DataFile
end TableStore
