/-
Recovery that is stopped, and begun again.

An opening that finds a backup empties the file, writes the backup's bytes into it, syncs it, and only then removes the
backup. The process may end anywhere in that, also inside the write, and the next opening starts from what is left. It
always starts from one of two kinds of disk (`Restores`): the backup is there with all of its bytes, whatever the file
has become by then, or the file has the bytes and the backup is gone. Every stop leads from one of them to one of them
(`Restores.stopped`), so any number of stops does, and an opening that runs to its end gets to the second one from
either (`Restores.opened`).

What is not the file and not its backup stays as it is all the way (`Disk.Touches`): the entries of all other places,
and the bytes of every node but the file's.

Results:
  recovery_restarts   after any number of stopped openings the next one that ends answers a file with the backup's
                      bytes and their count, the backup is gone, and every later opening finds the same.
-/
import TableStore.Proofs.Disk.Crash
import TableStore.Proofs.Disk.Replacing

namespace TableStore

namespace Disk

/-! ## Disks that differ in one file and its backup -/

/-- what has become of a disk of which only the file in one place was written or made, and only the name in another
one was removed -/
structure Touches (loc spare : Location) (d d' : Disk) : Prop where
  size_le : d.nodes.size ≤ d'.nodes.size
  entry : ∀ other, other ≠ loc → other ≠ spare → d'.entry? other = d.entry? other
  content : ∀ n < d.nodes.size, d.entry? loc ≠ some (.file n) → d'.content n = d.content n
  old : ∀ n < d.nodes.size, d'.entry? loc = some (.file n) → d.entry? loc = some (.file n)

section Touches

variable {d d' d'' : Disk} {loc spare : Location} {node : Nat}

theorem Touches.refl (d : Disk) : Touches loc spare d d :=
  ⟨le_refl _, fun _ _ _ => rfl, fun _ _ _ => rfl, fun _ _ file => file⟩

theorem Touches.trans (h : Touches loc spare d d') (h' : Touches loc spare d' d'') : Touches loc spare d d'' := by
  refine ⟨h.size_le.trans h'.size_le, fun other apart apart' => ?_, fun n lt other => ?_, fun n lt file => ?_⟩
  · rw [h'.entry other apart apart', h.entry other apart apart']
  · rw [h'.content n (lt.trans_le h.size_le) fun file => other (h.old n lt file), h.content n lt other]
  · exact h.old n lt (h'.old n (lt.trans_le h.size_le) file)

theorem Made.touches (h : d.Made loc d') : Touches loc spare d d' := by
  rcases h with rfl | ⟨vacant, rfl⟩
  · exact .refl _
  · refine ⟨?_, fun other apart _ => entry_addFile_ne apart, fun n lt _ => content_addFile lt, fun n lt file => ?_⟩
    · rw [size_addFile]
      exact Nat.le_succ _
    · rw [entry_addFile_self vacant] at file
      cases file
      exact absurd lt (lt_irrefl _)

theorem touches_setContent (file : d.entry? loc = some (.file node)) (bytes : Bytes) :
    Touches loc spare d (d.setContent node bytes) := by
  refine ⟨size_setContent.ge, fun _ _ _ => rfl, fun n lt other => content_setContent_ne ?_ bytes, fun _ _ file => file⟩
  rintro rfl
  exact other file

theorem touches_erase (apart : loc ≠ spare) : Touches loc spare d (d.erase spare) := by
  refine ⟨le_refl _, fun other _ apart' => entry_erase_ne apart', fun _ _ _ => rfl, fun n _ file => ?_⟩
  rwa [entry_erase_ne apart] at file

end Touches

/-! ## Places where a file can be opened to be written -/

/-- there is a file at a path, or one can be made -/
def Openable (d : Disk) (path : String) (loc : Location) : Prop := d.Vacant path loc ∨ ∃ node, d.Names path loc node

/-- opening a file to write it makes it if it is not there, and does nothing else -/
theorem Openable.opened {d : Disk} {path : String} {loc : Location} (h : d.Openable path loc) :
    ∃ node d₁, d.openForWriting path = .ok (node, d₁) ∧ d.Made loc d₁ ∧ d₁.Names path loc node := by
  rcases h with vacant | ⟨node, named⟩
  · exact ⟨_, _, vacant.openForWriting, .inr ⟨vacant.entry, rfl⟩, vacant.names_addFile⟩
  · exact ⟨node, d, named.openForWriting, .inl rfl, named⟩

theorem Openable.exec {d : Disk} {path : String} {loc : Location} (h : d.Openable path loc) :
    ∃ node d₁, (Call.openAs path .update).exec d = (.ok ⟨.file node, true⟩, d₁) ∧ d.Made loc d₁
      ∧ d₁.Names path loc node := by
  obtain ⟨node, d₁, opened, made⟩ := h.opened
  exact ⟨node, d₁, DataFile.exec_openUpdate_ok opened, made⟩

/-- opening a file that is there changes nothing, in whatever way it is opened -/
theorem Names.exec_openAs {d : Disk} {path : String} {loc : Location} {node : Nat} (h : d.Names path loc node)
    (mode : Mode) : ∃ handle, (Call.openAs path mode.access).exec d = (.ok handle, d) ∧ handle.entry = .file node := by
  cases mode with
  | readWrite => exact ⟨_, DataFile.exec_openUpdate h, rfl⟩
  | readOnly => exact ⟨_, DataFile.exec_openRead h, rfl⟩

end Disk

namespace DataFile
open Disk (Touches)
open Program (Stops perform)
open Relation (ReflTransGen)

/-! ## Where an opening can be stopped -/

section Stopped

variable {d d₁ left : Disk} {path : String} {loc spare : Location} {node copy : Nat} {f : DataFile}

theorem stops_lift {ε α : Type} (p : Program α) : Stops (liftM p : ExceptT ε Program α).run d left ↔ Stops p d left :=
  Program.stops_map

theorem stops_liftFile {α : Type} (p : Program α) : Stops (f.run (liftM p : FileM α)) d left ↔ Stops p d left :=
  Program.stops_map.trans Program.stops_map

theorem stops_outcome {α : Type} (op : FileM α) : Stops (f.outcome op).run d left ↔ Stops (f.run op) d left :=
  Program.stops_map

theorem stops_readAll (h : f.handle.entry = .file node) : Stops (f.run readAll) d left ↔ left = d := by
  obtain ⟨path, mode, ⟨entry, writable⟩, position, size⟩ := f
  cases h
  refine (Program.stops_still (c := .rewind _) (fun _ same => same) rfl).trans ?_
  exact (Program.stops_still (c := .read _ _) (fun _ same => same) rfl).trans (Program.stops_pure _)

theorem stops_openPlain {mode : Mode} {handle : Handle}
    (h : (Call.openAs path mode.access).exec d = (.ok handle, d₁)) :
    Stops (openPlain path mode).run d left ↔ left = d ∨ left = d₁ := by
  have opening : Stops (perform (.openAs path mode.access)) d left ↔ left = d ∨ left = d₁ := by
    rw [Program.stops_perform (c := .openAs path mode.access) fun _ same => same, h]
  have measured : (perform (.length handle)).run d₁ = (.ok (Call.execLength d₁ handle), d₁) := rfl
  have measuring : Stops (perform (.length handle)) d₁ left ↔ left = d₁ :=
    (Program.stops_still (c := .length _) (fun _ same => same) rfl).trans (Program.stops_pure _)
  have ending (f : DataFile) : Stops (pure f : ExceptT Fault Program DataFile).run d₁ left ↔ left = d₁ :=
    Program.stops_pure _
  rw [openPlain, stops_then (x := .mk (perform (.openAs path mode.access))) h,
    stops_then (x := .mk (perform (.length handle))) measured]
  simp only [ExceptT.run_mk, opening, measuring, ending, or_self, or_assoc]

theorem stops_asked (path : String) : Stops (f.run (liftM (perform (.exists_ path)))) d left ↔ left = d := by
  rw [stops_liftFile, Program.stops_perform (c := .exists_ _) fun _ same => same]
  exact or_self_iff

theorem stops_taken {size : Nat} :
    Stops (f.run (attempt ((backupOf f.path copy size).outcome readAll))) d left ↔ left = d :=
  (stops_attempt _).trans ((stops_outcome _).trans (stops_readAll rfl))

section Backup

variable (backup : d.Names (Path.backup f.path) spare copy)
include backup

theorem stops_opened :
    Stops (f.run (attempt (openPlain (Path.backup f.path) .readOnly))) d left ↔ left = d :=
  (stops_attempt _).trans ((stops_openPlain (exec_openRead backup)).trans or_self_iff)

theorem stops_deleted {size : Nat} {bytes : Bytes} {g : DataFile} :
    Stops (g.run (attempt ((backupOf f.path copy size).outcome delete))) (d.setContent node bytes) left
      ↔ left = d.setContent node bytes ∨ left = (d.setContent node bytes).erase spare := by
  have named : (d.setContent node bytes).Names (Path.backup f.path) spare copy := backup.congr rfl
  have removing : Stops (perform (.remove (Path.backup f.path))) (d.setContent node bytes) left
      ↔ left = d.setContent node bytes ∨ left = (d.setContent node bytes).erase spare := by
    rw [Program.stops_perform (c := .remove _) fun _ same => same, exec_remove named]
  exact (stops_attempt _).trans ((stops_outcome _).trans ((stops_attempt _).trans removing))

/-- **Where a recovery can be stopped**: before it, in the write, and after it. -/
theorem stops_recover (writes : f.Writes node) (size : node < d.nodes.size) :
    Stops (f.run recover) d left ↔
      left = d ∨ (∃ n, left = d.setContent node ((d.content copy).take n))
        ∨ left = (d.setContent node (d.content copy)).erase spare := by
  rw [recover, run_get, stops_bind_ok (run_asked backup), if_pos rfl, stops_bind_ok (run_opened backup),
    stops_bind_ok run_taken, stops_bind_ok (run_clear writes), stops_bind_ok (run_write_emptied writes size _),
    stops_bind_ok run_sync, stops_asked, stops_opened backup, stops_taken, stops_clear writes,
    stops_write_emptied writes size, stops_sync, stops_deleted backup]
  refine ⟨fun stop => ?_, fun stop => ?_⟩
  · rcases stop with same | same | same | (same | emptied) | writing | written | written | done
    · exact .inl same
    · exact .inl same
    · exact .inl same
    · exact .inl same
    · exact .inr (.inl ⟨0, by rw [emptied, List.take_zero]⟩)
    · exact .inr (.inl writing)
    · exact .inr (.inl ⟨(d.content copy).length, by rw [written, List.take_length]⟩)
    · exact .inr (.inl ⟨(d.content copy).length, by rw [written, List.take_length]⟩)
    · exact .inr (.inr done)
  · rcases stop with same | writing | done
    · exact .inl same
    · exact .inr (.inr (.inr (.inr (.inl writing))))
    · exact .inr (.inr (.inr (.inr (.inr (.inr (.inr done))))))

end Backup

/-- without a backup there is nothing to stop -/
theorem stops_recover_nothing (missing : d.isThere (Path.backup f.path) = false) :
    Stops (f.run recover) d left ↔ left = d := by
  have asked : (f.run (liftM (perform (.exists_ (Path.backup f.path))))).run d = ((.ok false, f), d) :=
    run_liftFile (congrArg (·, d) missing)
  rw [recover, run_get, stops_bind_ok asked, stops_asked]
  exact (or_congr_right (Program.stops_pure _)).trans or_self_iff

theorem openAs_readOnly (path : String) : openAs path .readOnly = openPlain path .readOnly := by
  rw [openAs]
  exact bind_pure _

/-- an opening is stopped in the opening as it is, or in the recovery -/
theorem stops_openAs {d₂ : Disk} {f' : DataFile} (plain : (openPlain path .readWrite).run.run d = (.ok f, d₁))
    (recovery : (f.run recover).run d₁ = ((.ok (), f'), d₂)) (proper : Path.isBackup path = false) :
    Stops (openAs path .readWrite).run d left
      ↔ Stops (openPlain path .readWrite).run d left ∨ Stops (f.run recover) d₁ left := by
  have ending : Stops (pure (.ok f') : Program (Except Fault DataFile)) d₂ left ↔ left = d₂ := Program.stops_pure _
  rw [openAs, stops_then plain]
  simp only [proper, Bool.false_eq_true, if_false]
  rw [stops_then (run_lift recovery), stops_lift]
  refine or_congr_right ⟨fun stop => ?_, .inl⟩
  rcases stop with stop | ended
  · exact stop
  · have last := Program.stops_end (f.run recover) d₁
    rw [recovery] at last
    exact ending.1 ended ▸ last

end Stopped

/-! ## An opening that finds a backup -/

/-- the file of a backup was opened, and made if it was not there; the backup comes next -/
structure Finds (path : String) (loc spare : Location) (node copy : Nat) (d d₁ : Disk) : Prop where
  made : d.Made loc d₁
  exec : (Call.openAs path .update).exec d = (.ok ⟨.file node, true⟩, d₁)
  file : d₁.Names path loc node
  backup : d₁.Names (Path.backup path) spare copy
  content : d₁.content copy = d.content copy

/-- a file has some bytes, and no backup -/
structure Whole (path : String) (bytes : Bytes) (d : Disk) : Prop where
  file : ∃ loc node, d.Names path loc node ∧ d.content node = bytes
  alone : d.isThere (Path.backup path) = false

/-- a file can be opened on a disk, has some bytes then and counts them; the other disk is left -/
def OpensWith (path : String) (mode : Mode) (bytes : Bytes) (d d' : Disk) : Prop :=
  ∃ f, (openAs path mode).run.run d = (.ok f, d') ∧ f.size = bytes.length
    ∧ (f.outcome readAll).run.run d' = (.ok bytes, d')

section Finds

variable {d d₁ left : Disk} {path : String} {loc spare : Location} {node copy : Nat}

theorem exists_finds (file : d.Openable path loc) (backup : d.Names (Path.backup path) spare copy) :
    ∃ node d₁, Finds path loc spare node copy d d₁ := by
  obtain ⟨node, d₁, exec, made, named⟩ := file.exec
  exact ⟨node, d₁, made, exec, named, made.names backup, made.content backup.node_lt⟩

theorem Finds.run_plain (h : Finds path loc spare node copy d d₁) :
    (openPlain path .readWrite).run.run d = (.ok (fresh path node (d₁.content node).length), d₁) :=
  run_openPlain h.exec

theorem Finds.run_openAs (h : Finds path loc spare node copy d d₁) (proper : Path.isBackup path = false) :
    (openAs path .readWrite).run.run d
      = (.ok ((fresh path node (d₁.content node).length).replaced (d.content copy)),
          (d₁.setContent node (d.content copy)).erase spare) := by
  rw [← h.content]
  exact DataFile.run_openAs h.run_plain (run_recover rfl h.file.node_lt h.backup) proper

/-- **Where an opening that finds a backup can be stopped**: before it, before the recovery, in the write of the
recovery, and after it. -/
theorem Finds.stops_openAs (h : Finds path loc spare node copy d d₁) (proper : Path.isBackup path = false) :
    Stops (openAs path .readWrite).run d left ↔
      left = d ∨ left = d₁ ∨ (∃ n, left = d₁.setContent node ((d.content copy).take n))
        ∨ left = (d₁.setContent node (d.content copy)).erase spare := by
  have writes : (fresh path node (d₁.content node).length).Writes node := rfl
  rw [DataFile.stops_openAs h.run_plain (run_recover writes h.file.node_lt h.backup) proper,
    stops_openPlain h.exec, stops_recover h.backup writes h.file.node_lt, h.content]
  refine ⟨fun stop => ?_, fun stop => ?_⟩
  · rcases stop with (same | made) | made | stop
    · exact .inl same
    · exact .inr (.inl made)
    · exact .inr (.inl made)
    · exact .inr (.inr stop)
  · rcases stop with same | made | stop
    · exact .inl (.inl same)
    · exact .inl (.inr made)
    · exact .inr (.inr stop)

theorem Finds.apart (h : Finds path loc spare node copy d d₁) : loc ≠ spare := h.file.ne_backup h.backup

theorem Finds.node_ne (h : Finds path loc spare node copy d d₁) : node ≠ copy := by
  rintro rfl
  exact h.apart (h.file.loc_eq h.backup)

theorem Finds.opensWith (h : Finds path loc spare node copy d d₁) (proper : Path.isBackup path = false) :
    OpensWith path .readWrite (d.content copy) d ((d₁.setContent node (d.content copy)).erase spare) := by
  have content : ((d₁.setContent node (d.content copy)).erase spare).content node = d.content copy :=
    Disk.content_setContent h.file.node_lt _
  refine ⟨_, h.run_openAs proper, rfl, ?_⟩
  rw [run_outcome (run_readAll rfl), content]

/-- the disk that the opening leaves if it is not stopped -/
theorem Finds.whole (h : Finds path loc spare node copy d d₁) :
    Whole path (d.content copy) ((d₁.setContent node (d.content copy)).erase spare) := by
  have file : (d₁.setContent node (d.content copy)).Names path loc node := h.file.congr rfl
  have backup : (d₁.setContent node (d.content copy)).Names (Path.backup path) spare copy := h.backup.congr rfl
  exact ⟨⟨loc, node, file.erase backup.entry h.apart, Disk.content_setContent h.file.node_lt _⟩,
    backup.vacant_erase.isThere⟩

theorem Finds.touches (h : Finds path loc spare node copy d d₁) (bytes : Bytes) :
    Touches loc spare d (d₁.setContent node bytes) :=
  h.made.touches.trans (Disk.touches_setContent h.file.entry bytes)

end Finds

/-! ## How far a recovery has come -/

/-- a backup has all of the bytes that its file is to have, or the file has them and the backup is gone -/
inductive Restores (path : String) (loc spare : Location) (bytes : Bytes) (d : Disk) : Prop where
  | waiting {copy : Nat} : d.Openable path loc → d.Names (Path.backup path) spare copy → d.content copy = bytes →
      Restores path loc spare bytes d
  | done : Whole path bytes d → Restores path loc spare bytes d

section Restores

variable {d left : Disk} {path : String} {loc spare : Location} {bytes : Bytes}

/-- a file without a backup is opened as it is, in whatever way -/
theorem Whole.opensWith (h : Whole path bytes d) (mode : Mode) : OpensWith path mode bytes d d := by
  obtain ⟨loc, node, named, rfl⟩ := h.file
  obtain ⟨handle, exec, entry⟩ := named.exec_openAs mode
  have plain := run_openPlain exec
  have size : Call.execLength d handle = (d.content node).length := by rw [Call.execLength, entry]
  refine ⟨{ path, mode, handle, position := 0, size := Call.execLength d handle }, ?_, size,
    run_outcome (run_readAll entry)⟩
  cases mode with
  | readOnly => rwa [openAs_readOnly]
  | readWrite => exact run_openAs_plain plain rfl h.alone

theorem Whole.stopped (h : Whole path bytes d) (proper : Path.isBackup path = false) {mode : Mode}
    (stop : Stops (openAs path mode).run d left) : left = d := by
  obtain ⟨loc, node, named, -⟩ := h.file
  obtain ⟨handle, exec, -⟩ := named.exec_openAs mode
  have still : Stops (openPlain path mode).run d left → left = d := fun stop =>
    or_self_iff.1 ((stops_openPlain exec).1 stop)
  cases mode with
  | readOnly =>
    rw [openAs_readOnly] at stop
    exact still stop
  | readWrite =>
    obtain ⟨f, plain, same⟩ : ∃ f, (openPlain path .readWrite).run.run d = (.ok f, d) ∧ f.path = path :=
      ⟨_, run_openPlain exec, rfl⟩
    have missing : d.isThere (Path.backup f.path) = false := same ▸ h.alone
    rcases (stops_openAs plain (run_recover_nothing missing) proper).1 stop with stop | stop
    · exact still stop
    · exact (stops_recover_nothing missing).1 stop

/-- no stop of an opening loses the bytes of the backup -/
theorem Restores.stopped (h : Restores path loc spare bytes d) (proper : Path.isBackup path = false)
    (stop : Stops (openAs path .readWrite).run d left) :
    Restores path loc spare bytes left ∧ Touches loc spare d left := by
  cases h with
  | waiting file backup content =>
    subst content
    obtain ⟨node, d₁, finds⟩ := exists_finds file backup
    rcases (finds.stops_openAs proper).1 stop with rfl | rfl | ⟨n, rfl⟩ | rfl
    · exact ⟨.waiting file backup rfl, .refl _⟩
    · exact ⟨.waiting (.inr ⟨node, finds.file⟩) finds.backup finds.content, finds.made.touches⟩
    · -- what was written of the file is lost, but the backup is another node and has all of its bytes
      refine ⟨.waiting (.inr ⟨node, finds.file.congr rfl⟩) (finds.backup.congr rfl) ?_, finds.touches _⟩
      rw [Disk.content_setContent_ne finds.node_ne, finds.content]
    · -- the backup goes only when the file has all of its bytes
      exact ⟨.done finds.whole, (finds.touches _).trans (Disk.touches_erase finds.apart)⟩
  | done whole =>
    obtain rfl := whole.stopped proper stop
    exact ⟨.done whole, .refl _⟩

/-- so no number of stops does -/
theorem Restores.attempts (h : Restores path loc spare bytes d) (proper : Path.isBackup path = false)
    (attempts : ReflTransGen (Stops (openAs path .readWrite).run) d left) :
    Restores path loc spare bytes left ∧ Touches loc spare d left := by
  induction attempts with
  | refl => exact ⟨h, .refl _⟩
  | tail _ stop ih =>
    obtain ⟨restores, touches⟩ := ih.1.stopped proper stop
    exact ⟨restores, ih.2.trans touches⟩

/-- where the bytes of the backup are at any time -/
theorem Restores.kept (h : Restores path loc spare bytes d) :
    d.bytesAt? (Path.backup path) = some bytes ∨ Whole path bytes d := by
  cases h with
  | waiting file backup content => exact .inl (backup.bytesAt?.trans (congrArg some content))
  | done whole => exact .inr whole

/-- an opening that runs to its end finishes the recovery -/
theorem Restores.opened (h : Restores path loc spare bytes d) (proper : Path.isBackup path = false) :
    ∃ d', OpensWith path .readWrite bytes d d' ∧ Whole path bytes d' ∧ Touches loc spare d d' := by
  cases h with
  | waiting file backup content =>
    subst content
    obtain ⟨node, d₁, finds⟩ := exists_finds file backup
    exact ⟨_, finds.opensWith proper, finds.whole,
      (finds.touches _).trans (Disk.touches_erase finds.apart)⟩
  | done whole => exact ⟨d, whole.opensWith .readWrite, whole, .refl _⟩

/-- what comes after a recovery finds it done -/
theorem Whole.later (h : Whole path bytes d) (proper : Path.isBackup path = false)
    (openings : ReflTransGen (fun d left => ∃ mode, Stops (openAs path mode).run d left) d left) : left = d := by
  induction openings with
  | refl => rfl
  | tail _ opening ih =>
    obtain ⟨mode, stop⟩ := opening
    exact (ih ▸ h).stopped proper stop |>.trans ih

end Restores

/-- **Recovery can be begun again as often as it is stopped.** Whatever the file of a complete backup has become, and
wherever openings of it were stopped, the backup's bytes are in the backup or in a file without one. The first opening
that runs to its end answers a file that has these bytes and counts them, and no backup is left. Every opening after it,
in whatever way and also if it is stopped, finds the same and changes nothing. No other file is touched. -/
theorem recovery_restarts {d left : Disk} {path : String} {loc spare : Location} {copy : Nat}
    (proper : Path.isBackup path = false) (file : d.Openable path loc)
    (backup : d.Names (Path.backup path) spare copy)
    (attempts : ReflTransGen (Stops (openAs path .readWrite).run) d left) :
    (left.bytesAt? (Path.backup path) = some (d.content copy) ∨ Whole path (d.content copy) left)
      ∧ Touches loc spare d left
      ∧ ∃ d', OpensWith path .readWrite (d.content copy) left d' ∧ Whole path (d.content copy) d'
        ∧ Touches loc spare d d'
        ∧ ∀ later, ReflTransGen (fun d left => ∃ mode, Stops (openAs path mode).run d left) d' later →
            later = d' ∧ ∀ mode, OpensWith path mode (d.content copy) later later := by
  have start : Restores path loc spare (d.content copy) d := .waiting file backup rfl
  obtain ⟨restores, touched⟩ := start.attempts proper attempts
  obtain ⟨d', opens, whole, touches⟩ := restores.opened proper
  refine ⟨restores.kept, touched, d', opens, whole, touched.trans touches, fun later openings => ?_⟩
  obtain rfl := whole.later proper openings
  exact ⟨rfl, whole.opensWith⟩

/-- a file of which a save wrote one byte, beside the backup of what it was -/
def interrupted : Disk := (({} : Disk).withFile ["f"] [110]).withFile ["f.safe"] [111, 108, 100]

/-- the opening after a stopped save may be stopped too, in the middle of its write, and the next one has all bytes -/
theorem recovery_restarts_twice :
    Path.isBackup "f" = false ∧ interrupted.Openable "f" ["f"] ∧ interrupted.Names "f.safe" ["f.safe"] 1
      ∧ ReflTransGen (Stops (openAs "f" .readWrite).run) interrupted (interrupted.setContent 0 [111, 108])
      ∧ ∃ d', OpensWith "f" .readWrite [111, 108, 100] (interrupted.setContent 0 [111, 108]) d'
        ∧ d'.bytesAt? "f" = some [111, 108, 100] := by
  have proper : Path.isBackup "f" = false := by decide
  have file : interrupted.Names "f" ["f"] 0 := ⟨rfl, rfl, by decide⟩
  have backup : interrupted.Names "f.safe" ["f.safe"] 1 := ⟨rfl, rfl, by decide⟩
  have finds : Finds "f" ["f"] ["f.safe"] 0 1 interrupted interrupted :=
    ⟨.inl rfl, exec_openUpdate file, file, backup, rfl⟩
  have stop := (finds.stops_openAs proper).2 (.inr (.inr (.inl ⟨2, rfl⟩)))
  obtain ⟨-, -, d', opens, whole, -⟩ := recovery_restarts proper (.inr ⟨0, file⟩) backup (.single stop)
  obtain ⟨loc, node, named, content⟩ := whole.file
  exact ⟨proper, .inr ⟨0, file⟩, backup, .single stop, d', opens, named.bytesAt?.trans (congrArg some content)⟩

end DataFile
end TableStore
