/-
Reading and saving through an open file where calls to the file system may fail.

A reading changes nothing, whatever fails in it. A save begins with the copy of the file to its backup; a call that
fails there leaves everything as it was but the backup, which may have been begun (`ButForBackup`). Behind the copy it
is another matter: the file has been emptied, or has its new content although the save has failed. So here the calls
behind the copy are spared (`Spares`). A save then does one of two things (`ends_saveWrite`), as it does where no call
fails: it fails in the copy, or it succeeds.
-/
import TableStore.Disk.Outside
import TableStore.Proofs.Disk.Mishaps

namespace TableStore

open Program (Ends Moment Unfailing ends_pure ends_bind ends_map ends_perform perform)

namespace DataFile

variable {may : Mishaps} {f : DataFile} {node : Nat} {s s' : Moment}

/-! ## Readings -/

/-- the two calls of a reading; the file that is open is not used after it -/
theorem outcome_readAll (f : DataFile) :
    f.outcome readAll = (do
      ExceptT.mk (perform (.rewind f.handle))
      ExceptT.mk (perform (.read f.handle 0))) := by
  refine congrArg (fun next => (.call (.rewind f.handle) next : Program (Except Fault Bytes))) (funext fun moved => ?_)
  cases moved with
  | error fault => rfl
  | ok _ =>
    refine congrArg (fun next => (.call (.read f.handle 0) next : Program (Except Fault Bytes))) (funext fun read => ?_)
    cases read <;> rfl

theorem still_readAll (f : DataFile) : Still (f.outcome readAll) := by
  rw [outcome_readAll]
  refine ⟨fun _ => rfl, fun _ _ same => same, fun moved => ?_⟩
  cases moved with
  | error fault => trivial
  | ok _ => exact ⟨fun _ => rfl, fun _ _ same => same, fun _ => trivial⟩

theorem earnest_readAll (f : DataFile) : Earnest (f.outcome readAll) := by
  rw [outcome_readAll]
  exact (earnest_call (fun fault => ⟨fault, rfl⟩) earnest_of_pure).bind fun _ =>
    earnest_call (fun fault => ⟨fault, rfl⟩) earnest_of_pure

/-! ## Copies -/

theorem earnest_copy (source target : String) : Earnest (copy source target) := by
  refine (earnest_call (fun fault => ⟨fault, rfl⟩) earnest_of_pure).bind fun old => ?_
  by_cases directory : old.entry = .directory
  · rw [if_pos directory]
    exact earnest_of_pure _
  · rw [if_neg directory]
    refine (earnest_call (fun fault => ⟨fault, rfl⟩) earnest_of_pure).bind fun new => ?_
    refine (earnest_call (fun fault => ⟨fault, rfl⟩) earnest_of_pure).bind fun bytes => ?_
    by_cases empty : bytes.isEmpty
    · rw [if_pos empty]
      exact earnest_of_pure _
    · rw [if_neg empty]
      exact earnest_call (fun fault => ⟨fault, rfl⟩) earnest_of_pure

theorem still_openRead (path : String) : (perform (.openAs path .read)).Still := by
  refine ⟨fun d => ?_, fun _ _ same => same, fun _ => trivial⟩
  rcases found : d.lookup path with fault | ⟨loc, entry⟩
  · rw [exec_openRead_error found]
  · rw [exec_openRead_ok found]

theorem still_read (h : Handle) (place : Nat) : (perform (.read h place)).Still :=
  ⟨fun _ => rfl, fun _ _ same => same, fun _ => trivial⟩

/-- a file that is opened to be written from empty is emptied, or nothing is changed -/
theorem ends_openReplace {path : String} {opened : Except Fault Handle}
    (ends : Ends may (perform (.openAs path .replace)) s opened s') :
    ((∃ fault, opened = .error fault) ∧ s'.disk = s.disk)
      ∨ ∃ k d₁, s.disk.openForWriting path = .ok (k, d₁) ∧ opened = .ok ⟨.file k, true⟩
          ∧ s'.disk = d₁.setContent k [] := by
  rcases ends_perform.1 ends with ⟨rfl, rfl⟩ | ⟨fault, left, -, rfl, rfl, rfl⟩
  · rcases found : s.disk.openForWriting path with fault | ⟨k, d₁⟩
    · rw [exec_openReplace_error found]
      exact .inl ⟨⟨fault, rfl⟩, rfl⟩
    · rw [exec_openReplace_ok found]
      exact .inr ⟨k, d₁, rfl, rfl, rfl⟩
  · exact .inl ⟨⟨fault, rfl⟩, rfl⟩

/-- a failed copy has left everything as it was, or a call in it has failed and there are some bytes at its target -/
theorem ends_copy_error {source target : String} {fault : Fault}
    (ends : Ends may (copy source target).run s (.error fault) s') :
    s'.disk = s.disk ∨ may.Any ∧ ∃ part, s.disk.put target part = .ok s'.disk := by
  rcases ends_then.1 ends with ⟨_, opening, -⟩ | ⟨old, s₁, opening, rest⟩
  · exact .inl ((still_openRead source).disk_eq opening)
  have same : s₁.disk = s.disk := (still_openRead source).disk_eq opening
  by_cases directory : old.entry = .directory
  · rw [if_pos directory] at rest
    obtain ⟨-, rfl⟩ := ends_pure.1 rest
    exact .inl same
  rw [if_neg directory] at rest
  rcases ends_then.1 rest with ⟨_, making, -⟩ | ⟨new, s₂, making, rest⟩
  · rcases ends_openReplace making with ⟨-, still⟩ | ⟨_, _, _, refused, -⟩
    · exact .inl (still.trans same)
    · cases refused
  rcases ends_openReplace making with ⟨⟨_, refused⟩, -⟩ | ⟨k, d₁, opened, made, emptied⟩
  · cases refused
  cases made
  rw [same] at opened
  have putting (part : Bytes) : s.disk.put target part = .ok (d₁.setContent k part) := by
    rw [ Disk.put, opened]
    rfl
  rcases ends_then.1 rest with ⟨_, reading, -⟩ | ⟨bytes, s₃, reading, writing⟩
  · rcases ends_perform.1 reading with ⟨answer, -⟩ | ⟨_, _, allowed, rfl, -, rfl⟩
    · obtain ⟨_ | m, writable⟩ := old
      · exact absurd rfl directory
      · cases answer
    · exact .inr ⟨⟨_, _, allowed⟩, [], (putting []).trans (congrArg Except.ok emptied.symm)⟩
  have read : s₃.disk = d₁.setContent k [] := ((still_read old 0).disk_eq reading).trans emptied
  by_cases empty : bytes.isEmpty
  · rw [if_pos empty] at writing
    cases (ends_pure.1 writing).1
  · rw [if_neg empty] at writing
    rcases ends_perform.1 writing with ⟨answer, -⟩ | ⟨_, _, allowed, ⟨n, -, rfl⟩, -, rfl⟩
    · cases answer
    · obtain ⟨spare, provides⟩ := Disk.provides_of_openForWriting opened
      refine .inr ⟨⟨_, _, allowed⟩, bytes.take n, (putting _).trans (congrArg Except.ok ?_)⟩
      rw [read]
      exact (setContent_emptied provides.names.node_lt (bytes.take n)).symm

/-! ## Saves -/

/-- the calls that truncate, write or sync the open file -/
def ChangedBy (f : DataFile) : Call → Prop
  | .empty h | .sync h | .write h _ _ => h = f.handle
  | _ => False

/-- the calls of a save behind its copy: besides these, the move to the start of the file once it is truncated, and the
removal of the backup -/
def CompletedBy (f : DataFile) (last : Option Call) : Call → Prop
  | .rewind h => h = f.handle ∧ last = some (.empty f.handle)
  | .remove path => path = Path.backup f.path
  | c => f.ChangedBy c

/-- no call of a save behind its copy may fail -/
def Spares (may : Mishaps) (f : DataFile) : Prop := ∀ last c, may last c → ¬ f.CompletedBy last c

/-- everything is as it was but for the backup of a file, which was begun and not finished since a call has failed -/
def ButForBackup (may : Mishaps) (path : String) (d d' : Disk) : Prop :=
  d' = d ∨ may.Any ∧ ∃ part, d.put (Path.backup path) part = .ok d'

/-- an operation behind a program that may fail -/
theorem ends_attempt_then {α β : Type} {p : Program (Except Fault α)} {g : α → FileM β}
    {out : Except Fault β × DataFile} (ends : Ends may (f.run (attempt p >>= g)) s out s') :
    (∃ fault, Ends may p s (.error fault) s' ∧ out = (.error fault, f))
      ∨ ∃ a mid, Ends may p s (.ok a) mid ∧ Ends may (f.run (g a)) mid out s' := by
  rw [run_bind, run_attempt, ends_bind] at ends
  obtain ⟨_, mid, first, second⟩ := ends
  obtain ⟨answer, attempted, rfl⟩ := ends_map.1 first
  cases answer with
  | error fault =>
    obtain ⟨rfl, rfl⟩ := ends_pure.1 second
    exact .inl ⟨fault, attempted, rfl⟩
  | ok a => exact .inr ⟨a, mid, attempted, second⟩

theorem unfailing_behind (h : f.Writes node) (spares : Spares may f) (bytes : Bytes) (s : Moment) :
    Unfailing may (f.run (do
      clear
      write bytes
      sync
      attempt (perform (.remove (Path.backup f.path))))) s := by
  have spared : ∀ {last c}, f.CompletedBy last c → ¬ may last c := fun part allowed => spares _ _ allowed part
  obtain ⟨path, mode, handle, position, size⟩ := f
  cases h
  cases bytes with
  | nil => exact ⟨spared rfl, spared ⟨rfl, rfl⟩, spared rfl, spared rfl, trivial⟩
  | cons b rest => exact ⟨spared rfl, spared ⟨rfl, rfl⟩, spared rfl, spared rfl, spared rfl, trivial⟩

/-- **A save whose calls behind the copy are spared** fails in the copy, or succeeds. -/
theorem ends_saveWrite (h : f.Holds node s.disk) (spares : Spares may f) {bytes : Bytes} {r : Except Fault Unit}
    (ends : Ends may (f.outcome (saveWrite bytes)).run s r s') :
    (∃ fault, r = .error fault ∧ ButForBackup may f.path s.disk s'.disk)
      ∨ r = .ok () ∧ Replaces f.path node bytes s.disk s'.disk := by
  obtain ⟨⟨answer, g⟩, saving, rfl⟩ := ends_map.1 ends
  rw [run_saveWrite_eq h.mode] at saving
  rcases ends_attempt_then saving with ⟨fault, copying, same⟩ | ⟨_, mid, copying, behind⟩
  · cases same
    exact .inl ⟨fault, rfl, ends_copy_error copying⟩
  · have copied := earnest_copy _ _ may s _ mid copying
    obtain ⟨d', saved, replaces⟩ := run_saveWrite_behind h copied bytes
    have attempted : (f.run (attempt (copy f.path (Path.backup f.path)))).run s.disk = ((.ok (), f), mid.disk) :=
      run_attempt_ok copied
    rw [run_saveWrite_eq h.mode, run_bind_ok attempted,
      behind.run_of_unfailing (unfailing_behind h.writes spares bytes mid)] at saved
    cases saved
    exact .inr ⟨rfl, replaces⟩

/-! ## What a begun backup leaves -/

section Begun

variable {path : String} {d d' : Disk}

theorem exists_of_put {bytes : Bytes} (h : d.put path bytes = .ok d') :
    ∃ k d₁, d.openForWriting path = .ok (k, d₁) ∧ d' = d₁.setContent k bytes := by
  rw [ Disk.put] at h
  rcases opened : d.openForWriting path with fault | ⟨k, d₁⟩
  · rw [opened] at h
    cases h
  · rw [opened] at h
    cases h
    exact ⟨k, d₁, rfl, rfl⟩

theorem ButForBackup.cases (h : ButForBackup may path d d') :
    d' = d ∨ may.Any ∧ ∃ spare k d₁ part, d.Provides (Path.backup path) spare k d₁ ∧ d' = d₁.setContent k part := by
  refine h.imp_right fun ⟨any, part, put⟩ => ?_
  obtain ⟨k, d₁, opened, rfl⟩ := exists_of_put put
  obtain ⟨spare, provides⟩ := Disk.provides_of_openForWriting opened
  exact ⟨any, spare, k, d₁, part, provides, rfl⟩

theorem ButForBackup.eq_of_not_any (h : ButForBackup may path d d') (calm : ¬ may.Any) : d' = d :=
  h.resolve_right fun ⟨any, _⟩ => calm any

theorem ButForBackup.size_le (h : ButForBackup may path d d') : d.nodes.size ≤ d'.nodes.size := by
  rcases h.cases with rfl | ⟨-, _, k, d₁, part, provides, rfl⟩
  · exact le_rfl
  · exact provides.size_le.trans Disk.size_setContent.ge

/-- a file that does not stand in the place of the backup has its content -/
theorem ButForBackup.content (h : ButForBackup may path d d') {n : Nat} (lt : n < d.nodes.size)
    (aside : may.Any → ∀ loc, ¬ d.Names (Path.backup path) loc n) : d'.content n = d.content n := by
  rcases h.cases with rfl | ⟨any, spare, k, d₁, part, provides, rfl⟩
  · rfl
  · have apart : k ≠ n := by
      rintro rfl
      exact aside any spare (provides.old lt)
    rw [Disk.content_setContent_ne apart, provides.content n lt]

theorem ButForBackup.names (h : ButForBackup may path d d') {other : String} {loc : Location} {n : Nat}
    (named : d.Names other loc n) : d'.Names other loc n := by
  rcases h.cases with rfl | ⟨-, _, k, d₁, part, provides, rfl⟩
  · exact named
  · exact (provides.keeps named).congr rfl

theorem ButForBackup.names_old (h : ButForBackup may path d d') {other : String} {loc : Location} {n : Nat}
    (lt : n < d.nodes.size) (named : d'.Names other loc n) : d.Names other loc n := by
  rcases h.cases with rfl | ⟨-, _, k, d₁, part, provides, rfl⟩
  · exact named
  · exact provides.names_old lt (named.congr rfl)

/-- where a file could be made one can be opened to be written, also if the backup was begun there -/
theorem ButForBackup.opens (h : ButForBackup may path d d') {other : String} {spare : Location}
    (vacant : d.Vacant other spare) : ∃ k d₁, d'.openForWriting other = .ok (k, d₁) := by
  rcases h with rfl | ⟨-, part, put⟩
  · exact ⟨_, _, vacant.openForWriting⟩
  · obtain ⟨k, d₁, opened, rfl⟩ := exists_of_put put
    obtain ⟨loc, ⟨-, rfl⟩ | ⟨made, rfl, rfl⟩⟩ := Disk.openForWriting_cases opened
    · have still : (d₁.setContent k part).Vacant other spare := vacant.congr rfl
      exact ⟨_, _, still.openForWriting⟩
    · by_cases same : spare = loc
      · subst same
        have there : ((d.addFile spare).setContent d.nodes.size part).Names other spare d.nodes.size :=
          vacant.names_addFile.congr rfl
        exact ⟨_, _, there.openForWriting⟩
      · have still : ((d.addFile loc).setContent d.nodes.size part).Vacant other spare :=
          (vacant.addFile made.entry same).congr rfl
        exact ⟨_, _, still.openForWriting⟩

end Begun

end DataFile
end TableStore
