/-
What a stopped save leaves for the next opening.

A process that ends inside a save leaves one of the disks of `stops_saveWrite`. The next opening of the file trusts a
backup that it finds. That is right once the copy is complete: the file may then hold any part of the new content, and
the backup brings all of the old one back. It is wrong while the copy is being made: the file still holds all of the
old content, and the opening puts the first part of it that was copied in its place.

Results:
  reread_stopped   after every stop the file can be opened and read; without a backup it has the old content or the
                   new one, with a backup what the backup has, a first part of the old content. Every first part can
                   be what is left, so only a save over nothing, or of nothing over one byte, is old or new after
                   every stop.
  not_atomic       no such promise can be made of all saves: an empty backup is left where the copy was not begun.
-/
import TableStore.Proofs.Disk.Saving

namespace TableStore

/-- the bytes of the file at a path, if there is one -/
def Disk.bytesAt? (d : Disk) (path : String) : Option Bytes :=
  match d.lookup path with
  | .ok (_, .file node) => some (d.content node)
  | _ => none

theorem Disk.Names.bytesAt? {d : Disk} {path : String} {loc : Location} {node : Nat} (h : d.Names path loc node) :
    d.bytesAt? path = some (d.content node) := by
  rw [Disk.bytesAt?, h.lookup]

theorem Disk.Vacant.bytesAt? {d : Disk} {path : String} {loc : Location} (h : d.Vacant path loc) :
    d.bytesAt? path = none := by
  rw [Disk.bytesAt?, h.lookup]

theorem Disk.bytesAt?_eq_some_iff {d : Disk} {path : String} {bytes : Bytes} :
    d.bytesAt? path = some bytes ↔ ∃ loc node, d.Names path loc node ∧ d.content node = bytes := by
  refine ⟨fun found => ?_, fun ⟨loc, node, named, content⟩ => named.bytesAt?.trans (congrArg some content)⟩
  unfold bytesAt? at found
  split at found
  · rename_i loc node there
    exact ⟨loc, node, names_of_lookup there, Option.some.inj found⟩
  · cases found

/-- what is opened to be written has the bytes that were at its path, none if it is made -/
theorem Disk.content_of_openForWriting {d d₁ : Disk} {path : String} {k : Nat}
    (opened : d.openForWriting path = .ok (k, d₁)) : d₁.content k = (d.bytesAt? path).getD [] := by
  obtain ⟨loc, ⟨named, rfl⟩ | ⟨vacant, rfl, rfl⟩⟩ := openForWriting_cases opened
  · rw [named.bytesAt?]
    rfl
  · rw [vacant.bytesAt?]
    exact content_addFile_new

namespace DataFile
open Program (Stops)

/-- open a file to read and write it, and read all of it -/
def reread (path : String) : ExceptT Fault Program Bytes := do
  let f ← openAs path .readWrite
  f.outcome readAll

section Reread

variable {d : Disk} {path : String} {loc spare : Location} {node copy : Nat}

theorem reread_plain (h : d.Names path loc node) (alone : d.isThere (Path.backup path) = false) :
    (reread path).run.run d = (.ok (d.content node), d) := by
  rw [reread, run_then (run_openAs_plain (run_openPlain_there h) rfl alone)]
  exact run_outcome (run_readAll rfl)

/-- an opening that finds a backup reads what the backup has -/
theorem reread_recovered (h : d.Names path loc node) (backup : d.Names (Path.backup path) spare copy)
    (proper : Path.isBackup path = false) : ((reread path).run.run d).1 = .ok (d.content copy) := by
  have recovery := run_recover (f := fresh path node (d.content node).length) rfl h.node_lt backup
  rw [reread, run_then (run_openAs (run_openPlain_there h) recovery proper), run_outcome (run_readAll rfl)]
  exact congrArg Except.ok (Disk.content_setContent h.node_lt _)

end Reread

/-- a file that is open to be read and written under its name, is no backup, and has none -/
structure Opened (f : DataFile) (d : Disk) (old : Bytes) : Prop where
  mode : f.mode = .readWrite
  named : ∃ loc node, f.Writes node ∧ d.Names f.path loc node ∧ d.content node = old
  proper : Path.isBackup f.path = false
  alone : d.isThere (Path.backup f.path) = false

theorem Opened.ready {f : DataFile} {d : Disk} {old : Bytes} (h : f.Opened d old) :
    ∃ loc node spare, f.Ready d loc node spare ∧ d.content node = old ∧ spare ≠ loc := by
  obtain ⟨loc, node, writes, named, content⟩ := h.named
  obtain ⟨spare, apart, vacant⟩ := named.vacant_backup h.alone
  exact ⟨loc, node, spare, ⟨h.mode, writes, named, vacant⟩, content, apart⟩

/-! ## What each kind of stop leaves -/

section Left

variable {f : DataFile} {d : Disk} {loc spare : Location} {node : Nat}

/-- what the next opening reads, and what it finds in the backup before -/
structure Leaves (f : DataFile) (left : Disk) (backup : Option Bytes) (bytes : Bytes) : Prop where
  read : ((reread f.path).run.run left).1 = .ok bytes
  backup : left.bytesAt? (Path.backup f.path) = backup

theorem Ready.leaves_alone (h : f.Ready d loc node spare) : f.Leaves d none (d.content node) :=
  ⟨congrArg Prod.fst (reread_plain h.named h.vacant.isThere), h.vacant.bytesAt?⟩

theorem Ready.leaves_saved (h : f.Ready d loc node spare) (new : Bytes) :
    f.Leaves (d.saved node spare new) none new := by
  have entries : d.entries = (d.saved node spare new).entries := (Disk.entries_saved h.vacant.entry).symm
  have vacant := h.vacant.congr entries
  have read := reread_plain (h.named.congr entries) vacant.isThere
  rw [Disk.content_saved h.named.node_lt] at read
  exact ⟨congrArg Prod.fst read, vacant.bytesAt?⟩

/-- with the names of a save on its way, the opening reads what the backup has -/
theorem Ready.leaves_backup (h : f.Ready d loc node spare) (proper : Path.isBackup f.path = false) (left : Disk)
    (entries : left.entries = (d.addFile spare).entries) :
    f.Leaves left (some (left.content d.nodes.size)) (left.content d.nodes.size) := by
  have named := (h.named.addFile h.vacant.entry).congr entries.symm
  have backup := h.vacant.names_addFile.congr entries.symm
  exact ⟨reread_recovered named backup proper, backup.bytesAt?⟩

theorem Ready.leaves_copying (h : f.Ready d loc node spare) (proper : Path.isBackup f.path = false) (kept : Bytes) :
    f.Leaves (d.withFile spare kept) (some kept) kept := by
  have leaves := h.leaves_backup proper (d.withFile spare kept) rfl
  rwa [Disk.content_withFile_new] at leaves

theorem Ready.leaves_saving (h : f.Ready d loc node spare) (proper : Path.isBackup f.path = false) (bytes : Bytes) :
    f.Leaves (d.saving node spare bytes) (some (d.content node)) (d.content node) := by
  have apart : node ≠ d.nodes.size := Nat.ne_of_lt h.named.node_lt
  have leaves := h.leaves_backup proper (d.saving node spare bytes) rfl
  rwa [Disk.saving, Disk.content_setContent_ne apart, Disk.content_withFile_new] at leaves

end Left

/-! ## Atomic and not -/

section Stopped

variable {f : DataFile} {d : Disk} {old : Bytes}

/-- after a stop the next opening reads the old content or the new one where no backup is left, and else the backup -/
theorem Opened.leaves (h : f.Opened d old) {new : Bytes} {left : Disk} (stop : Stops (f.run (saveWrite new)) d left) :
    ∃ backup bytes, f.Leaves left backup bytes
      ∧ (backup = none ∧ (bytes = old ∨ bytes = new) ∨ backup = some bytes ∧ bytes <+: old) := by
  obtain ⟨loc, node, spare, ready, rfl, -⟩ := h.ready
  rcases (stops_saveWrite ready new).1 stop with rfl | ⟨n, rfl⟩ | ⟨n, rfl⟩ | rfl
  · exact ⟨_, _, ready.leaves_alone, .inl ⟨rfl, .inl rfl⟩⟩
  · exact ⟨_, _, ready.leaves_copying h.proper _, .inr ⟨rfl, List.take_prefix _ _⟩⟩
  · exact ⟨_, _, ready.leaves_saving h.proper _, .inr ⟨rfl, List.prefix_refl _⟩⟩
  · exact ⟨_, _, ready.leaves_saved new, .inl ⟨rfl, .inr rfl⟩⟩

/-- every first part of the old content can be what a stop leaves in the backup, with all of it still in the file -/
theorem Opened.leaves_prefix (h : f.Opened d old) (new : Bytes) {kept : Bytes} (first : kept <+: old) :
    ∃ left, Stops (f.run (saveWrite new)) d left ∧ f.Leaves left (some kept) kept
      ∧ left.bytesAt? f.path = some old := by
  obtain ⟨loc, node, spare, ready, rfl, -⟩ := h.ready
  have take : kept = (d.content node).take kept.length := List.prefix_iff_eq_take.1 first
  have named : (d.withFile spare kept).Names f.path loc node :=
    (ready.named.addFile ready.vacant.entry).congr rfl
  refine ⟨d.withFile spare kept, (stops_saveWrite ready new).2 (.inr (.inl ⟨kept.length, ?_⟩)),
    ready.leaves_copying h.proper kept, ?_⟩
  · rw [← take]
  · rw [named.bytesAt?, Disk.content_withFile ready.named.node_lt]

/-- all first parts of a content are it or another one only if it is empty, or one byte and the other one empty -/
theorem prefixes_trivial {old new : Bytes} :
    (∀ kept, kept <+: old → kept = old ∨ kept = new) ↔ old = [] ∨ old.length = 1 ∧ new = [] := by
  refine ⟨fun all => ?_, fun trivial kept first => ?_⟩
  · rcases old with _ | ⟨b, rest⟩
    · exact .inl rfl
    · have empty : new = [] := by
        rcases all [] (List.nil_prefix) with same | same
        · cases same
        · exact same.symm
      rcases all [b] ⟨rest, rfl⟩ with same | same
      · exact .inr ⟨by rw [← same]; rfl, empty⟩
      · rw [empty] at same
        cases same
  · rcases trivial with rfl | ⟨one, rfl⟩
    · exact .inl (List.prefix_nil.1 first)
    · rcases Nat.lt_or_ge kept.length old.length with shorter | whole
      · exact .inr (List.length_eq_zero_iff.1 (by omega))
      · exact .inl (first.eq_of_length_le whole)

theorem Opened.atomic_iff (h : f.Opened d old) (new : Bytes) :
    (∀ left bytes, Stops (f.run (saveWrite new)) d left → ((reread f.path).run.run left).1 = .ok bytes →
        bytes = old ∨ bytes = new)
      ↔ old = [] ∨ old.length = 1 ∧ new = [] := by
  rw [← prefixes_trivial]
  refine ⟨fun atomic kept first => ?_, fun trivial left bytes stop read => ?_⟩
  · obtain ⟨left, stop, leaves, -⟩ := h.leaves_prefix new first
    exact atomic left kept stop leaves.read
  · obtain ⟨backup, found, leaves, cases⟩ := h.leaves stop
    have same : bytes = found := by
      rw [leaves.read] at read
      cases read
      rfl
    rcases cases with ⟨-, either⟩ | ⟨-, first⟩
    · exact same ▸ either
    · exact same ▸ trivial found first

/-- **What a stopped save leaves**: the file can always be opened and read. Where no backup is left the old content or
the new one is read, and else what the backup has, a first part of the old content; so a stop is harmless exactly if
the backup that it leaves, if any, is all of the old content or happens to be the new one. Every first part can be
left. -/
theorem reread_stopped (h : f.Opened d old) (new : Bytes) :
    (∀ left, Stops (f.run (saveWrite new)) d left → ∃ bytes, ((reread f.path).run.run left).1 = .ok bytes
        ∧ (∀ kept, left.bytesAt? (Path.backup f.path) = some kept → bytes = kept ∧ kept <+: old)
        ∧ (bytes = old ∨ bytes = new ↔
            ∀ kept, left.bytesAt? (Path.backup f.path) = some kept → kept = old ∨ kept = new))
      ∧ (∀ kept, kept <+: old → ∃ left, Stops (f.run (saveWrite new)) d left
          ∧ left.bytesAt? f.path = some old ∧ left.bytesAt? (Path.backup f.path) = some kept)
      ∧ ((∀ left bytes, Stops (f.run (saveWrite new)) d left → ((reread f.path).run.run left).1 = .ok bytes →
            bytes = old ∨ bytes = new)
          ↔ old = [] ∨ old.length = 1 ∧ new = []) := by
  refine ⟨fun left stop => ?_, fun kept first => ?_, h.atomic_iff new⟩
  · obtain ⟨backup, bytes, leaves, cases⟩ := h.leaves stop
    refine ⟨bytes, leaves.read, ?_⟩
    rw [leaves.backup]
    rcases cases with ⟨rfl, either⟩ | ⟨rfl, first⟩
    · exact ⟨fun kept found => (nomatch found), fun _ kept found => (nomatch found), fun _ => either⟩
    · refine ⟨fun kept found => ?_, fun either kept found => ?_, fun harmless => harmless bytes rfl⟩
      · cases found
        exact ⟨rfl, first⟩
      · cases found
        exact either
  · obtain ⟨left, stop, leaves, whole⟩ := h.leaves_prefix new first
    exact ⟨left, stop, whole, leaves.backup⟩

end Stopped

/-- a file alone on a disk -/
theorem opened_alone (size : Nat) (bytes : Bytes) :
    (fresh "f" 0 size).Opened (({} : Disk).withFile ["f"] bytes) bytes := by
  have vacant : ({} : Disk).Vacant "f" ["f"] := ⟨rfl, rfl, by decide⟩
  have proper : Path.isBackup "f" = false := by decide
  have spare : ({} : Disk).Vacant "f.safe" ["f.safe"] := ⟨rfl, rfl, by decide⟩
  have alone : (({} : Disk).withFile ["f"] bytes).Vacant "f.safe" ["f.safe"] :=
    (spare.addFile vacant.entry (by decide)).congr rfl
  exact ⟨rfl, ⟨["f"], 0, rfl, vacant.names_addFile.congr rfl, Disk.content_withFile_new bytes⟩, proper, alone.isThere⟩

/-- a stop may leave the whole file and an empty backup, which the next opening trusts -/
theorem reread_stopped_empty :
    (fresh "f" 0 3).Opened (({} : Disk).withFile ["f"] [111, 108, 100]) [111, 108, 100]
      ∧ ∃ left,
          Stops ((fresh "f" 0 3).run (saveWrite [110, 101, 119])) (({} : Disk).withFile ["f"] [111, 108, 100]) left
        ∧ left.bytesAt? "f" = some [111, 108, 100] ∧ left.bytesAt? "f.safe" = some [] :=
  ⟨opened_alone 3 _, (reread_stopped (opened_alone 3 _) _).2.1 [] List.nil_prefix⟩

/-- **No promise can be made of all saves** that the next opening reads the old content or the new one. -/
theorem not_atomic :
    ¬ ∀ (f : DataFile) (d left : Disk) (old new : Bytes), f.Opened d old → Stops (f.run (saveWrite new)) d left →
        ∃ bytes, ((reread f.path).run.run left).1 = .ok bytes ∧ (bytes = old ∨ bytes = new) := by
  intro atomic
  have opened := opened_alone 3 [111, 108, 100]
  obtain ⟨left, stop, leaves, -⟩ := opened.leaves_prefix [110, 101, 119] List.nil_prefix
  obtain ⟨bytes, read, either⟩ := atomic _ _ left _ _ opened stop
  rw [leaves.read] at read
  cases read
  exact absurd either (by decide)

end DataFile
end TableStore
