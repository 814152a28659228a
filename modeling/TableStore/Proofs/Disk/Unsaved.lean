/-
Saves in which a call to the file system fails.

A save goes no further then and answers with the fault. Nothing in it puts the old content back: that is done by the
next opening only, and the open file is not opened again.

Results:
  breaks_saveWrite     the calls of a save, and what is left if one of them fails
  saveWrite_stumbled   what the open file reads after a failed save, by the call that failed; and the next save, which
                       takes that for the old content, leaves neither the old content nor a backup of it
  not_kept             no promise can be made that a failed save keeps the old content
-/
import TableStore.Proofs.Disk.Crash
import TableStore.Proofs.Disk.Stumbling

namespace TableStore.DataFile
open Program (Stumbles stumbles_perform perform)

section Save

variable {fault : Fault} {d : Disk} {f : DataFile} {node : Nat}

/-- what a save leaves if a call of it fails: the open file, and the disk. Past the copy there is a whole backup, and the
open file has lost its content, or has a first part of the new one, or all of it -/
inductive Unsaved (f : DataFile) (node m : Nat) (spare : Location) (new : Bytes) (d : Disk) :
    Call → DataFile → Disk → Prop where
  | uncopied {c : Call} {left : Disk} :
      Uncopied f.path (Path.backup f.path) m spare d c left → Unsaved f node m spare new d c f left
  | unemptied : Unsaved f node m spare new d (.empty f.handle) { f with size := 0 } (d.withFile spare (d.content m))
  | unmoved :
      Unsaved f node m spare new d (.rewind f.handle) { f with size := 0 }
        ((d.withFile spare (d.content m)).setContent node [])
  | unwritten {n : Nat} : n < new.length →
      Unsaved f node m spare new d (.write f.handle 0 new) { f with size := new.length, position := 0 }
        ((d.withFile spare (d.content m)).setContent node (new.take n))
  | unsynced :
      Unsaved f node m spare new d (.sync f.handle) (f.replaced new)
        ((d.withFile spare (d.content m)).setContent node new)
  | unremoved :
      Unsaved f node m spare new d (.remove (Path.backup f.path)) (f.replaced new)
        ((d.withFile spare (d.content m)).setContent node new)

/-- **The calls that a save may fail with, and what each failure leaves.** -/
theorem breaks_saveWrite {loc spare : Location} {m : Nat} (h : f.Holds node d) (named : d.Names f.path loc m)
    (vacant : d.Vacant (Path.backup f.path) spare) (new : Bytes) :
    BreaksWith fault (saveWrite new) f d (Unsaved f node m spare new d) := by
  have copied : (f.run (attempt (copy f.path (Path.backup f.path)))).run d
      = ((.ok (), f), d.withFile spare (d.content m)) := run_attempt_ok (run_copy named vacant)
  have lt : node < (d.withFile spare (d.content m)).nodes.size := by
    rw [Disk.size_withFile]
    exact Nat.lt_succ_of_lt h.node_lt
  have backup : ((d.withFile spare (d.content m)).setContent node new).Names (Path.backup f.path) spare d.nodes.size :=
    vacant.names_addFile.congr rfl
  have removing (d : Disk) : FailsWith fault (.mk (perform (.remove (Path.backup f.path)))) d fun c left =>
      c = .remove (Path.backup f.path) ∧ left = d := failsWith_of_stumbles fun _ _ => stumbles_perform
  have all : BreaksWith fault (saveWrite new) f d fun c g left =>
      (g = f ∧ Uncopied f.path (Path.backup f.path) m spare d c left)
        ∨ (g = { f with size := 0 } ∧ (c = .empty f.handle ∧ left = d.withFile spare (d.content m)
            ∨ c = .rewind f.handle ∧ left = (d.withFile spare (d.content m)).setContent node []))
        ∨ (g = { f with size := new.length, position := 0 } ∧ c = .write f.handle 0 new
            ∧ ∃ n < new.length, left = (d.withFile spare (d.content m)).setContent node (new.take n))
        ∨ (g = f.replaced new ∧ c = .sync f.handle ∧ left = (d.withFile spare (d.content m)).setContent node new)
        ∨ g = f.replaced new ∧ c = .remove (Path.backup f.path)
            ∧ left = (d.withFile spare (d.content m)).setContent node new := by
    rw [BreaksWith, run_saveWrite_eq h.mode]
    refine (fails_copy named vacant).attempt.bind copied ?_
    refine (breaks_clear h.writes).bind (run_clear h.writes) ?_
    refine (breaks_write_emptied h.writes lt new).bind (run_write_emptied h.writes lt new) ?_
    exact breaks_sync.bind run_sync ((removing _).attempt)
  refine all.congr fun c g left => ⟨fun failure => ?_, fun failure => ?_⟩
  · rcases failure with ⟨rfl, uncopied⟩ | ⟨rfl, ⟨rfl, rfl⟩ | ⟨rfl, rfl⟩⟩ | ⟨rfl, rfl, n, lt, rfl⟩ | ⟨rfl, rfl, rfl⟩
      | ⟨rfl, rfl, rfl⟩
    · exact .uncopied uncopied
    · exact .unemptied
    · exact .unmoved
    · exact .unwritten lt
    · exact .unsynced
    · exact .unremoved
  · cases failure with
    | uncopied uncopied => exact .inl ⟨rfl, uncopied⟩
    | unemptied => exact .inr (.inl ⟨rfl, .inl ⟨rfl, rfl⟩⟩)
    | unmoved => exact .inr (.inl ⟨rfl, .inr ⟨rfl, rfl⟩⟩)
    | unwritten lt => exact .inr (.inr (.inl ⟨rfl, rfl, _, lt, rfl⟩))
    | unsynced => exact .inr (.inr (.inr (.inl ⟨rfl, rfl, rfl⟩)))
    | unremoved => exact .inr (.inr (.inr (.inr ⟨rfl, rfl, rfl⟩)))

/-- without a file to be copied a save may fail with one call, and changes nothing -/
theorem breaks_saveWrite_unnamed (h : f.Holds node d) (unnamed : ∀ loc m, ¬ d.Names f.path loc m) (new : Bytes) :
    BreaksWith fault (saveWrite new) f d fun c g left => g = f ∧ c = .openAs f.path .read ∧ left = d := by
  rcases run_copy_cases f.path (Path.backup f.path) d with ⟨e, refused⟩ | ⟨loc, m, _, _, _, _, named, _⟩
  · have attempted : (f.run (attempt (copy f.path (Path.backup f.path)))).run d = ((.error e, f), d) := by
      rw [run_attempt, Program.run_map]
      exact congrArg (fun r => ((r.1, f), r.2)) refused
    rw [BreaksWith, run_saveWrite_eq h.mode]
    exact (fails_copy_unnamed unnamed).attempt.bind_error attempted _
  · exact absurd named (unnamed loc m)

end Save

/-! ## What the open file reads then -/

/-- the open file reads these bytes, wherever its position is -/
def Reads (f : DataFile) (d : Disk) (bytes : Bytes) : Prop :=
  ∀ position size, (outcome { f with position, size } readAll).run.run d = (.ok bytes, d)

/-- whatever is saved next through the open file is all that is left: neither what the file reads now nor a backup -/
def Overwrites (f : DataFile) (d : Disk) : Prop :=
  ∀ position size next, ∃ d', (outcome { f with position, size } (saveWrite next)).run.run d = (.ok (), d')
    ∧ f.Reads d' next ∧ d'.isThere (Path.backup f.path) = false

/-- what the open file has after a save in which a call failed: the old content as long as it was not emptied, and then
a first part of the new one, all of it once it was written -/
def Remains (f : DataFile) (old new : Bytes) : Call → Bytes → Prop
  | .rewind _, bytes => bytes = []
  | .write h _ _, bytes => if h = f.handle then bytes <+: new ∧ bytes ≠ new else bytes = old
  | .sync _, bytes | .remove _, bytes => bytes = new
  | _, bytes => bytes = old

section Reading

variable {fault : Fault} {d left : Disk} {f g : DataFile} {node m : Nat} {loc spare : Location} {new : Bytes} {c : Call}

theorem reads_of_writes (h : f.Writes node) : f.Reads d (d.content node) := by
  intro position size
  have entry : f.handle.entry = .file node := congrArg Handle.entry h
  exact run_outcome (run_readAll entry)

theorem Reads.eq {bytes bytes' : Bytes} (h : f.Reads d bytes) (h' : f.Reads d bytes') : bytes = bytes' := by
  have same := (h 0 0).symm.trans (h' 0 0)
  cases same
  rfl

theorem Uncopied.content (lt : node < d.nodes.size)
    (failure : Uncopied f.path (Path.backup f.path) m spare d c left) : left.content node = d.content node := by
  cases failure with
  | unopened => rfl
  | unmade => rfl
  | unread => exact Disk.content_addFile lt
  | unwritten => exact Disk.content_withFile lt _

/-- a failed copy leaves the old content to the open file, whose handle is not the one that the copy writes to -/
theorem Uncopied.remains (h : f.Holds node d) (failure : Uncopied f.path (Path.backup f.path) m spare d c left) :
    Remains f (d.content node) new c (left.content node) := by
  have same := failure.content h.node_lt
  cases failure with
  | unopened => exact same
  | unmade => exact same
  | unread => exact same
  | unwritten =>
    have apart : (⟨.file d.nodes.size, true⟩ : Handle) ≠ f.handle := by
      rw [h.writes]
      simpa using Nat.ne_of_gt h.node_lt
    exact (if_neg apart).mpr same

theorem Unsaved.remains (h : f.Holds node d) (failure : Unsaved f node m spare new d c g left) :
    Remains f (d.content node) new c (left.content node) := by
  have lt (kept : Bytes) : node < (d.withFile spare kept).nodes.size := by
    rw [Disk.size_withFile]
    exact Nat.lt_succ_of_lt h.node_lt
  cases failure with
  | uncopied failure => exact failure.remains h
  | unemptied => exact Disk.content_withFile h.node_lt _
  | unmoved => exact Disk.content_setContent (lt _) _
  | @unwritten n short =>
    have content := Disk.content_setContent (lt (d.content m)) (new.take n)
    refine (if_pos rfl).mpr ?_
    rw [content]
    refine ⟨List.take_prefix n new, fun whole => ?_⟩
    have length := congrArg List.length whole
    rw [List.length_take] at length
    omega
  | unsynced => exact Disk.content_setContent (lt _) _
  | unremoved => exact Disk.content_setContent (lt _) _

/-- a failure leaves the names as they were, or with that of the backup -/
theorem Unsaved.entries (failure : Unsaved f node m spare new d c g left) :
    left = d ∨ left.entries = (d.addFile spare).entries ∧ left.nodes.size = d.nodes.size + 1 := by
  have size (kept bytes : Bytes) : ((d.withFile spare kept).setContent node bytes).nodes.size = d.nodes.size + 1 :=
    Disk.size_setContent.trans (Disk.size_withFile kept)
  cases failure with
  | uncopied failure =>
    cases failure with
    | unopened => exact .inl rfl
    | unmade => exact .inl rfl
    | unread => exact .inr ⟨rfl, Disk.size_addFile⟩
    | unwritten => exact .inr ⟨rfl, Disk.size_withFile _⟩
  | unemptied => exact .inr ⟨rfl, Disk.size_withFile _⟩
  | unmoved => exact .inr ⟨rfl, size _ _⟩
  | unwritten => exact .inr ⟨rfl, size _ _⟩
  | unsynced => exact .inr ⟨rfl, size _ _⟩
  | unremoved => exact .inr ⟨rfl, size _ _⟩

/-- the old content is in the open file, or there is a backup of what was copied -/
theorem Unsaved.kept (h : f.Holds node d) (vacant : d.Vacant (Path.backup f.path) spare)
    (failure : Unsaved f node m spare new d c g left) :
    left.content node = d.content node ∨ left.bytesAt? (Path.backup f.path) = some (d.content m) := by
  have apart : node ≠ d.nodes.size := Nat.ne_of_lt h.node_lt
  have backup (bytes : Bytes) : ((d.withFile spare (d.content m)).setContent node bytes).bytesAt? (Path.backup f.path)
      = some (d.content m) := by
    have named : ((d.withFile spare (d.content m)).setContent node bytes).Names (Path.backup f.path) spare
        d.nodes.size := vacant.names_addFile.congr rfl
    rw [named.bytesAt?, Disk.content_setContent_ne apart, Disk.content_withFile_new]
  cases failure with
  | uncopied failure => exact .inl (failure.content h.node_lt)
  | unemptied => exact .inl (Disk.content_withFile h.node_lt _)
  | unmoved => exact .inr (backup _)
  | unwritten => exact .inr (backup _)
  | unsynced => exact .inr (backup _)
  | unremoved => exact .inr (backup _)

/-- the next save copies the file, whatever it has then, over a backup that the failed one left -/
theorem Unsaved.overwrites (h : f.Holds node d) (named : d.Names f.path loc m)
    (vacant : d.Vacant (Path.backup f.path) spare) (failure : Unsaved f node m spare new d c g left) :
    f.Overwrites left := by
  have ready : node < left.nodes.size ∧ left.Names f.path loc m
      ∧ ∃ k d₁, left.openForWriting (Path.backup f.path) = .ok (k, d₁) := by
    rcases failure.entries with rfl | ⟨entries, size⟩
    · exact ⟨h.node_lt, named, _, _, vacant.openForWriting⟩
    · have backup := vacant.names_addFile.congr entries.symm
      refine ⟨?_, (named.addFile vacant.entry).congr entries.symm, _, _, backup.openForWriting⟩
      rw [size]
      exact Nat.lt_succ_of_lt h.node_lt
  obtain ⟨lt, source, k, d₁, opened⟩ := ready
  intro position size next
  have holds : Holds { f with position, size } node left := ⟨h.mode, h.writes, lt⟩
  obtain ⟨d', saved, replaces⟩ := run_saveWrite_copied holds (run_copy_into source opened) next
  obtain ⟨spare', absent⟩ := replaces.vacant
  refine ⟨d', saved, ?_, absent.isThere⟩
  rw [← replaces.content]
  exact reads_of_writes h.writes

theorem Unsaved.same_file (failure : Unsaved f node m spare new d c g left) :
    ∃ position size, g = { f with position, size } := by
  cases failure <;> exact ⟨_, _, rfl⟩

end Reading

/-! ## Failed saves -/

section Stumbled

variable {fault : Fault} {d : Disk} {f : DataFile} {node : Nat} {new : Bytes} {c : Call}
  {out : (Except Fault Unit × DataFile) × Disk}

/-- what a save has done in which a call failed: it answers with the fault and leaves the same file open, which reads
what the failed call left it; of content that is lost there is a backup, but the next save makes another one -/
structure Stumbled (fault : Fault) (f : DataFile) (node : Nat) (d : Disk) (new : Bytes) (c : Call)
    (out : (Except Fault Unit × DataFile) × Disk) : Prop where
  answer : out.1.1 = .error fault
  same_file : ∃ position size, out.1.2 = { f with position, size }
  reads : ∃ bytes, f.Reads out.2 bytes ∧ Remains f (d.content node) new c bytes
  kept : f.Reads out.2 (d.content node)
    ∨ ∀ loc m, d.Names f.path loc m → out.2.bytesAt? (Path.backup f.path) = some (d.content m)
  overwrites : (∃ loc m, d.Names f.path loc m) → f.Overwrites out.2

/-- a save fails with a call of `Unsaved`, or with its first one where there is no file to be copied -/
theorem stumbles_saveWrite (h : f.Holds node d) (alone : d.isThere (Path.backup f.path) = false) :
    Stumbles fault c (f.run (saveWrite new)) d out ↔
      (∃ loc m spare g left, d.Names f.path loc m ∧ d.Vacant (Path.backup f.path) spare
          ∧ Unsaved f node m spare new d c g left ∧ out = ((.error fault, g), left))
        ∨ (∀ loc m, ¬ d.Names f.path loc m) ∧ c = .openAs f.path .read ∧ out = ((.error fault, f), d) := by
  by_cases there : ∃ loc m, d.Names f.path loc m
  · obtain ⟨loc, m, named⟩ := there
    obtain ⟨spare, -, vacant⟩ := named.vacant_backup alone
    refine (breaks_saveWrite h named vacant new c out).trans ⟨fun failure => ?_, fun failure => ?_⟩
    · obtain ⟨g, left, failure, same⟩ := failure
      exact .inl ⟨loc, m, spare, g, left, named, vacant, failure, same⟩
    · rcases failure with ⟨loc', m', spare', g, left, named', vacant', failure, same⟩ | ⟨unnamed, -⟩
      · cases named.lookup.symm.trans named'.lookup
        cases vacant.located.symm.trans vacant'.located
        exact ⟨g, left, failure, same⟩
      · exact absurd named (unnamed loc m)
  · have unnamed : ∀ loc m, ¬ d.Names f.path loc m := fun loc m named => there ⟨loc, m, named⟩
    refine (breaks_saveWrite_unnamed h unnamed new c out).trans ⟨fun failure => ?_, fun failure => ?_⟩
    · obtain ⟨_, _, ⟨rfl, first, rfl⟩, same⟩ := failure
      exact .inr ⟨unnamed, first, same⟩
    · rcases failure with ⟨loc, m, _, _, _, named, -⟩ | ⟨-, first, same⟩
      · exact absurd named (unnamed loc m)
      · exact ⟨_, _, ⟨rfl, first, rfl⟩, same⟩

theorem stumbled_of_stumbles (h : f.Holds node d) (alone : d.isThere (Path.backup f.path) = false)
    (stumble : Stumbles fault c (f.run (saveWrite new)) d out) : Stumbled fault f node d new c out := by
  rcases (stumbles_saveWrite h alone).1 stumble with
    ⟨loc, m, spare, g, left, named, vacant, failure, rfl⟩ | ⟨unnamed, rfl, rfl⟩
  · refine ⟨rfl, failure.same_file, ⟨_, reads_of_writes h.writes, failure.remains h⟩, ?_, fun _ => ?_⟩
    · rcases failure.kept h vacant with same | backup
      · rw [← same]
        exact .inl (reads_of_writes h.writes)
      · refine .inr fun loc' m' named' => ?_
        cases named.lookup.symm.trans named'.lookup
        exact backup
    · exact failure.overwrites h named vacant
  · have old : f.Reads d (d.content node) := reads_of_writes h.writes
    refine ⟨rfl, ⟨f.position, f.size, rfl⟩, ⟨_, old, rfl⟩, .inl old, fun ⟨loc, m, named⟩ => ?_⟩
    exact absurd named (unnamed loc m)

/-- after a failure the open file has the old content or a first part of the new one -/
theorem Remains.cases {old bytes : Bytes} (h : Remains f old new c bytes) : bytes = old ∨ bytes <+: new := by
  cases c with
  | rewind => exact .inr (h ▸ List.nil_prefix)
  | sync => exact .inr (h ▸ List.prefix_refl new)
  | remove => exact .inr (h ▸ List.prefix_refl new)
  | write target =>
    rw [Remains] at h
    split at h
    · exact .inr h.1
    · exact .inl h
  | exists_ => exact .inl h
  | openAs => exact .inl h
  | length => exact .inl h
  | read => exact .inl h
  | empty => exact .inl h

/-- what the open file may read after a failure: the old content, and if it can be saved every first part of the new -/
theorem reads_stumbled_iff (h : f.Holds node d) (alone : d.isThere (Path.backup f.path) = false) (fault : Fault)
    (new bytes : Bytes) :
    (∃ c out, Stumbles fault c (f.run (saveWrite new)) d out ∧ f.Reads out.2 bytes)
      ↔ bytes = d.content node ∨ bytes <+: new ∧ ∃ loc m, d.Names f.path loc m := by
  have old : f.Reads d (d.content node) := reads_of_writes h.writes
  refine ⟨fun ⟨c, out, stumble, reads⟩ => ?_, fun either => ?_⟩
  · rcases (stumbles_saveWrite h alone).1 stumble with
      ⟨loc, m, spare, g, left, named, vacant, failure, rfl⟩ | ⟨-, -, rfl⟩
    · rw [reads.eq (reads_of_writes h.writes)]
      exact (failure.remains h).cases.imp_right fun first => ⟨first, loc, m, named⟩
    · exact .inl (reads.eq old)
  · by_cases there : ∃ loc m, d.Names f.path loc m
    · obtain ⟨loc, m, named⟩ := there
      obtain ⟨spare, -, vacant⟩ := named.vacant_backup alone
      have fails {c : Call} {g : DataFile} {left : Disk} (failure : Unsaved f node m spare new d c g left) :
          Stumbles fault c (f.run (saveWrite new)) d ((.error fault, g), left) :=
        (breaks_saveWrite h named vacant new c _).2 ⟨g, left, failure, rfl⟩
      have lt : node < (d.withFile spare (d.content m)).nodes.size := by
        rw [Disk.size_withFile]
        exact Nat.lt_succ_of_lt h.node_lt
      rcases either with rfl | ⟨first, -⟩
      · exact ⟨_, _, fails (.uncopied .unopened), old⟩
      · have take : bytes = new.take bytes.length := List.prefix_iff_eq_take.1 first
        have reads (part : Bytes) : f.Reads ((d.withFile spare (d.content m)).setContent node part) part := by
          have all := reads_of_writes (d := (d.withFile spare (d.content m)).setContent node part) h.writes
          rwa [Disk.content_setContent lt] at all
        rcases Nat.lt_or_ge bytes.length new.length with short | whole
        · refine ⟨_, _, fails (.unwritten short), ?_⟩
          rw [← take]
          exact reads bytes
        · have same : bytes = new := first.eq_of_length_le whole
          exact ⟨_, _, fails .unsynced, same ▸ reads new⟩
    · have unnamed : ∀ loc m, ¬ d.Names f.path loc m := fun loc m named => there ⟨loc, m, named⟩
      rcases either with rfl | ⟨-, named⟩
      · exact ⟨_, _, (stumbles_saveWrite h alone).2 (.inr ⟨unnamed, rfl, rfl⟩), old⟩
      · exact absurd named there

/-- **What a failed save leaves to the file that stays open.** It answers with the fault of the call. The file reads the
old content if the call came before the file was emptied, and a first part of the new content if it came later; every
first part can be what it reads, so it always reads the old content only if there was nothing to be copied or all was
empty. What it lost is in the backup, until the next save replaces that by what the file reads now. -/
theorem saveWrite_stumbled (h : f.Holds node d) (alone : d.isThere (Path.backup f.path) = false) (fault : Fault)
    (new : Bytes) :
    (∀ c out, Stumbles fault c (f.run (saveWrite new)) d out → Stumbled fault f node d new c out)
      ∧ (∀ bytes, (∃ c out, Stumbles fault c (f.run (saveWrite new)) d out ∧ f.Reads out.2 bytes)
          ↔ bytes = d.content node ∨ bytes <+: new ∧ ∃ loc m, d.Names f.path loc m)
      ∧ ((∀ c out, Stumbles fault c (f.run (saveWrite new)) d out → f.Reads out.2 (d.content node))
          ↔ (∀ loc m, ¬ d.Names f.path loc m) ∨ d.content node = [] ∧ new = []) := by
  refine ⟨fun c out => stumbled_of_stumbles h alone, reads_stumbled_iff h alone fault new, fun always => ?_,
    fun trivial c out stumble => ?_⟩
  · have old (bytes : Bytes) (first : bytes <+: new) (named : ∃ loc m, d.Names f.path loc m) :
        bytes = d.content node := by
      obtain ⟨c, out, stumble, reads⟩ := (reads_stumbled_iff h alone fault new bytes).2 (.inr ⟨first, named⟩)
      exact reads.eq (always c out stumble)
    by_cases there : ∃ loc m, d.Names f.path loc m
    · have empty := old [] List.nil_prefix there
      have whole := old new (List.prefix_refl new) there
      exact .inr ⟨empty.symm, whole.trans empty.symm⟩
    · exact .inl fun loc m named => there ⟨loc, m, named⟩
  · obtain ⟨bytes, reads, -⟩ := (stumbled_of_stumbles h alone stumble).reads
    have either := (reads_stumbled_iff h alone fault new bytes).1 ⟨c, out, stumble, reads⟩
    have same : bytes = d.content node := by
      rcases either with same | ⟨first, loc, m, named⟩
      · exact same
      · rcases trivial with unnamed | ⟨empty, nothing⟩
        · exact absurd named (unnamed loc m)
        · rw [empty]
          exact List.prefix_nil.1 (nothing ▸ first)
    exact same ▸ reads

end Stumbled

/-- a file alone on a disk is open and named, and has no backup -/
theorem holds_alone (size : Nat) (bytes : Bytes) :
    (fresh "f" 0 size).Holds 0 (({} : Disk).withFile ["f"] bytes) ∧ (({} : Disk).withFile ["f"] bytes).Names "f" ["f"] 0 := by
  have vacant : ({} : Disk).Vacant "f" ["f"] := ⟨rfl, rfl, by decide⟩
  have named : (({} : Disk).withFile ["f"] bytes).Names "f" ["f"] 0 := vacant.names_addFile.congr rfl
  exact ⟨⟨rfl, rfl, named.node_lt⟩, named⟩

/-- a write may fail after its first byte, and the file reads that byte then -/
theorem saveWrite_stumbled_byte :
    (fresh "f" 0 3).Holds 0 (({} : Disk).withFile ["f"] [111, 108, 100])
      ∧ (({} : Disk).withFile ["f"] [111, 108, 100]).isThere "f.safe" = false
      ∧ ∃ c out, Stumbles (.system .badHandle) c ((fresh "f" 0 3).run (saveWrite [110, 101, 119]))
            (({} : Disk).withFile ["f"] [111, 108, 100]) out
          ∧ (fresh "f" 0 3).Reads out.2 [110] := by
  obtain ⟨holds, named⟩ := holds_alone 3 [111, 108, 100]
  have alone := (opened_alone 3 [111, 108, 100]).alone
  have first : ([110] : Bytes) <+: [110, 101, 119] := ⟨[101, 119], rfl⟩
  exact ⟨holds, alone, ((saveWrite_stumbled holds alone _ [110, 101, 119]).2.1 [110]).2 (.inr ⟨first, _, _, named⟩)⟩

/-- **No promise can be made that a failed save keeps the old content** for the file that stays open. -/
theorem not_kept :
    ¬ ∀ (f : DataFile) (node : Nat) (d : Disk) (fault : Fault) (new : Bytes) (c : Call)
        (out : (Except Fault Unit × DataFile) × Disk),
      f.Holds node d → d.isThere (Path.backup f.path) = false → Stumbles fault c (f.run (saveWrite new)) d out →
        f.Reads out.2 (d.content node) := by
  intro kept
  obtain ⟨holds, named⟩ := holds_alone 3 [111, 108, 100]
  have alone := (opened_alone 3 [111, 108, 100]).alone
  have empty : ([] : Bytes) <+: [110, 101, 119] := List.nil_prefix
  obtain ⟨c, out, stumble, reads⟩ :=
    (reads_stumbled_iff holds alone (.system .badHandle) [110, 101, 119] []).2 (.inr ⟨empty, _, _, named⟩)
  have lost : [] = (({} : Disk).withFile ["f"] [111, 108, 100]).content 0 :=
    reads.eq (kept _ _ _ _ _ c out holds alone stumble)
  have whole : (({} : Disk).withFile ["f"] [111, 108, 100]).content 0 = [111, 108, 100] :=
    Disk.content_withFile_new _
  rw [whole] at lost
  cases lost

end TableStore.DataFile
