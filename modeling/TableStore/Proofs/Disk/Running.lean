/-
Running programs on open files, and stopping them.

A program that is a sequence runs its first part and then the second on the file and the disk that the first one
leaves, and a stop of it is a stop of either part (`Program.stops_bind`). So the runs and the stops of a long program
follow from those of its calls. Of each small operation on a file there is one lemma on its run and one on its stops;
only a write can be torn, and what is then written is any first part of the bytes (`stops_write`).
-/
import TableStore.Disk.DataFile
import TableStore.Proofs.Disk.Siblings

namespace TableStore

namespace Program

variable {α β : Type} {d left : Disk}

theorem stops_pure (a : α) : Stops (pure a) d left ↔ left = d := by
  refine ⟨fun h => ?_, fun h => h ▸ .between _ _⟩
  cases h
  rfl

theorem stops_call {c : Call} {next : c.Reply → Program α} :
    Stops (.call c next) d left ↔ left = d ∨ torn c d left ∨ Stops (next (c.exec d).1) (c.exec d).2 left := by
  refine ⟨fun h => ?_, fun h => ?_⟩
  · cases h with
    | between => exact .inl rfl
    | inside h => exact .inr (.inl h)
    | later h => exact .inr (.inr h)
  · rcases h with rfl | h | h
    · exact .between _ _
    · exact .inside h
    · exact .later h

/-- a stop of a sequence is one of its first part or one of its second part -/
theorem stops_bind {p : Program α} {f : α → Program β} :
    Stops (p >>= f) d left ↔ Stops p d left ∨ Stops (f (p.run d).1) (p.run d).2 left := by
  induction p generalizing d with
  | done a =>
    have same : Stops (done a) d left ↔ left = d := stops_pure a
    refine ⟨.inr, fun h => ?_⟩
    rcases h with h | h
    · rw [same.1 h]
      exact .between _ _
    · exact h
  | call c next ih =>
    have step : Stops (call c next >>= f) d left
        ↔ left = d ∨ torn c d left ∨ Stops (next (c.exec d).1 >>= f) (c.exec d).2 left := stops_call
    rw [step, stops_call, ih, or_assoc, or_assoc]
    rfl

/-- a program may stop at its very end -/
theorem stops_end (p : Program α) (d : Disk) : Stops p d (p.run d).2 := by
  have all : Stops (p >>= pure) d (p.run d).2 := stops_bind.2 (.inr (.between _ _))
  rwa [bind_pure] at all

theorem stops_map {p : Program α} {f : α → β} : Stops (f <$> p) d left ↔ Stops p d left := by
  rw [map_eq_pure_bind, stops_bind, stops_pure]
  refine ⟨fun h => ?_, .inl⟩
  rcases h with h | h
  · exact h
  · exact h ▸ stops_end p d

/-- a call that cannot be torn is done or not -/
theorem stops_whole {c : Call} {next : c.Reply → Program α} (whole : ∀ left, torn c d left → left = d) :
    Stops (.call c next) d left ↔ left = d ∨ Stops (next (c.exec d).1) (c.exec d).2 left := by
  rw [stops_call]
  refine ⟨fun stop => ?_, fun stop => ?_⟩
  · rcases stop with same | inside | later
    · exact .inl same
    · exact .inl (whole left inside)
    · exact .inr later
  · exact stop.imp_right .inr

/-- a call that changes nothing is passed -/
theorem stops_still {c : Call} {next : c.Reply → Program α} (whole : ∀ left, torn c d left → left = d)
    (still : (c.exec d).2 = d) : Stops (.call c next) d left ↔ Stops (next (c.exec d).1) d left := by
  rw [stops_whole whole, still]
  refine ⟨fun stop => ?_, .inr⟩
  rcases stop with same | later
  · exact same ▸ .between _ _
  · exact later

theorem stops_perform {c : Call} (whole : ∀ left, torn c d left → left = d) :
    Stops (perform c) d left ↔ left = d ∨ left = (c.exec d).2 :=
  (stops_whole whole).trans (or_congr_right (stops_pure _))

theorem run_map (p : Program α) (f : α → β) (d : Disk) : (f <$> p).run d = (f (p.run d).1, (p.run d).2) := by
  rw [map_eq_pure_bind, run_bind]
  rfl

end Program

namespace DataFile
open Program (Stops perform)

/-! ## Sequences of operations on a file -/

section Sequence

variable {α β : Type} {d left : Disk} {f : DataFile}

theorem run_bind (x : FileM α) (g : α → FileM β) :
    f.run (x >>= g) = f.run x >>= fun
      | (.ok a, f) => f.run (g a)
      | (.error e, f) => pure (.error e, f) := by
  show Program.bind _ _ = Program.bind _ _
  refine congrArg _ (funext fun r => ?_)
  obtain ⟨r, f⟩ := r
  cases r <;> rfl

theorem run_get (g : DataFile → FileM β) : f.run (get >>= g) = f.run (g f) := rfl

theorem run_attempt (p : Program (Except Fault α)) : f.run (attempt p) = (·, f) <$> p := by
  show Program.bind _ _ = Program.bind _ _
  rfl

variable {x : FileM α} {a : α} {f' : DataFile} {d' : Disk}

theorem run_bind_ok (h : (f.run x).run d = ((.ok a, f'), d')) (g : α → FileM β) :
    (f.run (x >>= g)).run d = (f'.run (g a)).run d' := by
  rw [run_bind, Program.run_bind, h]

theorem stops_bind_ok (h : (f.run x).run d = ((.ok a, f'), d')) (g : α → FileM β) :
    Stops (f.run (x >>= g)) d left ↔ Stops (f.run x) d left ∨ Stops (f'.run (g a)) d' left := by
  rw [run_bind, Program.stops_bind, h]

theorem run_attempt_ok {p : Program (Except Fault α)} (h : p.run d = (.ok a, d')) :
    (f.run (attempt p)).run d = ((.ok a, f), d') := by
  rw [run_attempt, Program.run_map, h]

theorem run_bind_error {e : Fault} (h : (f.run x).run d = ((.error e, f'), d')) (g : α → FileM β) :
    (f.run (x >>= g)).run d = ((.error e, f'), d') := by
  rw [run_bind, Program.run_bind, h]
  rfl

/-- a sequence that did not fail is a first part that did not and a second one that did not -/
theorem parts_of_run_bind {g : α → FileM β} {b : β} {f'' : DataFile} {d'' : Disk}
    (h : (f.run (x >>= g)).run d = ((.ok b, f''), d'')) :
    ∃ a f' d', (f.run x).run d = ((.ok a, f'), d') ∧ (f'.run (g a)).run d' = ((.ok b, f''), d'') := by
  rcases first : (f.run x).run d with ⟨⟨e | a, f'⟩, d'⟩
  · rw [run_bind_error first] at h
    cases h
  · rw [run_bind_ok first] at h
    exact ⟨a, f', d', rfl, h⟩

theorem run_attempt_error {p : Program (Except Fault α)} {e : Fault} (h : p.run d = (.error e, d')) :
    (f.run (attempt p)).run d = ((.error e, f), d') := by
  rw [run_attempt, Program.run_map, h]

theorem run_liftFile {p : Program α} (h : p.run d = (a, d')) :
    (f.run (liftM p : FileM α)).run d = ((.ok a, f), d') := by
  show (((fun r => (r, f)) <$> p) >>= fun (r : α × DataFile) => pure (Except.ok r.1, r.2)).run d = _
  rw [Program.run_bind, Program.run_map, h]
  rfl

theorem stops_attempt (p : Program (Except Fault α)) : Stops (f.run (attempt p)) d left ↔ Stops p d left := by
  rw [run_attempt, Program.stops_map]

end Sequence

/-! ## Sequences of programs that may fail -/

section Failing

variable {ε α β : Type} {d d' left : Disk} {x : ExceptT ε Program α} {a : α}

theorem run_then (h : x.run.run d = (.ok a, d')) (g : α → ExceptT ε Program β) :
    (x >>= g).run.run d = (g a).run.run d' := by
  rw [ExceptT.run_bind, Program.run_bind, h]

theorem run_then_error {e : ε} (h : x.run.run d = (.error e, d')) (g : α → ExceptT ε Program β) :
    (x >>= g).run.run d = (.error e, d') := by
  rw [ExceptT.run_bind, Program.run_bind, h]
  rfl

theorem stops_then (h : x.run.run d = (.ok a, d')) (g : α → ExceptT ε Program β) :
    Stops (x >>= g).run d left ↔ Stops x.run d left ∨ Stops (g a).run d' left := by
  rw [ExceptT.run_bind, Program.stops_bind, h]

/-- a program that cannot fail, among those that can -/
theorem run_lift {p : Program α} (h : p.run d = (a, d')) :
    (liftM p : ExceptT ε Program α).run.run d = (.ok a, d') := by
  show (Except.ok <$> p).run d = _
  rw [Program.run_map, h]

end Failing

/-! ## Operations on a file that can be written -/

section Operations

variable {d left : Disk} {f : DataFile} {node : Nat}

/-- a file is open to be written -/
def Writes (f : DataFile) (node : Nat) : Prop := f.handle = ⟨.file node, true⟩

/-- the file once it is emptied -/
def emptied (f : DataFile) : DataFile := { f with size := 0, position := 0 }

theorem run_clear (h : f.Writes node) :
    (f.run clear).run d = ((.ok (), f.emptied), d.setContent node []) := by
  obtain ⟨path, mode, handle, position, size⟩ := f
  cases h
  rfl

theorem stops_clear (h : f.Writes node) : Stops (f.run clear) d left ↔ left = d ∨ left = d.setContent node [] := by
  obtain ⟨path, mode, handle, position, size⟩ := f
  cases h
  refine (Program.stops_whole (c := .empty _) fun _ same => same).trans (or_congr_right ?_)
  refine (Program.stops_still (c := .rewind _) (fun _ same => same) rfl).trans ?_
  exact Program.stops_pure _

theorem overwrite_nil (old : Bytes) (place : Nat) : Disk.overwrite old place [] = old := rfl

theorem overwrite_of_nil (bytes : Bytes) : Disk.overwrite [] 0 bytes = bytes := by
  cases bytes <;> simp [Disk.overwrite]

/-- a write puts its bytes at the position and moves it behind them -/
theorem run_write (h : f.Writes node) (bytes : Bytes) :
    (f.run (write bytes)).run d
      = ((.ok (), { f with size := f.size + bytes.length, position := f.position + bytes.length }),
          d.setContent node (Disk.overwrite (d.content node) f.position bytes)) := by
  obtain ⟨path, mode, handle, position, size⟩ := f
  cases h
  cases bytes with
  | nil =>
    rw [overwrite_nil, Disk.setContent_content]
    rfl
  | cons b rest => rfl

/-- of a write that is stopped the first bytes are there, or none, or all -/
theorem stops_write (h : f.Writes node) (bytes : Bytes) :
    Stops (f.run (write bytes)) d left
      ↔ ∃ n, left = d.setContent node (Disk.overwrite (d.content node) f.position (bytes.take n)) := by
  obtain ⟨path, mode, handle, position, size⟩ := f
  cases h
  have none : d.setContent node (Disk.overwrite (d.content node) position (bytes.take 0)) = d := by
    rw [List.take_zero, overwrite_nil, Disk.setContent_content]
  cases bytes with
  | nil =>
    simp only [List.take_nil, overwrite_nil, Disk.setContent_content, exists_const]
    exact Program.stops_pure _
  | cons b rest =>
    refine (Program.stops_call (c := .write _ _ _)).trans ⟨fun stop => ?_, fun stop => ?_⟩
    · rcases stop with same | inside | later
      · exact ⟨0, same.trans none.symm⟩
      · exact inside
      · exact ⟨(b :: rest).length, by rw [List.take_length]; exact (Program.stops_pure _).1 later⟩
    · exact .inr (.inl stop)

/-- the file once its content is replaced: its position is behind the new content, and it counts the new bytes -/
def replaced (f : DataFile) (bytes : Bytes) : DataFile := { f with size := bytes.length, position := bytes.length }

theorem setContent_emptied (size : node < d.nodes.size) (bytes : Bytes) :
    (d.setContent node []).setContent node (Disk.overwrite ((d.setContent node []).content node) 0 bytes)
      = d.setContent node bytes := by
  rw [Disk.content_setContent size, overwrite_of_nil, Disk.setContent_setContent]

/-- what is written into an emptied file is its content then -/
theorem run_write_emptied (h : f.Writes node) (size : node < d.nodes.size) (bytes : Bytes) :
    (f.emptied.run (write bytes)).run (d.setContent node [])
      = ((.ok (), f.replaced bytes), d.setContent node bytes) := by
  have writes : f.emptied.Writes node := h
  rw [run_write writes]
  refine Prod.ext (Prod.ext rfl ?_) (setContent_emptied size bytes)
  simp [emptied, replaced]

theorem stops_write_emptied (h : f.Writes node) (size : node < d.nodes.size) (bytes : Bytes) :
    Stops (f.emptied.run (write bytes)) (d.setContent node []) left
      ↔ ∃ n, left = d.setContent node (bytes.take n) := by
  have writes : f.emptied.Writes node := h
  rw [stops_write writes]
  exact exists_congr fun n => Eq.congr_right (setContent_emptied size (bytes.take n))

theorem run_sync : (f.run sync).run d = ((.ok (), f), d) := rfl

theorem stops_sync : Stops (f.run sync) d left ↔ left = d :=
  (Program.stops_still (c := .sync _) (fun _ same => same) rfl).trans (Program.stops_pure _)

end Operations

/-! ## Opening, copying and removing -/

section Files

variable {d left : Disk} {path : String} {loc : Location} {node : Nat}

theorem exec_openRead_ok {entry : Entry} (h : d.lookup path = .ok (loc, entry)) :
    (Call.openAs path .read).exec d = (.ok ⟨entry, false⟩, d) := by
  simp only [Call.exec, Call.execOpen, h]
  rfl

theorem exec_openRead (h : d.Names path loc node) :
    (Call.openAs path .read).exec d = (.ok ⟨.file node, false⟩, d) :=
  exec_openRead_ok h.lookup

theorem exec_openUpdate_ok {d' : Disk} (h : d.openForWriting path = .ok (node, d')) :
    (Call.openAs path .update).exec d = (.ok ⟨.file node, true⟩, d') := by
  simp only [Call.exec, Call.execOpen, h]
  rfl

theorem exec_openUpdate_error {fault : Fault} (h : d.openForWriting path = .error fault) :
    (Call.openAs path .update).exec d = (.error fault, d) := by
  simp only [Call.exec, Call.execOpen, h]
  rfl

theorem exec_openUpdate (h : d.Names path loc node) :
    (Call.openAs path .update).exec d = (.ok ⟨.file node, true⟩, d) := exec_openUpdate_ok h.openForWriting

theorem exec_openReplace_ok {d' : Disk} (h : d.openForWriting path = .ok (node, d')) :
    (Call.openAs path .replace).exec d = (.ok ⟨.file node, true⟩, d'.setContent node []) := by
  simp only [Call.exec, Call.execOpen, h]
  rfl

theorem exec_openReplace (h : d.Vacant path loc) :
    (Call.openAs path .replace).exec d = (.ok ⟨.file d.nodes.size, true⟩, d.addFile loc) := by
  rw [exec_openReplace_ok h.openForWriting]
  exact congrArg _ Disk.withFile_nil

theorem exec_remove (h : d.Names path loc node) : (Call.remove path).exec d = (.ok (), d.erase loc) := by
  simp only [Call.exec, Call.execRemove, Disk.removeFile, h.lookup]
  rfl

theorem exec_readOld {spare : Location} (h : node < d.nodes.size) :
    (Call.read ⟨.file node, false⟩ 0).exec (d.addFile spare) = (.ok (d.content node), d.addFile spare) := by
  rw [← Disk.content_addFile h]
  rfl

theorem exec_writeNew {spare : Location} (bytes : Bytes) :
    (Call.write ⟨.file d.nodes.size, true⟩ 0 bytes).exec (d.addFile spare) = (.ok (), d.withFile spare bytes) := by
  show (_, (d.addFile spare).setContent d.nodes.size
    (Disk.overwrite ((d.addFile spare).content d.nodes.size) 0 bytes)) = _
  rw [Disk.content_addFile_new, overwrite_of_nil]
  rfl

/-- a write into a new file, or the absence of one where there are no bytes, leaves the first bytes if it is stopped -/
theorem stops_writeNew {spare : Location} (bytes : Bytes) :
    Stops (if bytes.isEmpty then pure () else ExceptT.mk (perform (.write ⟨.file d.nodes.size, true⟩ 0 bytes))).run
        (d.addFile spare) left
      ↔ ∃ n, left = d.withFile spare (bytes.take n) := by
  cases bytes with
  | nil =>
    simp only [List.take_nil, Disk.withFile_nil, exists_const]
    exact Program.stops_pure _
  | cons b rest =>
    refine (Program.stops_call (c := .write _ _ _)).trans ⟨fun stop => ?_, fun stop => ?_⟩
    · rcases stop with same | ⟨n, torn⟩ | later
      · exact ⟨0, same.trans Disk.withFile_nil.symm⟩
      · rw [exec_writeNew] at torn
        exact ⟨n, torn⟩
      · rw [exec_writeNew] at later
        exact ⟨(b :: rest).length, by rw [List.take_length]; exact (Program.stops_pure _).1 later⟩
    · obtain ⟨n, torn⟩ := stop
      refine .inr (.inl ⟨n, ?_⟩)
      rw [exec_writeNew]
      exact torn

/-- a copy makes a new file with the bytes of the old one -/
theorem run_copy {source target : String} {spare : Location} (old : d.Names source loc node)
    (new : d.Vacant target spare) :
    (copy source target).run.run d = (.ok (), d.withFile spare (d.content node)) := by
  rw [copy, run_then (x := .mk (perform (.openAs source .read))) (exec_openRead old), if_neg (by simp),
    run_then (x := .mk (perform (.openAs target .replace))) (exec_openReplace new),
    run_then (x := .mk (perform (.read ⟨.file node, false⟩ 0))) (exec_readOld old.node_lt)]
  rcases d.content node with _ | ⟨b, rest⟩
  · exact congrArg _ Disk.withFile_nil.symm
  · exact exec_writeNew (b :: rest)

/-- of a copy that is stopped there is no new file, or one with the first bytes of the old one -/
theorem stops_copy {source target : String} {spare : Location} (old : d.Names source loc node)
    (new : d.Vacant target spare) :
    Stops (copy source target).run d left ↔ left = d ∨ ∃ n, left = d.withFile spare ((d.content node).take n) := by
  have opening : Stops (perform (.openAs source .read)) d left ↔ left = d := by
    rw [Program.stops_perform (c := .openAs source .read) fun _ same => same, exec_openRead old, or_self]
  have making : Stops (perform (.openAs target .replace)) d left ↔ left = d ∨ left = d.addFile spare := by
    rw [Program.stops_perform (c := .openAs target .replace) fun _ same => same, exec_openReplace new]
  have reading : Stops (perform (.read ⟨.file node, false⟩ 0)) (d.addFile spare) left ↔ left = d.addFile spare := by
    rw [Program.stops_perform (c := .read _ _) fun _ same => same, exec_readOld old.node_lt, or_self]
  rw [copy, stops_then (x := .mk (perform (.openAs source .read))) (exec_openRead old), if_neg (by simp),
    stops_then (x := .mk (perform (.openAs target .replace))) (exec_openReplace new),
    stops_then (x := .mk (perform (.read ⟨.file node, false⟩ 0))) (exec_readOld old.node_lt)]
  simp only [ExceptT.run_mk, opening, making, reading, stops_writeNew]
  refine ⟨fun stop => ?_, fun stop => ?_⟩
  · rcases stop with same | (same | made) | made | copying
    · exact .inl same
    · exact .inl same
    · exact .inr ⟨0, made.trans Disk.withFile_nil.symm⟩
    · exact .inr ⟨0, made.trans Disk.withFile_nil.symm⟩
    · exact .inr copying
  · rcases stop with same | copying
    · exact .inl same
    · exact .inr (.inr (.inr copying))

end Files


end DataFile
end TableStore
