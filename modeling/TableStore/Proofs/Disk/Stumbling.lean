/-
Programs in which a call to the file system fails.

A program that goes on after a failed call is something else than one that ends there: it answers, and whoever holds the
open file uses it again. `Program.Stumbles` says what a program answers and leaves if one of its calls fails, with the
part of its work that the call may have done. A sequence stumbles in its first part or in its second one
(`Program.stumbles_bind`). The operations on a data file go no further once a call has failed and answer with its fault,
so their failures can be listed, call by call: `FailsWith` and `BreaksWith` say of a list that it is all of them, and of
each operation there is one lemma.
-/
import TableStore.Proofs.Disk.Replacing

namespace TableStore

/-! ## Calls that fail -/

namespace Call

/-- the answer of a call that fails -/
def refusal (fault : Fault) : (c : Call) → c.Reply
  | .exists_ _ => false
  | .openAs _ _ | .length _ | .read _ _ | .rewind _ | .write _ _ _ | .empty _ | .sync _ | .remove _ => .error fault

/-- what a call leaves that fails: of a write there may be some bytes, but not all of them, of any other call nothing -/
def Falters : Call → Disk → Disk → Prop
  | .write h place bytes, d, left => ∃ n < bytes.length, left = ((Call.write h place (bytes.take n)).exec d).2
  | _, d, left => left = d

end Call

namespace Program

/-- a call of a program fails, and it is the only one: what the program answers, and the disk that it leaves -/
inductive Stumbles {α : Type} (fault : Fault) : Call → Program α → Disk → α × Disk → Prop where
  | here {c : Call} {next : c.Reply → Program α} {d left : Disk} :
      c.Falters d left → Stumbles fault c (.call c next) d ((next (c.refusal fault)).run left)
  | later {c c' : Call} {next : c'.Reply → Program α} {d : Disk} {out : α × Disk} :
      Stumbles fault c (next (c'.exec d).1) (c'.exec d).2 out → Stumbles fault c (.call c' next) d out

section Stumbles

variable {α β : Type} {fault : Fault} {c : Call} {d : Disk}

theorem stumbles_pure (a : α) {out : α × Disk} : ¬ Stumbles fault c (pure a) d out := by
  intro stumble
  cases stumble

theorem stumbles_call {c' : Call} {next : c'.Reply → Program α} {out : α × Disk} :
    Stumbles fault c (.call c' next) d out ↔
      (c = c' ∧ ∃ left, c'.Falters d left ∧ out = (next (c'.refusal fault)).run left)
        ∨ Stumbles fault c (next (c'.exec d).1) (c'.exec d).2 out := by
  refine ⟨fun stumble => ?_, fun stumble => ?_⟩
  · cases stumble with
    | here falters => exact .inl ⟨rfl, _, falters, rfl⟩
    | later stumble => exact .inr stumble
  · rcases stumble with ⟨rfl, left, falters, rfl⟩ | stumble
    · exact .here falters
    · exact .later stumble

/-- a sequence stumbles in its first part, and goes on from there, or in its second part -/
theorem stumbles_bind {p : Program α} {f : α → Program β} {out : β × Disk} :
    Stumbles fault c (p >>= f) d out ↔
      (∃ mid, Stumbles fault c p d mid ∧ out = (f mid.1).run mid.2)
        ∨ Stumbles fault c (f (p.run d).1) (p.run d).2 out := by
  induction p generalizing d with
  | done a =>
    refine ⟨.inr, fun stumble => ?_⟩
    rcases stumble with ⟨mid, none, -⟩ | stumble
    · exact absurd none (stumbles_pure a)
    · exact stumble
  | call c' next ih =>
    have step : Stumbles fault c (call c' next >>= f) d out ↔
        (c = c' ∧ ∃ left, c'.Falters d left ∧ out = (next (c'.refusal fault) >>= f).run left)
          ∨ Stumbles fault c (next (c'.exec d).1 >>= f) (c'.exec d).2 out := stumbles_call
    rw [step, ih, ← or_assoc]
    refine or_congr ⟨fun first => ?_, fun first => ?_⟩ Iff.rfl
    · rcases first with ⟨rfl, left, falters, rfl⟩ | ⟨mid, stumble, rfl⟩
      · exact ⟨_, .here falters, run_bind _ _ _⟩
      · exact ⟨mid, .later stumble, rfl⟩
    · obtain ⟨mid, stumble, rfl⟩ := first
      rcases stumbles_call.1 stumble with ⟨rfl, left, falters, rfl⟩ | later
      · exact .inl ⟨rfl, left, falters, (run_bind _ _ _).symm⟩
      · exact .inr ⟨mid, later, rfl⟩

theorem stumbles_map {p : Program α} {f : α → β} {out : β × Disk} :
    Stumbles fault c (f <$> p) d out ↔ ∃ mid, Stumbles fault c p d mid ∧ out = (f mid.1, mid.2) := by
  rw [map_eq_pure_bind, stumbles_bind]
  refine ⟨fun stumble => ?_, .inl⟩
  rcases stumble with first | none
  · exact first
  · exact absurd none (stumbles_pure _)

/-- a call alone -/
theorem stumbles_perform {c' : Call} {out : c'.Reply × Disk} :
    Stumbles fault c (perform c') d out ↔ ∃ left, (c = c' ∧ c'.Falters d left) ∧ out = (c'.refusal fault, left) := by
  refine stumbles_call.trans ⟨fun stumble => ?_, fun stumble => ?_⟩
  · rcases stumble with ⟨same, left, falters, eq⟩ | none
    · exact ⟨left, ⟨same, falters⟩, eq⟩
    · exact absurd none (stumbles_pure _)
  · obtain ⟨left, ⟨same, falters⟩, eq⟩ := stumble
    exact .inl ⟨same, left, falters, eq⟩

/-- a program fails where a call of it fails, with an answer that depends on a state, and these are the failures -/
def FailsAs {σ : Type} (answer : σ → α) (fault : Fault) (p : Program α) (d : Disk)
    (failures : Call → σ → Disk → Prop) : Prop :=
  ∀ c out, Stumbles fault c p d out ↔ ∃ s left, failures c s left ∧ out = (answer s, left)

variable {σ : Type} {answer : σ → α} {p : Program α}

theorem failsAs_pure (answer : σ → α) (a : α) : FailsAs answer fault (pure a) d fun _ _ _ => False := by
  intro c out
  simp only [false_and, exists_false, iff_false]
  exact stumbles_pure a

/-- a sequence that passes on the failures of its first part fails there or in its second part -/
theorem FailsAs.bind {answer' : σ → β} {f : α → Program β} {first second : Call → σ → Disk → Prop}
    (fails : FailsAs answer fault p d first) (passes : ∀ s, f (answer s) = pure (answer' s))
    (rest : FailsAs answer' fault (f (p.run d).1) (p.run d).2 second) :
    FailsAs answer' fault (p >>= f) d fun c s left => first c s left ∨ second c s left := by
  intro c out
  rw [stumbles_bind, rest c out]
  refine ⟨fun stumble => ?_, fun failure => ?_⟩
  · rcases stumble with ⟨mid, stumble, rfl⟩ | ⟨s, left, failure, same⟩
    · obtain ⟨s, left, failure, rfl⟩ := (fails c mid).1 stumble
      rw [passes]
      exact ⟨s, left, .inl failure, rfl⟩
    · exact ⟨s, left, .inr failure, same⟩
  · obtain ⟨s, left, failure | failure, same⟩ := failure
    · refine .inl ⟨_, (fails c _).2 ⟨s, left, failure, rfl⟩, ?_⟩
      rw [passes]
      exact same
    · exact .inr ⟨s, left, failure, same⟩

theorem FailsAs.congr {failures failures' : Call → σ → Disk → Prop} (fails : FailsAs answer fault p d failures)
    (same : ∀ c s left, failures c s left ↔ failures' c s left) : FailsAs answer fault p d failures' := by
  intro c out
  rw [fails c out]
  simp only [same]

/-- a sequence that has ended with its first part fails there -/
theorem FailsAs.bind_pure {answer' : σ → β} {f : α → Program β} {failures : Call → σ → Disk → Prop}
    (fails : FailsAs answer fault p d failures) (passes : ∀ s, f (answer s) = pure (answer' s)) {b : β}
    (ended : f (p.run d).1 = pure b) : FailsAs answer' fault (p >>= f) d failures := by
  have none : FailsAs answer' fault (f (p.run d).1) (p.run d).2 fun _ _ _ => False := by
    rw [ended]
    exact failsAs_pure answer' b
  exact (fails.bind passes none).congr fun c s left => or_iff_left id

end Stumbles
end Program

namespace DataFile
open Program (Stumbles FailsAs failsAs_pure stumbles_map stumbles_perform perform)

/-! ## Operations that fail with a call -/

section Sequences

variable {α β : Type} {fault : Fault} {d d' : Disk} {f f' : DataFile} {a : α}

/-- the calls that a program may fail with, and the disks that are left then -/
def FailsWith (fault : Fault) (x : ExceptT Fault Program α) (d : Disk) (failures : Call → Disk → Prop) : Prop :=
  FailsAs (fun _ : Unit => .error fault) fault x.run d fun c _ left => failures c left

/-- the same of an operation on an open file, which is there afterwards as the failure leaves it -/
def BreaksWith (fault : Fault) (op : FileM α) (f : DataFile) (d : Disk) (failures : Call → DataFile → Disk → Prop) :
    Prop :=
  FailsAs (fun g => (.error fault, g)) fault (f.run op) d failures

/-- the same, said of what the program answers -/
theorem failsWith_of_stumbles {x : ExceptT Fault Program α} {failures : Call → Disk → Prop}
    (stumbles : ∀ c out, Stumbles fault c x.run d out ↔ ∃ left, failures c left ∧ out = (.error fault, left)) :
    FailsWith fault x d failures := by
  intro c out
  rw [stumbles]
  exact ⟨fun failure => ⟨(), failure⟩, fun ⟨_, failure⟩ => failure⟩

theorem FailsWith.bind {x : ExceptT Fault Program α} {g : α → ExceptT Fault Program β} {first second : Call → Disk → Prop}
    (fails : FailsWith fault x d first) (ran : x.run.run d = (.ok a, d')) (rest : FailsWith fault (g a) d' second) :
    FailsWith fault (x >>= g) d fun c left => first c left ∨ second c left := by
  rw [FailsWith, ExceptT.run_bind]
  refine FailsAs.bind fails (fun _ => rfl) ?_
  rw [ran]
  exact rest

theorem FailsWith.bind_error {x : ExceptT Fault Program α} {failures : Call → Disk → Prop} {e : Fault}
    (fails : FailsWith fault x d failures) (ran : x.run.run d = (.error e, d')) (g : α → ExceptT Fault Program β) :
    FailsWith fault (x >>= g) d failures := by
  rw [FailsWith, ExceptT.run_bind]
  refine FailsAs.bind_pure fails (fun _ => rfl) ?_ (b := .error e)
  rw [ran]

theorem BreaksWith.bind {x : FileM α} {g : α → FileM β} {first second : Call → DataFile → Disk → Prop}
    (breaks : BreaksWith fault x f d first) (ran : (f.run x).run d = ((.ok a, f'), d'))
    (rest : BreaksWith fault (g a) f' d' second) :
    BreaksWith fault (x >>= g) f d fun c g left => first c g left ∨ second c g left := by
  rw [BreaksWith, run_bind]
  refine FailsAs.bind breaks (fun _ => rfl) ?_
  rw [ran]
  exact rest

theorem BreaksWith.bind_error {x : FileM α} {failures : Call → DataFile → Disk → Prop} {e : Fault}
    (breaks : BreaksWith fault x f d failures) (ran : (f.run x).run d = ((.error e, f'), d')) (g : α → FileM β) :
    BreaksWith fault (x >>= g) f d failures := by
  rw [BreaksWith, run_bind]
  refine FailsAs.bind_pure breaks (fun _ => rfl) ?_ (b := (.error e, f'))
  rw [ran]

theorem FailsWith.attempt {p : Program (Except Fault α)} {failures : Call → Disk → Prop}
    (fails : FailsWith fault (.mk p) d failures) :
    BreaksWith fault (attempt p) f d fun c g left => g = f ∧ failures c left := by
  intro c out
  rw [run_attempt, stumbles_map]
  refine ⟨fun stumble => ?_, fun failure => ?_⟩
  · obtain ⟨mid, stumble, rfl⟩ := stumble
    obtain ⟨-, left, failure, rfl⟩ := (fails c mid).1 stumble
    exact ⟨f, left, ⟨rfl, failure⟩, rfl⟩
  · obtain ⟨g, left, ⟨rfl, failure⟩, rfl⟩ := failure
    exact ⟨_, (fails c _).2 ⟨(), left, failure, rfl⟩, rfl⟩

theorem BreaksWith.of_run_eq (f' : DataFile) {op op' : FileM α} {failures : Call → DataFile → Disk → Prop}
    (same : f.run op = f'.run op') (breaks : BreaksWith fault op' f' d failures) :
    BreaksWith fault op f d failures := by
  intro c out
  rw [same]
  exact breaks c out

/-- an operation without calls -/
theorem breaksWith_of_pure {op : FileM α} {r : Except Fault α × DataFile} (calls : f.run op = pure r) :
    BreaksWith fault op f d fun _ _ _ => False := by
  rw [BreaksWith, calls]
  exact failsAs_pure _ r

end Sequences

section Operations

variable {fault : Fault} {d : Disk} {f : DataFile} {node : Nat}

/-- an emptying is refused, or the file is empty and only its position is not moved -/
theorem breaks_clear (h : f.Writes node) :
    BreaksWith fault clear f d fun c g left => g = { f with size := 0 }
      ∧ (c = .empty f.handle ∧ left = d ∨ c = .rewind f.handle ∧ left = d.setContent node []) := by
  have emptying : FailsWith fault (.mk (perform (.empty f.handle))) d fun c left => c = .empty f.handle ∧ left = d :=
    failsWith_of_stumbles fun _ _ => stumbles_perform
  have rewinding (d : Disk) :
      FailsWith fault (.mk (perform (.rewind f.handle))) d fun c left => c = .rewind f.handle ∧ left = d :=
    failsWith_of_stumbles fun _ _ => stumbles_perform
  have emptied : (Call.empty f.handle).exec d = (.ok (), d.setContent node []) := by
    rw [h]
    rfl
  intro c out
  refine (BreaksWith.of_run_eq { f with size := 0 } rfl
    (emptying.attempt.bind (run_attempt_ok emptied)
      ((rewinding _).attempt.bind (run_attempt_ok rfl) (breaksWith_of_pure rfl))) c out).trans ?_
  simp only [or_false, ← and_or_left]

/-- of the bytes that are not all written a first part may be there -/
theorem breaks_write (h : f.Writes node) (bytes : Bytes) :
    BreaksWith fault (write bytes) f d fun c g left => g = { f with size := f.size + bytes.length }
      ∧ c = .write f.handle f.position bytes ∧ ∃ n < bytes.length,
        left = d.setContent node (Disk.overwrite (d.content node) f.position (bytes.take n)) := by
  intro c out
  cases bytes with
  | nil =>
    refine (breaksWith_of_pure rfl c out).trans ?_
    simp
  | cons b rest =>
    have written (part : Bytes) : (Call.write f.handle f.position part).exec d
        = (.ok (), d.setContent node (Disk.overwrite (d.content node) f.position part)) := by
      rw [h]
      rfl
    have writing : FailsWith fault (.mk (perform (.write f.handle f.position (b :: rest)))) d fun c left =>
        c = .write f.handle f.position (b :: rest) ∧ ∃ n < (b :: rest).length,
          left = ((Call.write f.handle f.position ((b :: rest).take n)).exec d).2 :=
      failsWith_of_stumbles fun _ _ => stumbles_perform
    simp only [written] at writing
    refine (BreaksWith.of_run_eq { f with size := f.size + (b :: rest).length } rfl
      (writing.attempt.bind (run_attempt_ok (written (b :: rest))) (breaksWith_of_pure rfl)) c out).trans ?_
    simp only [or_false]

/-- the same in an emptied file: what is there is a first part of the bytes -/
theorem breaks_write_emptied (h : f.Writes node) (size : node < d.nodes.size) (bytes : Bytes) :
    BreaksWith fault (write bytes) f.emptied (d.setContent node []) fun c g left =>
      g = { f with size := bytes.length, position := 0 } ∧ c = .write f.handle 0 bytes
        ∧ ∃ n < bytes.length, left = d.setContent node (bytes.take n) := by
  have writes : f.emptied.Writes node := h
  refine (breaks_write writes bytes).congr fun c g left => ?_
  simp only [setContent_emptied size, emptied, Nat.zero_add]

theorem breaks_sync : BreaksWith fault sync f d fun c g left => g = f ∧ c = .sync f.handle ∧ left = d :=
  (failsWith_of_stumbles (x := .mk (perform (.sync f.handle))) fun _ _ => stumbles_perform).attempt

/-! ## The copy -/

/-- what a copy to a new file leaves if a call of it fails: no file, or one with some bytes of the old one -/
inductive Uncopied (source target : String) (node : Nat) (spare : Location) (d : Disk) : Call → Disk → Prop where
  | unopened : Uncopied source target node spare d (.openAs source .read) d
  | unmade : Uncopied source target node spare d (.openAs target .replace) d
  | unread : Uncopied source target node spare d (.read ⟨.file node, false⟩ 0) (d.addFile spare)
  | unwritten {n : Nat} : n < (d.content node).length →
      Uncopied source target node spare d (.write ⟨.file d.nodes.size, true⟩ 0 (d.content node))
        (d.withFile spare ((d.content node).take n))

/-- of the bytes that are not all copied a first part may be there -/
theorem fails_fill {spare : Location} (bytes : Bytes) :
    FailsWith fault (if bytes.isEmpty then pure () else .mk (perform (.write ⟨.file d.nodes.size, true⟩ 0 bytes)))
      (d.addFile spare) fun c left =>
        c = .write ⟨.file d.nodes.size, true⟩ 0 bytes ∧ ∃ n < bytes.length, left = d.withFile spare (bytes.take n) := by
  cases bytes with
  | nil => exact (failsAs_pure _ _).congr fun c s left => by simp
  | cons b rest =>
    have writing : FailsWith fault (.mk (perform (.write ⟨.file d.nodes.size, true⟩ 0 (b :: rest)))) (d.addFile spare)
        fun c left => c = .write ⟨.file d.nodes.size, true⟩ 0 (b :: rest) ∧ ∃ n < (b :: rest).length,
          left = ((Call.write ⟨.file d.nodes.size, true⟩ 0 ((b :: rest).take n)).exec (d.addFile spare)).2 :=
      failsWith_of_stumbles fun _ _ => stumbles_perform
    simp only [exec_writeNew] at writing
    exact writing

theorem fails_copy {source target : String} {loc spare : Location} (old : d.Names source loc node)
    (new : d.Vacant target spare) :
    FailsWith fault (copy source target) d (Uncopied source target node spare d) := by
  have opening : FailsWith fault (.mk (perform (.openAs source .read))) d fun c left =>
      c = .openAs source .read ∧ left = d := failsWith_of_stumbles fun _ _ => stumbles_perform
  have making : FailsWith fault (.mk (perform (.openAs target .replace))) d fun c left =>
      c = .openAs target .replace ∧ left = d := failsWith_of_stumbles fun _ _ => stumbles_perform
  have reading : FailsWith fault (.mk (perform (.read ⟨.file node, false⟩ 0))) (d.addFile spare) fun c left =>
      c = .read ⟨.file node, false⟩ 0 ∧ left = d.addFile spare := failsWith_of_stumbles fun _ _ => stumbles_perform
  have all : FailsWith fault (copy source target) d fun c left =>
      (c = .openAs source .read ∧ left = d) ∨ (c = .openAs target .replace ∧ left = d)
        ∨ (c = .read ⟨.file node, false⟩ 0 ∧ left = d.addFile spare)
        ∨ c = .write ⟨.file d.nodes.size, true⟩ 0 (d.content node) ∧ ∃ n < (d.content node).length,
            left = d.withFile spare ((d.content node).take n) := by
    refine opening.bind (exec_openRead old) ?_
    rw [if_neg (by simp)]
    refine making.bind (exec_openReplace new) ?_
    exact reading.bind (exec_readOld old.node_lt) (fails_fill (d.content node))
  refine all.congr fun c s left => ⟨fun failure => ?_, fun failure => ?_⟩
  · rcases failure with ⟨rfl, rfl⟩ | ⟨rfl, rfl⟩ | ⟨rfl, rfl⟩ | ⟨rfl, n, lt, rfl⟩
    · exact .unopened
    · exact .unmade
    · exact .unread
    · exact .unwritten lt
  · cases failure with
    | unopened => exact .inl ⟨rfl, rfl⟩
    | unmade => exact .inr (.inl ⟨rfl, rfl⟩)
    | unread => exact .inr (.inr (.inl ⟨rfl, rfl⟩))
    | unwritten lt => exact .inr (.inr (.inr ⟨rfl, _, lt, rfl⟩))

/-- without a file to be copied there is one call that can fail, and it changes nothing -/
theorem fails_copy_unnamed {source target : String} (unnamed : ∀ loc m, ¬ d.Names source loc m) :
    FailsWith fault (copy source target) d fun c left => c = .openAs source .read ∧ left = d := by
  have opening : FailsWith fault (.mk (perform (.openAs source .read))) d fun c left =>
      c = .openAs source .read ∧ left = d := failsWith_of_stumbles fun _ _ => stumbles_perform
  rcases found : d.lookup source with e | ⟨loc, entry⟩
  · exact opening.bind_error (exec_openRead_error found) _
  cases entry with
  | directory =>
    have refused : FailsWith fault (throw .notRegular : ExceptT Fault Program Unit) d fun _ _ => False :=
      failsAs_pure _ _
    exact FailsAs.congr (opening.bind (exec_openRead_ok found) refused) fun c s left => or_iff_left id
  | file m => exact absurd (Disk.names_of_lookup found) (unnamed loc m)

end Operations

end DataFile
end TableStore
