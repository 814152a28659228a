/-
The count of bytes that an open file keeps.

The count is taken from the file system once, when the file is opened, and every operation changes it on its own: a write
adds its bytes to it, wherever the position is. That is right behind the content, where reading, clearing, saving and a
recovery leave the position. A file that was opened as it is stands at its start, and what is written there goes over
bytes that were counted already. So two numbers say what the count is worth: how far the content reaches beyond the
position, and how many bytes are counted twice (`Drift`). Each operation changes them in its own way (`Drift.after`,
`Drifts.step`); nothing but clearing and saving takes them back to nothing.

Results:
  size_recounted   after any operations the count is the number of bytes that are read, and on top of it those of them
                   that the first writes went over; it is right exactly if the file was cleared or saved, or there was
                   nothing in front of the position, or nothing was written before the first read.
  miscounted       no promise can be made that the count is the number of bytes that are read.
-/
import TableStore.Proofs.Disk.Crash
import TableStore.Proofs.Disk.Replacing

namespace TableStore.DataFile

/-! ## What is done with an open file -/

/-- an operation on an open file -/
inductive Action where
  | read | clear
  | write (bytes : Bytes)
  | save (bytes : Bytes)

def Action.run : Action → FileM Unit
  | .read => do let _ ← readAll
  | .clear => DataFile.clear
  | .write bytes => DataFile.write bytes
  | .save bytes => saveWrite bytes

/-- operations one after the other, the first failure ends them -/
def runAll : List Action → FileM Unit
  | [] => pure ()
  | a :: rest => do a.run; runAll rest

/-- how a file was opened to be written: as it is, or as a new one with some bytes -/
inductive Origin where
  | opened
  | created (bytes : Bytes)

def Origin.obtain (path : String) : Origin → ExceptT Fault Program DataFile
  | .opened => openAs path .readWrite
  | .created bytes => create path .readWrite bytes

/-- a creation is an opening and a write -/
def Origin.actions : Origin → List Action
  | .opened => []
  | .created bytes => [.write bytes]

/-! ## What the count is worth -/

/-- how far the content of an open file reaches beyond its position, and how many of its bytes are counted twice -/
structure Drift where
  ahead : Nat
  extra : Nat

/-- a write goes over what is ahead first, and counts that again -/
def Drift.after (s : Drift) : Action → Drift
  | .read => ⟨0, s.extra⟩
  | .clear | .save _ => ⟨0, 0⟩
  | .write bytes => ⟨s.ahead - bytes.length, s.extra + min s.ahead bytes.length⟩

/-- an open file stands and counts as far from its content's end as is said -/
structure Drifts (f : DataFile) (node : Nat) (d : Disk) (s : Drift) : Prop where
  holds : f.Holds node d
  position : f.position + s.ahead = (d.content node).length
  size : f.size = (d.content node).length + s.extra

section Step

variable {f g : DataFile} {node : Nat} {d d' : Disk} {s : Drift}

theorem length_overwrite {old : Bytes} {place : Nat} (within : place ≤ old.length) (bytes : Bytes) :
    (Disk.overwrite old place bytes).length = max old.length (place + bytes.length) := by
  cases bytes with
  | nil =>
    rw [overwrite_nil]
    exact (max_eq_left within).symm
  | cons b rest =>
    simp only [Disk.overwrite, List.isEmpty_cons, Bool.false_eq_true, if_false, List.length_append, List.length_take,
      List.length_replicate, List.length_drop]
    omega

theorem Drifts.read (h : f.Drifts node d s) (ran : (f.run Action.read.run).run d = ((.ok (), g), d')) :
    g.Drifts node d' (s.after .read) := by
  have reads := run_readAll (d := d) (congrArg Handle.entry h.holds.writes)
  rw [Action.run, run_bind_ok reads] at ran
  cases ran
  exact ⟨⟨h.holds.mode, h.holds.writes, h.holds.node_lt⟩, Nat.add_zero _, h.size⟩

/-- behind a new content the count is that of its bytes -/
theorem drifts_replaced (h : f.Holds node d) (size : d.nodes.size ≤ d'.nodes.size) {bytes : Bytes}
    (content : d'.content node = bytes) : (f.replaced bytes).Drifts node d' ⟨0, 0⟩ := by
  have lt : node < d'.nodes.size := h.node_lt.trans_le size
  refine ⟨⟨h.mode, h.writes, lt⟩, ?_, ?_⟩
  · rw [content]
    rfl
  · rw [content]
    rfl

theorem Drifts.clear (h : f.Drifts node d s) (ran : (f.run Action.clear.run).run d = ((.ok (), g), d')) :
    g.Drifts node d' (s.after .clear) := by
  rw [Action.run, run_clear h.holds.writes] at ran
  cases ran
  exact drifts_replaced h.holds Disk.size_setContent.ge (Disk.content_setContent h.holds.node_lt [])

theorem Drifts.write {bytes : Bytes} (h : f.Drifts node d s)
    (ran : (f.run (Action.write bytes).run).run d = ((.ok (), g), d')) : g.Drifts node d' (s.after (.write bytes)) := by
  have within : f.position ≤ (d.content node).length := Nat.le.intro h.position
  have length := length_overwrite within bytes
  rw [Action.run, run_write h.holds.writes] at ran
  cases ran
  have holds : f.Holds node (d.setContent node (Disk.overwrite (d.content node) f.position bytes)) :=
    h.holds.mono Disk.size_setContent.ge
  have position := h.position
  have size := h.size
  refine ⟨⟨holds.mode, holds.writes, holds.node_lt⟩, ?_, ?_⟩
  · rw [Disk.content_setContent h.holds.node_lt, length]
    show f.position + bytes.length + (s.ahead - bytes.length) = _
    omega
  · rw [Disk.content_setContent h.holds.node_lt, length]
    show f.size + bytes.length = _ + (s.extra + min s.ahead bytes.length)
    omega

theorem Drifts.save {bytes : Bytes} (h : f.Drifts node d s)
    (ran : (f.run (Action.save bytes).run).run d = ((.ok (), g), d')) : g.Drifts node d' (s.after (.save bytes)) := by
  obtain ⟨rfl, replaces⟩ := replaces_of_saved h.holds ran
  exact drifts_replaced h.holds replaces.size_le replaces.content

/-- **What every operation does to the count.** -/
theorem Drifts.step (h : f.Drifts node d s) (a : Action) (ran : (f.run a.run).run d = ((.ok (), g), d')) :
    g.Drifts node d' (s.after a) := by
  cases a with
  | read => exact h.read ran
  | clear => exact h.clear ran
  | write bytes => exact h.write ran
  | save bytes => exact h.save ran

/-- and so what all of them do -/
theorem Drifts.run (h : f.Drifts node d s) {actions : List Action}
    (ran : (f.run (runAll actions)).run d = ((.ok (), g), d')) : g.Drifts node d' (actions.foldl Drift.after s) := by
  induction actions generalizing f d s with
  | nil =>
    cases ran
    exact h
  | cons a rest ih =>
    obtain ⟨⟨⟩, f₁, d₁, first, later⟩ := parts_of_run_bind ran
    exact ih (h.step a first) later

end Step

/-! ## Where a file is opened -/

/-- how many bytes an open file has in front of its position: those at its path, unless there is a backup. Then it has
the bytes of the backup, and is behind them -/
def inFront (d : Disk) (path : String) : Nat :=
  if !Path.isBackup path && d.isThere (Path.backup path) then 0 else ((d.bytesAt? path).getD []).length

section Opening

variable {d d₀ d₁ d₂ : Disk} {path : String} {k : Nat} {f g : DataFile}

/-- the bytes in front are those that the opening finds, whether it made the file or not -/
theorem inFront_of_openForWriting (opened : d.openForWriting path = .ok (k, d₀)) :
    inFront d path
      = if !Path.isBackup path && d₀.isThere (Path.backup path) then 0 else (d₀.content k).length := by
  rw [inFront, Disk.content_of_openForWriting opened]
  obtain ⟨loc, ⟨-, rfl⟩ | ⟨vacant, -, -⟩⟩ := Disk.openForWriting_cases opened
  · rfl
  · -- a file that is made has no bytes, so the backup does not matter
    rw [vacant.bytesAt?]
    simp

theorem drifts_fresh (lt : k < d.nodes.size) :
    (fresh path k (d.content k).length).Drifts k d ⟨(d.content k).length, 0⟩ :=
  ⟨⟨rfl, rfl, lt⟩, Nat.zero_add _, rfl⟩

/-- an opening takes the count from the file, or from the backup that it puts in its place -/
theorem drifts_opened (obtained : (openAs path .readWrite).run.run d = (.ok f, d₁)) :
    ∃ node, f.Drifts node d₁ ⟨inFront d path, 0⟩ := by
  rcases opened : d.openForWriting path with fault | ⟨k, d₀⟩
  · rw [run_openAs_refused opened] at obtained
    cases obtained
  have plain := run_openPlain_opened opened
  obtain ⟨loc, provides⟩ := Disk.provides_of_openForWriting opened
  have lt : k < d₀.nodes.size := provides.names.node_lt
  have front := inFront_of_openForWriting opened
  refine ⟨k, ?_⟩
  by_cases backup : Path.isBackup path = true
  · rw [run_openAs_backup plain backup] at obtained
    cases obtained
    rw [front, backup]
    exact drifts_fresh lt
  have proper : Path.isBackup path = false := by simpa using backup
  rcases found : d₀.lookup (Path.backup path) with fault | ⟨spare, _ | copy⟩
  · have missing : d₀.isThere (Path.backup path) = false := by
      rw [Disk.isThere, found]
      rfl
    rw [run_openAs_plain plain rfl missing] at obtained
    cases obtained
    rw [front, missing, Bool.and_false]
    exact drifts_fresh lt
  · have recovery := run_recover_directory (f := fresh path k (d₀.content k).length) found
    rw [run_openAs_recovering plain recovery proper] at obtained
    cases obtained
  · have named : d₀.Names (Path.backup path) spare copy := Disk.names_of_lookup found
    have recovery := run_recover (f := fresh path k (d₀.content k).length) rfl lt named
    rw [run_openAs plain recovery proper] at obtained
    cases obtained
    rw [front, proper, named.isThere]
    have holds : (fresh path k (d₀.content k).length).Holds k d₀ := ⟨rfl, rfl, lt⟩
    have size : d₀.nodes.size ≤ ((d₀.setContent k (d₀.content copy)).erase spare).nodes.size :=
      Disk.size_setContent.ge
    exact drifts_replaced holds size (Disk.content_setContent lt _)

theorem drifts_obtained {origin : Origin} (obtained : (origin.obtain path).run.run d = (.ok f, d₁)) :
    ∃ node, f.Drifts node d₁ (origin.actions.foldl Drift.after ⟨inFront d path, 0⟩) := by
  cases origin with
  | opened => exact drifts_opened obtained
  | created bytes =>
    rcases plain : (openAs path .readWrite).run.run d with ⟨fault | f₀, d₀⟩
    · rw [Origin.obtain, create, run_then_error plain] at obtained
      cases obtained
    obtain ⟨node, drifts⟩ := drifts_opened plain
    have written := run_write (d := d₀) drifts.holds.writes bytes
    rw [Origin.obtain, create, run_then plain, run_then (run_lift written)] at obtained
    cases obtained
    exact ⟨node, drifts.write written⟩

end Opening

/-! ## The bytes that are counted twice -/

/-- nothing is left of the content after it -/
def Action.empties : Action → Bool
  | .clear | .save _ => true
  | .read | .write _ => false

/-- how many bytes are written before anything else is done -/
def leading : List Action → Nat
  | .write bytes :: rest => bytes.length + leading rest
  | _ => 0

/-- how many bytes are counted twice, of those in front of the position at first -/
def recounted (ahead : Nat) (actions : List Action) : Nat :=
  if actions.any Action.empties then 0 else min ahead (leading actions)

theorem extra_after (actions : List Action) (s : Drift) :
    (actions.foldl Drift.after s).extra
      = if actions.any Action.empties then 0 else s.extra + min s.ahead (leading actions) := by
  induction actions generalizing s with
  | nil => simp [leading]
  | cons a rest ih =>
    rw [List.foldl_cons, ih]
    cases a with
    | read => simp [Drift.after, Action.empties, leading]
    | clear => simp [Drift.after, Action.empties]
    | save bytes => simp [Drift.after, Action.empties]
    | write bytes =>
      simp only [Drift.after, List.any_cons, Action.empties, Bool.false_or, leading]
      congr 1
      omega

theorem recounted_eq_zero_iff {ahead : Nat} {actions : List Action} :
    recounted ahead actions = 0 ↔ (∃ a ∈ actions, a.empties = true) ∨ ahead = 0 ∨ leading actions = 0 := by
  rw [recounted, ← List.any_eq_true]
  split
  · rename_i emptied
    simp [emptied]
  · rename_i kept
    simp [kept]

section Sizes

variable {d d₁ d₂ : Disk} {path : String} {f g : DataFile} {origin : Origin} {actions : List Action}

theorem drifts_used (obtained : (origin.obtain path).run.run d = (.ok f, d₁))
    (ran : (f.run (runAll actions)).run d₁ = ((.ok (), g), d₂)) :
    ∃ node s, g.Drifts node d₂ s ∧ s.extra = recounted (inFront d path) (origin.actions ++ actions) := by
  obtain ⟨node, drifts⟩ := drifts_obtained obtained
  refine ⟨node, _, drifts.run ran, ?_⟩
  rw [← List.foldl_append, extra_after, recounted]
  simp only [Nat.zero_add]

/-- **What the count of an open file is**, whatever was at its path and whatever was done with it as long as nothing
failed: the number of bytes that are read, and those again that the first writes went over. So it is right exactly if the
file was cleared or saved since it was opened, or there was nothing in front of it, or nothing was written into it before
it was first read. -/
theorem size_recounted (obtained : (origin.obtain path).run.run d = (.ok f, d₁))
    (ran : (f.run (runAll actions)).run d₁ = ((.ok (), g), d₂)) :
    ∃ bytes, (g.outcome readAll).run.run d₂ = (.ok bytes, d₂)
      ∧ g.size = bytes.length + recounted (inFront d path) (origin.actions ++ actions)
      ∧ (g.size = bytes.length ↔
          (∃ a ∈ origin.actions ++ actions, a.empties = true) ∨ inFront d path = 0
            ∨ leading (origin.actions ++ actions) = 0) := by
  obtain ⟨node, s, drifts, extra⟩ := drifts_used obtained ran
  have reads := run_outcome (run_readAll (d := d₂) (congrArg Handle.entry drifts.holds.writes))
  have size := drifts.size
  rw [extra] at size
  refine ⟨_, reads, size, ?_⟩
  rw [size, ← recounted_eq_zero_iff]
  exact Nat.add_eq_left

end Sizes

/-- a file of three bytes -/
def three : Disk := ({} : Disk).withFile ["f"] [111, 108, 100]

/-- one byte is written over the first of three -/
theorem run_three : ∃ f d₁ g d₂, (Origin.opened.obtain "f").run.run three = (.ok f, d₁)
    ∧ (f.run (runAll [.write [120], .read])).run d₁ = ((.ok (), g), d₂) ∧ g.size = 4
    ∧ (g.outcome readAll).run.run d₂ = (.ok [120, 108, 100], d₂) := ⟨_, _, _, _, rfl, rfl, rfl, rfl⟩

/-- it is counted twice, also after the file is read -/
theorem size_recounted_three : ∃ f d₁ g d₂ bytes, (Origin.opened.obtain "f").run.run three = (.ok f, d₁)
    ∧ (f.run (runAll [.write [120], .read])).run d₁ = ((.ok (), g), d₂)
    ∧ (g.outcome readAll).run.run d₂ = (.ok bytes, d₂) ∧ g.size = bytes.length + 1 := by
  obtain ⟨f, d₁, g, d₂, obtained, ran, -⟩ := run_three
  obtain ⟨bytes, reads, size, -⟩ := size_recounted obtained ran
  have once : recounted (inFront three "f") [.write [120], .read] = 1 := by decide
  refine ⟨f, d₁, g, d₂, bytes, obtained, ran, reads, ?_⟩
  rw [size]
  exact congrArg _ once

/-- **No promise can be made that an open file counts the bytes that are read**, even if nothing fails and no one else
writes. -/
theorem miscounted :
    ¬ ∀ (path : String) (origin : Origin) (actions : List Action) (d d₁ d₂ : Disk) (f g : DataFile) (bytes : Bytes),
      (origin.obtain path).run.run d = (.ok f, d₁) → (f.run (runAll actions)).run d₁ = ((.ok (), g), d₂) →
        (g.outcome readAll).run.run d₂ = (.ok bytes, d₂) → g.size = bytes.length := by
  intro counted
  obtain ⟨f, d₁, g, d₂, obtained, ran, size, reads⟩ := run_three
  have same := counted _ _ _ _ _ _ _ _ _ obtained ran reads
  rw [size] at same
  exact absurd same (by decide)

end TableStore.DataFile
