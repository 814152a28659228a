/-
A file that is open many times.

Every open file has a position of its own, a save empties the file under all the others, and its backup is made and
removed by path. None of that is seen by those who read the whole file and save the whole file only: a read begins at the
start wherever the position is, and a save ends with its bytes in the one node that all of them have open, and with the
place of the backup as vacant as it was, so the next save and the next opening find what the first one found
(`Shared.step`). To them the file is a cell that holds bytes (`Cell`).

Results:
  shared_cell   any number of openings of one path, and reads and saves through them in any order, answer as a cell
                does; each read has the bytes of the latest save, and so has the file, which has no backup. No other
                path leads to anything else than before.
-/
import TableStore.Proofs.Disk.Restarting

namespace TableStore

namespace Disk

section Others

variable {d d' : Disk} {loc spare : Location} {node : Nat}

/-- a save changes the bytes of its file only -/
theorem touches_saved (file : d.entry? loc = some (.file node)) (vacant : d.entry? spare = none) (bytes : Bytes)
    (other : Location) : Touches loc other d (d.saved node spare bytes) := by
  have entries : (d.saved node spare bytes).entries = d.entries := entries_saved vacant
  refine ⟨?_, fun place _ _ => entry_congr entries place, fun n lt ne => content_saved_ne lt ?_, fun n _ same => ?_⟩
  · have size : (d.saved node spare bytes).nodes.size = d.nodes.size + 1 :=
      size_setContent.trans (size_withFile (d.content node))
    rw [size]
    exact Nat.le_succ _
  · rintro rfl
    exact ne file
  · rwa [entry_congr entries] at same

/-- where only one file was made or written, all other paths lead to the bytes that they led to -/
theorem Touches.bytesAt? (h : Touches loc loc d d') (before : d.entry? loc ≠ some .directory)
    (after : d'.entry? loc ≠ some .directory) {path : String} (apart : d.locate path ≠ .ok loc) :
    d'.bytesAt? path = d.bytesAt? path := by
  have directories (other : Location) : d.entry? other = some .directory ↔ d'.entry? other = some .directory := by
    by_cases same : other = loc
    · subst same
      exact iff_of_false before after
    · rw [h.entry other same same]
  have located_iff (target : Location) : d'.locate path = .ok target ↔ d.locate path = .ok target :=
    ⟨locate_mono fun other => (directories other).2, locate_mono fun other => (directories other).1⟩
  have ne {target : Location} (located : d.locate path = .ok target) : target ≠ loc := by
    rintro rfl
    exact apart located
  have content {target : Location} {n : Nat} (located : d.locate path = .ok target)
      (entry : d.entry? target = some (.file n)) : d'.content n = d.content n := by
    apply h.content n (node_lt_of_file entry)
    intro file
    exact ne located (loc_eq_of_file entry file)
  apply Option.ext
  intro bytes
  rw [bytesAt?_eq_some_iff, bytesAt?_eq_some_iff]
  constructor
  · rintro ⟨target, n, named, rfl⟩
    have located := (located_iff target).1 named.located
    have entry := (h.entry target (ne located) (ne located)).symm.trans named.entry
    exact ⟨target, n, ⟨located, entry, named.plain⟩, (content located entry).symm⟩
  · rintro ⟨target, n, named, rfl⟩
    have entry := (h.entry target (ne named.located) (ne named.located)).trans named.entry
    exact ⟨target, n, ⟨(located_iff target).2 named.located, entry, named.plain⟩, content named.located named.entry⟩

theorem Openable.no_directory {path : String} (h : d.Openable path loc) : d.entry? loc ≠ some .directory := by
  rcases h with vacant | ⟨node, named⟩
  · simp [vacant.entry]
  · simp [named.entry]

theorem Openable.vacant_backup {path : String} (h : d.Openable path loc)
    (missing : d.isThere (Path.backup path) = false) : ∃ spare, spare ≠ loc ∧ d.Vacant (Path.backup path) spare := by
  apply Disk.vacant_backup _ _ h.no_directory missing
  · rcases h with vacant | ⟨node, named⟩
    · exact vacant.located
    · exact named.located
  · rcases h with vacant | ⟨node, named⟩
    · exact vacant.plain
    · exact named.plain

end Others

end Disk

namespace DataFile
open Disk (Touches)

/-! ## What is done with a path -/

/-- one more opening of a path to be read and written, or a use of one of the files that were opened -/
inductive Visit where
  | opening
  | reading (which : Nat)
  | saving (which : Nat) (bytes : Bytes)

inductive Answer where
  | opened
  | notOpened (fault : Fault)
  | read (result : Except Fault Bytes)
  | saved (result : Except Fault Unit)
  | noFile

/-- an operation through one of some open files -/
def through {α : Type} (files : List DataFile) (which : Nat) (operation : FileM α) (answer : Except Fault α → Answer) :
    Program (Answer × List DataFile) :=
  match files[which]? with
  | none => return (.noFile, files)
  | some f => do
    let (result, f) ← f.run operation
    return (answer result, files.set which f)

def Visit.run (path : String) (files : List DataFile) : Visit → Program (Answer × List DataFile)
  | opening => do
    match ← (openAs path .readWrite).run with
    | .ok f => return (.opened, files ++ [f])
    | .error fault => return (.notOpened fault, files)
  | reading which => through files which readAll .read
  | saving which bytes => through files which (saveWrite bytes) .saved

/-- the answers to some visits, and the open files after them -/
def visitAll (path : String) (files : List DataFile) : List Visit → Program (List Answer × List DataFile)
  | [] => return ([], files)
  | visit :: rest => do
    let (answer, files) ← visit.run path files
    let (answers, files) ← visitAll path files rest
    return (answer :: answers, files)

/-! ## A cell -/

/-- bytes that a number of users share -/
structure Cell where
  users : Nat
  bytes : Bytes

namespace Cell

/-- a user who reads gets the bytes, and one who saves replaces them -/
def visit (c : Cell) : Visit → Answer × Cell
  | .opening => (.opened, { c with users := c.users + 1 })
  | .reading which => (if which < c.users then .read (.ok c.bytes) else .noFile, c)
  | .saving which bytes => if which < c.users then (.saved (.ok ()), { c with bytes }) else (.noFile, c)

def visitAll (c : Cell) : List Visit → List Answer × Cell
  | [] => ([], c)
  | visit :: rest =>
    ((c.visit visit).1 :: ((c.visit visit).2.visitAll rest).1, ((c.visit visit).2.visitAll rest).2)

end Cell

/-- how many visits are openings -/
def openings (visits : List Visit) : Nat := visits.countP fun | .opening => true | _ => false

/-- the bytes of the latest save that was done, or those from before all of them -/
def latest (initial : Bytes) : List (Visit × Answer) → Bytes
  | [] => initial
  | (.saving _ bytes, .saved (.ok ())) :: rest => latest bytes rest
  | _ :: rest => latest initial rest

namespace Cell

theorem users_visit (c : Cell) (visit : Visit) (rest : List Visit) :
    (c.visit visit).2.users + openings rest = c.users + openings (visit :: rest) := by
  cases visit with
  | opening =>
    simp only [Cell.visit, openings, List.countP_cons, if_true]
    omega
  | reading which => rfl
  | saving which bytes =>
    simp only [Cell.visit]
    split <;> rfl

theorem latest_visit (c : Cell) (visit : Visit) (rest : List (Visit × Answer)) :
    latest c.bytes ((visit, (c.visit visit).1) :: rest) = latest (c.visit visit).2.bytes rest := by
  cases visit with
  | opening => rfl
  | reading which => rfl
  | saving which bytes =>
    simp only [Cell.visit]
    split <;> rfl

theorem users_visitAll (c : Cell) (visits : List Visit) : (c.visitAll visits).2.users = c.users + openings visits := by
  induction visits generalizing c with
  | nil => rfl
  | cons visit rest ih =>
    rw [visitAll, ih]
    exact c.users_visit visit rest

/-- a cell holds the bytes of the latest save -/
theorem bytes_visitAll (c : Cell) (visits : List Visit) :
    (c.visitAll visits).2.bytes = latest c.bytes (visits.zip (c.visitAll visits).1) := by
  induction visits generalizing c with
  | nil => rfl
  | cons visit rest ih =>
    rw [visitAll, ih, List.zip_cons_cons, latest_visit]

/-- and so each read has them -/
theorem read_visitAll (c : Cell) (before after : List Visit) {which : Nat} (opened : which < c.users + openings before) :
    (c.visitAll (before ++ .reading which :: after)).1[before.length]?
      = some (.read (.ok (latest c.bytes (before.zip (c.visitAll (before ++ .reading which :: after)).1)))) := by
  induction before generalizing c with
  | nil =>
    have user : which < c.users := opened
    simp [visitAll, Cell.visit, user, latest]
  | cons visit rest ih =>
    rw [← users_visit] at opened
    rw [List.cons_append, visitAll, List.zip_cons_cons, latest_visit]
    exact ih _ opened

end Cell

/-! ## One file for all -/

/-- a file that is open under a path, to be read and written, wherever it stands and whatever it counts -/
structure OpenOn (f : DataFile) (path : String) (node : Nat) : Prop where
  path : f.path = path
  mode : f.mode = .readWrite
  writes : f.Writes node

/-- the files that were opened on a path, the cell that they are to others, and the disk -/
inductive Shared (path : String) (loc : Location) : List DataFile → Cell → Disk → Prop where
  | unopened {c : Cell} {d : Disk} : d.Openable path loc → d.isThere (Path.backup path) = false → c.users = 0 →
      c.bytes = (d.bytesAt? path).getD [] → Shared path loc [] c d
  | opened {files : List DataFile} {c : Cell} {d : Disk} {node : Nat} {spare : Location} : d.Names path loc node →
      d.Vacant (Path.backup path) spare → (∀ f ∈ files, f.OpenOn path node) → c.users = files.length →
      c.bytes = d.content node → Shared path loc files c d

section Shared

variable {path : String} {loc spare : Location} {files : List DataFile} {c : Cell} {d : Disk} {node which : Nat}

theorem run_through {α : Type} {operation : FileM α} {answer : Except Fault α → Answer} {f f' : DataFile}
    {r : Except Fault α} {d' : Disk} (found : files[which]? = some f) (ran : (f.run operation).run d = ((r, f'), d')) :
    (through files which operation answer).run d = ((answer r, files.set which f'), d') := by
  simp only [through, found]
  rw [Program.run_bind, ran]
  rfl

theorem run_through_none {α : Type} {operation : FileM α} {answer : Except Fault α → Answer}
    (missing : files[which]? = none) : (through files which operation answer).run d = ((.noFile, files), d) := by
  simp only [through, missing]
  rfl

theorem run_opening {f : DataFile} {d' : Disk} (opened : (openAs path .readWrite).run.run d = (.ok f, d')) :
    (Visit.opening.run path files).run d = ((.opened, files ++ [f]), d') := by
  rw [Visit.run, Program.run_bind, opened]
  rfl

/-- a use of one of the files leaves all of them open -/
theorem openOn_set {f : DataFile} (all : ∀ f ∈ files, f.OpenOn path node) (opened : f.OpenOn path node) :
    ∀ g ∈ files.set which f, g.OpenOn path node := by
  intro g mem
  rcases List.mem_or_eq_of_mem_set mem with there | rfl
  · exact all g there
  · exact opened

theorem Shared.open (h : Shared path loc files c d) :
    ∃ f d', (openAs path .readWrite).run.run d = (.ok f, d')
      ∧ Shared path loc (files ++ [f]) (c.visit .opening).2 d' ∧ Touches loc loc d d' := by
  cases h with
  | unopened openable alone none bytes =>
    obtain ⟨node, d₁, opened, made, named⟩ := openable.opened
    obtain ⟨spare, apart, vacant⟩ := openable.vacant_backup alone
    have vacant := made.vacant vacant apart
    refine ⟨_, d₁, run_openAs_plain (run_openPlain_opened opened) rfl vacant.isThere,
      .opened named vacant ?_ ?_ ?_, made.touches⟩
    · intro f mem
      rw [List.nil_append, List.mem_singleton] at mem
      exact mem ▸ ⟨rfl, rfl, rfl⟩
    · exact congrArg (· + 1) none
    · rw [Disk.content_of_openForWriting opened]
      exact bytes
  | opened named vacant all users bytes =>
    refine ⟨_, d, run_openAs_plain (run_openPlain_there named) rfl vacant.isThere,
      .opened named vacant ?_ ?_ bytes, .refl d⟩
    · intro f mem
      rcases List.mem_append.1 mem with before | new
      · exact all f before
      · rw [List.mem_singleton.1 new]
        exact ⟨rfl, rfl, rfl⟩
    · rw [List.length_append]
      exact congrArg (· + 1) users

theorem Shared.users (h : Shared path loc files c d) : c.users = files.length := by
  cases h with
  | unopened _ _ none _ => exact none
  | opened _ _ _ users _ => exact users

theorem Shared.read (h : Shared path loc files c d) (which : Nat) :
    ∃ files', (Visit.run path files (.reading which)).run d = (((c.visit (.reading which)).1, files'), d)
      ∧ Shared path loc files' c d := by
  cases found : files[which]? with
  | none =>
    have beyond : ¬ which < c.users := by
      rw [h.users]
      exact not_lt.2 (List.getElem?_eq_none_iff.1 found)
    refine ⟨files, ?_, h⟩
    rw [Visit.run, run_through_none found, Cell.visit, if_neg beyond]
  | some f =>
    cases h with
    | unopened _ _ _ _ => cases found
    | opened named vacant all users bytes =>
      obtain ⟨within, -⟩ := List.getElem?_eq_some_iff.1 found
      have openOn := all f (List.mem_of_getElem? found)
      have reads := run_readAll (d := d) (congrArg Handle.entry openOn.writes)
      rw [Visit.run, run_through found reads, Cell.visit, if_pos (users ▸ within), bytes]
      refine ⟨_, rfl, .opened named vacant (openOn_set all ⟨openOn.path, openOn.mode, openOn.writes⟩) ?_ bytes⟩
      rw [List.length_set]
      exact users

theorem Shared.save (h : Shared path loc files c d) (which : Nat) (new : Bytes) :
    ∃ files' d', (Visit.run path files (.saving which new)).run d = (((c.visit (.saving which new)).1, files'), d')
      ∧ Shared path loc files' (c.visit (.saving which new)).2 d' ∧ Touches loc loc d d' := by
  cases found : files[which]? with
  | none =>
    have beyond : ¬ which < c.users := by
      rw [h.users]
      exact not_lt.2 (List.getElem?_eq_none_iff.1 found)
    refine ⟨files, d, ?_, ?_, .refl d⟩
    · rw [Visit.run, run_through_none found, Cell.visit, if_neg beyond]
    · rw [Cell.visit, if_neg beyond]
      exact h
  | some f =>
    cases h with
    | unopened _ _ _ _ => cases found
    | @opened _ _ _ node spare named vacant all users bytes =>
      obtain ⟨within, -⟩ := List.getElem?_eq_some_iff.1 found
      obtain ⟨rfl, mode, writes⟩ := all f (List.mem_of_getElem? found)
      have saves := run_saveWrite ⟨mode, writes, named, vacant⟩ new
      have same : (d.saved node spare new).entries = d.entries := Disk.entries_saved vacant.entry
      rw [Visit.run, run_through found saves, Cell.visit, if_pos (users ▸ within)]
      refine ⟨_, _, rfl, .opened (named.congr same.symm) (vacant.congr same.symm) (openOn_set all ⟨rfl, mode, writes⟩)
        ?_ ?_, Disk.touches_saved named.entry vacant.entry new loc⟩
      · rw [List.length_set]
        exact users
      · exact (Disk.content_saved named.node_lt).symm

/-- **One visit.** It answers as the cell does and leaves the file to be shared, and changes no other file. -/
theorem Shared.step (h : Shared path loc files c d) (visit : Visit) :
    ∃ files' d', (visit.run path files).run d = (((c.visit visit).1, files'), d')
      ∧ Shared path loc files' (c.visit visit).2 d' ∧ Touches loc loc d d' := by
  cases visit with
  | opening =>
    obtain ⟨f, d', opened, shared, touches⟩ := h.open
    exact ⟨files ++ [f], d', run_opening opened, shared, touches⟩
  | reading which =>
    obtain ⟨files', ran, shared⟩ := h.read which
    exact ⟨files', d, ran, shared, .refl d⟩
  | saving which new => exact h.save which new

/-- **Any number of visits.** -/
theorem Shared.visitAll (h : Shared path loc files c d) (visits : List Visit) :
    ∃ files' d', (DataFile.visitAll path files visits).run d = (((c.visitAll visits).1, files'), d')
      ∧ Shared path loc files' (c.visitAll visits).2 d' ∧ Touches loc loc d d' := by
  induction visits generalizing files c d with
  | nil => exact ⟨files, d, rfl, h, .refl d⟩
  | cons visit rest ih =>
    obtain ⟨files₁, d₁, ran, shared, touches⟩ := h.step visit
    obtain ⟨files₂, d₂, ranRest, sharedRest, touchesRest⟩ := ih shared
    refine ⟨files₂, d₂, ?_, sharedRest, touches.trans touchesRest⟩
    rw [DataFile.visitAll, Program.run_bind, ran, Program.run_bind, ranRest]
    rfl

theorem Shared.no_directory (h : Shared path loc files c d) : d.entry? loc ≠ some .directory := by
  cases h with
  | unopened openable _ _ _ => exact openable.no_directory
  | opened named _ _ _ _ => simp [named.entry]

theorem Shared.whole (h : Shared path loc files c d) (some : 0 < c.users) : Whole path c.bytes d := by
  cases h with
  | unopened _ _ none _ => omega
  | opened named vacant _ _ bytes => exact ⟨⟨loc, _, named, bytes.symm⟩, vacant.isThere⟩

end Shared

/-- **A file that is read and saved as a whole is a cell**, however many times it is open and whoever uses which of its
openings. No visit fails, and all are answered as a cell would answer them. What is read are the bytes of the latest save
before, through whichever opening that was, or those that were there at first. From the first opening on the file has
these bytes and no backup, and every path that does not lead to it leads to the bytes it led to, or to none as before. -/
theorem shared_cell {d : Disk} {path : String} {loc : Location} (openable : d.Openable path loc)
    (alone : d.isThere (Path.backup path) = false) (visits : List Visit) :
    ∃ answers files d', (visitAll path [] visits).run d = ((answers, files), d')
      ∧ answers = (Cell.visitAll ⟨0, (d.bytesAt? path).getD []⟩ visits).1
      ∧ (∀ before which after, visits = before ++ .reading which :: after → which < openings before →
          answers[before.length]? = some (.read (.ok (latest ((d.bytesAt? path).getD []) (before.zip answers)))))
      ∧ (0 < openings visits → Whole path (latest ((d.bytesAt? path).getD []) (visits.zip answers)) d')
      ∧ ∀ other, d.locate other ≠ .ok loc → d'.bytesAt? other = d.bytesAt? other := by
  have start : Shared path loc [] ⟨0, (d.bytesAt? path).getD []⟩ d := .unopened openable alone rfl rfl
  obtain ⟨files, d', ran, shared, touches⟩ := start.visitAll visits
  refine ⟨_, files, d', ran, rfl, ?_, ?_, ?_⟩
  · rintro before which after rfl opened
    apply Cell.read_visitAll
    rwa [Nat.zero_add]
  · intro opened
    have whole := shared.whole (by rwa [Cell.users_visitAll, Nat.zero_add])
    rwa [Cell.bytes_visitAll] at whole
  · intro other apart
    exact touches.bytesAt? openable.no_directory shared.no_directory apart

/-- a file of three bytes is opened twice; the second opening is left behind the end by what is saved through the first -/
theorem shared_cell_twice :
    (({} : Disk).withFile ["f"] [111, 108, 100]).Openable "f" ["f"]
      ∧ (({} : Disk).withFile ["f"] [111, 108, 100]).isThere "f.safe" = false
      ∧ ∃ files d', (visitAll "f" [] [.opening, .opening, .reading 0, .saving 1 [1, 2, 3, 4, 5], .reading 0,
            .saving 0 [6], .reading 1]).run (({} : Disk).withFile ["f"] [111, 108, 100])
          = (([.opened, .opened, .read (.ok [111, 108, 100]), .saved (.ok ()), .read (.ok [1, 2, 3, 4, 5]),
              .saved (.ok ()), .read (.ok [6])], files), d')
        ∧ Whole "f" [6] d' := by
  have opened := opened_alone 3 [111, 108, 100]
  have vacant : ({} : Disk).Vacant "f" ["f"] := ⟨rfl, rfl, by decide⟩
  have openable : (({} : Disk).withFile ["f"] [111, 108, 100]).Openable "f" ["f"] :=
    .inr ⟨0, vacant.names_addFile.congr rfl⟩
  obtain ⟨answers, files, d', ran, rfl, -, whole, -⟩ := shared_cell openable opened.alone
    [.opening, .opening, .reading 0, .saving 1 [1, 2, 3, 4, 5], .reading 0, .saving 0 [6], .reading 1]
  exact ⟨openable, opened.alone, files, d', ran, whole (by decide)⟩

end DataFile
end TableStore
