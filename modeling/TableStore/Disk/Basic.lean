/-
The file system that the store runs on: a tree of directories and files, and the calls that programs make on it.

A file is a node that holds bytes; names lead to nodes, and an open handle keeps its node also when the name goes, so
that a handle still reads and writes a removed file and sees what others write to the same one. Every call answers or
fails with a `Fault` and says what the disk is afterwards; a call that fails changes nothing.
-/
import TableStore.Disk.Path
import TableStore.Fault
import TableStore.Text.Bytes

namespace TableStore

/-- the names from the root down to an entry -/
abbrev Location := List String

/-- where one name leads from a directory -/
def Location.enter (loc : Location) (name : String) : Location :=
  if name = "." then loc else if name = ".." then loc.dropLast else loc ++ [name]

inductive Entry where
  | directory
  | file (node : Nat)
  deriving DecidableEq

/-- the node of a file -/
def Entry.node? : Entry → Option Nat
  | .directory => none
  | .file node => some node

/-- the nodes of all files among some entries -/
def namedNodes (entries : List (Location × Entry)) : List Nat := entries.filterMap (·.2.node?)

theorem named_lt_nil : ∀ node ∈ namedNodes [], node < (#[] : Array Bytes).size := by simp [namedNodes]

theorem named_nodup_nil : (namedNodes []).Nodup := List.nodup_nil

/-- named entries below the root, and the contents of all nodes, named or not; no node has two names -/
structure Disk where
  entries : List (Location × Entry) := []
  nodes : Array Bytes := #[]
  named_lt : ∀ node ∈ namedNodes entries, node < nodes.size := by exact named_lt_nil
  named_nodup : (namedNodes entries).Nodup := by exact named_nodup_nil

/-- an open file or directory; where it reads and writes is said in every call -/
structure Handle where
  entry : Entry
  writable : Bool
  deriving DecidableEq

/-- how a file is opened: to be read, to be read and written, or to be written from empty; the last two make one -/
inductive Access where
  | read | update | replace
  deriving DecidableEq

namespace Disk

def entry? (d : Disk) (loc : Location) : Option Entry :=
  if loc = [] then some .directory else (d.entries.find? (·.1 == loc)).map (·.2)

/-- the bytes of a node -/
def content (d : Disk) (node : Nat) : Bytes := d.nodes.getD node []

/-- the disk with other bytes in a node -/
def setContent (d : Disk) (node : Nat) (bytes : Bytes) : Disk :=
  { d with
    nodes := d.nodes.setIfInBounds node bytes
    named_lt := by simpa using d.named_lt }

/-- the disk with a new empty file -/
def addFile (d : Disk) (loc : Location) : Disk where
  entries := d.entries ++ [(loc, .file d.nodes.size)]
  nodes := d.nodes.push []
  named_lt node h := by
    simp only [namedNodes, List.filterMap_append, List.mem_append] at h
    rw [Array.size_push]
    rcases h with h | h
    · exact Nat.lt_succ_of_lt (d.named_lt node h)
    · simp [Entry.node?] at h
      omega
  named_nodup := by
    simp only [namedNodes, List.filterMap_append]
    refine List.nodup_append.2 ⟨d.named_nodup, by simp [Entry.node?], fun a ha b hb => ?_⟩
    have := d.named_lt a ha
    simp [Entry.node?] at hb
    omega

def addDirectory (d : Disk) (loc : Location) : Disk :=
  { d with
    entries := d.entries ++ [(loc, .directory)]
    named_lt := by simpa [namedNodes, Entry.node?] using d.named_lt
    named_nodup := by simpa [namedNodes, Entry.node?] using d.named_nodup }

/-- the disk with some of its entries only -/
def keep (d : Disk) (p : Location → Bool) : Disk :=
  have sub : (namedNodes (d.entries.filter fun e => p e.1)).Sublist (namedNodes d.entries) :=
    List.filter_sublist.filterMap _
  { d with
    entries := d.entries.filter fun e => p e.1
    named_lt := fun node h => d.named_lt node (sub.subset h)
    named_nodup := d.named_nodup.sublist sub }

/-- the disk without one name -/
def erase (d : Disk) (loc : Location) : Disk := d.keep (· != loc)

/-- where a list of names leads; all but the last one must be those of directories -/
def walk (d : Disk) : Location → List String → Except Errno Location
  | loc, [] => .ok loc
  | loc, name :: rest =>
    match d.entry? loc with
    | none => .error .noEntry
    | some (.file _) => .error .notDirectory
    | some .directory => walk d (loc.enter name) rest

/-- the place that a path names, whether or not there is something -/
def locate (d : Disk) (path : String) : Except Fault Location :=
  if path.toList.contains '\x00' then .error .nulInPath
  else if path.isEmpty then .error (.system .noEntry)
  else (d.walk [] (Path.parts path)).mapError .system

/-- what is at a path; only a directory may be named with a slash behind it -/
def lookup (d : Disk) (path : String) : Except Fault (Location × Entry) := do
  let loc ← d.locate path
  match d.entry? loc with
  | none => throw (.system .noEntry)
  | some (.file node) =>
    if Path.endsWithSlash path then throw (.system .notDirectory) else return (loc, .file node)
  | some .directory => return (loc, .directory)

/-- there is something at a path -/
def isThere (d : Disk) (path : String) : Bool := (d.lookup path).isOk

/-- open a file to be written; a name with a slash behind it is no file's -/
def openForWriting (d : Disk) (path : String) : Except Fault (Nat × Disk) := do
  let loc ← d.locate path
  if Path.endsWithSlash path then throw (.system .isDirectory)
  match d.entry? loc with
  | some .directory => throw (.system .isDirectory)
  | some (.file node) => return (node, d)
  | none => return (d.nodes.size, d.addFile loc)

/-- the disk without the name of a file -/
def removeFile (d : Disk) (path : String) : Except Fault Disk := do
  match ← d.lookup path with
  | (_, .directory) => throw (.system .isDirectory)
  | (loc, .file _) => return d.erase loc

/-- bytes written over others from a place on; a gap before that place is filled with zeros. No bytes fill no gap -/
def overwrite (old : Bytes) (place : Nat) (bytes : Bytes) : Bytes :=
  if bytes.isEmpty then old
  else old.take place ++ List.replicate (place - old.length) 0 ++ bytes ++ old.drop (place + bytes.length)

/-- the length that is told of a directory -/
def directoryLength : Nat := 4096

end Disk

/-- a call of a program to the file system -/
inductive Call where
  | exists_ (path : String)
  | openAs (path : String) (access : Access)
  | length (h : Handle)
  | rewind (h : Handle)
  | read (h : Handle) (place : Nat)
  | write (h : Handle) (place : Nat) (bytes : Bytes)
  | empty (h : Handle)
  | sync (h : Handle)
  | remove (path : String)

namespace Call

/-- what a call answers with -/
@[reducible] def Reply : Call → Type
  | .exists_ _ => Bool
  | .openAs _ _ => Except Fault Handle
  | .length _ => Except Fault Nat
  | .read _ _ => Except Fault Bytes
  | .rewind _ | .write _ _ _ | .empty _ | .sync _ | .remove _ => Except Fault Unit

/-- an answer and the disk after it; the disk stays as it was where a call fails -/
def settle {α : Type} (d : Disk) : Except Fault (α × Disk) → Except Fault α × Disk
  | .ok (a, d) => (.ok a, d)
  | .error fault => (.error fault, d)

def execOpen (d : Disk) (path : String) : Access → Except Fault (Handle × Disk)
  | .read => do
    let (_, entry) ← d.lookup path
    return ({ entry, writable := false }, d)
  | .update => do
    let (node, d) ← d.openForWriting path
    return ({ entry := .file node, writable := true }, d)
  | .replace => do
    let (node, d) ← d.openForWriting path
    return ({ entry := .file node, writable := true }, d.setContent node [])

def execRead (d : Disk) (h : Handle) (place : Nat) : Except Fault Bytes :=
  match h.entry with
  | .directory => .error (.system .isDirectory)
  | .file node => .ok ((d.content node).drop place)

def execWrite (d : Disk) (h : Handle) (place : Nat) (bytes : Bytes) : Except Fault (Unit × Disk) :=
  match h.entry, h.writable with
  | .file node, true => .ok ((), d.setContent node (Disk.overwrite (d.content node) place bytes))
  | _, _ => .error (.system .badHandle)

def execEmpty (d : Disk) (h : Handle) : Except Fault (Unit × Disk) :=
  match h.entry, h.writable with
  | .file node, true => .ok ((), d.setContent node [])
  | _, _ => .error (.system .invalidArgument)

def execRemove (d : Disk) (path : String) : Except Fault (Unit × Disk) := do
  return ((), ← d.removeFile path)

def execLength (d : Disk) (h : Handle) : Nat :=
  match h.entry with
  | .directory => Disk.directoryLength
  | .file node => (d.content node).length

/-- what a call answers, and the disk after it -/
def exec : (c : Call) → Disk → c.Reply × Disk
  | .exists_ path, d => (d.isThere path, d)
  | .openAs path access, d => settle d (execOpen d path access)
  | .length h, d => (.ok (execLength d h), d)
  | .rewind _, d => (.ok (), d)
  | .read h place, d => (execRead d h place, d)
  | .write h place bytes, d => settle d (execWrite d h place bytes)
  | .empty h, d => settle d (execEmpty d h)
  | .sync _, d => (.ok (), d)
  | .remove path, d => settle d (execRemove d path)

end Call
end TableStore
