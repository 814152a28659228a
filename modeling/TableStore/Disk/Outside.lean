/-
What others do to a disk while a store works on it: they put files and directories there and take them away.

An open handle is not told: it keeps its node, reads what was put into it, and outlives its name.
-/
import TableStore.Disk.Basic

namespace TableStore.Disk

/-- the disk with some content in the file at a path, which is made if it is missing -/
def put (d : Disk) (path : String) (bytes : Bytes) : Except Fault Disk := do
  let (node, d) ← d.openForWriting path
  return d.setContent node bytes

/-! ## Directories -/

/-- make one directory, in one that is there -/
def makeOne (d : Disk) (names : List String) : Except Errno Disk := do
  let loc ← d.walk [] names
  match d.entry? loc with
  | none => return d.addDirectory loc
  | some _ => throw .alreadyExists

/-- where names lead there is a directory -/
def isDirectory (d : Disk) (names : List String) : Bool :=
  match d.walk [] names with
  | .ok loc => d.entry? loc == some .directory
  | .error _ => false

/-- names, the last one first, without the dots behind them, which lead nowhere -/
def undotted (names : List String) : List String := names.dropWhile (· == ".")

/-- the names, the last one first, of the directory that some names are in -/
def above (names : List String) : List String := undotted (undotted names).tail

theorem undotted_length_le (names : List String) : (undotted names).length ≤ names.length :=
  (List.dropWhile_suffix _).length_le

theorem above_length_lt {name : String} {names : List String} :
    (above (name :: names)).length < (name :: names).length := by
  have whole := undotted_length_le (name :: names)
  have upper := undotted_length_le (undotted (name :: names)).tail
  simp only [above, List.length_tail, List.length_cons] at *
  omega

/-- make a directory where the names lead, the last one first, and those above it that are missing. What was made stays
also where a later one cannot be made -/
def makeAlong (d : Disk) : List String → Except Errno Unit × Disk
  | [] => (.ok (), d)
  | name :: names =>
    let all := (name :: names).reverse
    let attempt (d : Disk) : Except Errno Unit × Disk :=
      match d.makeOne all with
      | .ok d => (.ok (), d)
      | .error e => (if d.isDirectory all then .ok () else .error e, d)
    match attempt d with
    | (.error .noEntry, _) =>
      match makeAlong d (above (name :: names)) with
      | (.ok (), d) => attempt d
      | failed => failed
    | result => result
termination_by names => names.length
decreasing_by exact above_length_lt

/-- make a directory at a path, and those above it that are missing -/
def makeDirectory (d : Disk) (path : String) : Except Fault Unit × Disk :=
  if path.toList.contains '\x00' then (.error .nulInPath, d)
  else
    let (result, d) := d.makeAlong (Path.parts path).reverse
    (result.mapError .system, d)

/-- remove all that is in a directory, and then it too, if its name still leads there and does not end in a dot -/
def removeDirectory (d : Disk) (path : String) : Except Fault Unit × Disk :=
  match d.lookup path with
  | .error fault => (.error fault, d)
  | .ok (_, .file _) => (.error (.system .notDirectory), d)
  | .ok (loc, .directory) =>
    let emptied := d.keep fun e => !(loc.isPrefixOf e && e != loc)
    if (Path.parts path).getLast? = some "." then (.error (.system .invalidArgument), emptied)
    else
      match emptied.locate path with
      | .ok _ => (.ok (), emptied.erase loc)
      | .error fault => (.error fault, emptied)

end TableStore.Disk
