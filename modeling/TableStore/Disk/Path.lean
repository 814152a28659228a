/-
Paths as texts: joining, the parent, the name of a backup, and the parts between slashes.

Nothing is normalised: `join` only adds the slash that is missing, and `parent?` only cuts off the end.
-/
namespace TableStore.Path

/-- the pieces of a text between slashes, the empty ones too -/
def pieces : List Char → List (List Char)
  | [] => [[]]
  | c :: cs =>
    if c = '/' then [] :: pieces cs
    else
      match pieces cs with
      | [] => [[c]]
      | p :: ps => (c :: p) :: ps

/-- the names along a path; empty ones lead nowhere -/
def parts (path : String) : List String :=
  ((pieces path.toList).filter (!·.isEmpty)).map String.ofList

def startsWithSlash (path : String) : Bool := path.toList.head? == some '/'

def endsWithSlash (path : String) : Bool := path.toList.getLast? == some '/'

/-- a name inside a directory; a name that starts at the root stands for itself -/
def join (base name : String) : String :=
  if startsWithSlash name then name
  else if base.isEmpty || endsWithSlash base then base ++ name
  else base ++ "/" ++ name

/-- a piece that stays where it is: nothing, or a dot -/
def isIdle (piece : List Char) : Bool := piece.isEmpty || piece == ['.']

/-- the root or the dot that a path starts with, and the rest -/
def head : List Char → List Char × List Char
  | '/' :: rest => (['/'], rest)
  | ['.'] => (['.'], [])
  | '.' :: '/' :: rest => (['.'], '/' :: rest)
  | cs => ([], cs)

/-- the directory that a path names something in: its last name cut off, and what led nowhere before it -/
def parent? (path : String) : Option String :=
  let (start, body) := head path.toList
  match (pieces body).reverse.dropWhile isIdle with
  | _ :: before =>
    some (String.ofList (start ++ ['/'].intercalate (before.dropWhile isIdle).reverse))
  | [] => if start = ['.'] then some "" else none

/-- what the name of a backup ends in -/
def backupSuffix : String := ".safe"

/-- the backup of the file at a path -/
def backup (path : String) : String := path ++ backupSuffix

def isBackup (path : String) : Bool := backupSuffix.toList.isSuffixOf path.toList

end TableStore.Path
