/-
Data files: small documents that are read and saved as a whole.

`saveWrite` keeps the old content in a backup beside the file until the new one is written and synced; a backup found at
opening is therefore a save that did not finish, and `openAs` puts its content back. A file keeps a position of its
own, at which it writes, and a count of its bytes, which is the program's and not the file system's.
-/
import TableStore.Disk.Program

namespace TableStore

/-- how the store opens a file -/
inductive Mode where
  | readWrite | readOnly
  deriving DecidableEq

def Mode.access : Mode → Access
  | .readWrite => .update
  | .readOnly => .read

structure DataFile where
  path : String
  mode : Mode
  handle : Handle
  position : Nat
  size : Nat
  deriving DecidableEq

/-- programs on an open file; the file is there also after a failure -/
abbrev FileM := ExceptT Fault (StateT DataFile Program)

namespace DataFile
open Program (perform)

/-- a program that may fail, as part of one on an open file -/
def attempt {α : Type} (p : Program (Except Fault α)) : FileM α := ExceptT.mk (StateT.lift p)

/-- run a program on an open file -/
def run {α : Type} (f : DataFile) (op : FileM α) : Program (Except Fault α × DataFile) := StateT.run (ExceptT.run op) f

/-- the outcome of a program on an open file that is not used after it -/
def outcome {α : Type} (f : DataFile) (op : FileM α) : ExceptT Fault Program α := ExceptT.mk ((·.1) <$> f.run op)

/-- the whole content; the position is behind it afterwards -/
def readAll : FileM Bytes := do
  let f ← get
  attempt (perform (.rewind f.handle))
  let bytes ← attempt (perform (.read f.handle 0))
  set { f with position := bytes.length }
  return bytes

/-- drop the whole content -/
def clear : FileM Unit := do
  let f ← get
  set { f with size := 0 }
  attempt (perform (.empty f.handle))
  attempt (perform (.rewind f.handle))
  set { f with size := 0, position := 0 }

/-- write at the position; the count grows before the write is tried, and no bytes need no write -/
def write (bytes : Bytes) : FileM Unit := do
  let f ← get
  let grown := { f with size := f.size + bytes.length }
  set grown
  unless bytes.isEmpty do
    attempt (perform (.write f.handle f.position bytes))
    set { grown with position := f.position + bytes.length }

def sync : FileM Unit := do
  attempt (perform (.sync (← get).handle))

/-- remove the name of the file; the open file keeps its content -/
def delete : FileM Unit := do
  attempt (perform (.remove (← get).path))

/-- copy a regular file over another one -/
def copy (source target : String) : ExceptT Fault Program Unit := do
  let old ← ExceptT.mk (perform (.openAs source .read))
  if old.entry = .directory then throw .notRegular
  let new ← ExceptT.mk (perform (.openAs target .replace))
  let bytes ← ExceptT.mk (perform (.read old 0))
  unless bytes.isEmpty do ExceptT.mk (perform (.write new 0 bytes))

/-- put new content in the place of the old one, which a backup keeps until the new one is safe -/
def saveWrite (bytes : Bytes) : FileM Unit := do
  let f ← get
  match f.mode with
  | .readOnly => throw .readOnly
  | .readWrite =>
    attempt (copy f.path (Path.backup f.path))
    clear
    write bytes
    sync
    attempt (perform (.remove (Path.backup f.path)))

/-- open a file as it is -/
def openPlain (path : String) (mode : Mode) : ExceptT Fault Program DataFile := do
  let handle ← ExceptT.mk (perform (.openAs path mode.access))
  let size ← ExceptT.mk (perform (.length handle))
  return { path, mode, handle, position := 0, size }

/-- put the content of a backup back, if there is one, and remove the backup -/
def recover : FileM Unit := do
  let backupPath := Path.backup (← get).path
  if ← (perform (.exists_ backupPath) : Program Bool) then
    let backup ← attempt (openPlain backupPath .readOnly)
    let bytes ← attempt (backup.outcome readAll)
    clear
    write bytes
    sync
    attempt (backup.outcome delete)

/-- open a file, restored from its backup if it is to be written and is no backup itself -/
def openAs (path : String) (mode : Mode) : ExceptT Fault Program DataFile := do
  let f ← openPlain path mode
  match mode with
  | .readOnly => return f
  | .readWrite =>
    if Path.isBackup path then return f
    let (result, f) ← (f.run recover : Program (Except Fault Unit × DataFile))
    result.map fun _ => f

/-- open a file and write at its start (behind its content, if that came from a backup) -/
def create (path : String) (mode : Mode) (bytes : Bytes) : ExceptT Fault Program DataFile := do
  let f ← openAs path mode
  let (result, f) ← (f.run (write bytes) : Program (Except Fault Unit × DataFile))
  result.map fun _ => f

end DataFile
end TableStore
