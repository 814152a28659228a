/-
The command line: queries on the tables that lie beside an options file.

    [--json] [--options PATH] [QUERY]

Without a query the prompt is started. Programs of the store run here on the file system of the machine: `perform` does
for a call what `Call.exec` says of it. Everything else is decided elsewhere.
-/
import TableStore.Client.Prompt
import TableStore.OptionsFile

namespace TableStore.Main

/-- the open files; the node of a handle is its place among them -/
abbrev Host := StateT (Array IO.FS.Handle) IO

/-- what the machine refused -/
def faultOf : IO.Error → Fault
  | .noFileOrDirectory .. => .system .noEntry
  | .alreadyExists .. => .system .alreadyExists
  | .inappropriateType _ 20 _ => .system .notDirectory
  | .inappropriateType .. => .system .isDirectory
  | .invalidArgument _ 9 _ => .system .badHandle
  | .invalidArgument .. => .system .invalidArgument
  | e => .custom .other (toString e)

/-- run something on the machine; its failure is an answer too -/
def attempt {α : Type} (act : IO α) : Host (Except Fault α) := do
  try return .ok (← act)
  catch e => return .error (faultOf e)

/-- a new or emptied file, to be read and written -/
def openEmpty (path : String) : IO IO.FS.Handle := do
  discard <| IO.FS.Handle.mk path .write
  IO.FS.Handle.mk path .readWrite

def openHandle (path : String) : Access → IO IO.FS.Handle
  | .read => IO.FS.Handle.mk path .read
  | .replace => openEmpty path
  | .update =>
    try IO.FS.Handle.mk path .readWrite
    catch
      | .noFileOrDirectory .. => openEmpty path
      | e => throw e

/-- do something with the open file of a handle -/
def onOpen {α : Type} (h : Handle) (act : IO.FS.Handle → IO α) : Host (Except Fault α) := do
  match h.entry with
  | .directory => return .error (.system .isDirectory)
  | .file node =>
    match (← get)[node]? with
    | some file => attempt (act file)
    | none => return .error (.system .badHandle)

/-- all bytes of an open file, from its start -/
def contentOf (file : IO.FS.Handle) : IO Bytes := do
  file.rewind
  return (← file.readBinToEnd).data.toList

/-- put bytes in the place of all that an open file holds -/
def setContentOf (file : IO.FS.Handle) (bytes : Bytes) : IO Unit := do
  file.rewind
  file.truncate
  file.write ⟨bytes.toArray⟩
  file.flush

/-- what a call answers on this machine -/
def perform : (c : Call) → Host c.Reply
  | .exists_ path => do return (← attempt (IO.FS.Handle.mk path .read)).isOk
  | .openAs path access => do
    match ← attempt (openHandle path access) with
    | .error fault => return .error fault
    | .ok file =>
      let node := (← get).size
      modify (·.push file)
      return .ok { entry := .file node, writable := access ≠ .read }
  | .length h => onOpen h fun file => List.length <$> contentOf file
  | .rewind h => onOpen h IO.FS.Handle.rewind
  | .read h place => onOpen h fun file => List.drop place <$> contentOf file
  | .write h place bytes => onOpen h fun file => do
    setContentOf file (Disk.overwrite (← contentOf file) place bytes)
  | .empty h => onOpen h fun file => setContentOf file []
  | .sync h => onOpen h IO.FS.Handle.flush
  | .remove path => attempt (IO.FS.removeFile path)

/-- run a program of the store on this machine -/
def runOn {α : Type} : Program α → Host α
  | .done a => return a
  | .call c next => do runOn (next (← perform c))

/-- the command line, read -/
structure Arguments where
  format : Format := .table
  optionsPath : Option String := none
  query : Option String := none

def Arguments.read (a : Arguments) : List String → Option Arguments
  | [] => some a
  | "--json" :: rest => read { a with format := .json } rest
  | "--options" :: path :: rest => read { a with optionsPath := some path } rest
  | query :: rest =>
    if a.query.isSome || query.startsWith "--" then none else read { a with query := some query } rest

/-- write what a query printed, or tell why it printed nothing; the answer is the exit code -/
def deliver (result : Except ClientError Bytes) : IO UInt32 := do
  match result with
  | .ok bytes =>
    (← IO.getStdout).write ⟨bytes.toArray⟩
    return 0
  | .error e =>
    IO.eprint (Prompt.told e)
    return 1

/-- read lines and take turns until one of them is the last -/
partial def prompt (format : Format) (c : Client) : Host UInt32 := do
  let stdout ← IO.getStdout
  stdout.write ⟨Prompt.mark.toArray⟩
  stdout.flush
  let line ← (← IO.getStdin).getLine
  if line.isEmpty then return 0
  match ← runOn (Prompt.turn format c (Text.utf8 line)) with
  | .next c output errors =>
    stdout.write ⟨output.toArray⟩
    IO.eprint errors
    prompt format c
  | .stop result => deliver (result.map fun _ => [])

/-- open the tables beside the options file, and answer one query or many -/
def start (a : Arguments) : Host UInt32 := do
  let testVariable ← IO.getEnv "FLATDB_TEST"
  let optionsVariable ← IO.getEnv "FLATDB_OPTIONS_PATH"
  let path := (a.optionsPath.or optionsVariable).getD "flatdb.options.json"
  let opened := do Database.openWith (← Options.load path testVariable)
  match ← runOn opened.run with
  | .error e =>
    IO.eprintln ("flatdb: " ++ e.message)
    return 1
  | .ok db =>
    let format := if testVariable == some "1" then .json else a.format
    match a.query with
    | none => prompt format (.connect db)
    | some query => deliver (← runOn ((Client.connect db).runQuery format query)).1

end TableStore.Main

/-- one query or a prompt, as the arguments say -/
def main (arguments : List String) : IO UInt32 := do
  match TableStore.Main.Arguments.read {} arguments with
  | some a => (TableStore.Main.start a).run' #[]
  | none =>
    IO.eprintln "usage: [--json] [--options PATH] [QUERY]"
    return 2
