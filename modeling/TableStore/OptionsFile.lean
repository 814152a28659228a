/-
The options file: options as JSON, beside the data files that they name.

A file that is not there is written with the default options. What a file says of the base path does not count: the data
files lie where the options file lies.
-/
import TableStore.Options
import TableStore.Store.Document

namespace TableStore.Options
open Json (Reading)

/-- a line for every option -/
def encode (o : Options) : Bytes :=
  Json.renderLines [("base_path", .text o.basePath), ("catalog_file_name", .text o.catalogFile),
    ("tablespace_file_name", .text o.tablespaceFile), ("server_port", .ofNat o.serverPort.toNat),
    ("server_n_worker_threads", .ofNat o.workerThreads.toNat), ("use_debug_logging", .bool o.debugLogging),
    ("test_mode", .bool o.testMode)]

def port : Reading UInt16 := Nat.toUInt16 <$> .count 0xFFFF "u16"

def threads : Reading UInt64 := Nat.toUInt64 <$> .count 0xFFFFFFFFFFFFFFFF "usize"

def fields : List (Json.Field Options) :=
  [.optional "base_path" .text fun o basePath => { o with basePath },
    .optional "catalog_file_name" .text fun o catalogFile => { o with catalogFile },
    .optional "tablespace_file_name" .text fun o tablespaceFile => { o with tablespaceFile },
    .optional "server_port" port fun o serverPort => { o with serverPort },
    .optional "server_n_worker_threads" threads fun o workerThreads => { o with workerThreads },
    .optional "use_debug_logging" .flag fun o debugLogging => { o with debugLogging },
    .optional "test_mode" .flag fun o testMode => { o with testMode }]

/-- options that the file does not give have their defaults -/
def reading : Reading Options := .record "FlatDbOptions" fields {}

def decode (bytes : Bytes) : Except Json.Fault Options := reading.document bytes

/-- the options in a file that is there -/
def readFile (path : String) : StoreM Options := do
  let file ← Document.openAs .options path .readOnly
  Document.decoded .options file decode (← Document.bytes .options file)

/-- the default options, put into a new file -/
def writeFile (path : String) : StoreM Options := do
  let file ← Document.guarded (.cannotWrite .options path) (DataFile.create path .readWrite (encode {}))
  Document.guarded (.cannotWrite .options path) (file.outcome DataFile.sync)
  return {}

/-- the directory of a file, as the base path of its data files -/
def baseOf (path : String) : String :=
  match Path.parent? path with
  | some parent => if parent.isEmpty then "." else parent
  | none => "."

/-- the options of a server, from its options file and from the variable that switches the test mode on -/
def load (path : String) (testVariable : Option String) : StoreM Options := do
  let there ← (Program.perform (.exists_ path) : Program Bool)
  let options ← if there then readFile path else writeFile path
  return { options with
    basePath := baseOf path
    testMode := options.testMode || testVariable == some "1" }

end TableStore.Options
