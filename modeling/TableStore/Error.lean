/-
Errors of the store: causes, their numbers on the wire, and their wording.

Each layer that passes an error on may put one sentence of context in front of it; the cause stays the innermost error
(`root`), and number and closedness are those of the cause.
-/
import TableStore.Fault
import TableStore.Sql.QueryError
import TableStore.Text.Quoted

namespace TableStore

/-- the files of the store -/
inductive Document where
  | catalog | tablespace | options
  deriving DecidableEq

/-- the name of a file in messages -/
def Document.name : Document → String
  | .catalog => "catalog"
  | .tablespace => "tablespace"
  | .options => "options"

inductive Error where
  | invalidRequest
  | invalidResponse
  | network (fault : Fault)
  | illegalToken (text : String)
  | malformedQuery (text : String)
  | tableNotFound (table : String)
  | tableExists (table : String)
  | columnMismatch (text : String)
  | invalidType (type : String)
  | cannotOpen (file : Document) (path : String) (fault : Fault)
  | cannotRead (file : Document) (path : String) (fault : Fault)
  | cannotDecode (file : Document) (path : String) (text : String)
  | cannotEncode (file : Document) (text : String)
  | cannotWrite (file : Document) (path : String) (fault : Fault)
  | inContext (context : String) (inner : Error)
  deriving DecidableEq

namespace Error

/-- the innermost error -/
def root : Error → Error
  | .inContext _ inner => inner.root
  | e => e

/-- the number that stands for the cause on the wire; reading the options file counts as opening it -/
def number : Error → UInt8
  | .invalidRequest => 1
  | .invalidResponse => 2
  | .network _ => 3
  | .illegalToken _ => 4
  | .malformedQuery _ => 5
  | .tableNotFound _ => 6
  | .tableExists _ => 7
  | .columnMismatch _ => 8
  | .invalidType _ => 9
  | .cannotOpen .catalog .. => 10
  | .cannotRead .catalog .. => 11
  | .cannotDecode .catalog .. => 12
  | .cannotEncode .catalog _ => 13
  | .cannotWrite .catalog .. => 14
  | .cannotOpen .tablespace .. => 15
  | .cannotRead .tablespace .. => 16
  | .cannotDecode .tablespace .. => 17
  | .cannotEncode .tablespace _ => 18
  | .cannotWrite .tablespace .. => 19
  | .cannotOpen .options .. => 20
  | .cannotRead .options .. => 20
  | .cannotDecode .options .. => 21
  | .cannotWrite .options .. => 22
  | .cannotEncode .options _ => 23
  | .inContext _ inner => inner.number

/-- what a failed write of a file is called -/
def writing : Document → String
  | .catalog => "update catalog file "
  | .tablespace => "update tablespace file "
  | .options => "write options file "

/-- what a failed encoding of a file's content is called -/
def encoding : Document → String
  | .catalog => "encode catalog as JSON: "
  | .tablespace => "encode data into tablespace: "
  | .options => "encode options as JSON: "

/-- what a failed reading of a file is called -/
def reading : Document → String
  | .catalog => "read catalog file "
  | .tablespace => "read tablespace file "
  | .options => "open options file "

def message : Error → String
  | .invalidRequest => "invalid request binary format"
  | .invalidResponse => "invalid response binary format"
  | .network fault => "network error: " ++ fault.message
  | .illegalToken text => text
  | .malformedQuery text => text
  | .tableNotFound table => "table '" ++ table ++ "' not found"
  | .tableExists table => "table " ++ table ++ " already exists"
  | .columnMismatch text => text
  | .invalidType type => "type must be 'string' but '" ++ type ++ "'"
  | .cannotOpen file path fault => "open " ++ file.name ++ " file " ++ Text.quoted path ++ ": " ++ fault.message
  | .cannotRead file path fault => reading file ++ Text.quoted path ++ ": " ++ fault.message
  | .cannotDecode file path text => "decode " ++ file.name ++ " file " ++ Text.quoted path ++ " as JSON: " ++ text
  | .cannotEncode file text => encoding file ++ text
  | .cannotWrite file path fault => writing file ++ Text.quoted path ++ ": " ++ fault.message
  | .inContext context inner => context ++ ": " ++ inner.message

/-- the other side of a connection is gone -/
def isClosed (e : Error) : Bool :=
  match e.root with
  | .network fault => fault.kind.isClosed
  | _ => false

/-- the error of a query that is no statement -/
def ofQuery (e : QueryError) : Error :=
  if e.isIllegalToken then .illegalToken e.message else .malformedQuery e.message

end Error

/-- run something and put a sentence of context in front of its error -/
def inContext {m : Type → Type} [Monad m] {α : Type} (context : String) (run : ExceptT Error m α) :
    ExceptT Error m α :=
  ExceptT.adapt (Error.inContext context) run

end TableStore
