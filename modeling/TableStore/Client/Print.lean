/-
What a client prints of a response: a message, a table or a line of JSON. An error of the server is not printed here, it
is the client's own failure.
-/
import TableStore.Client.Grid
import TableStore.Json.Writer
import TableStore.Wire.Response

namespace TableStore

/-- how rows are printed -/
inductive Format where
  | table | json
  deriving DecidableEq

/-- why a client could not do its work: the server's error, no server, or nowhere to print -/
inductive ClientError where
  | server (text : String)
  | connection (e : Error)
  | output (fault : Fault)
  deriving DecidableEq

def ClientError.message : ClientError → String
  | .server text => "run query: " ++ text
  | .connection e => "call server: " ++ e.message
  | .output fault => "write output: " ++ fault.message

/-- rows as one line of JSON -/
def jsonLine (header : List String) (rows : List (List String)) : Bytes :=
  Json.render (.object [("header", .ofTexts header), ("values", .array (rows.map Json.ofTexts))]) ++ [0x0a]

def Response.printed (format : Format) : Response → Except ClientError Bytes
  | .error _ text => .error (.server text)
  | .message text => .ok (Text.utf8 (text ++ "\n"))
  | .rows header rs =>
    match format with
    | .table => .ok (Text.utf8 (Grid.print header rs))
    | .json => .ok (jsonLine header rs)

/-- an output that takes so many bytes and then fails, or takes all -/
structure Output where
  room : Option Nat
  fault : Fault

/-- what an output takes of some bytes, and whether that is all of them -/
def Output.deliver (o : Output) (bytes : Bytes) : Bytes × Except ClientError Unit :=
  match o.room with
  | none => (bytes, .ok ())
  | some n => (bytes.take n, if n < bytes.length then .error (.output o.fault) else .ok ())

/-- print a response on an output: what it took, and the result -/
def Response.printOn (o : Output) (format : Format) (r : Response) : Bytes × Except ClientError Unit :=
  match r.printed format with
  | .error e => ([], .error e)
  | .ok bytes => o.deliver bytes

end TableStore
