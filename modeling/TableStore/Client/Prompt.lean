/-
The interactive prompt: a query on every line of the input, until a line says `exit` or the input ends.

Lines are trimmed of white space and empty ones skipped. An error of the server is told and the prompt goes on; any
other failure ends it. `turn` is what one line leads to, and `run` takes turns as long as there are lines.
-/
import TableStore.Client.Session
import TableStore.Text.Blank

namespace TableStore.Prompt

/-- what is written before every line is read -/
def mark : Bytes := Text.utf8 "flatdb> "

/-- how a failure is told -/
def told (e : ClientError) : String := "flatdb: " ++ e.message ++ "\n"

/-- the line that ends the prompt, in any letter case -/
def isExit (line : List Char) : Bool := line.map Char.toLower == "exit".toList

/-- what one line leads to: outputs and a client to go on with, or the end -/
inductive Turn where
  | next (c : Client) (output : Bytes) (errors : String)
  | stop (result : Except ClientError Unit)

/-- the turn of a query -/
def ask (format : Format) (c : Client) (query : String) : Program Turn := do
  match ← c.runQuery format query with
  | (.ok bytes, c) => return .next c bytes ""
  | (.error (.server text), c) => return .next c [] (told (.server text))
  | (.error e, _) => return .stop (.error e)

/-- the turn of one line -/
def turn (format : Format) (c : Client) (line : Bytes) : Program Turn := do
  match (Text.ofUtf8? line).map fun s => Text.trim s.toList with
  | none => return .stop (.error (.output .notText))
  | some line =>
    if line.isEmpty then return .next c [] ""
    else if isExit line then return .stop (.ok ())
    else ask format c (String.ofList line)

/-- what a session at the prompt leaves: both outputs and the result -/
structure Transcript where
  output : Bytes
  errors : String
  result : Except ClientError Unit

/-- a transcript with outputs from before it -/
def Transcript.after (output : Bytes) (errors : String) (t : Transcript) : Transcript :=
  { t with output := output ++ t.output, errors := errors ++ t.errors }

/-- the prompt over the lines to be read -/
def run (format : Format) : Client → List Bytes → Program Transcript
  | _, [] => return { output := mark, errors := "", result := .ok () }
  | c, line :: rest => do
    match ← turn format c line with
    | .next c output errors => return (← run format c rest).after (mark ++ output) errors
    | .stop result => return { output := mark, errors := "", result }

/-- the lines of an input; its last line need not be ended -/
def lines (input : Bytes) : List Bytes :=
  let pieces := input.splitOn 0x0a
  if pieces.getLast? = some [] then pieces.dropLast else pieces

end TableStore.Prompt
