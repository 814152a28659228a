/-
Responses: a byte that says which of three forms follows, and then a message, a header with rows, or an error with its
number. Rows may be of any lengths on the wire; those of a select are all as long as the header.
-/
import TableStore.Database
import TableStore.Wire.Stream

namespace TableStore

inductive Response where
  | message (text : String)
  | rows (header : List String) (rows : List (List String))
  | error (number : UInt8) (text : String)
  deriving DecidableEq

namespace Response

def ofError (e : Error) : Response := .error e.number e.message

/-- the records of a select make rows, under the columns of the first one; no records are told in a message -/
def ofAnswer : Answer → Response
  | .records (first :: rest) => .rows first.columns ((first :: rest).map (·.values))
  | a => .message a.message

def encode : Response → Bytes
  | .message text => 1 :: Wire.text text
  | .rows header rs => 2 :: Wire.texts header ++ Wire.number rs.length ++ rs.flatMap Wire.texts
  | .error number text => 3 :: number :: Wire.text text

def readText : Reader String := Wire.require .invalidResponse Wire.readText

def readCount : Reader Nat := Wire.require .invalidResponse Wire.readCount

def readTexts : Reader (List String) := do
  Wire.manyAfter readText (← readCount) []

/-- the next response -/
def read : Reader Response := do
  let tag ← Wire.readByte
  if tag = 1 then return .message (← readText)
  else if tag = 2 then
    let header ← readTexts
    return .rows header (← Wire.manyAfter readTexts (← readCount) [])
  else if tag = 3 then
    let number ← Wire.readByte
    return .error number (← readText)
  else throw .invalidResponse

end Response
end TableStore
