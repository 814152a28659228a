/-
What is wrong with a JSON document, and where.

A fault is a cause and a place. The place is a line, counted from one, and a column, which is how many bytes of that
line stand before the place.
-/
import TableStore.Json.Basic
import TableStore.Text.Quoted

namespace TableStore.Json

/-- what a document has instead of what was expected; of an array or object only that it is one counts -/
def described : Json → String
  | .null => "null"
  | .bool b => "boolean `" ++ (if b then "true" else "false") ++ "`"
  | .number (.integer n) => "integer `" ++ toString n ++ "`"
  | .number (.float x) => "floating point `" ++ Decimal.ofFloat x ++ "`"
  | .text s => "string " ++ Text.quoted s
  | .array _ => "sequence"
  | .object _ => "map"

inductive Cause where
  | endInList | endInObject | endInString | endInValue
  | noValue | noWord | noColon | noCommaInList | noCommaInObject | keyNotString
  | trailingComma | trailingBytes
  | badNumber | numberTooLarge
  | badEscape | controlCharacter | halfPair | loneHalf | notText
  | tooDeep
  | wrongType (found : Json) (expected : String)
  | wrongValue (found : Json) (expected : String)
  | wrongLength (length : Nat) (expected : String)
  | missingField (name : String)
  | repeatedField (name : String)

namespace Cause

def message : Cause → String
  | .endInList => "EOF while parsing a list"
  | .endInObject => "EOF while parsing an object"
  | .endInString => "EOF while parsing a string"
  | .endInValue => "EOF while parsing a value"
  | .noValue => "expected value"
  | .noWord => "expected ident"
  | .noColon => "expected `:`"
  | .noCommaInList => "expected `,` or `]`"
  | .noCommaInObject => "expected `,` or `\x7d`"
  | .keyNotString => "key must be a string"
  | .trailingComma => "trailing comma"
  | .trailingBytes => "trailing characters"
  | .badNumber => "invalid number"
  | .numberTooLarge => "number out of range"
  | .badEscape => "invalid escape"
  | .controlCharacter => "control character (\\u0000-\\u001F) found while parsing a string"
  | .halfPair => "unexpected end of hex escape"
  | .loneHalf => "lone leading surrogate in hex escape"
  | .notText => "invalid unicode code point"
  | .tooDeep => "recursion limit exceeded"
  | .wrongType found expected => "invalid type: " ++ found.described ++ ", expected " ++ expected
  | .wrongValue found expected => "invalid value: " ++ found.described ++ ", expected " ++ expected
  | .wrongLength length expected => "invalid length " ++ toString length ++ ", expected " ++ expected
  | .missingField name => "missing field `" ++ name ++ "`"
  | .repeatedField name => "duplicate field `" ++ name ++ "`"

end Cause

structure Fault where
  cause : Cause
  line : Nat
  column : Nat

namespace Fault

/-- a fault behind the bytes that stand before it in the document -/
def behind (before : Bytes) (cause : Cause) : Fault where
  cause
  line := before.count 0x0a + 1
  column := (before.reverse.takeWhile (· != 0x0a)).length

def message (f : Fault) : String :=
  f.cause.message ++ " at line " ++ toString f.line ++ " column " ++ toString f.column

end Fault
end TableStore.Json
