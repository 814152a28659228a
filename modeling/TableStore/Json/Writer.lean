/-
Writing JSON: compact, with members in their order.

In strings a quote and a backslash stand behind a backslash, the control characters U+0000 to U+001F have their short
form or their number in four hexadecimal digits, and every other byte of the text stands for itself.
-/
import TableStore.Json.Basic

namespace TableStore.Json

/-- a hexadecimal digit in lower case -/
def hexDigit (n : UInt8) : UInt8 := if n < 10 then 0x30 + n else 0x57 + n

def escaped (b : UInt8) : Bytes :=
  if b = 0x22 then [0x5c, 0x22]
  else if b = 0x5c then [0x5c, 0x5c]
  else if b = 0x08 then [0x5c, 0x62]
  else if b = 0x09 then [0x5c, 0x74]
  else if b = 0x0a then [0x5c, 0x6e]
  else if b = 0x0c then [0x5c, 0x66]
  else if b = 0x0d then [0x5c, 0x72]
  else if b < 0x20 then [0x5c, 0x75, 0x30, 0x30, hexDigit (b / 16), hexDigit (b % 16)]
  else [b]

/-- a text with its quotes -/
def renderText (s : String) : Bytes := 0x22 :: (Text.utf8 s).flatMap escaped ++ [0x22]

mutual

def render : Json → Bytes
  | .null => Text.utf8 "null"
  | .bool true => Text.utf8 "true"
  | .bool false => Text.utf8 "false"
  | .number n => Text.utf8 n.text
  | .text s => renderText s
  | .array items => 0x5b :: renderItems items ++ [0x5d]
  | .object members => 0x7b :: renderMembers members ++ [0x7d]

/-- values with commas between them -/
def renderItems : List Json → Bytes
  | [] => []
  | [v] => render v
  | v :: rest => render v ++ 0x2c :: renderItems rest

/-- members with commas between them -/
def renderMembers : List (String × Json) → Bytes
  | [] => []
  | [(key, v)] => renderText key ++ 0x3a :: render v
  | (key, v) :: rest => renderText key ++ 0x3a :: render v ++ 0x2c :: renderMembers rest

end

/-- an object with a member on every line, two spaces from the margin -/
def renderLines (members : List (String × Json)) : Bytes :=
  let line := fun (key, v) => [0x20, 0x20] ++ renderText key ++ [0x3a, 0x20] ++ render v
  [0x7b, 0x0a] ++ [0x2c, 0x0a].intercalate (members.map line) ++ [0x0a, 0x7d]

end TableStore.Json
