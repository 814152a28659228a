/-
Values of JSON that nobody asks for: they need only be well formed, and may be nested to any depth.

The arrays and objects that are open stand on a stack, the innermost first.
-/
import TableStore.Json.Numeral
import TableStore.Json.Strings

namespace TableStore.Json

inductive Bracket where
  | array | object

namespace Bracket

def closing : Bracket → UInt8
  | .array => 0x5d
  | .object => 0x7d

def ended : Bracket → Cause
  | .array => .endInList
  | .object => .endInObject

def noComma : Bracket → Cause
  | .array => .noCommaInList
  | .object => .noCommaInObject

end Bracket

namespace Reading

/-- a colon behind a key -/
def colon : Reading Unit := do
  match ← token? with
  | none => stopNext .endInObject
  | some b => if b = 0x3a then skip else stopNext .noColon

/-- what stands before a value inside a bracket: a key, in an object -/
def skipKey : Bracket → Reading Unit
  | .array => return
  | .object => do
    match ← token? with
    | none => stopNext .endInObject
    | some b =>
      if b = 0x22 then
        skip
        skipString
        colon
      else stopNext .keyNotString

/-- a round that goes on with a value inside these brackets, or the last one -/
abbrev Skipped := List Bracket ⊕ Unit

/-- behind a value: a comma and what stands before another value, or the end of the innermost bracket, which makes that
a value -/
def skipBehind : List Bracket → Reading Skipped
  | [] => return .inr ()
  | bracket :: outer => do
    match ← token? with
    | none => stopNext bracket.ended
    | some b =>
      if b = 0x2c then
        skip
        skipKey bracket
        return .inl (bracket :: outer)
      else if b = bracket.closing then
        skip
        skipBehind outer
      else stopNext bracket.noComma

/-- behind an opening bracket: its end, or what stands before a value -/
def skipInto (bracket : Bracket) (outer : List Bracket) : Reading Skipped := do
  skip
  match ← token? with
  | none => stopNext bracket.ended
  | some b =>
    if b = bracket.closing then
      skip
      skipBehind outer
    else
      skipKey bracket
      return .inl (bracket :: outer)

/-- a value without parts that begins with a byte -/
def skipScalar (b : UInt8) : Reading Unit := do
  if b = 0x6e then
    skip
    letters [0x75, 0x6c, 0x6c]
  else if b = 0x74 then
    skip
    letters [0x72, 0x75, 0x65]
  else if b = 0x66 then
    skip
    letters [0x61, 0x6c, 0x73, 0x65]
  else if b = 0x22 then
    skip
    skipString
  else if b = 0x2d then
    skip
    discard (numeral .badNumber)
  else if isDigit b then discard (numeral .badNumber)
  else stopNext .noValue

/-- a value, or the opening of one, inside brackets -/
def skipRound (brackets : List Bracket) : Reading Skipped := do
  let b ← token
  if b = 0x5b then skipInto .array brackets
  else if b = 0x7b then skipInto .object brackets
  else
    skipScalar b
    skipBehind brackets

def skipValue : Reading Unit := loop skipRound []

end Reading
end TableStore.Json
