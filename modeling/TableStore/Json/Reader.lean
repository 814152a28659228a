/-
Reading JSON documents of any shape, with text in all their strings and at most 127 arrays and objects inside one
another.
-/
import TableStore.Json.Shapes

namespace TableStore.Json

/-- a value in which `depth` arrays and objects may stand inside one another -/
def value : Nat → Reading Json
  | 0 => do
    let b ← Reading.token
    if b = 0x5b ∨ b = 0x7b then Reading.stopNext .tooDeep else Reading.scalar b
  | depth + 1 => do
    let b ← Reading.token
    if b = 0x5b then return .array (← Reading.list (value depth))
    else if b = 0x7b then return .object (← Reading.map (value depth))
    else Reading.scalar b

/-- the depth up to which documents may be nested -/
def maxDepth : Nat := 127

/-- the value that bytes write -/
def read (bytes : Bytes) : Except Fault Json := (value maxDepth).document bytes

end TableStore.Json
