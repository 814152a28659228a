/-
JSON values: what the store's files and a client's output are made of.

A number is an integer where a 64-bit word holds it and it is written as one; any other number is a double.
-/
import TableStore.Decimal.Shortest
import TableStore.Text.Bytes

namespace TableStore

namespace Json

inductive Number where
  | integer (n : Int)
  | float (x : Float)

def Number.text : Number → String
  | .integer n => toString n
  | .float x => Decimal.ofFloat x

end Json

inductive Json where
  | null
  | bool (b : Bool)
  | number (n : Json.Number)
  | text (s : String)
  | array (items : List Json)
  | object (members : List (String × Json))

namespace Json

def ofNat (n : Nat) : Json := .number (.integer n)

def ofTexts (texts : List String) : Json := .array (texts.map Json.text)

def isBlank (b : UInt8) : Bool := b == 0x20 || b == 0x09 || b == 0x0a || b == 0x0d

def isDigit (b : UInt8) : Bool := 0x30 ≤ b && b ≤ 0x39

end Json
end TableStore
