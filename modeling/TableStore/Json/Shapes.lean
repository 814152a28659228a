/-
Reading values of known shapes: texts, flags, counts, lists, maps and records.

A record is an object of named fields in any order, or an array of their values in the order of the fields. Fields of
other names are skipped; none may be there twice, and one that is missing must be optional.
-/
import TableStore.Json.Skipping

namespace TableStore.Json

/-- a field of a record that is read into a value of type `σ` -/
structure Field (σ : Type) where
  name : String
  isRequired : Bool
  read : σ → Reading σ

namespace Field

def required {σ α : Type} (name : String) (value : Reading α) (put : σ → α → σ) : Field σ :=
  { name, isRequired := true, read := fun s => do return put s (← value) }

def optional {σ α : Type} (name : String) (value : Reading α) (put : σ → α → σ) : Field σ :=
  { name, isRequired := false, read := fun s => do return put s (← value) }

end Field

namespace Reading

/-! ## Values without parts -/

/-- a value without parts that begins with a byte -/
def scalar (b : UInt8) : Reading Json := do
  if b = 0x6e then
    skip
    letters [0x75, 0x6c, 0x6c]
    return .null
  else if b = 0x74 then
    skip
    letters [0x72, 0x75, 0x65]
    return .bool true
  else if b = 0x66 then
    skip
    letters [0x61, 0x6c, 0x73, 0x65]
    return .bool false
  else if b = 0x22 then
    skip
    return .text (← string)
  else if b = 0x2d then
    skip
    return .number (← number true)
  else if isDigit b then return .number (← number false)
  else stopNext .noValue

/-- a value without parts; of an array or object nothing is taken -/
def leading : Reading Json := do
  let b ← token
  if b = 0x5b then return .array []
  else if b = 0x7b then return .object []
  else scalar b

/-- a value of another type than the expected one -/
def mismatch {α : Type} (expected : String) : Reading α := do stop (.wrongType (← leading) expected)

def text : Reading String := do
  match ← leading with
  | .text s => return s
  | v => stop (.wrongType v "a string")

def flag : Reading Bool := do
  match ← leading with
  | .bool b => return b
  | v => stop (.wrongType v "a boolean")

/-- an integer from zero to `most` -/
def count (most : Nat) (expected : String) : Reading Nat := do
  match ← leading with
  | .number (.integer n) =>
    if 0 ≤ n ∧ n ≤ most then return n.toNat else stop (.wrongValue (.number (.integer n)) expected)
  | v => stop (.wrongType v expected)

/-! ## Arrays -/

/-- whether an array goes on; if so, its next value is what comes next -/
def hasItem (isFirst : Bool) : Reading Bool := do
  match ← token? with
  | none => stopNext .endInList
  | some b =>
    if b = 0x5d then return false
    else if isFirst then return true
    else if b = 0x2c then
      skip
      if (← token) = 0x5d then stopNext .trailingComma else return true
    else stopNext .noCommaInList

/-- the end of an array that has no place for more values -/
def endArray : Reading Unit := do
  match ← token? with
  | none => stopNext .endInList
  | some b =>
    if b = 0x5d then skip
    else if b = 0x2c then
      skip
      stopNext (if (← token?) = some 0x5d then .trailingComma else .trailingBytes)
    else stopNext .trailingBytes

/-- an array of values of one shape -/
def list {α : Type} (item : Reading α) : Reading (List α) := do
  if (← token) ≠ 0x5b then mismatch "a sequence"
  skip
  let round (read : List α) : Reading (List α ⊕ List α) := do
    if ← hasItem read.isEmpty then return .inl ((← item) :: read)
    else
      skip
      return .inr read.reverse
  loop round []

/-! ## Objects -/

/-- whether an object goes on; if so, the quote of its next key is what comes next -/
def hasKey (isFirst : Bool) : Reading Bool := do
  match ← token? with
  | none => stopNext .endInObject
  | some b =>
    if b = 0x7d then return false
    else if isFirst then if b = 0x22 then return true else stopNext .keyNotString
    else if b = 0x2c then
      skip
      let b ← token
      if b = 0x22 then return true
      else stopNext (if b = 0x7d then .trailingComma else .keyNotString)
    else stopNext .noCommaInObject

def key : Reading String := do
  skip
  string

/-- an object of values of one shape, under any keys -/
def map {α : Type} (value : Reading α) : Reading (List (String × α)) := do
  if (← token) ≠ 0x7b then mismatch "a map"
  skip
  let round (read : List (String × α)) : Reading (List (String × α) ⊕ List (String × α)) := do
    if ← hasKey read.isEmpty then
      let key ← key
      colon
      return .inl ((key, ← value) :: read)
    else
      skip
      return .inr read.reverse
  loop round []

/-! ## Records -/

/-- the values of fields in their order, from the field of number `i` on -/
def fieldsInOrder {σ : Type} (expected : String) : Nat → List (Field σ) → σ → Reading σ
  | _, [], s => do
    endArray
    return s
  | i, field :: rest, s => do
    if ← hasItem (i == 0) then fieldsInOrder expected (i + 1) rest (← field.read s)
    else if field.isRequired then
      skip
      stop (.wrongLength i expected)
    else fieldsInOrder expected (i + 1) rest s

/-- a field is there a second time; the fault stands at what follows its name, behind the object if that is its end -/
def repeatedField {α : Type} (name : String) : Reading α := do
  if (← token?) = some 0x7d then skip
  stop (.repeatedField name)

/-- what is read of an object of fields: the names that were there, and the value so far -/
structure Fields (σ : Type) where
  names : List String := []
  isFirst : Bool := true
  value : σ

/-- a member, which is a field or skipped, or the end of the object -/
def fieldRound {σ : Type} (fields : List (Field σ)) (s : Fields σ) : Reading (Fields σ ⊕ Fields σ) := do
  if ← hasKey s.isFirst then
    let key ← key
    match fields.find? (·.name == key) with
    | none =>
      colon
      skipValue
      return .inl { s with isFirst := false }
    | some field =>
      if s.names.contains key then repeatedField key
      colon
      return .inl { names := key :: s.names, isFirst := false, value := ← field.read s.value }
  else
    skip
    return .inr s

/-- the fields of an object in any order -/
def fieldsByName {σ : Type} (fields : List (Field σ)) (start : σ) : Reading σ := do
  let s ← loop (fieldRound fields) { value := start }
  match fields.find? fun field => field.isRequired && !s.names.contains field.name with
  | some field => stop (.missingField field.name)
  | none => return s.value

/-- how a record is called that is expected as an array -/
def recordArray {σ : Type} (name : String) (fields : List (Field σ)) : String :=
  "struct " ++ name ++ " with " ++ toString fields.length ++ (if fields.length = 1 then " element" else " elements")

/-- a record: what its fields make of `start`, whose parts stay where an optional field is missing -/
def record {σ : Type} (name : String) (fields : List (Field σ)) (start : σ) : Reading σ := do
  let b ← token
  if b = 0x5b then
    skip
    fieldsInOrder (recordArray name fields) 0 fields start
  else if b = 0x7b then
    skip
    fieldsByName fields start
  else mismatch ("struct " ++ name)

end Reading
end TableStore.Json
