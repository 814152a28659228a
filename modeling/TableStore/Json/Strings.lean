/-
Strings of JSON, from behind their opening quote.

A string that is asked for must be text: its escapes are resolved, two escaped surrogates make one character, and what
comes out must be UTF-8. A string that nobody asks for need only end.
-/
import TableStore.Json.Reading

namespace TableStore.Json.Reading

/-! ## Escapes -/

def hexValue? (b : UInt8) : Option Nat :=
  if isDigit b then some (b - 0x30).toNat
  else if 0x41 ≤ b ∧ b ≤ 0x46 then some (b - 0x37).toNat
  else if 0x61 ≤ b ∧ b ≤ 0x66 then some (b - 0x57).toNat
  else none

/-- the number that hexadecimal digits write, behind one already read -/
def hexNumber? (high : Nat) : Bytes → Option Nat
  | [] => some high
  | b :: rest => (hexValue? b).bind fun n => hexNumber? (high * 16 + n) rest

/-- the 16 bits that four hexadecimal digits write -/
def unit : Reading Nat := do
  let bytes ← get
  set (bytes.drop 4)
  if bytes.length < 4 then stop .endInString
  match hexNumber? 0 (bytes.take 4) with
  | some n => return n
  | none => stop .badEscape

def isHighSurrogate (n : Nat) : Bool := 0xD800 ≤ n && n < 0xDC00

def isLowSurrogate (n : Nat) : Bool := 0xDC00 ≤ n && n < 0xE000

/-- the code point of a pair of surrogates -/
def pairedUnits (high low : Nat) : Nat := 0x10000 + (high - 0xD800) * 0x400 + (low - 0xDC00)

/-- a byte between the halves of a pair -/
def pairByte (expected : UInt8) : Reading Unit := do
  match ← take? with
  | none => stop .endInString
  | some b => if b ≠ expected then stop .halfPair

/-- the second half of a pair, with its backslash and letter -/
def lowHalf : Reading Nat := do
  pairByte 0x5c
  pairByte 0x75
  let low ← unit
  if isLowSurrogate low then return low else stop .loneHalf

/-- the code point whose units are escaped -/
def escapedPoint : Reading Nat := do
  let n ← unit
  if isLowSurrogate n then stop .loneHalf
  else if isHighSurrogate n then return pairedUnits n (← lowHalf)
  else return n

/-- what a backslash and one letter stand for -/
def shortEscape? (b : UInt8) : Option UInt8 :=
  if b = 0x22 ∨ b = 0x5c ∨ b = 0x2f then some b
  else if b = 0x62 then some 0x08
  else if b = 0x66 then some 0x0c
  else if b = 0x6e then some 0x0a
  else if b = 0x72 then some 0x0d
  else if b = 0x74 then some 0x09
  else none

/-- what follows a backslash: one letter, or the letter `u` with digits, read as told -/
def escapeWith {α : Type} (short : UInt8 → α) (long : Reading α) : Reading α := do
  match ← take? with
  | none => stop .endInString
  | some b =>
    if b = 0x75 then long
    else
      match shortEscape? b with
      | some c => return short c
      | none => stop .badEscape

/-- the bytes that an escape stands for -/
def escape : Reading Bytes :=
  escapeWith (fun b => [b]) do return Text.utf8 (Char.ofNat (← escapedPoint)).toString

/-! ## Strings -/

/-- a byte that stands for itself -/
def isPlain (b : UInt8) : Bool := b != 0x22 && b != 0x5c && 0x20 ≤ b

/-- plain bytes and an escape, or the closing quote; behind what is already read, the latest byte first -/
def piece (read : Bytes) : Reading (Bytes ⊕ Bytes) := do
  let read := (← takeWhile isPlain).reverse ++ read
  match ← take? with
  | none => stop .endInString
  | some b =>
    if b = 0x22 then return .inr read.reverse
    else if b = 0x5c then return .inl ((← escape).reverse ++ read)
    else stop .controlCharacter

/-- a string as text. If it is none, the place of the fault is counted back from the end of the string, by what was read
of it from the first byte on that is no UTF-8 -/
def string : Reading String := do
  let bytes ← loop piece []
  match Text.ofUtf8? bytes with
  | some s => return s
  | none => throw ⟨.notText, (← get).length + (Text.dropUtf8 bytes).length⟩

/-- as `piece`, of a string that nobody asks for -/
def skipPiece (_ : Unit) : Reading (Unit ⊕ Unit) := do
  let _ ← takeWhile isPlain
  match ← next? with
  | none => stop .endInString
  | some b =>
    if b = 0x22 then
      skip
      return .inr ()
    else if b = 0x5c then
      skip
      escapeWith (fun _ => ()) (discard unit)
      return .inl ()
    else stop .controlCharacter

def skipString : Reading Unit := loop skipPiece ()

end TableStore.Json.Reading
