/-
Numbers of JSON: how they are written, and which numbers they are.

An integer that a 64-bit word holds is exact, but for minus zero, which only a double has. Of any other number, at most
as many digits count as a word holds: the whole part is cut behind them, and so is the fraction. The digits that count
make a double, which is then multiplied or divided by a power of ten.
-/
import TableStore.Json.Reading

namespace TableStore.Json

/-- a number as it is written, behind its sign -/
structure Numeral where
  whole : Bytes
  fraction : Bytes := []
  /-- the exponent's digits, if there is one, and whether it is negative -/
  exponent : Option (Bool × Bytes) := none

namespace Reading

/-! ## Notation -/

/-- one digit or more, none behind a zero; `ended` is what an end inside a number is called -/
def wholePart (ended : Cause) : Reading Bytes := do
  match ← take? with
  | none => stop ended
  | some b =>
    if b = 0x30 then
      if (← next?).any isDigit then stopNext .badNumber else return [b]
    else if isDigit b then return b :: (← takeWhile isDigit)
    else stop .badNumber

/-- the digits behind a point, if there is one -/
def fractionPart (ended : Cause) : Reading Bytes := do
  if (← next?) = some 0x2e then
    skip
    let digits ← takeWhile isDigit
    if digits.isEmpty then stopNext (if (← next?).isSome then .badNumber else ended) else return digits
  else return []

/-- the sign of an exponent; whether it is a minus -/
def exponentSign : Reading Bool := do
  let sign ← next?
  if sign = some 0x2b ∨ sign = some 0x2d then skip
  return sign == some 0x2d

/-- an exponent, if there is one -/
def exponentPart (ended : Cause) : Reading (Option (Bool × Bytes)) := do
  if (← next?).any fun b => b == 0x65 || b == 0x45 then
    skip
    let negative ← exponentSign
    match ← take? with
    | none => stop ended
    | some b => if isDigit b then return some (negative, b :: (← takeWhile isDigit)) else stop .badNumber
  else return none

def numeral (ended : Cause) : Reading Numeral := do
  return { whole := ← wholePart ended, fraction := ← fractionPart ended, exponent := ← exponentPart ended }

end Reading

/-! ## Value -/

namespace Numeral

/-- a number with digits put behind it as long as it stays within `most`, and the digits that were not -/
def absorb (most : Nat) : Nat → Bytes → Nat × Bytes
  | n, [] => (n, [])
  | n, b :: rest =>
    let next := 10 * n + (b - 0x30).toNat
    if next ≤ most then absorb most next rest else (n, b :: rest)

/-- the greatest number in 64 bits -/
def maxWord : Nat := 0xFFFFFFFFFFFFFFFF

/-- the greatest number that 64 bits with a sign hold behind a minus -/
def maxNegative : Nat := 0x8000000000000000

/-- the greatest exponent that is told apart from greater ones -/
def maxExponent : Nat := 0x7FFFFFFF

/-- the digits of whole part and fraction that count, as a number, and the power of ten they are multiplied by -/
def significand (n : Numeral) : Nat × Int :=
  let (whole, cut) := absorb maxWord 0 n.whole
  let (all, ignored) := absorb maxWord whole n.fraction
  (all, (cut.length : Int) - (n.fraction.length - ignored.length : Nat))

/-- the integer that a numeral writes, if it is an integer and in range -/
def integer? (negative : Bool) (n : Numeral) : Option Int :=
  let (whole, cut) := absorb maxWord 0 n.whole
  if n.fraction.isEmpty && n.exponent.isNone && cut.isEmpty then
    if !negative then some whole
    else if 0 < whole ∧ whole ≤ maxNegative then some (-whole)
    else none
  else none

def powerOfTen (n : Nat) : Float := Float.ofScientific 1 false n

/-- a double divided by a power of ten, by at most `10 ^ 308` at once -/
def dividedByPower (x : Float) (n : Nat) : Float :=
  if n ≤ 308 then x / powerOfTen n
  else if x == 0 then x
  else dividedByPower (x / powerOfTen 308) (n - 308)
termination_by n

/-- a double times a power of ten; none if it is too large -/
def scaled? (x : Float) : Int → Option Float
  | .ofNat n =>
    if n ≤ 308 then
      let y := x * powerOfTen n
      if y.isInf then none else some y
    else if x == 0 then some x
    else none
  | .negSucc n => some (dividedByPower x (n + 1))

end Numeral

namespace Reading

/-- the power of ten that an exponent writes, none if it is so far below zero that nothing is left of a number. One that
is far above zero is a fault at the digit that makes it so, unless it multiplies a zero -/
def exponentOf (isZero negative : Bool) (digits : Bytes) : Reading (Option Int) := do
  match Numeral.absorb Numeral.maxExponent 0 digits with
  | (n, []) => return some (if negative then -n else n)
  | (_, _ :: rest) =>
    if isZero || negative then return none
    else throw ⟨.numberTooLarge, (← get).length + rest.length⟩

/-- the double that a numeral writes -/
def floatOf (n : Numeral) : Reading Float := do
  let (significand, power) := n.significand
  let exponent ← match n.exponent with
    | none => pure (some 0)
    | some (negative, digits) => exponentOf (significand == 0) negative digits
  match exponent with
  | none => return 0
  | some exponent =>
    match Numeral.scaled? (Float.ofNat significand) (power + exponent) with
    | some x => return x
    | none => stop .numberTooLarge

/-- a number behind its sign -/
def number (negative : Bool) : Reading Number := do
  let n ← numeral .endInValue
  match n.integer? negative with
  | some i => return .integer i
  | none =>
    let x ← floatOf n
    return .float (if negative then -x else x)

end Reading
end TableStore.Json
