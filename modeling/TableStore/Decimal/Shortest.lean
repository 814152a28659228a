/-
The shortest decimal digits that read back as a binary fraction, and the text made of them.

A double stands for the whole interval of numbers that round to it. Of the decimal grids, coarse ones first, the first
that has a point in the interval gives the digits; of two points the nearer one counts, and of two at one distance the
even one. All of this is arithmetic on natural numbers.
-/
namespace TableStore.Decimal

/-- the number `mantissa * 2 ^ exponent`; below a power of two the next number is only half as far as above it -/
structure Binary where
  mantissa : Nat
  exponent : Int
  isPower : Bool

namespace Binary

/-- the place of the exponent in the bits of a double: the mantissa has 52 bits -/
def exponentBit : Nat := 0x10000000000000

/-- how many exponents there are: they have 11 bits -/
def exponents : Nat := 0x800

/-- the magnitude that the bits of a double stand for -/
def ofBits (bits : Nat) : Binary :=
  let exponent : Nat := bits / exponentBit % exponents
  let fraction : Nat := bits % exponentBit
  if exponent = 0 then ⟨fraction, -1074, false⟩
  else ⟨exponentBit + fraction, (exponent : Int) - 1075, fraction == 0 && decide (1 < exponent)⟩

/-- the point of the grid of multiples of `10 ^ place` that reads back, as how many of them it is -/
def point? (b : Binary) (place : Int) : Option Nat :=
  let quarter := Nat.pow 2 (b.exponent - 2).toNat * Nat.pow 10 (-place).toNat
  let unit := Nat.pow 2 (2 - b.exponent).toNat * Nat.pow 10 place.toNat
  let value := 4 * b.mantissa * quarter
  let low := value - (if b.isPower then 1 else 2) * quarter
  let high := value + 2 * quarter
  let readsBack (n : Nat) : Bool :=
    if b.mantissa % 2 = 0 then decide (low ≤ n * unit ∧ n * unit ≤ high) else decide (low < n * unit ∧ n * unit < high)
  let under := value / unit
  let nearer :=
    match compare (2 * value) ((2 * under + 1) * unit) with
    | .lt => under
    | .gt => under + 1
    | .eq => if under % 2 = 0 then under else under + 1
  match readsBack under, readsBack (under + 1) with
  | true, true => some nearer
  | true, false => some under
  | false, true => some (under + 1)
  | false, false => none

/-- the places of the last digit of a double's shortest decimal, the highest first -/
def places : List Int := (List.range 634).map fun (i : Nat) => 309 - (i : Int)

/-- digits, as a number, and the place of the last one -/
def shortest (b : Binary) : Nat × Int :=
  (places.findSome? fun place => (b.point? place).map fun n => (n, place)).getD (0, 0)

end Binary

/-- an exponent of ten with its sign -/
def exponentText (exponent : Int) : List Char :=
  'e' :: (if exponent < 0 then '-' else '+') :: Nat.toDigits 10 exponent.natAbs

/-- digits with their point: written out if it stands at most 16 digits behind the first one or 4 zeros before it, else
with an exponent -/
def pointed (digits : List Char) (place : Int) : List Char :=
  let point := digits.length + place
  if 0 ≤ place ∧ point ≤ 16 then digits ++ List.replicate place.toNat '0' ++ ['.', '0']
  else if 0 < point ∧ point ≤ 16 then digits.take point.toNat ++ '.' :: digits.drop point.toNat
  else if -5 < point ∧ point ≤ 0 then ['0', '.'] ++ List.replicate (-point).toNat '0' ++ digits
  else
    let rest := digits.drop 1
    digits.take 1 ++ (if rest.isEmpty then [] else '.' :: rest) ++ exponentText (point - 1)

/-- the place of the sign in the bits of a double -/
def signBit : Nat := 0x8000000000000000

/-- a finite double in the fewest digits -/
def ofFloat (x : Float) : String :=
  let bits := x.toBits.toNat
  let (n, place) := (Binary.ofBits bits).shortest
  let digits := if bits % signBit = 0 then ['0', '.', '0'] else pointed (Nat.toDigits 10 n) place
  String.ofList (if bits < signBit then digits else '-' :: digits)

end TableStore.Decimal
