import ReportRelay.Decimal.Text

/-!
# Binary floating point numbers

Numbers of 64 bits: a sign, eleven bits of exponent and 52 bits of fraction. A fraction is turned into the
nearest of them, a tie into the one with an even last bit. A number is shown with the fewest digits that
read back as it, and of those the nearest.
-/

namespace ReportRelay

structure Binary64 where
  bits : UInt64
  deriving DecidableEq, Repr

namespace Binary64

def isNegative (x : Binary64) : Bool :=
  2 ^ 63 ≤ x.bits.toNat

def exponentField (x : Binary64) : Nat :=
  x.bits.toNat / 2 ^ 52 % 2 ^ 11

def fractionField (x : Binary64) : Nat :=
  x.bits.toNat % 2 ^ 52

def isFinite (x : Binary64) : Bool :=
  x.exponentField < 2047

def isNaN (x : Binary64) : Bool :=
  !x.isFinite && x.fractionField ≠ 0

def one : Binary64 := ⟨0x3ff0000000000000⟩

def infinity : Binary64 := ⟨0x7ff0000000000000⟩

def nan : Binary64 := ⟨0x7ff8000000000000⟩

def neg (x : Binary64) : Binary64 :=
  ⟨x.bits ^^^ 0x8000000000000000⟩

/-- The bits without the sign grow with the size of the number; what is no number is below nothing. -/
def isBelowOne (x : Binary64) : Bool :=
  !x.isNaN && (x.isNegative || x.bits.toNat < one.bits.toNat)

/-- A finite number's size is `mantissa * 2 ^ (power - 1074)`. -/
def mantissa (x : Binary64) : Nat :=
  if x.exponentField = 0 then x.fractionField else x.fractionField + 2 ^ 52

def power (x : Binary64) : Nat :=
  x.exponentField - 1

/-- The number of the given sign nearest to `n / d`. `shift` counts the factors of two, from the smallest
positive number on, that are taken out so that 53 bits remain. -/
def ofRatio (negative : Bool) (n d : Nat) : Binary64 :=
  let scaled := n * 2 ^ 1074
  let whole := scaled / d
  let shift := whole.log2 + 1 - 53
  let rounded := Decimal.divideToEven scaled (d * 2 ^ shift)
  let size := Nat.min (shift * 2 ^ 52 + rounded) infinity.bits.toNat
  let x : Binary64 := ⟨UInt64.ofNat size⟩
  if negative then x.neg else x

/-- Beyond this power of ten there is nothing but infinity on one side and zero on the other. -/
def powerLimit : Nat := 400

/-- The nearest number to `digits * 10 ^ exponent`. -/
def ofScientific (negative : Bool) (digits : Nat) (exponent : Int) : Binary64 :=
  if digits = 0 ∨ exponent < -(powerLimit + digits.log2 : Nat) then ofRatio negative 0 1
  else if 0 ≤ exponent then ofRatio negative (digits * 10 ^ Nat.min exponent.toNat powerLimit) 1
  else ofRatio negative digits (10 ^ exponent.natAbs)

def ofNat (n : Nat) : Binary64 :=
  ofRatio false n 1

/-- The size of a finite number as a multiple of the smallest positive one. -/
def units (x : Binary64) : Nat :=
  x.mantissa * 2 ^ x.power

/-- The product of two finite numbers that are not negative. -/
def mul (x y : Binary64) : Binary64 :=
  ofRatio false (x.units * y.units) (2 ^ 2148)

/-- The quotient of two finite numbers that are not negative, the second of which is not zero. -/
def div (x y : Binary64) : Binary64 :=
  ofRatio false x.units y.units

/-! ## Shortest digits

Sizes are compared as multiples of a quarter of the smallest positive number. -/

/-- The size, and the ends of the interval of sizes that round to it. -/
def interval (x : Binary64) : Nat × Nat × Nat :=
  let unit := 2 ^ x.power
  let size := 4 * x.mantissa * unit
  let below := if x.fractionField = 0 ∧ 1 < x.exponentField then unit else 2 * unit
  (size - below, size, size + 2 * unit)

/-- Whether `digits * 10 ^ exponent` rounds to the number. -/
def readsBack (x : Binary64) (digits : Nat) (exponent : Int) : Bool :=
  let (low, _, high) := x.interval
  let up := 10 ^ exponent.toNat
  let down := 10 ^ (-exponent).toNat
  let candidate := digits * up * 2 ^ 1076
  if x.mantissa % 2 = 0 then low * down ≤ candidate && candidate ≤ high * down
  else low * down < candidate && candidate < high * down

/-- How far `digits * 10 ^ exponent` is from the number, times a power that depends on the exponent
alone. -/
def distance (x : Binary64) (digits : Nat) (exponent : Int) : Nat :=
  let (_, size, _) := x.interval
  let candidate := digits * 10 ^ exponent.toNat * 2 ^ 1076
  let size := size * 10 ^ (-exponent).toNat
  (candidate - size) + (size - candidate)

/-- The two neighbours of the size among the multiples of a power of ten. -/
def neighbours (x : Binary64) (exponent : Int) : List Nat :=
  let (_, size, _) := x.interval
  let floor := size * 10 ^ (-exponent).toNat / (2 ^ 1076 * 10 ^ exponent.toNat)
  [floor, floor + 1]

/-- The nearest decimal with the given exponent that reads back, the larger one of two equally near ones. -/
def nearestAt? (x : Binary64) (exponent : Int) : Option Nat :=
  match (x.neighbours exponent).filter (x.readsBack · exponent) with
  | [a, b] => if x.distance a exponent < x.distance b exponent then some a else some b
  | [a] => some a
  | _ => none

/-- The shortest decimal: the one with the largest exponent. Every number has one with the smallest
exponent looked at. -/
def shortest (x : Binary64) : Nat × Int :=
  let exponents := (List.range 650).map fun (i : Nat) => (309 : Int) - i
  (exponents.findSome? fun e =>
    (x.nearestAt? e).bind fun digits => if digits = 0 then none else some (digits, e)).getD (0, 0)

/-- The digits without an exponent. -/
def text (x : Binary64) : String :=
  let sign := if x.isNegative then "-" else ""
  if x.isNaN then "NaN"
  else if !x.isFinite then sign ++ "inf"
  else if x.mantissa = 0 then sign ++ "0"
  else
    let (digits, exponent) := x.shortest
    if 0 ≤ exponent then s!"{sign}{digits * 10 ^ exponent.toNat}"
    else
      let places := exponent.natAbs
      let shown := Nat.toDigits 10 digits
      let shown := List.replicate (places + 1 - shown.length) '0' ++ shown
      let whole := shown.take (shown.length - places)
      let fraction := shown.drop (shown.length - places)
      sign ++ String.ofList (whole ++ '.' :: fraction)

/-- The decimal that the shortest digits say. -/
def toDecimal? (x : Binary64) : Option Decimal :=
  (Decimal.plain? x.text.toList)

end Binary64

end ReportRelay
