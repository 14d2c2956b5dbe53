import ReportRelay.Decimal.Binary64

/-!
# JSON numbers

A number as it is written: a sign, digits, and perhaps a fraction and an exponent. Written without the
latter two it is an integer when 64 bits hold it; otherwise it is a binary floating point number. That one is
made from as many leading digits as 64 bits hold, and from a power of ten, rounding at each step.
-/

namespace ReportRelay.Json

structure Number where
  negative : Bool
  whole : List Nat
  fraction : Option (List Nat)
  exponent : Option Int
  deriving DecidableEq, Repr

namespace Number

def value (digits : List Nat) : Nat :=
  digits.foldl (fun n d => 10 * n + d) 0

/-- Zero with a minus sign is not an integer. -/
def integer? (number : Number) : Option Int :=
  if number.fraction.isSome ∨ number.exponent.isSome then none
  else
    let n := value number.whole
    if number.negative then
      if n = 0 ∨ 2 ^ 63 < n then none else some (-Int.ofNat n)
    else if n < 2 ^ 64 then some (Int.ofNat n) else none

/-- The leading digits below 64 bits, and the power of ten that makes up for the others. -/
structure Leading where
  digits : Nat
  power : Int
  full : Bool

namespace Leading

def start : Leading := ⟨0, 0, false⟩

def hasRoom (leading : Leading) (d : Nat) : Bool :=
  !leading.full && 10 * leading.digits + d < 2 ^ 64

def pushWhole (leading : Leading) (d : Nat) : Leading :=
  if leading.hasRoom d then { leading with digits := 10 * leading.digits + d }
  else { leading with power := leading.power + 1, full := true }

def pushFraction (leading : Leading) (d : Nat) : Leading :=
  if leading.hasRoom d then
    { leading with digits := 10 * leading.digits + d, power := leading.power - 1 }
  else { leading with full := true }

end Leading

/-- The fraction gets room of its own. -/
def leading (number : Number) : Leading :=
  let whole := number.whole.foldl Leading.pushWhole Leading.start
  let all := (number.fraction.getD []).foldl Leading.pushFraction { whole with full := false }
  { all with power := all.power + number.exponent.getD 0 }

def largestPower : Nat := 308

/-- Divides by a power of ten in steps that are numbers themselves. Three steps leave nothing of any
number of 64 bits. -/
def divideByPower : Nat → Binary64 → Nat → Binary64
  | 0, x, _ => x
  | steps + 1, x, k =>
    if k ≤ largestPower then x.div (.ofNat (10 ^ k))
    else divideByPower steps (x.div (.ofNat (10 ^ largestPower))) (k - largestPower)

/-- There is none when the number is too large. -/
def binary? (number : Number) : Option Binary64 :=
  let leading := number.leading
  let x := Binary64.ofNat leading.digits
  let size :=
    if leading.digits = 0 then some x
    else if leading.power < 0 then some (divideByPower 3 x leading.power.natAbs)
    else if leading.power ≤ largestPower then
      let y := x.mul (.ofNat (10 ^ leading.power.toNat))
      if y.isFinite then some y else none
    else none
  size.map fun x => if number.negative then x.neg else x

def decimal? (number : Number) : Option Decimal :=
  match number.integer? with
  | some n => Decimal.mk? n 0
  | none => number.binary?.bind Binary64.toDecimal?

end Number

end ReportRelay.Json
