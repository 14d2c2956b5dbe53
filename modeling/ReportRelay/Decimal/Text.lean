import ReportRelay.Decimal.Arithmetic
import ReportRelay.Text.Integer

/-!
# Decimals as text

A decimal is shown with all digits of its scale. Reading takes an optional sign, digits that may be grouped
by underscores, and at most one point. Digits that there is no room for behind the point are rounded, a
half away from zero: the first character without room decides, and after it only digits and underscores may
follow. A text that cannot be read so is read in scientific notation.
-/

namespace ReportRelay.Decimal

open Text

def text (a : Decimal) : String :=
  let digits := Nat.toDigits 10 a.mantissa
  let digits := List.replicate (a.scale + 1 - digits.length) '0' ++ digits
  let whole := digits.take (digits.length - a.scale)
  let fraction := digits.drop (digits.length - a.scale)
  let sign := if a.negative then ['-'] else []
  String.ofList (sign ++ whole ++ if fraction.isEmpty then [] else '.' :: fraction)

/-- What has been read of a number: its digits, how many of them stand behind the point, whether the point
was seen, and whether any digit was. -/
structure Reading where
  mantissa : Nat
  scale : Nat
  pointSeen : Bool
  digitSeen : Bool

namespace Reading

def start : Reading := ⟨0, 0, false, false⟩

/-- The digit that a character stands for where no more digits are kept: an underscore for zero. -/
def spareDigit? (c : Char) : Option Nat :=
  if c = '_' then some 0 else digitValue? c

/-- Rounds at the digit for which there is no room. -/
def roundAt (r : Reading) (next : Nat) : Option (Nat × Nat) :=
  if next < 5 then some (r.mantissa, r.scale)
  else if r.mantissa + 1 < mantissaBound then some (r.mantissa + 1, r.scale)
  else if r.scale = 0 then none
  else some ((r.mantissa + 5) / 10, r.scale - 1)

/-- Rounds at the first of the characters for which there is no room. -/
def round? (r : Reading) (next : Char) (rest : List Char) : Option (Nat × Nat) :=
  (spareDigit? next).bind fun digit =>
    if rest.all fun c => (spareDigit? c).isSome then r.roundAt digit else none

/-- Reads to the end, or to the first digit that there is no room for. -/
def digits? (r : Reading) : List Char → Option (Nat × Nat)
  | [] => if r.digitSeen then some (r.mantissa, r.scale) else none
  | c :: rest =>
    if r.pointSeen ∧ r.scale = maxScale then r.round? c rest
    else
      match digitValue? c with
      | some d =>
        let next := 10 * r.mantissa + d
        if next < mantissaBound then
          digits? ⟨next, r.scale + (if r.pointSeen then 1 else 0), r.pointSeen, true⟩ rest
        else if r.pointSeen then r.round? c rest
        else none
      | none =>
        if c = '.' ∧ !r.pointSeen then digits? { r with pointSeen := true } rest
        else if c = '_' ∧ r.digitSeen then digits? r rest
        else none

end Reading

/-- A zero that is read is not negative. -/
def unsigned? (negative : Bool) (digits : List Char) : Option Decimal :=
  (Reading.start.digits? digits).bind fun r => mk? (withSign negative r.1) r.2

def plain? (text : List Char) : Option Decimal :=
  match text with
  | '-' :: digits => unsigned? true digits
  | '+' :: digits => unsigned? false digits
  | digits => unsigned? false digits

/-- Drops the trailing zeros of the fraction. -/
def normalized (a : Decimal) : Option Decimal :=
  let zeros := ((List.range (a.scale + 1)).reverse.find? fun k => a.mantissa % 10 ^ k = 0).getD 0
  ofParts? a.negative (a.mantissa / 10 ^ zeros) (a.scale - zeros)

/-- Moves the point to the right by up to the scale, and then multiplies. -/
def raised? (a : Decimal) (exponent : Nat) : Option Decimal :=
  if exponent ≤ a.scale then ofParts? a.negative a.mantissa (a.scale - exponent)
  else if maxScale < exponent then none
  else
    (mk? (10 ^ exponent) 0).bind fun power => (a.mul? power).bind normalized

/-- Moves the point to the left. The digits that move out of the largest scale are rounded away, a half up
in size. The sign stays, also when no digit does. -/
def lowered? (a : Decimal) (exponent : Nat) : Option Decimal :=
  if maxScale < exponent then none
  else
    let lost := 10 ^ (a.scale + exponent - maxScale)
    ofParts? a.negative ((2 * a.mantissa + lost) / (2 * lost)) (Nat.min (a.scale + exponent) maxScale)

def exponent? (text : List Char) : Option Nat :=
  (readNat (2 ^ 32) (String.ofList text)).toOption

def scientific? (text : List Char) : Option Decimal :=
  let (base, rest) := text.span fun c => c ≠ 'e' ∧ c ≠ 'E'
  match rest with
  | [] => none
  | _ :: exponent =>
    (plain? base).bind fun a =>
      match exponent with
      | '-' :: digits => (exponent? digits).bind a.lowered?
      | digits => (exponent? digits).bind a.raised?

def ofText? (text : String) : Option Decimal :=
  match plain? text.toList with
  | some a => some a
  | none => scientific? text.toList

end ReportRelay.Decimal
