import ReportRelay.Toml.Reader

/-!
# Numbers in TOML

Integers of 64 bits in four bases, and binary floating point numbers. Single underscores may stand between
digits.
-/

namespace ReportRelay.Toml.Reader

def sign : Reader Bool := do
  if ← accept "-" then return true
  else do
    let _ ← accept "+"
    return false

/-- Digits with a single underscore between any two of them, or none. -/
def groupedDigits (isDigit : Char → Bool) : Nat → Reader (List Char)
  | 0 => fail
  | fuel + 1 => do
    let c ← take
    if isDigit c then do
      match ← get with
      | '_' :: d :: _ =>
        if isDigit d then do
          expect "_"
          return c :: (← groupedDigits isDigit fuel)
        else return [c]
      | d :: _ => if isDigit d then return c :: (← groupedDigits isDigit fuel) else return [c]
      | [] => return [c]
    else fail

def digits (isDigit : Char → Bool) : Reader (List Char) := do
  groupedDigits isDigit (← fuel)

def value (base : Nat) (digits : List Char) : Nat :=
  digits.foldl (fun n c => base * n + (hexValue? c).getD 0) 0

/-- Digits of which the first is zero only if it is the last. -/
def wholeDigits : Reader (List Char) := do
  if ← accept "0" then return ['0'] else digits Char.isDigit

def isHexDigit (c : Char) : Bool := (hexValue? c).isSome

def isOctalDigit (c : Char) : Bool := '0' ≤ c && c ≤ '7'

def isBinaryDigit (c : Char) : Bool := c = '0' || c = '1'

/-- Integers have 64 bits. -/
def integer : Reader Value := do
  let n : Int ← do
    if ← accept "0x" then pure (Int.ofNat (value 16 (← digits isHexDigit)))
    else if ← accept "0o" then pure (Int.ofNat (value 8 (← digits isOctalDigit)))
    else if ← accept "0b" then pure (Int.ofNat (value 2 (← digits isBinaryDigit)))
    else do
      let negative ← sign
      pure (Decimal.withSign negative (value 10 (← wholeDigits)))
  if -2 ^ 63 ≤ n ∧ n < 2 ^ 63 then return .integer n else fail

def exponent : Reader Int := do
  if ← acceptAny ["e", "E"] then do
    let negative ← sign
    return Decimal.withSign negative (value 10 (← digits Char.isDigit))
  else fail

def fraction : Reader (List Char) := do
  expect "."
  digits Char.isDigit

/-- A number with a fraction, an exponent or both. One that is too large is refused. -/
def decimalFloat : Reader Value := do
  let negative ← sign
  let whole ← wholeDigits
  let (places, power) ←
    (do return ([], ← exponent))
    <|> (do
      let places ← fraction
      let power ← exponent <|> pure 0
      return (places, power))
  let x := Binary64.ofScientific negative (value 10 (whole ++ places)) (power - places.length)
  if x = .infinity then fail else return .float x

def specialFloat : Reader Value := do
  let negative ← sign
  let x ←
    if ← accept "inf" then pure Binary64.infinity
    else do
      expect "nan"
      pure Binary64.nan
  return .float (if negative then x.neg else x)

end ReportRelay.Toml.Reader
