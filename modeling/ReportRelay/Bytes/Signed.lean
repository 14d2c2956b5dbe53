import ReportRelay.Bytes
import ReportRelay.Error

/-!
# Integers of a fixed number of bytes

Two's complement, most significant byte first. A width of `n` bytes holds the integers from `-2 ^ (8 n - 1)`
up to `2 ^ (8 n - 1)`, and without a sign those up to `2 ^ (8 n)`.
-/

namespace ReportRelay.Signed

/-- The number of values of a width. -/
def span (width : Nat) : Int :=
  2 ^ (8 * width)

/-- The first integer that is too large for a width. -/
def bound (width : Nat) : Int :=
  2 ^ (8 * width - 1)

def checkWidth (width : Nat) : Except Error Unit :=
  if width = 0 then .error (.codec "signed int width must be at least one byte") else .ok ()

/-- The integer that all bytes together denote. -/
def ofBytes (bytes : Bytes) : Int :=
  let n : Int := bytes.toNat
  if n < bound bytes.length then n else n - span bytes.length

def decode (width : Nat) (bytes : Bytes) : Except Error Int := do
  checkWidth width
  if bytes.length = width then return ofBytes bytes
  else throw (.codec s!"invalid int length: expected {width} got {bytes.length}")

def encode (width : Nat) (value : Int) : Except Error Bytes := do
  checkWidth width
  if -bound width ≤ value ∧ value < bound width then
    return .bigEndian width (value % span width).toNat
  else throw (.codec s!"{value} does not fit in {width} signed bytes")

/-- An integer that is not negative, without a sign. -/
def encodeUnsigned (width : Nat) (value : Int) : Except Error Bytes :=
  if value < 0 then .error (.codec s!"{value} is negative")
  else if value < span width then .ok (.bigEndian width value.toNat)
  else .error (.codec s!"value must fit in {width} bytes")

end ReportRelay.Signed
