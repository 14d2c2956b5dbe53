import ReportRelay.Json.Number
import ReportRelay.Text.Hex
import ReportRelay.Text.Quoted

/-!
# Reading JSON

A reader takes a value of one type from the front of the bytes that are left, and stops at the first byte
that does not fit. Only the fault of a text in the wrong place says more than that, since that text may be
looked for. Every value and every member takes at least one byte, so that the number of bytes left is enough
fuel for a loop.
-/

namespace ReportRelay.Json

inductive Fault
  | malformed
  | unexpectedText (text : String)
  deriving DecidableEq, Repr

namespace Fault

def message : Fault → String
  | malformed => "malformed JSON"
  | unexpectedText text => s!"unexpected string {Text.quoted text}"

end Fault

abbrev Reader := StateT Bytes (Except Fault)

namespace Reader

variable {α σ : Type}

def byte (c : Char) : UInt8 :=
  UInt8.ofNat c.toNat

def fail : Reader α :=
  throw .malformed

def isSpace (b : UInt8) : Bool :=
  b = byte ' ' || b = byte '\n' || b = byte '\t' || b = byte '\r'

def isDigit (b : UInt8) : Bool :=
  byte '0' ≤ b && b ≤ byte '9'

/-- The byte that comes next, which stays where it is. -/
def ahead : Reader (Option UInt8) := do
  return (← get).head?

def take : Reader UInt8 := do
  match ← get with
  | [] => fail
  | b :: rest => do
    set rest
    return b

def skipSpace : Reader Unit :=
  modify (·.dropWhile isSpace)

/-- The byte that comes next behind any space. -/
def next : Reader (Option UInt8) := do
  skipSpace
  ahead

def expect (c : Char) : Reader Unit := do
  skipSpace
  if (← take) = byte c then return else fail

/-- Takes a byte if it is the one that comes next. -/
def accept (c : Char) : Reader Bool := do
  match ← get with
  | [] => return false
  | b :: rest =>
    if b = byte c then do
      set rest
      return true
    else return false

def word (text : String) : Reader Unit :=
  text.toList.forM fun c => do
    if (← take) = byte c then return else fail

/-! ## Texts -/

def hexDigit : Reader Nat := do
  match Hex.value? (← take) with
  | some d => return d
  | none => fail

def fourHexDigits : Reader Nat := do
  let a ← hexDigit
  let b ← hexDigit
  let c ← hexDigit
  let d ← hexDigit
  return 4096 * a + 256 * b + 16 * c + d

/-- A code point in one escape, or in the two halves of a pair. -/
def codePoint : Reader Char := do
  let high ← fourHexDigits
  if 0xdc00 ≤ high ∧ high ≤ 0xdfff then fail
  else if 0xd800 ≤ high ∧ high ≤ 0xdbff then do
    word "\\u"
    let low ← fourHexDigits
    if 0xdc00 ≤ low ∧ low ≤ 0xdfff then
      return Char.ofNat (0x10000 + 0x400 * (high - 0xd800) + (low - 0xdc00))
    else fail
  else return Char.ofNat high

def shortEscape? (b : UInt8) : Option Char :=
  if b = byte '"' then some '"'
  else if b = byte '\\' then some '\\'
  else if b = byte '/' then some '/'
  else if b = byte 'b' then some '\x08'
  else if b = byte 'f' then some '\x0c'
  else if b = byte 'n' then some '\n'
  else if b = byte 'r' then some '\r'
  else if b = byte 't' then some '\t'
  else none

def escape : Reader Char := do
  let b ← take
  if b = byte 'u' then codePoint
  else
    match shortEscape? b with
    | some c => return c
    | none => fail

/-- The bytes of a text up to its closing mark. -/
def textBytes : Nat → Reader Bytes
  | 0 => fail
  | fuel + 1 => do
    let b ← take
    if b = byte '"' then return []
    else if b = byte '\\' then do
      let c ← escape
      let rest ← textBytes fuel
      return Bytes.ofText (String.singleton c) ++ rest
    else if b < 32 then fail
    else do
      let rest ← textBytes fuel
      return b :: rest

/-- A text behind its opening mark. -/
def openText : Reader String := do
  let bytes ← textBytes (← get).length
  match Bytes.toText? bytes with
  | some text => return text
  | none => fail

/-- The fault of a value of another kind. A text is read to its end first. -/
def unexpected : Reader α := do
  if (← next) = some (byte '"') then do
    let _ ← take
    throw (.unexpectedText (← openText))
  else fail

def text : Reader String := do
  if (← next) = some (byte '"') then do
    let _ ← take
    openText
  else unexpected

/-! ## Numbers -/

def digits : Reader (List Nat) := do
  let input ← get
  set (input.dropWhile isDigit)
  return (input.takeWhile isDigit).map fun b => b.toNat - 48

def someDigits : Reader (List Nat) := do
  let ds ← digits
  if ds.isEmpty then fail else return ds

/-- Digits of which the first is zero only if it is the last. -/
def wholeDigits : Reader (List Nat) := do
  let ds ← someDigits
  if ds.head? = some 0 ∧ ds.length ≠ 1 then fail else return ds

def fraction : Reader (Option (List Nat)) := do
  if ← accept '.' then return some (← someDigits) else return none

def power : Reader Int := do
  if ← accept '-' then return -Int.ofNat (Number.value (← someDigits))
  else do
    let _ ← accept '+'
    return Int.ofNat (Number.value (← someDigits))

def exponent : Reader (Option Int) := do
  if ← accept 'e' then return some (← power)
  else if ← accept 'E' then return some (← power)
  else return none

def startsNumber (b : UInt8) : Bool :=
  b = byte '-' || isDigit b

def number : Reader Number := do
  match ← next with
  | some b =>
    if startsNumber b then do
      let negative ← accept '-'
      let whole ← wholeDigits
      let fraction ← fraction
      let exponent ← exponent
      return ⟨negative, whole, fraction, exponent⟩
    else unexpected
  | none => fail

/-- An integer from `low` up to but not including `high`. -/
def integer (low high : Int) : Reader Int := do
  match (← number).integer? with
  | some n => if low ≤ n ∧ n < high then return n else fail
  | none => fail

def natBelow (bound : Nat) : Reader Nat := do
  return (← integer 0 bound).toNat

def null : Reader Unit := do
  if (← next) = some (byte 'n') then word "null" else unexpected

/-- A number, or a text that says one. -/
def decimal : Reader Decimal := do
  match ← next with
  | some b =>
    let read? ←
      if b = byte '"' then pure (Decimal.ofText? (← text)) else pure (← number).decimal?
    match read? with
    | some d => return d
    | none => fail
  | none => fail

end Reader

end ReportRelay.Json
