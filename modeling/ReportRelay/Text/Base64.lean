import ReportRelay.Bytes

/-!
# Base 64

The standard alphabet with padding. Reading accepts the canonical form only: the padding must complete
the last group of four, and the bits that the last symbol does not need must be zero.
-/

namespace ReportRelay.Base64

inductive Fault
  | invalidByte (byte : UInt8) (offset : Nat)
  | invalidLength
  | invalidPadding
  | invalidLastSymbol (byte : UInt8) (offset : Nat)
  deriving DecidableEq, Repr

namespace Fault

def message : Fault → String
  | invalidByte byte offset => s!"Invalid byte {byte.toNat}, offset {offset}."
  | invalidLength => "Encoded text cannot have a 6-bit remainder."
  | invalidPadding => "Invalid padding"
  | invalidLastSymbol byte offset => s!"Invalid last symbol {byte.toNat}, offset {offset}."

end Fault

def pad : UInt8 := 61

def symbol (n : Nat) : UInt8 :=
  UInt8.ofNat <|
    if n < 26 then 65 + n
    else if n < 52 then 71 + n
    else if n < 62 then n - 4
    else if n = 62 then 43 else 47

def value? (b : UInt8) : Option Nat :=
  let n := b.toNat
  if 65 ≤ n ∧ n ≤ 90 then some (n - 65)
  else if 97 ≤ n ∧ n ≤ 122 then some (n - 71)
  else if 48 ≤ n ∧ n ≤ 57 then some (n + 4)
  else if n = 43 then some 62
  else if n = 47 then some 63
  else none

def encodeBytes : Bytes → Bytes
  | [] => []
  | [a] =>
    let n := a.toNat * 16
    [symbol (n / 64), symbol (n % 64), pad, pad]
  | [a, b] =>
    let n := (a.toNat * 256 + b.toNat) * 4
    [symbol (n / 4096), symbol (n / 64 % 64), symbol (n % 64), pad]
  | a :: b :: c :: rest =>
    let n := (a.toNat * 256 + b.toNat) * 256 + c.toNat
    symbol (n / 262144) :: symbol (n / 4096 % 64) :: symbol (n / 64 % 64) :: symbol (n % 64)
      :: encodeBytes rest

def encode (bytes : Bytes) : String :=
  (encodeBytes bytes).latinText

/-- Reads the symbols from left to right, up to the padding. `firstPad` is where the padding began:
nothing but padding may follow it, and it cannot begin in the first half of a group. -/
def symbols (firstPad : Option Nat) (offset : Nat) : Bytes → Except Fault (List Nat)
  | [] => .ok []
  | b :: rest =>
    if b = pad then
      if offset % 4 < 2 then .error (.invalidByte pad (firstPad.getD offset))
      else symbols (some (firstPad.getD offset)) (offset + 1) rest
    else
      match firstPad with
      | some position => .error (.invalidByte pad position)
      | none =>
        match value? b with
        | none => .error (.invalidByte b offset)
        | some n => (symbols none (offset + 1) rest).map (n :: ·)

/-- The bytes that groups of symbols stand for, and whether bits are left over that are not zero. -/
def ofSymbols : List Nat → Bytes × Bool
  | a :: b :: c :: d :: rest =>
    let n := ((a * 64 + b) * 64 + c) * 64 + d
    let (bytes, clean) := ofSymbols rest
    (UInt8.ofNat (n / 65536) :: UInt8.ofNat (n / 256) :: UInt8.ofNat n :: bytes, clean)
  | [a, b, c] =>
    let n := (a * 64 + b) * 64 + c
    ([UInt8.ofNat (n / 1024), UInt8.ofNat (n / 4)], n % 4 = 0)
  | [a, b] =>
    let n := a * 64 + b
    ([UInt8.ofNat (n / 16)], n % 16 = 0)
  | _ => ([], true)

def decodeBytes (text : Bytes) : Except Fault Bytes :=
  let length := text.length
  if length % 4 = 1 ∧ text.getLast?.all (fun b => b = pad ∨ (value? b).isSome) then
    .error .invalidLength
  else if length % 4 = 1 then
    .error (.invalidByte (text.getLast?.getD 0) (length - 1))
  else
    match symbols none 0 text with
    | .error fault => .error fault
    | .ok values =>
      if length % 4 ≠ 0 then .error .invalidPadding
      else
        match ofSymbols values with
        | (bytes, true) => .ok bytes
        | (_, false) =>
          let last := values.length - 1
          .error (.invalidLastSymbol (text[last]?.getD 0) last)

def decode (text : String) : Except Fault Bytes :=
  decodeBytes (.ofText text)

end ReportRelay.Base64
