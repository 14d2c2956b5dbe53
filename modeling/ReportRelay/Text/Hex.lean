import ReportRelay.Bytes
import ReportRelay.Text.Quoted

/-!
# Hexadecimal text

Two digits per byte, written in lower case and read in either case. An odd number of digits is
reported before any digit is looked at; otherwise the first byte that is no digit is.
-/

namespace ReportRelay.Hex

inductive Fault
  | oddLength
  | invalidDigit (byte : UInt8) (position : Nat)
  deriving DecidableEq, Repr

def Fault.message : Fault → String
  | oddLength => "Odd number of digits"
  | invalidDigit byte position =>
    let shown := Text.quotedChar (Char.ofNat byte.toNat)
    s!"Invalid character {shown} at position {position}"

def digit (n : Nat) : UInt8 :=
  UInt8.ofNat (if n < 10 then 48 + n else 87 + n)

def value? (b : UInt8) : Option Nat :=
  let n := b.toNat
  if 48 ≤ n ∧ n ≤ 57 then some (n - 48)
  else if 97 ≤ n ∧ n ≤ 102 then some (n - 87)
  else if 65 ≤ n ∧ n ≤ 70 then some (n - 55)
  else none

def encodeBytes (bytes : Bytes) : Bytes :=
  bytes.flatMap fun b => [digit (b.toNat / 16), digit (b.toNat % 16)]

def encode (bytes : Bytes) : String :=
  (encodeBytes bytes).latinText

def pairs : Nat → Bytes → Except Fault Bytes
  | _, [] => .ok []
  | _, [_] => .error .oddLength
  | position, a :: b :: rest =>
    match value? a with
    | none => .error (.invalidDigit a position)
    | some high =>
      match value? b with
      | none => .error (.invalidDigit b (position + 1))
      | some low => (pairs (position + 2) rest).map (UInt8.ofNat (16 * high + low) :: ·)

def decodeBytes (text : Bytes) : Except Fault Bytes :=
  if text.length % 2 = 1 then .error .oddLength else pairs 0 text

def decode (text : String) : Except Fault Bytes :=
  decodeBytes (.ofText text)

end ReportRelay.Hex
