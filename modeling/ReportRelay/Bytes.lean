import ReportRelay.Power

/-!
# Byte strings

Bytes as lists, the UTF-8 bytes of a text, and numbers as a fixed number of bytes, most significant
byte first.
-/

namespace ReportRelay

abbrev Bytes := List UInt8

namespace Bytes

def ofText (text : String) : Bytes :=
  text.toUTF8.data.toList

def toText? (bytes : Bytes) : Option String :=
  String.fromUTF8? ⟨bytes.toArray⟩

/-- The text with one character per byte. -/
def latinText (bytes : Bytes) : String :=
  String.ofList (bytes.map fun b => Char.ofNat b.toNat)

def zeros (n : Nat) : Bytes :=
  List.replicate n 0

/-- The last `width` bytes of the number's big-endian form. -/
def bigEndian : Nat → Nat → Bytes
  | 0, _ => []
  | width + 1, n => bigEndian width (n / 256) ++ [UInt8.ofNat n]

def toNat (bytes : Bytes) : Nat :=
  bytes.foldl (fun n b => 256 * n + b.toNat) 0

theorem length_bigEndian (width n : Nat) : (bigEndian width n).length = width := by
  induction width generalizing n with
  | zero => rfl
  | succ width ih => simp [bigEndian, ih]

theorem toNat_append_singleton (bytes : Bytes) (b : UInt8) :
    toNat (bytes ++ [b]) = 256 * toNat bytes + b.toNat := by
  simp [toNat, List.foldl_append]

theorem toNat_bigEndian (width n : Nat) : toNat (bigEndian width n) = n % 256 ^ width := by
  induction width generalizing n with
  | zero => simp [bigEndian, toNat, Nat.mod_one]
  | succ width ih =>
    rw [bigEndian, toNat_append_singleton, ih, Nat.pow_succ', Nat.mod_mul]
    simp only [UInt8.toNat_ofNat']
    omega

end Bytes

/-- A word of 32 bytes. -/
abbrev Bytes32 := { bytes : Bytes // bytes.length = 32 }

namespace Bytes32

def zero : Bytes32 := ⟨.zeros 32, by simp [Bytes.zeros]⟩

def ofBytes? (bytes : Bytes) : Option Bytes32 :=
  if h : bytes.length = 32 then some ⟨bytes, h⟩ else none

end Bytes32

end ReportRelay
