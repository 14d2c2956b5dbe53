import ReportRelay.Bytes

/-!
# Words of 32 bits

Rotations, the two byte orders, and the cutting of a message into blocks.
-/

namespace ReportRelay.Word

def rotateLeft (x : UInt32) (n : UInt32) : UInt32 :=
  (x <<< n) ||| (x >>> (32 - n))

def rotateRight (x : UInt32) (n : UInt32) : UInt32 :=
  (x >>> n) ||| (x <<< (32 - n))

def littleEndian (width n : Nat) : Bytes :=
  (Bytes.bigEndian width n).reverse

def ofBigEndian : Bytes → List UInt32
  | a :: b :: c :: d :: rest => UInt32.ofNat (Bytes.toNat [a, b, c, d]) :: ofBigEndian rest
  | _ => []

def ofLittleEndian : Bytes → List UInt32
  | a :: b :: c :: d :: rest => UInt32.ofNat (Bytes.toNat [d, c, b, a]) :: ofLittleEndian rest
  | _ => []

/-- The first `count` blocks of `size` bytes. -/
def blocks (size : Nat) : Nat → Bytes → List Bytes
  | 0, _ => []
  | count + 1, bytes => bytes.take size :: blocks size count (bytes.drop size)

end ReportRelay.Word
