import ReportRelay.Error
import ReportRelay.Json.Record
import ReportRelay.Json.Text
import ReportRelay.Text.Hex

/-!
# Config digests

A config digest is the fingerprint of an oracle configuration. Its first byte is zero and its second one tells
the family of chains for which it was made.
-/

namespace ReportRelay

structure ConfigDigest where
  word : Bytes32
  deriving DecidableEq, Repr

namespace ConfigDigest

def zero : ConfigDigest := ⟨.zero⟩

def bytes (digest : ConfigDigest) : Bytes := digest.word.val

def ofBytes (bytes : Bytes) : Except Error ConfigDigest :=
  match Bytes32.ofBytes? bytes with
  | some word => .ok ⟨word⟩
  | none => .error (.codec
      s!"cannot convert bytes to ConfigDigest. bytes have wrong length {bytes.length}")

def ofHex (text : String) : Except Error ConfigDigest :=
  match Hex.decode text with
  | .ok bytes => ofBytes bytes
  | .error fault => .error (.codec s!"invalid config digest {text}: {fault.message}")

def text (digest : ConfigDigest) : String :=
  Hex.encode digest.bytes

/-- In JSON a digest is the list of its bytes. -/
def reader : Json.Reader ConfigDigest := do
  let bytes ← Json.Reader.fixedList (Json.Reader.natBelow 256) 32
  match Bytes32.ofBytes? (bytes.map UInt8.ofNat) with
  | some word => return ⟨word⟩
  | none => Json.Reader.fail

def json (digest : ConfigDigest) : String :=
  Json.list (digest.bytes.map fun b => toString b.toNat)

end ConfigDigest

inductive ChainFamily
  | cosmwasm
  deriving DecidableEq, Repr

namespace ChainFamily

def name : ChainFamily → String
  | cosmwasm => "cosmwasm"

def ofName? (text : String) : Option ChainFamily :=
  if text = cosmwasm.name then some cosmwasm else none

/-- The second byte of every digest made for this family. -/
def digestByte : ChainFamily → UInt8
  | cosmwasm => 2

def reader : Json.Reader ChainFamily :=
  Json.Reader.named ofName?

def json (family : ChainFamily) : String :=
  Json.quoted family.name

/-- Marks a hash as a digest of this family. -/
def stamp (family : ChainFamily) (hash : Bytes32) : ConfigDigest :=
  ⟨⟨0 :: family.digestByte :: hash.val.drop 2, by
    have := hash.property
    simp only [List.length_cons, List.length_drop]
    omega⟩⟩

end ChainFamily

end ReportRelay
