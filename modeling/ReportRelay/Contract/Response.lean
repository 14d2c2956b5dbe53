import ReportRelay.Contract.Context

/-!
# What a contract answers

The JSON records with which a contract answers queries about its configuration and its latest transmission.
-/

namespace ReportRelay.Contract

open Json Json.Reader

def epochReader : Reader UInt32 := do
  return UInt32.ofNat (← natBelow (2 ^ 32))

def roundReader : Reader UInt8 := do
  return UInt8.ofNat (← natBelow (2 ^ 8))

/-- The block in which the configuration was set, and its digest. -/
structure ConfigDetails where
  block : Nat
  digest : ConfigDigest
  deriving DecidableEq, Repr

namespace ConfigDetails

structure Fields where
  block : Option Nat
  digest : Option ConfigDigest

def fields : List (Reader.Field Fields) :=
  [.of "block_number" Fields.block (fun v s => { s with block := some v }) (natBelow (2 ^ 64)),
   .of "config_digest" Fields.digest (fun v s => { s with digest := some v }) ConfigDigest.reader]

def reader : Reader ConfigDetails := do
  let read ← record fields ⟨none, none⟩
  return ⟨← required read.block, ← required read.digest⟩

end ConfigDetails

structure DigestAndEpoch where
  digest : ConfigDigest
  epoch : UInt32
  deriving DecidableEq, Repr

namespace DigestAndEpoch

structure Fields where
  digest : Option ConfigDigest
  epoch : Option UInt32

def fields : List (Reader.Field Fields) :=
  [.of "config_digest" Fields.digest (fun v s => { s with digest := some v }) ConfigDigest.reader,
   .of "epoch" Fields.epoch (fun v s => { s with epoch := some v }) epochReader]

def reader : Reader DigestAndEpoch := do
  let read ← record fields ⟨none, none⟩
  return ⟨← required read.digest, ← required read.epoch⟩

end DigestAndEpoch

/-- The latest transmission as the contract tells it, with its answer as text. -/
structure TransmissionRecord where
  digest : ConfigDigest
  epoch : UInt32
  round : UInt8
  answer : String
  timestamp : Int
  deriving DecidableEq, Repr

namespace TransmissionRecord

structure Fields where
  digest : Option ConfigDigest
  epoch : Option UInt32
  round : Option UInt8
  answer : Option String
  timestamp : Option Int

def fields : List (Reader.Field Fields) :=
  [.of "latest_config_digest" Fields.digest (fun v s => { s with digest := some v })
     ConfigDigest.reader,
   .of "epoch" Fields.epoch (fun v s => { s with epoch := some v }) epochReader,
   .of "round" Fields.round (fun v s => { s with round := some v }) roundReader,
   .of "latest_answer" Fields.answer (fun v s => { s with answer := some v }) Reader.text,
   .of "latest_timestamp" Fields.timestamp (fun v s => { s with timestamp := some v })
     (integer (-2 ^ 63) (2 ^ 63))]

def reader : Reader TransmissionRecord := do
  let read ← record fields ⟨none, none, none, none, none⟩
  return ⟨← required read.digest, ← required read.epoch, ← required read.round,
    ← required read.answer, ← required read.timestamp⟩

/-- The seconds that a date can tell. -/
def earliest : Int := -8334601228800

def latest : Int := 8210266876799

def transmission (record : TransmissionRecord) : Except Error Transmission :=
  match Text.readInt? record.answer with
  | none => .error (.codec s!"Could not create BigInt from {record.answer}")
  | some answer =>
    if earliest ≤ record.timestamp ∧ record.timestamp ≤ latest then
      .ok ⟨record.digest, record.epoch, record.round, answer, record.timestamp⟩
    else .error (.codec s!"invalid latest timestamp {record.timestamp}")

end TransmissionRecord

end ReportRelay.Contract
