import ReportRelay.Contract.Context
import ReportRelay.Message
import ReportRelay.Reply
import ReportRelay.Text.Base64

/-!
# Transmitting reports

A report is transmitted by queueing a call of the contract that carries the context, the report and the
signatures in base 64.
-/

namespace ReportRelay.Contract

structure OnchainSignature where
  signature : Bytes
  /-- The index of the oracle that signed. -/
  signer : UInt8
  deriving DecidableEq, Repr

/-- Who transmits reports to which contract. -/
structure Transmitter where
  sender : String
  contract : String
  deriving DecidableEq, Repr

/-- Whoever takes messages into the queue. -/
inductive QueueQuestion
  | enqueue (contractId : String) (envelope : Envelope)
  deriving DecidableEq, Repr

def queue : Interface where
  Question := QueueQuestion
  Answer _ := Reply Int

namespace Transmitter

def payload (context : ReportContext) (report : Bytes) (signatures : List OnchainSignature) : String :=
  Json.object [("transmit", Json.object
    [("report_context", Json.quoted (Base64.encode context.bytes)),
     ("report", Json.quoted (Base64.encode report)),
     ("signatures", Json.texts (signatures.map fun s => Base64.encode s.signature))])]

def message (transmitter : Transmitter) (context : ReportContext) (report : Bytes)
    (signatures : List OnchainSignature) : Message :=
  .execute
    { sender := transmitter.sender
      contract := transmitter.contract
      msg := .ofText (payload context report signatures)
      funds := [] }

def transmit (transmitter : Transmitter) (context : ReportContext) (report : Bytes)
    (signatures : List OnchainSignature) : Attempt queue Unit := do
  let message := transmitter.message context report signatures
  let _ ← Attempt.ofReply
    (Dialogue.question (S := queue) (.enqueue transmitter.contract message.toEnvelope))

end Transmitter

end ReportRelay.Contract
