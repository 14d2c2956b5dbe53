import ReportRelay.Dispatch
import ReportRelay.GasPrice.Estimator

/-!
# The relay of one chain

The dispatcher together with its keyring and its price estimator. What is left to ask is asked of the chain
client, the keystore, the price sources, the database and the clock. The client signs a transaction by means
of a dialogue that may ask for signatures.
-/

namespace ReportRelay.Relay

/-- What a client asks for while it signs: a signature of some bytes. -/
def signing : Interface where
  Question := Bytes
  Answer _ := Reply Bytes

inductive Question
  | client (behalf : Dispatch.Behalf) (call : ClientCall)
  | keystore (question : KeystoreQuestion)
  | quote (source : Nat)
  | now
  | turn
  | store (statement : Store.Statement)
  | storeAll (ids : List MsgId) (state : MsgState) (txHash : Option String)
  | log (line : LogLine)

def ClientAnswer : ClientCall → Type
  | .createAndSign _ _ => Dialogue signing (Reply Bytes)
  | call => Reply call.Result

def Question.Answer : Question → Type
  | client _ call => ClientAnswer call
  | keystore question => question.Answer
  | quote _ => Reply Prices
  | now => Int
  | turn => Nat
  | store statement => Except Error statement.Result
  | storeAll .. => Except Error Unit
  | log _ => Unit

def interface : Interface where
  Question := Question
  Answer := Question.Answer

abbrev Run (α : Type) := Dialogue interface α

def ask (question : Question) : Run question.Answer :=
  Dialogue.question (S := interface) question

/-- What the relay remembers besides the store. -/
structure Memory where
  keyring : Keyring
  estimator : Estimator

def askKeystore {α : Type} (p : Dialogue ReportRelay.keystore α) : Run α :=
  p.through fun question => ask (.keystore question)

def onKeyring {α : Type} (action : Keyring.Action α) (memory : Memory) : Run (Reply α × Memory) := do
  let (outcome, keyring) ← askKeystore (action.run memory.keyring)
  return (⟨0, outcome⟩, { memory with keyring })

def askSource : (question : PriceQuestion) → Run question.Answer
  | .quote source => ask (.quote source)
  | .log line => ask (.log line)

def askSources {α : Type} (p : Dialogue priceSources α) : Run α :=
  p.through askSource

def estimate (memory : Memory) : Run (Reply Prices × Memory) := do
  match ← Dialogue.guarded (askSources memory.estimator.prices) with
  | .ok (.ok (prices, estimator)) => return (.ok prices, { memory with estimator })
  | .ok (.error e) => return (.error e, memory)
  | .error c => return (⟨0, .error c⟩, memory)

/-- Lets the client sign a transaction. -/
def sign (signer : Signer) (client : Dialogue signing (Reply Bytes)) (memory : Memory) :
    Run (Reply Bytes × Memory) := do
  match ← client.answering (fun bytes => onKeyring (signer.sign bytes)) memory with
  | (.ok reply, memory) => return (reply, memory)
  | (.error c, memory) => return (⟨0, .error c⟩, memory)

def callClient (behalf : Dispatch.Behalf) (memory : Memory) :
    (call : ClientCall) → Run (Reply call.Result × Memory)
  | .createAndSign tx signer => do
    let client ← ask (.client behalf (.createAndSign tx signer))
    sign signer client memory
  | .account address => do return (← ask (.client behalf (.account address)), memory)
  | .simulateEach messages sequence => do
    return (← ask (.client behalf (.simulateEach messages sequence)), memory)
  | .simulate messages sequence => do
    return (← ask (.client behalf (.simulate messages sequence)), memory)
  | .latestBlock => do return (← ask (.client behalf .latestBlock), memory)
  | .broadcast tx => do return (← ask (.client behalf (.broadcast tx)), memory)
  | .lookUp txHash => do return (← ask (.client behalf (.lookUp txHash)), memory)

/-- Answers what the dispatcher asks. -/
def answer : (question : Dispatch.Question) → Memory → Run (question.Answer × Memory)
  | .client behalf call, memory => callClient behalf memory call
  | .signer sender, memory => onKeyring (Keyring.signer sender) memory
  | .prices, memory => estimate memory
  | .now, memory => do return (← ask .now, memory)
  | .turn, memory => do return (← ask .turn, memory)
  | .store statement, memory => do return (← ask (.store statement), memory)
  | .storeAll ids state txHash, memory => do return (← ask (.storeAll ids state txHash), memory)
  | .log line, memory => do return (← ask (.log line), memory)

/-- Runs a dialogue of the dispatcher with the relay's keyring and estimator. -/
def perform {α : Type} (p : Dispatch.Run α) (memory : Memory) : Run (Except Crash α × Memory) :=
  p.answering answer memory

end ReportRelay.Relay
