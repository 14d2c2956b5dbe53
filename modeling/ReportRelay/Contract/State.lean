import ReportRelay.Contract.Attributes
import ReportRelay.Contract.Response
import ReportRelay.Log
import ReportRelay.Reply

/-!
# Reading a contract

What the relay asks of the chain about one contract: its state, the transactions with its events, and the
latest block. The configuration is found in the events of the block in which it was set. A contract without
any transmission is taken to have answered zero.
-/

namespace ReportRelay.Contract

inductive Question
  | state (address : String) (query : Bytes)
  | search (conditions : List String)
  | latestBlock
  | log (line : LogLine)

def Question.Answer : Question → Type
  | state _ _ => Reply Bytes
  | search _ => Reply (List TxResponse)
  | latestBlock => Reply Nat
  | log _ => Unit

def client : Interface where
  Question := Question
  Answer := Question.Answer

abbrev Action (α : Type) := Attempt client α

def askState (address : String) (query : Bytes) : Action Bytes :=
  .ofReply (Dialogue.question (S := client) (.state address query))

def search (conditions : List String) : Action (List TxResponse) :=
  .ofReply (Dialogue.question (S := client) (.search conditions))

def latestBlock : Action Nat :=
  .ofReply (Dialogue.question (S := client) .latestBlock)

def logError (text : String) : Action Unit :=
  .ofDialogue (Dialogue.question (S := client) (.log (.error text)))

/-- Asks for a piece of the contract's state by its name. -/
def query {α : Type} (address name : String) (reader : Json.Reader α) : Action α := do
  let response ← askState address (Bytes.ofText (Json.quoted name))
  match Json.read reader response with
  | .ok a => return a
  | .error fault => throw (.codec s!"failed to decode {name} response: {fault.message}")

def configDetails (address : String) : Action ConfigDetails :=
  query address "latest_config_details" ConfigDetails.reader

def digestAndEpoch (address : String) : Action DigestAndEpoch :=
  query address "latest_config_digest_and_epoch" DigestAndEpoch.reader

/-! ## The configuration -/

def setConfigEvent : String := "wasm-set_config"

/-- The conditions under which a transaction set the contract's configuration in a block. -/
def setConfigConditions (address : String) (block : Nat) : List String :=
  [s!"tx.height={block}", s!"{setConfigEvent}.contract_address='{address}'"]

/-- The event of the first transaction that announces a configuration. -/
def announcement (block : Nat) (conditions : List String) (txs : List TxResponse) :
    Except Error ChainEvent :=
  let fail (text : String) : Except Error ChainEvent := .error (.chain "latest config" text)
  let shown := Text.quotedList conditions
  match txs with
  | [] => fail s!"No transactions found for block {block}, query {shown}"
  | tx :: _ =>
    match tx.logs with
    | [] => fail s!"No logs found for tx {tx.txHash}, query {shown}"
    | log :: _ =>
      if log.events.isEmpty then fail s!"No events found for tx {tx.txHash}, query {shown}"
      else
        match log.events.find? fun event => event.kind = setConfigEvent with
        | some event => .ok event
        | none => fail s!"No set_config event found for tx {tx.txHash}"

/-- The configuration that was set in a block. -/
def config (address : String) (block : Nat) : Action ContractConfig := do
  let conditions := setConfigConditions address block
  let txs ← search conditions
  let event ← Attempt.ofResult (announcement block conditions txs)
  let (config, _) ← Attempt.ofResult (ContractConfig.ofAttributes event.attributes)
  return config

/-! ## The latest transmission -/

/-- What an error says of a contract that has no transmission yet. -/
def noTransmission : String := "ocr2::state::Transmission not found"

def saysNoTransmission (e : Error) : Bool :=
  (e.message.splitOn noTransmission).length ≠ 1

/-- The state of a contract before its first transmission. An error on the way is logged, and the one that
led here is returned. -/
def untransmitted (address : String) (e : Error) : Action Transmission := do
  match ← (digestAndEpoch address).caught with
  | .ok current => do
    if current.epoch ≠ 0 then
      logError (s!"Unexpected non-zero epoch {current.epoch.toNat} and no transmissions found "
        ++ s!"for contract {address}")
    return ⟨current.digest, current.epoch, 0, 0, 0⟩
  | .error second => do
    logError
      s!"Error reading latest config digest and epoch of contract {address}: {second.message}"
    throw e

def transmission (address : String) : Action Transmission := do
  let asked := query address "latest_transmission_details" TransmissionRecord.reader
  match ← asked.caught with
  | .ok record => Attempt.ofResult record.transmission
  | .error e => if saysNoTransmission e then untransmitted address e else throw e

end ReportRelay.Contract
