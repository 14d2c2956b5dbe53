import ReportRelay.Error
import ReportRelay.Protobuf.Wire
import ReportRelay.Text.Bech32
import ReportRelay.Text.Quoted

/-!
# Chain messages

The messages that the relay can put into a transaction, and their protobuf form. A message is admitted
when its bytes can be read and its sender is an address; what is stored is the canonical writing of what
was read.
-/

namespace ReportRelay

open Protobuf

structure Coin where
  denom : String
  amount : String
  deriving DecidableEq, Repr

/-- A call of a contract with a JSON message. -/
structure ExecuteContract where
  sender : String
  contract : String
  msg : Bytes
  funds : List Coin
  deriving DecidableEq, Repr

structure Transfer where
  sender : String
  recipient : String
  amount : List Coin
  deriving DecidableEq, Repr

inductive Message
  | execute (call : ExecuteContract)
  | send (transfer : Transfer)
  deriving DecidableEq, Repr

/-- An encoded message with the name of its type. -/
structure Envelope where
  typeUrl : String
  value : Bytes
  deriving DecidableEq, Repr

namespace Coin

def empty : Coin := ⟨"", ""⟩

def merge : MergeField Coin := fun coin depth key input =>
  match key.tag with
  | 1 => inField "Coin.denom" do
    let (denom, rest) ← readText key.wireType input
    return ({ coin with denom }, rest)
  | 2 => inField "Coin.amount" do
    let (amount, rest) ← readText key.wireType input
    return ({ coin with amount }, rest)
  | _ => unknownField coin depth key input

def write (coin : Coin) : Bytes :=
  writeText 1 coin.denom ++ writeText 2 coin.amount

end Coin

namespace ExecuteContract

def empty : ExecuteContract := ⟨"", "", [], []⟩

def merge : MergeField ExecuteContract := fun call depth key input =>
  match key.tag with
  | 1 => inField "MsgExecuteContract.sender" do
    let (sender, rest) ← readText key.wireType input
    return ({ call with sender }, rest)
  | 2 => inField "MsgExecuteContract.contract" do
    let (contract, rest) ← readText key.wireType input
    return ({ call with contract }, rest)
  | 3 => inField "MsgExecuteContract.msg" do
    let (msg, rest) ← readBytes key.wireType input
    return ({ call with msg }, rest)
  | 5 => inField "MsgExecuteContract.funds" do
    let (coin, rest) ← readNested Coin.merge .empty depth key.wireType input
    return ({ call with funds := call.funds ++ [coin] }, rest)
  | _ => unknownField call depth key input

def read (input : Bytes) : Except Fault ExecuteContract :=
  readMessage merge empty input

def write (call : ExecuteContract) : Bytes :=
  writeText 1 call.sender ++ writeText 2 call.contract ++ writeBytes 3 call.msg
    ++ call.funds.flatMap fun coin => writeDelimited 5 coin.write

end ExecuteContract

namespace Transfer

def empty : Transfer := ⟨"", "", []⟩

def merge : MergeField Transfer := fun transfer depth key input =>
  match key.tag with
  | 1 => inField "MsgSend.from_address" do
    let (sender, rest) ← readText key.wireType input
    return ({ transfer with sender }, rest)
  | 2 => inField "MsgSend.to_address" do
    let (recipient, rest) ← readText key.wireType input
    return ({ transfer with recipient }, rest)
  | 3 => inField "MsgSend.amount" do
    let (coin, rest) ← readNested Coin.merge .empty depth key.wireType input
    return ({ transfer with amount := transfer.amount ++ [coin] }, rest)
  | _ => unknownField transfer depth key input

def read (input : Bytes) : Except Fault Transfer :=
  readMessage merge empty input

def write (transfer : Transfer) : Bytes :=
  writeText 1 transfer.sender ++ writeText 2 transfer.recipient
    ++ transfer.amount.flatMap fun coin => writeDelimited 3 coin.write

end Transfer

namespace Envelope

def empty : Envelope := ⟨"", []⟩

def merge : MergeField Envelope := fun envelope depth key input =>
  match key.tag with
  | 1 => inField "AnyMsg.type_url" do
    let (typeUrl, rest) ← readText key.wireType input
    return ({ envelope with typeUrl }, rest)
  | 2 => inField "AnyMsg.value" do
    let (value, rest) ← readBytes key.wireType input
    return ({ envelope with value }, rest)
  | _ => unknownField envelope depth key input

def read (input : Bytes) : Except Fault Envelope :=
  readMessage merge empty input

def write (envelope : Envelope) : Bytes :=
  writeText 1 envelope.typeUrl ++ writeBytes 2 envelope.value

end Envelope

namespace Message

def executeUrl : String := "/cosmwasm.wasm.v1.MsgExecuteContract"

def sendUrl : String := "/cosmos.bank.v1beta1.MsgSend"

def typeUrl : Message → String
  | execute _ => executeUrl
  | send _ => sendUrl

/-- The address that must sign the message. -/
def sender : Message → String
  | execute call => call.sender
  | send transfer => transfer.sender

/-- The contract called or the account paid. -/
def target : Message → String
  | execute call => call.contract
  | send transfer => transfer.recipient

def write : Message → Bytes
  | execute call => call.write
  | send transfer => transfer.write

/-- Reads the bytes as the type that the name says, whatever the sender is. -/
def read (url : String) (raw : Bytes) : Except Error Message :=
  if url = executeUrl then
    match ExecuteContract.read raw with
    | .ok call => .ok (execute call)
    | .error fault => .error (.invalidMessage fault.message)
  else if url = sendUrl then
    match Transfer.read raw with
    | .ok transfer => .ok (send transfer)
    | .error fault => .error (.invalidMessage fault.message)
  else .error (.unsupportedMessage url)

def checkSender (address : String) : Except Error Unit :=
  match Bech32.decode address with
  | .ok _ => .ok ()
  | .error fault =>
    .error (.invalidMessage s!"invalid sender {Text.quoted address}: {fault.message}")

/-- Reads a message and checks that its sender is an address. -/
def decode (url : String) (raw : Bytes) : Except Error Message := do
  let message ← read url raw
  checkSender message.sender
  return message

def ofEnvelope (envelope : Envelope) : Except Error Message :=
  decode envelope.typeUrl envelope.value

def toEnvelope (message : Message) : Envelope :=
  ⟨message.typeUrl, message.write⟩

end Message

end ReportRelay
