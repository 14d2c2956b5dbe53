import ReportRelay.GasPrice
import ReportRelay.Decimal.Binary64
import ReportRelay.Keyring
import ReportRelay.Message
import ReportRelay.Queue.Store

/-!
# The chain client

What the relay asks of a node of the chain, and what the node answers.
-/

namespace ReportRelay

structure Account where
  number : Nat
  sequence : Nat
  deriving DecidableEq, Repr

/-- A queued message that is to be simulated. -/
structure SimMsg where
  id : MsgId
  message : Message
  deriving DecidableEq, Repr

/-- Outcome of simulating messages one after another. -/
structure Simulation where
  succeeded : List SimMsg
  failed : List SimMsg
  deriving DecidableEq, Repr

/-- All that is needed to build and sign one transaction. -/
structure UnsignedTx where
  messages : List Message
  accountNumber : Nat
  sequence : Nat
  gasLimit : Nat
  gasLimitMultiplier : Binary64
  gasPrice : DecCoin
  timeoutHeight : Nat
  deriving DecidableEq, Repr

structure BroadcastResponse where
  txHash : String
  /-- Zero when the transaction was accepted. -/
  code : Nat
  rawLog : String
  deriving DecidableEq, Repr

structure EventAttribute where
  key : String
  value : String
  deriving DecidableEq, Repr

structure ChainEvent where
  kind : String
  attributes : List EventAttribute
  deriving DecidableEq, Repr

structure TxLog where
  events : List ChainEvent
  deriving DecidableEq, Repr

structure TxResponse where
  txHash : String
  height : Int
  /-- Zero when the transaction was executed. -/
  code : Nat
  rawLog : String
  logs : List TxLog
  deriving DecidableEq, Repr

inductive ClientCall
  | account (address : String)
  | simulateEach (messages : List SimMsg) (sequence : Nat)
  | simulate (messages : List Message) (sequence : Nat)
  | latestBlock
  | createAndSign (tx : UnsignedTx) (signer : Signer)
  | broadcast (tx : Bytes)
  | lookUp (txHash : String)
  deriving DecidableEq, Repr

def ClientCall.Result : ClientCall → Type
  | account _ => Account
  | simulateEach _ _ => Simulation
  | simulate _ _ => Nat
  | latestBlock => Nat
  | createAndSign _ _ => Bytes
  | broadcast _ => BroadcastResponse
  | lookUp _ => TxResponse

end ReportRelay
