import ReportRelay.Chain

/-!
# Whom the dispatcher asks

Calls of the chain client, the keys of senders, gas prices, the clock, and the message store. A call of the
client names the sender and the messages on whose behalf it is made. A statement of the store takes its turn
first, which may take some time; the statement itself is one indivisible step.
-/

namespace ReportRelay.Dispatch

/-- On whose behalf the chain client is called. -/
structure Behalf where
  sender : String
  ids : List MsgId
  deriving DecidableEq, Repr

inductive Question
  | client (behalf : Behalf) (call : ClientCall)
  | signer (sender : String)
  | prices
  | now
  | turn
  | store (statement : Store.Statement)
  /-- A change of the store in a transaction of its own: all of the ids move or none. -/
  | storeAll (ids : List MsgId) (state : MsgState) (txHash : Option String)
  | log (line : LogLine)

def Question.Answer : Question → Type
  | client _ call => Reply call.Result
  | signer _ => Reply Signer
  | prices => Reply Prices
  | now => Int
  | turn => Nat
  | store statement => Except Error statement.Result
  | storeAll .. => Except Error Unit
  | log _ => Unit

def interface : Interface where
  Question := Question
  Answer := Question.Answer

abbrev Run (α : Type) := Dialogue interface α

abbrev Action (α : Type) := Attempt interface α

def ask (question : Question) : Run question.Answer :=
  Dialogue.question (S := interface) question

def call (behalf : Behalf) (call : ClientCall) : Action call.Result :=
  .ofReply (ask (.client behalf call))

def signerOf (sender : String) : Action Signer :=
  .ofReply (ask (.signer sender))

def currentPrices : Action Prices :=
  .ofReply (ask .prices)

def now : Run Int :=
  ask .now

def log (line : LogLine) : Run Unit :=
  ask (.log line)

def logAll : List LogLine → Run Unit
  | [] => return
  | line :: rest => do
    log line
    logAll rest

/-- Waits until the store serves the next statement. -/
def turn : Run Unit :=
  (ask .turn).bind fun nanos => Dialogue.pass nanos

def execute (statement : Store.Statement) : Action statement.Result :=
  ExceptT.mk (turn.bind fun _ => ask (.store statement))

def load (state : MsgState) (limit : Int) : Action (List Row) :=
  execute (.load state limit)

def update (ids : List MsgId) (state : MsgState) : Action Unit :=
  execute (.update ids state none)

def updateAll (ids : List MsgId) (state : MsgState) (txHash : String) : Action Unit :=
  ExceptT.mk (turn.bind fun _ => ask (.storeAll ids state (some txHash)))

end ReportRelay.Dispatch
