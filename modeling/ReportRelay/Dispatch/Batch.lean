import ReportRelay.Dispatch.Confirmation

/-!
# One batch

A batch takes the oldest messages, those left started by an earlier batch before new ones. Expired and
unreadable messages are errored. Every sender then sends all its started messages and at most one new one,
in one transaction: they are simulated, signed, broadcast and confirmed together. Once a batch is broadcast
its messages never become started again, so that no message is sent twice.
-/

namespace ReportRelay.Dispatch

/-- A loaded message that can be read. -/
structure Pending where
  row : Row
  message : Message
  deriving DecidableEq, Repr

def Pending.id (pending : Pending) : MsgId := pending.row.id

def Pending.sender (pending : Pending) : String := pending.message.sender

def Pending.isStarted (pending : Pending) : Bool := pending.row.state = .started

/-! ## Sorting what was loaded -/

/-- What is found about a loaded message. -/
inductive Finding
  | expired (id : MsgId)
  | undecodable (id : MsgId) (e : Error)
  | pending (p : Pending)
  deriving DecidableEq, Repr

def find (settings : Settings) (now : Int) (row : Row) : Finding :=
  if settings.msgTimeout < now - row.createdAt then .expired row.id
  else
    match Message.decode row.typeUrl row.raw with
    | .ok message => .pending ⟨row, message⟩
    | .error e => .undecodable row.id e

def Finding.expired? : Finding → Option MsgId
  | expired id => some id
  | _ => none

def Finding.undecodable? : Finding → Option (MsgId × Error)
  | undecodable id e => some (id, e)
  | _ => none

def Finding.pending? : Finding → Option Pending
  | pending p => some p
  | _ => none

/-- A sender with its started messages and the first of its new ones. -/
structure SenderMsgs where
  sender : String
  started : List Pending
  next : Option Pending
  deriving DecidableEq, Repr

def SenderMsgs.msgs (msgs : SenderMsgs) : List Pending :=
  msgs.started ++ msgs.next.toList

def SenderMsgs.ids (msgs : SenderMsgs) : List MsgId :=
  msgs.msgs.map Pending.id

def bySender (pending : List Pending) : List SenderMsgs :=
  (distinctSorted (pending.map Pending.sender)).map fun sender =>
    let own := pending.filter fun p => p.sender = sender
    ⟨sender, own.filter Pending.isStarted, own.find? fun p => !p.isStarted⟩

/-! ## Signers -/

/-- What one sender sends in a single transaction. -/
structure SenderBatch where
  msgs : SenderMsgs
  signer : Signer
  deriving DecidableEq, Repr

/-- The senders that can sign, and the messages of those that cannot. -/
def assignSigners : List SenderMsgs → Run (List SenderBatch × List MsgId)
  | [] => return ([], [])
  | msgs :: rest => do
    match ← (signerOf msgs.sender).outcome with
    | .ok signer => do
      let (batches, unsignable) ← assignSigners rest
      return (⟨msgs, signer⟩ :: batches, unsignable)
    | .error e => do
      log (.error s!"No signing key for sender {msgs.sender}: {e.message}")
      let (batches, unsignable) ← assignSigners rest
      return (batches, msgs.ids ++ unsignable)

/-! ## One sender -/

/-- The estimated price, or the maximum where it is lower. -/
def cappedPrice (settings : Settings) (estimated : DecCoin) : DecCoin × List LogLine :=
  match settings.maxGasPrice with
  | none => (estimated, [])
  | some max =>
    let cap : DecCoin := ⟨settings.gasToken, max⟩
    let price := GasPrice.lowest settings.gasToken cap estimated cap
    if price.amount < estimated.amount then
      (price, [.warn (s!"Estimated gas price {estimated.amount.text} {estimated.denom} is above "
        ++ s!"the max, using {price.amount.text}")])
    else (price, [])

def shownIds (ids : List MsgId) : String :=
  "[" ++ ", ".intercalate (ids.map toString) ++ "]"

/-- Errors all messages of a batch of which the simulation left any out of those that succeed: a failure
makes the sequence wrong for every other message of the sender. -/
def cancelBatch (behalf : Behalf) (failed cancelled : List MsgId) : Action Unit := do
  logAll (failed.map fun id => .warn s!"Simulation failed for msg {id} from {behalf.sender}")
  update failed .errored
  if !cancelled.isEmpty then do
    log (.warn (s!"Cancelled msgs {shownIds cancelled} from {behalf.sender}: "
      ++ "batched with a failed msg from the same sender"))
    update cancelled .errored

/-- Errors the batch after a step of it has failed. -/
def abandon (behalf : Behalf) (step : String) (e : Error) : Action Unit := do
  log (.error s!"Failed to {step} msgs {shownIds behalf.ids} from {behalf.sender}: {e.message}")
  update behalf.ids .errored

/-- Broadcasts a signed transaction and moves its messages along with it. -/
def broadcast (behalf : Behalf) (tx : Bytes) : Action String := do
  let response ← call behalf (.broadcast tx)
  if response.code = 0 then do
    updateAll behalf.ids .broadcasted response.txHash
    return response.txHash
  else
    throw (.chain "broadcast"
      s!"tx {response.txHash} rejected with code {response.code}: {response.rawLog}")

/-- Simulates, signs, broadcasts and confirms one sender's batch. An error that is returned leaves the
messages started for a later batch. -/
def sendBatchOf (settings : Settings) (gasPrice : DecCoin) (batch : SenderBatch) : Action Unit := do
  let sender := batch.msgs.sender
  let msgs := batch.msgs.msgs
  let ids := batch.msgs.ids
  let behalf : Behalf := ⟨sender, ids⟩
  let account ← call behalf (.account sender)
  let simulated ← call behalf (.simulateEach (msgs.map fun p => ⟨p.id, p.message⟩) account.sequence)
  let succeeded := simulated.succeeded.map SimMsg.id
  let failed := ids.filter fun id => id ∉ succeeded
  if !failed.isEmpty then cancelBatch behalf failed (ids.filter fun id => id ∈ succeeded)
  else do
    let messages := msgs.map Pending.message
    match ← (call behalf (.simulate messages account.sequence)).caught with
    | .error e => abandon behalf "simulate" e
    | .ok gasUsed => do
      let height ← call behalf .latestBlock
      let tx : UnsignedTx :=
        { messages
          accountNumber := account.number
          sequence := account.sequence
          gasLimit := gasUsed
          gasLimitMultiplier := settings.gasLimitMultiplier
          gasPrice
          timeoutHeight := settings.timeoutHeight height }
      match ← (call behalf (.createAndSign tx batch.signer)).caught with
      | .error e => abandon behalf "sign" e
      | .ok signed => do
        match ← (broadcast behalf signed).caught with
        | .error e => abandon behalf "broadcast" e
        | .ok txHash => confirmTx settings behalf txHash

def sendLogged (settings : Settings) (gasPrice : DecCoin) (batch : SenderBatch) : Run Unit := do
  match ← (sendBatchOf settings gasPrice batch).outcome with
  | .ok () => return
  | .error e =>
    log (.error s!"Failed to send batch for sender {batch.msgs.sender}: {e.message}")

/-! ## The batch -/

def updateAny (ids : List MsgId) (state : MsgState) : Action Unit :=
  if ids.isEmpty then pure () else update ids state

/-- Errors the messages that cannot be sent, and returns the others. -/
def sortOut (settings : Settings) (now : Int) (rows : List Row) : Action (List Pending) := do
  let findings := rows.map (find settings now)
  let undecodable := findings.filterMap Finding.undecodable?
  logAll (undecodable.map fun (id, e) => .error s!"Failed to decode msg {id}: {e.message}")
  let expired := findings.filterMap Finding.expired?
  if !expired.isEmpty then
    log (.warn (s!"Expiring msgs {shownIds expired}: not sent within "
      ++ Duration.shown settings.msgTimeout))
  updateAny expired .errored
  updateAny (undecodable.map Prod.fst) .errored
  return findings.filterMap Finding.pending?

def priceOfToken (settings : Settings) : Action DecCoin := do
  let prices ← currentPrices
  match prices.find? settings.gasToken with
  | none => throw (.gasPrice s!"no gas price for {settings.gasToken}")
  | some estimated => do
    let (price, warnings) := cappedPrice settings estimated
    logAll warnings
    return price

def sendBatches (settings : Settings) (batches : List SenderBatch) : Action Unit := do
  let starting := batches.filterMap fun batch => batch.msgs.next.map Pending.id
  updateAny starting .started
  let gasPrice ← priceOfToken settings
  .ofDialogue (Dialogue.all (batches.map (sendLogged settings gasPrice)))

/-- Builds, broadcasts and confirms the next batch. -/
def sendMsgBatch (settings : Settings) : Action Unit := do
  let leftover ← load .started settings.maxMsgsPerBatch
  let unstarted ← load .unstarted settings.maxMsgsPerBatch
  if leftover.isEmpty ∧ unstarted.isEmpty then return
  let now ← Attempt.ofDialogue now
  if Settings.longestTimeout < settings.msgTimeout then
    throw (.config
      "invalid tx_msg_timeout: Source duration value is out of range for the target type")
  let pending ← sortOut settings now (leftover ++ unstarted)
  let (batches, unsignable) ← Attempt.ofDialogue (assignSigners (bySender pending))
  updateAny unsignable .errored
  if batches.isEmpty then return
  sendBatches settings batches

end ReportRelay.Dispatch
