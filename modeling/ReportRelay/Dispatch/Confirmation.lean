import ReportRelay.Dialogue.Together
import ReportRelay.Dispatch.Interface
import ReportRelay.Dispatch.Settings

/-!
# Confirmation of transactions

A transaction is looked up until it is found or the attempts run out. Its messages are then confirmed, or
errored when it failed on the chain or was never found. A sweep does this for messages that are still
broadcasted: transactions of one sender in order, different senders at the same time.
-/

namespace ReportRelay.Dispatch

def lookUp (settings : Settings) (behalf : Behalf) (txHash : String) : Run (Except Error TxResponse) :=
  settings.confirmRetry.retry fun _ => (call behalf (.lookUp txHash)).outcome

def confirmTx (settings : Settings) (behalf : Behalf) (txHash : String) : Action Unit := do
  match ← Attempt.ofDialogue (lookUp settings behalf txHash) with
  | .ok response =>
    if response.code = 0 then update behalf.ids .confirmed
    else do
      log (.error s!"Tx {txHash} failed on chain with code {response.code}: {response.rawLog}")
      update behalf.ids .errored
  | .error e => do
    log (.error
      s!"Failed to confirm tx {txHash} after {settings.confirmRetry.maxAttempts} attempts: {e.message}")
    update behalf.ids .errored

/-- The sender of a stored message; none for one that cannot be read any more. -/
def storedSender (row : Row) : String :=
  match Message.decode row.typeUrl row.raw with
  | .ok message => message.sender
  | .error _ => ""

/-- Puts a value where it belongs in an ascending list, unless it is there. -/
def insertOnce (name : String) : List String → List String
  | [] => [name]
  | other :: rest =>
    if name < other then name :: other :: rest
    else if other < name then other :: insertOnce name rest
    else other :: rest

/-- Each value once, in ascending order. -/
def distinctSorted (names : List String) : List String :=
  names.foldr insertOnce []

/-- The transactions of one sender, oldest first, with their messages. -/
def transactionsOf (rows : List Row) (sender : String) : List (String × Behalf) :=
  let own := rows.filter fun row => row.txHash.isSome ∧ storedSender row = sender
  (own.filterMap Row.txHash).eraseDups.map fun txHash =>
    (txHash, ⟨sender, (own.filter fun row => row.txHash = some txHash).map Row.id⟩)

def confirmInOrder (settings : Settings) : List (String × Behalf) → Run Unit
  | [] => return
  | (txHash, behalf) :: rest => do
    match ← (confirmTx settings behalf txHash).outcome with
    | .ok () => pure ()
    | .error e => log (.error s!"Failed to record confirmation of tx {txHash}: {e.message}")
    confirmInOrder settings rest

/-- The work of a sweep over the given rows, one dialogue for each sender. -/
def sweepOf (settings : Settings) (rows : List Row) : List (Run Unit) :=
  let known := rows.filter fun row => row.txHash.isSome
  (distinctSorted (known.map storedSender)).map fun sender =>
    confirmInOrder settings (transactionsOf rows sender)

/-- Confirms messages left broadcasted, as many as fit in a batch. -/
def confirmAnyUnconfirmed (settings : Settings) : Action Unit := do
  let rows ← load .broadcasted settings.maxMsgsPerBatch
  .ofDialogue (Dialogue.all (sweepOf settings rows))

end ReportRelay.Dispatch
