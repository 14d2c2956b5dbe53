import ReportRelay.Dispatch.Batch
import ReportRelay.Polling
import ReportRelay.Polling.Background

/-!
# The dispatcher

Puts messages into the queue and, at every tick, first confirms what an earlier run left broadcasted and then
sends the next batch. Errors and crashes end that half of the tick and are logged; the loop goes on.
-/

namespace ReportRelay.Dispatch

/-- Admits a message and stores the canonical writing of it. -/
def enqueue (contractId : String) (envelope : Envelope) : Action MsgId := do
  let message ← Attempt.ofResult (Message.ofEnvelope envelope)
  let now ← Attempt.ofDialogue now
  execute (.insert contractId message.typeUrl message.write now)

/-- One half of a tick. -/
def logged (failure crash : String) (half : Action Unit) : Run Unit := do
  match ← Dialogue.guarded half.outcome with
  | .ok (.ok ()) => return
  | .ok (.error e) => log (.error (failure ++ e.message))
  | .error c => log (.error (crash ++ c.message))

/-- One tick of the poll loop. -/
def pollCycle (settings : Settings) : Run Unit := do
  logged "Error confirming unconfirmed msgs: " "Confirmation sweep panicked: "
    (confirmAnyUnconfirmed settings)
  logged "Error sending msg batch: " "Msg batch cycle panicked: " (sendMsgBatch settings)

def clock : Run Nat :=
  now.bind fun t => .done t.toNat

/-! ## Running in the background -/

/-- Whether the dispatcher was closed, and its loops. A closed dispatcher is not started again. -/
structure Lifecycle where
  closed : Bool
  background : Polling.Background interface

namespace Lifecycle

def fresh : Lifecycle := ⟨false, .none⟩

def start (settings : Settings) (lifecycle : Lifecycle) : Except Error Lifecycle :=
  if lifecycle.closed then .error (.internal "transaction manager already closed")
  else
    let loop := Polling.loop clock settings.blockRate (pollCycle settings)
    .ok { lifecycle with background := lifecycle.background.start loop }

/-- The end of a loop that was taken down. -/
def taskFailure : Crash → Error
  | .text message =>
    .internal s!"poll loop task failed: task 1 panicked with message {Text.quoted message}"
  | .unnamed => .internal "poll loop task failed: task 1 panicked"

/-- Stops the loop and waits for the cycle in progress, but no longer than the timeout. -/
def close (settings : Settings) (lifecycle : Lifecycle) : Run (Except Error Unit × Lifecycle) := do
  let (closing, background) ← lifecycle.background.close settings.closeTimeout
  let closed : Lifecycle := ⟨true, background⟩
  match closing with
  | .notRunning | .ended (.ok ()) => return (.ok (), closed)
  | .ended (.error c) => return (.error (taskFailure c), closed)
  | .timedOut => do
    log (.warn (s!"Transaction manager did not stop within "
      ++ Duration.shown settings.closeTimeout))
    return (.error (.timeout "transaction manager close"), closed)

end Lifecycle

end ReportRelay.Dispatch
