import ReportRelay.Error
import ReportRelay.Dialogue

/-!
# Replies of collaborators

Somebody who is asked takes some time and then answers, fails, or takes the asking dialogue down.
-/

namespace ReportRelay

structure Reply (α : Type) where
  nanos : Nat
  outcome : Except Crash (Except Error α)

namespace Reply

def ok {α : Type} (a : α) : Reply α :=
  ⟨0, .ok (.ok a)⟩

def error {α : Type} (e : Error) : Reply α :=
  ⟨0, .ok (.error e)⟩

/-- Waits for the reply and tells what came of it. -/
def await {S : Interface} {α : Type} (reply : Reply α) : Dialogue S (Except Crash (Except Error α)) :=
  (Dialogue.pass reply.nanos).bind fun _ => .done reply.outcome

/-- Waits for the reply and takes what it says. -/
def receive {S : Interface} {α : Type} (reply : Reply α) : Dialogue S (Except Error α) :=
  reply.await.bind fun outcome =>
    match outcome with
    | .ok result => .done result
    | .error c => .crash c

end Reply

/-- A dialogue that may fail with an error and then does no more. -/
abbrev Attempt (S : Interface) (α : Type) := ExceptT Error (Dialogue S) α

namespace Attempt

variable {S : Interface} {α : Type}

def ofResult (result : Except Error α) : Attempt S α :=
  ExceptT.mk (.done result)

def ofReply (question : Dialogue S (Reply α)) : Attempt S α :=
  ExceptT.mk (question.bind Reply.receive)

/-- A dialogue that cannot fail. -/
def ofDialogue (p : Dialogue S α) : Attempt S α :=
  ExceptT.lift p

/-- The result of an attempt, whether or not it fails. -/
def outcome (attempt : Attempt S α) : Dialogue S (Except Error α) :=
  ExceptT.run attempt

/-- Goes on with the result of an attempt, whether or not it fails. -/
def caught (attempt : Attempt S α) : Attempt S (Except Error α) :=
  ofDialogue attempt.outcome

end Attempt

end ReportRelay
