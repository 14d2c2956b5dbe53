import ReportRelay.Proofs.Dialogue.Transcript
import ReportRelay.Proofs.Dispatch.Session
import ReportRelay.Relay

/-!
# Sessions of a relay

A relay performs one command after the other in a world that answers it. What it remembers goes from each command to
the next, however the command ends.
-/

namespace ReportRelay.Relay

/-- One command of a session: what the relay remembers when it begins, and all that it then asks. -/
structure Part where
  command : Dispatch.Command
  memory : Memory
  course : List (Event interface)

/-- What is remembered after a command. -/
def remembered (memory : Memory) : Except Crash (Except Crash Unit × Memory) → Memory
  | .ok (_, later) => later
  | .error _ => memory

variable {W : Type}

def conduct (pass : Nat → W → W) (answer : (q : interface.Question) → W → interface.Answer q × W) :
    List Dispatch.Command → Memory → W → List Part
  | [], _, _ => []
  | command :: rest, memory, world =>
    let action := perform command.dialogue memory
    let (outcome, later) := action.run pass answer world
    ⟨command, memory, action.transcript pass answer world⟩ ::
      conduct pass answer rest (remembered memory outcome) later

end ReportRelay.Relay
