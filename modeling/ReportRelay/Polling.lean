import ReportRelay.Dialogue
import ReportRelay.Power

/-!
# Polling in the background

A poll loop runs a cycle at once and then every period. A tick that is missed because a cycle is under way
comes right after it, and the next one a full period later; being late by a few milliseconds does not count
as missing it. Between cycles the loop waits idly, and a loop that is to stop does so at its next idle wait.
-/

namespace ReportRelay.Polling

variable {S : Interface} {α : Type}

/-- How late a tick may be without delaying the ticks after it, in nanoseconds. -/
def tolerance : Nat := 5000000

/-- More ticks than a loop lives to see. -/
def manyTicks : Nat := 2 ^ 64

def zeroPeriod : String := "`period` must be non-zero."

/-- When the tick after the one that was due is due. -/
def nextDue (period due now : Nat) : Nat :=
  if due + tolerance < now then now + period else due + period

def ticks (clock : Dialogue S Nat) (period : Nat) (cycle : Dialogue S Unit) :
    Nat → Nat → Dialogue S Unit
  | 0, _ => .done ()
  | more + 1, due => do
    let early ← clock
    Dialogue.idle (due - early)
    let now ← clock
    cycle
    ticks clock period cycle more (nextDue period due now)

/-- The loop; what takes it down is its result. -/
def loop (clock : Dialogue S Nat) (period : Nat) (cycle : Dialogue S Unit) :
    Dialogue S (Except Crash Unit) :=
  Dialogue.guarded do
    if period = 0 then Dialogue.crash (.text zeroPeriod)
    let start ← clock
    ticks clock period cycle manyTicks start

end ReportRelay.Polling
