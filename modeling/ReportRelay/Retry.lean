import ReportRelay.Duration
import ReportRelay.Reply

/-!
# Bounded retry

An operation is called until it succeeds or its attempts run out; between two attempts some time passes.
Durations saturate at the longest one that can be told, and the doubling of an exponential delay saturates
at the largest factor of 32 bits before that.
-/

namespace ReportRelay

inductive Backoff
  | fixed
  | exponential (longest : Nat)
  deriving DecidableEq, Repr

structure RetryPolicy where
  maxAttempts : Nat
  interval : Nat
  backoff : Backoff
  deriving DecidableEq, Repr

namespace RetryPolicy

/-- Two to a power, saturating at 32 bits. -/
def doublings (n : Nat) : Nat :=
  if n < 32 then 2 ^ n else 2 ^ 32 - 1

/-- The delay after a failed attempt; attempts count from one. -/
def delayFor (policy : RetryPolicy) (attempt : Nat) : Nat :=
  match policy.backoff with
  | .fixed => policy.interval
  | .exponential longest =>
    min (min (policy.interval * doublings (attempt - 1)) Duration.longest) longest

/-- Even a policy of no attempts allows one. -/
def attempts (policy : RetryPolicy) : Nat :=
  max policy.maxAttempts 1

variable {S : Interface} {α : Type}

/-- The attempt with the given number, and `more` after it while they fail. -/
def retryFrom (policy : RetryPolicy) (operation : Nat → Dialogue S (Except Error α)) :
    Nat → Nat → Dialogue S (Except Error α)
  | 0, attempt => operation attempt
  | more + 1, attempt => do
    match ← operation attempt with
    | .ok result => return .ok result
    | .error _ => do
      Dialogue.pass (policy.delayFor attempt)
      retryFrom policy operation more (attempt + 1)

def retry (policy : RetryPolicy) (operation : Nat → Dialogue S (Except Error α)) :
    Dialogue S (Except Error α) :=
  policy.retryFrom operation (policy.attempts - 1) 1

end RetryPolicy

end ReportRelay
