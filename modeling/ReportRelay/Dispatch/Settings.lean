import ReportRelay.Decimal.Binary64
import ReportRelay.Retry

/-!
# Settings of the dispatcher
-/

namespace ReportRelay.Dispatch

structure Settings where
  gasToken : String
  gasLimitMultiplier : Binary64
  maxGasPrice : Option Decimal
  maxMsgsPerBatch : Int
  /-- Nanoseconds between two ticks. -/
  blockRate : Nat
  blocksUntilTxTimeout : Int
  /-- Nanoseconds after which a message that was not sent expires. -/
  msgTimeout : Nat
  confirmRetry : RetryPolicy
  closeTimeout : Nat
  deriving DecidableEq, Repr

namespace Settings

/-- The longest timeout that ages can be compared with: 63 bits of milliseconds. -/
def longestTimeout : Nat := Duration.ofMillis (2 ^ 63 - 1)

/-- The last block in which a transaction made at the given height may be included. -/
def timeoutHeight (settings : Settings) (height : Nat) : Nat :=
  ((height + settings.blocksUntilTxTimeout) % 2 ^ 64).toNat

end Settings

end ReportRelay.Dispatch
