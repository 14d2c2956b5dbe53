import ReportRelay.Bytes.Signed

/-!
# Median reports

A report holds a timestamp of 4 bytes, the observers in 32 bytes, the number of observations in one byte, the
observations in ascending order in 16 bytes each, and the price of the fee coin in 16 bytes without a sign.
Timestamp, price and the value read back are each the one of middle rank.
-/

namespace ReportRelay

structure Observation where
  timestamp : UInt32
  value : Int
  /-- The price of the fee coin. -/
  juelsPerFeeCoin : Int
  observer : UInt8
  deriving DecidableEq, Repr

namespace Report

def maxObservers : Nat := 32

def intWidth : Nat := 16

/-- Timestamp, observers and number of observations. -/
def headLength : Nat := 4 + maxObservers + 1

def length (observations : Nat) : Nat :=
  headLength + intWidth * observations + intWidth

/-- Observations in ascending order of a key; equal ones stay in the order they have. -/
def sortedBy (key : Observation → Int) (observations : List Observation) : List Observation :=
  observations.mergeSort fun a b => key a ≤ key b

/-- The element of middle rank, the upper one of two. -/
def middle (first : Observation) (sorted : List Observation) : Observation :=
  sorted.getD (sorted.length / 2) first

def observers (sorted : List Observation) : Bytes :=
  sorted.map Observation.observer ++ .zeros (maxObservers - sorted.length)

/-- The report on observations that are already in order. -/
def assemble (timestamp : UInt32) (juelsPerFeeCoin : Int) (sorted : List Observation) :
    Except Error Bytes := do
  let values ← sorted.mapM fun o => Signed.encode intWidth o.value
  let price ← Signed.encodeUnsigned intWidth juelsPerFeeCoin
  return Bytes.bigEndian 4 timestamp.toNat ++ observers sorted ++ [UInt8.ofNat sorted.length]
    ++ values.flatten ++ price

def build : List Observation → Except Error Bytes
  | [] => .error (.codec "cannot build report from empty attributed observations")
  | observations@(first :: _) =>
    if maxObservers < observations.length then
      .error (.codec s!"too many observations: {observations.length} (max {maxObservers})")
    else
      let byTime := sortedBy (fun o => o.timestamp.toNat) observations
      let byPrice := sortedBy Observation.juelsPerFeeCoin byTime
      let byValue := sortedBy Observation.value byPrice
      assemble (middle first byTime).timestamp (middle first byPrice).juelsPerFeeCoin byValue

/-! ## Reading -/

/-- A byte string that is read by place. What a read comes to where there are no bytes is left to `m`. -/
structure Source (m : Type → Type) where
  length : Nat
  byteAt : Nat → m UInt8
  slice (start width : Nat) : m Bytes

/-- Beyond the end every byte is zero, and a slice has only the bytes that are there. -/
def Source.ofBytes (bytes : Bytes) : Source Id where
  length := bytes.length
  byteAt place := bytes.getD place 0
  slice start width := (bytes.drop start).take width

/-- The observation of middle rank. -/
def medianFrom {m : Type → Type} [Monad m] (source : Source m) : m (Except Error Int) :=
  if source.length < headLength then
    return .error (.codec s!"report length missmatch: {source.length} (received), {headLength} (expected)")
  else do
    let observations := (← source.byteAt (headLength - 1)).toNat
    if observations = 0 then return .error (.codec "unpacked report has no 'observations'")
    else if source.length < length observations then
      return .error (.codec ("report does not contain enough observations or is missing "
        ++ "juels/feeCoin observation"))
    else return Signed.decode intWidth (← source.slice (headLength + intWidth * (observations / 2)) intWidth)

def median (report : Bytes) : Except Error Int :=
  medianFrom (.ofBytes report)

end Report

end ReportRelay
