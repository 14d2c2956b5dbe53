import ReportRelay.Power

/-!
# Durations

Durations are counted in nanoseconds. Seconds, milliseconds and microseconds are shown in the largest unit
that gives a whole part, with the fraction cut after its last digit that is not zero.
-/

namespace ReportRelay.Duration

def second : Nat := 1000000000

def millisecond : Nat := 1000000

def microsecond : Nat := 1000

/-- The longest duration: 64 bits of whole seconds. -/
def longest : Nat := 2 ^ 64 * second - 1

def ofSeconds (n : Nat) : Nat := n * second

def ofMillis (n : Nat) : Nat := n * millisecond

/-- `rest` out of `unit` as decimal digits behind a point; the unit is a power of ten with `places`
zeros. -/
def fraction (places rest : Nat) : String :=
  let digits := Nat.toDigits 10 rest
  let padded := List.replicate (places - digits.length) '0' ++ digits
  let kept := (padded.reverse.dropWhile (· = '0')).reverse
  if kept.isEmpty then "" else String.ofList ('.' :: kept)

def shown (nanos : Nat) : String :=
  if second ≤ nanos then s!"{nanos / second}" ++ fraction 9 (nanos % second) ++ "s"
  else if millisecond ≤ nanos then
    s!"{nanos / millisecond}" ++ fraction 6 (nanos % millisecond) ++ "ms"
  else if microsecond ≤ nanos then
    s!"{nanos / microsecond}" ++ fraction 3 (nanos % microsecond) ++ "µs"
  else s!"{nanos}ns"

end ReportRelay.Duration
