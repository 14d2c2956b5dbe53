import ReportRelay.Toml.Number

/-!
# Dates and times in TOML

Dates, times of day, and both together with or without an offset. They are checked but not kept.
-/

namespace ReportRelay.Toml.Reader

/-- A number of exactly so many digits. -/
def fixedNumber (count : Nat) : Reader Nat := do
  let ds := (← get).take count
  if ds.length = count ∧ ds.all Char.isDigit then do
    modify (·.drop count)
    return value 10 ds
  else fail

def numberWithin (low high : Nat) : Reader Unit := do
  let n ← fixedNumber 2
  if low ≤ n ∧ n ≤ high then return else fail

def daysIn (year month : Nat) : Nat :=
  if month = 2 then
    if year % 4 = 0 ∧ (year % 100 ≠ 0 ∨ year % 400 = 0) then 29 else 28
  else if month = 4 ∨ month = 6 ∨ month = 9 ∨ month = 11 then 30
  else 31

def date : Reader Unit := do
  let year ← fixedNumber 4
  expect "-"
  let month ← fixedNumber 2
  expect "-"
  let day ← fixedNumber 2
  if 1 ≤ month ∧ month ≤ 12 ∧ 1 ≤ day ∧ day ≤ daysIn year month then return else fail

def time : Reader Unit := do
  numberWithin 0 23
  expect ":"
  numberWithin 0 59
  expect ":"
  numberWithin 0 60
  if ← accept "." then do
    if (← takeWhile Char.isDigit).isEmpty then fail

def offset : Reader Unit := do
  if ← acceptAny ["Z", "z"] then return
  else do
    if !(← acceptAny ["+", "-"]) then fail
    numberWithin 0 23
    expect ":"
    numberWithin 0 59

def timeOfDate : Reader Unit := do
  if ← acceptAny ["T", "t", " "] then do
    time
    offset <|> pure ()
  else fail

def dateTime : Reader Value := do
  (do
    date
    timeOfDate <|> pure ()) <|> time
  return .dateTime

end ReportRelay.Toml.Reader
