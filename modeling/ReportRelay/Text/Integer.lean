/-!
# Integers as decimal text

Bounded numbers, read digit by digit so that the first digit that is wrong or too much decides which
fault is reported, and unbounded integers, whose digits may be grouped by underscores.
-/

namespace ReportRelay.Text

inductive IntegerFault
  | empty
  | invalidDigit
  | tooLarge
  deriving DecidableEq, Repr

namespace IntegerFault

def message : IntegerFault → String
  | empty => "cannot parse integer from empty string"
  | invalidDigit => "invalid digit found in string"
  | tooLarge => "number too large to fit in target type"

end IntegerFault

def digitValue? (c : Char) : Option Nat :=
  if c.isDigit then some (c.toNat - 48) else none

/-- Appends digits to the number read so far, which must stay below `bound`. -/
def appendDigits (bound : Nat) : Nat → List Char → Except IntegerFault Nat
  | n, [] => .ok n
  | n, c :: rest =>
    match digitValue? c with
    | none => .error .invalidDigit
    | some d =>
      let next := 10 * n + d
      if next < bound then appendDigits bound next rest else .error .tooLarge

/-- A number below `bound`, with an optional plus sign. -/
def readNat (bound : Nat) (text : String) : Except IntegerFault Nat :=
  match text.toList with
  | [] => .error .empty
  | ['+'] => .error .invalidDigit
  | '+' :: digits => appendDigits bound 0 digits
  | digits => appendDigits bound 0 digits

def groupedDigits? : List Char → Option Nat
  | [] => none
  | '_' :: _ => none
  | digits => digits.foldl (fun n? c => n?.bind fun n =>
      if c = '_' then some n else (digitValue? c).map (10 * n + ·)) (some 0)

/-- An integer of any size, with an optional sign. -/
def readInt? (text : String) : Option Int :=
  match text.toList with
  | '-' :: digits => (groupedDigits? digits).map fun n => -Int.ofNat n
  | '+' :: digits => (groupedDigits? digits).map Int.ofNat
  | digits => (groupedDigits? digits).map Int.ofNat

end ReportRelay.Text
