import ReportRelay.Toml.Value

/-!
# Fields of a structure

How the values of a configuration file become the fields of a structure. Nothing is converted but numbers
into wider ones; fields that the structure does not have are ignored.
-/

namespace ReportRelay.Toml

namespace Value

def text? : Value → Option String
  | text s => some s
  | _ => none

def integerWithin? (low high : Int) : Value → Option Int
  | integer n => if low ≤ n ∧ n ≤ high then some n else none
  | _ => none

/-- An unsigned integer of so many bits. -/
def natOfBits? (bits : Nat) (value : Value) : Option Nat :=
  (value.integerWithin? 0 (2 ^ bits - 1)).map Int.toNat

def int64? (value : Value) : Option Int :=
  value.integerWithin? (-2 ^ 63) (2 ^ 63 - 1)

def binary64? : Value → Option Binary64
  | float x => some x
  | integer n =>
    let x := Binary64.ofNat n.natAbs
    some (if n < 0 then x.neg else x)
  | _ => none

/-- A decimal is written as a text, or as a number, which then stands for the digits it is shown with. -/
def decimal? : Value → Option Decimal
  | text s => Decimal.ofText? s
  | integer n => Decimal.mk? n 0
  | float x => x.toDecimal?
  | _ => none

/-- A structure is a table, or a list of its fields in order. -/
def members? (fields : List String) : Value → Option Members
  | table _ members => some members
  | array values => some (fields.zip values)
  | tables elements => some (fields.zip (elements.map (table .header ·)))
  | _ => none

end Value

namespace Members

variable {α : Type}

def required (members : Members) (key : String) (read : Value → Option α) : Option α :=
  (members.find? key).bind read

def optional (members : Members) (key : String) (default : α) (read : Value → Option α) : Option α :=
  match members.find? key with
  | none => some default
  | some value => read value

end Members

end ReportRelay.Toml
