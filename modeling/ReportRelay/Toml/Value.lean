import ReportRelay.Decimal.Binary64

/-!
# TOML values

What a configuration file holds. A table remembers how it came about, because that decides what may be added
to it: a table that only came about on the way to another one may still be given a header of its own, and one
that was made by dotted keys may be given more dotted keys, but nothing is ever defined twice.
-/

namespace ReportRelay.Toml

/-- How a table came about. -/
inductive Origin
  /-- On the way to a table that has a header. -/
  | implied
  /-- On the way to a dotted key. -/
  | dotted
  | header
  | inline
  deriving DecidableEq, Repr

/-- Dates and times are told apart from other values, but not from each other. -/
inductive Value
  | text (text : String)
  | integer (n : Int)
  | float (x : Binary64)
  | boolean (b : Bool)
  | dateTime
  | array (values : List Value)
  /-- A list of tables with a header each. -/
  | tables (elements : List (List (String × Value)))
  | table (origin : Origin) (members : List (String × Value))

abbrev Members := List (String × Value)

namespace Members

def find? (members : Members) (key : String) : Option Value :=
  members.lookup key

/-- Puts another value in the place of the one that a key has. -/
def replace (members : Members) (key : String) (value : Value) : Members :=
  members.map fun entry => if entry.1 = key then (key, value) else entry

/-- Changes the table at the end of a path, and makes those tables on the way that are not there. A dotted
key goes through no table that is defined elsewhere. -/
def descend (isDotted : Bool) (change : Origin → Members → Option Members) :
    List String → Origin → Members → Option Members
  | [], origin, members => change origin members
  | key :: path, _, members =>
    match members.find? key with
    | none => do
      let origin := if isDotted then Origin.dotted else Origin.implied
      let inner ← descend isDotted change path origin []
      return members ++ [(key, .table origin inner)]
    | some (.table origin inner) =>
      if origin = .inline ∨ (isDotted ∧ origin = .header) then none
      else do
        let inner ← descend isDotted change path origin inner
        return members.replace key (.table origin inner)
    | some (.tables elements) => do
      let last ← elements.getLast?
      let last ← descend isDotted change path .header last
      return members.replace key (.tables (elements.dropLast ++ [last]))
    | some _ => none

def insertNew (key : String) (value : Value) (members : Members) : Option Members :=
  if (members.find? key).isSome then none else some (members ++ [(key, value)])

/-- A key, with the keys before its dots, and its value. -/
structure Entry where
  path : List String
  key : String
  value : Value

/-- Adds a dotted key to tables made by dotted keys only, and a plain one to other tables only. -/
def add (members : Members) (entry : Entry) : Option Members :=
  members.descend true
    (fun origin inner =>
      if (origin = .dotted) = (entry.path ≠ []) then insertNew entry.key entry.value inner else none)
    entry.path .header

def addAll (members : Members) (entries : List Entry) : Option Members :=
  entries.foldlM add members

/-- The entries behind one header, which names a table or one more element of a list of tables. -/
structure Section where
  isElement : Bool
  path : List String
  key : String
  entries : List Entry

def defineTable (s : Section) (members : Members) : Option Members :=
  match members.find? s.key with
  | none => do return members ++ [(s.key, .table .header (← addAll [] s.entries))]
  | some (.table .implied inner) => do
    return members.replace s.key (.table .header (← addAll inner s.entries))
  | some _ => none

def defineElement (s : Section) (members : Members) : Option Members :=
  match members.find? s.key with
  | none => do return members ++ [(s.key, .tables [← addAll [] s.entries])]
  | some (.tables elements) => do
    return members.replace s.key (.tables (elements ++ [← addAll [] s.entries]))
  | some _ => none

def addSection (members : Members) (s : Section) : Option Members :=
  members.descend false
    (fun _ inner => if s.isElement then defineElement s inner else defineTable s inner)
    s.path .header

end Members

/-- The table that entries and sections define together. -/
def Members.ofSections (entries : List Members.Entry) (sections : List Members.Section) :
    Option Members := do
  sections.foldlM Members.addSection (← Members.addAll [] entries)

end ReportRelay.Toml
