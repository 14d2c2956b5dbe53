import ReportRelay.Toml.Date

/-!
# TOML documents

Keys, values, and the file as a whole: entries, and then sections with a header each.
-/

namespace ReportRelay.Toml

namespace Reader

/-! ## Keys -/

def isBareKeyChar (c : Char) : Bool :=
  c.isAlphanum || c = '-' || c = '_'

def simpleKey : Reader String := do
  match ← lineText? with
  | some chars => return String.ofList chars
  | none => do
    let chars ← takeWhile isBareKeyChar
    if chars.isEmpty then fail else return String.ofList chars

def keyParts : Nat → Reader (List String)
  | 0 => fail
  | fuel + 1 => do
    skipBlanks
    let key ← simpleKey
    skipBlanks
    if ← accept "." then return key :: (← keyParts fuel) else return [key]

/-- How many keys may stand between dots, and how deeply lists and tables may be nested, at most. -/
def maxDepth : Nat := 79

/-- A key with the keys before its dots. -/
def dottedKey : Reader (List String × String) := do
  let parts ← keyParts (← fuel)
  match parts.getLast? with
  | some key => if parts.length ≤ maxDepth then return (parts.dropLast, key) else fail
  | none => fail

/-! ## Values -/

def scalar : Reader Value := do
  match ← text? with
  | some chars => return .text (String.ofList chars)
  | none =>
    if ← accept "true" then return .boolean true
    else if ← accept "false" then return .boolean false
    else dateTime <|> decimalFloat <|> specialFloat <|> integer

def entryOf (value : Reader Value) : Reader Members.Entry := do
  let (path, key) ← dottedKey
  expect "="
  skipBlanks
  return ⟨path, key, ← value⟩

/-- The values of a list up to its end. -/
def listItems (value : Reader Value) : Nat → Reader (List Value)
  | 0 => fail
  | fuel + 1 => do
    skipFiller fuel
    if ← accept "]" then return []
    else do
      let item ← value
      skipFiller fuel
      if ← accept "," then return item :: (← listItems value fuel)
      else do
        expect "]"
        return [item]

/-- The entries of a table in braces up to its end, at least one. -/
def inlineEntries (value : Reader Value) : Nat → Reader (List Members.Entry)
  | 0 => fail
  | fuel + 1 => do
    let entry ← entryOf value
    skipBlanks
    if ← accept "," then return entry :: (← inlineEntries value fuel)
    else do
      expect "\x7d"
      return [entry]

def inlineTable (value : Reader Value) : Reader Value := do
  skipBlanks
  if ← accept "\x7d" then return .table .inline []
  else do
    let entries ← inlineEntries value (← fuel)
    match Members.addAll [] entries with
    | some members => return .table .inline members
    | none => fail

def valueWithin : Nat → Reader Value
  | 0 => scalar
  | depth + 1 => do
    if ← accept "[" then return .array (← listItems (valueWithin depth) (← fuel))
    else if ← accept "\x7b" then inlineTable (valueWithin depth)
    else scalar

/-! ## Documents -/

/-- Entries up to the next header or the end. -/
def entries : Nat → Reader (List Members.Entry)
  | 0 => fail
  | fuel + 1 => do
    skipFiller fuel
    match ← ahead with
    | none | some '[' => return []
    | some _ => do
      let entry ← entryOf (valueWithin maxDepth)
      endLine
      return entry :: (← entries fuel)

def headed (fuel : Nat) : Reader Members.Section := do
  let isElement ← accept "[["
  if !isElement then expect "["
  let (path, key) ← dottedKey
  expect (if isElement then "]]" else "]")
  endLine
  return ⟨isElement, path, key, ← entries fuel⟩

def sections : Nat → Reader (List Members.Section)
  | 0 => fail
  | fuel + 1 => do
    if (← get).isEmpty then return []
    else do
      let s ← headed (fuel + 1)
      return s :: (← sections fuel)

/-- All of a file, which may begin with a byte order mark. -/
def document : Reader Members := do
  let _ ← accept "\ufeff"
  let top ← entries (← fuel)
  let rest ← sections (← fuel)
  match Members.ofSections top rest with
  | some members => return members
  | none => fail

end Reader

/-- The table that a file holds. -/
def read (text : String) : Option Members :=
  (Reader.document.run text.toList).map Prod.fst

end ReportRelay.Toml
