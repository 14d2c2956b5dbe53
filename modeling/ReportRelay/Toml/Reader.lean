import ReportRelay.Text.Quoted
import ReportRelay.Toml.Value

/-!
# Readers of TOML

Readers of the smallest parts of a configuration file: blanks, line ends and texts. A reader takes
what it reads from the front of the characters that are left. A loop takes at least one character in each turn,
so that their number is enough fuel. There is one way to fail; a reader that fails has taken nothing.
-/

namespace ReportRelay.Toml

abbrev Reader := StateT (List Char) Option

namespace Reader

variable {α : Type}

def fail : Reader α := failure

def take : Reader Char := do
  match ← get with
  | [] => fail
  | c :: rest => do
    set rest
    return c

def ahead : Reader (Option Char) := do
  return (← get).head?

def takeWhile (p : Char → Bool) : Reader (List Char) := do
  let input ← get
  set (input.dropWhile p)
  return input.takeWhile p

/-- Takes a text if it is what comes next. -/
def accept (text : String) : Reader Bool := do
  let input ← get
  if text.toList.isPrefixOf input then do
    set (input.drop text.toList.length)
    return true
  else return false

def expect (text : String) : Reader Unit := do
  if ← accept text then return else fail

/-- Takes the first of some texts that comes next. -/
def acceptAny : List String → Reader Bool
  | [] => return false
  | text :: texts => do
    if ← accept text then return true else acceptAny texts

def fuel : Reader Nat := do
  return (← get).length + 1

/-! ## Blanks and line ends -/

def isBlank (c : Char) : Bool :=
  c = ' ' || c = '\t'

/-- Anything but a control character, which may be a tab. -/
def isVisible (c : Char) : Bool :=
  c = '\t' || (' ' ≤ c && c ≠ '\x7f')

def skipBlanks : Reader Unit := do
  let _ ← takeWhile isBlank

def newline : Reader Bool :=
  acceptAny ["\n", "\r\n"]

def skipComment : Reader Unit := do
  if ← accept "#" then do
    let _ ← takeWhile isVisible

/-- Blanks, perhaps a comment, and the end of the line or of everything. -/
def endLine : Reader Unit := do
  skipBlanks
  skipComment
  if (← get).isEmpty then return
  else if ← newline then return
  else fail

/-- Blanks, comments and line ends. -/
def skipFiller : Nat → Reader Unit
  | 0 => return
  | fuel + 1 => do
    skipBlanks
    skipComment
    if ← newline then skipFiller fuel

/-! ## Texts -/

def hexValue? (c : Char) : Option Nat :=
  if c.isDigit then some (c.toNat - 48)
  else if 'a' ≤ c ∧ c ≤ 'f' then some (c.toNat - 87)
  else if 'A' ≤ c ∧ c ≤ 'F' then some (c.toNat - 55)
  else none

def hexNumber : Nat → Nat → Reader Nat
  | 0, n => return n
  | digits + 1, n => do
    match hexValue? (← take) with
    | some d => hexNumber digits (16 * n + d)
    | none => fail

def codePoint (digits : Nat) : Reader Char := do
  let n ← hexNumber digits 0
  if n.isValidChar then return Char.ofNat n else fail

/-- A character behind a backslash. -/
def escape : Reader Char := do
  let c ← take
  if c = 'b' then return '\x08'
  else if c = 't' then return '\t'
  else if c = 'n' then return '\n'
  else if c = 'f' then return '\x0c'
  else if c = 'r' then return '\r'
  else if c = '"' then return '"'
  else if c = '\\' then return '\\'
  else if c = 'u' then codePoint 4
  else if c = 'U' then codePoint 8
  else fail

def basicChars : Nat → Reader (List Char)
  | 0 => fail
  | fuel + 1 => do
    let c ← take
    if c = '"' then return []
    else if c = '\\' then return (← escape) :: (← basicChars fuel)
    else if isVisible c then return c :: (← basicChars fuel)
    else fail

def literalChars : Reader (List Char) := do
  let chars ← takeWhile fun c => isVisible c && c ≠ Text.apostrophe
  expect (String.singleton Text.apostrophe)
  return chars

/-- Blanks and line ends. -/
def skipSpace : Nat → Reader Unit
  | 0 => return
  | fuel + 1 => do
    skipBlanks
    if ← newline then skipSpace fuel

/-- A line end that a backslash stands before, with all space behind it. -/
def joinLines : Reader Bool := do
  let input ← get
  skipBlanks
  if ← newline then do
    skipSpace (← fuel)
    return true
  else do
    set input
    return false

/-- The characters of a text of several lines up to its end. Up to two marks may stand right before the
three that end it, and line ends are all the same. -/
def multilineChars (mark : Char) (hasEscapes : Bool) : Nat → Reader (List Char)
  | 0 => fail
  | fuel + 1 => do
    let marks := Nat.min 5 ((← get).takeWhile (· = mark)).length
    if 3 ≤ marks then do
      modify (·.drop marks)
      return List.replicate (marks - 3) mark
    else if ← newline then return '\n' :: (← multilineChars mark hasEscapes fuel)
    else do
      let c ← take
      if hasEscapes ∧ c = '\\' then do
        if ← joinLines then multilineChars mark hasEscapes fuel
        else return (← escape) :: (← multilineChars mark hasEscapes fuel)
      else if isVisible c then return c :: (← multilineChars mark hasEscapes fuel)
      else fail

def multiline (mark : Char) (hasEscapes : Bool) : Reader (List Char) := do
  let _ ← newline
  multilineChars mark hasEscapes (← fuel)

def tripled (c : Char) : String :=
  String.ofList [c, c, c]

/-- A text in one line behind its opening mark, as it may stand for a key. -/
def lineText? : Reader (Option (List Char)) := do
  if ← accept "\"" then return some (← basicChars (← fuel))
  else if ← accept (String.singleton Text.apostrophe) then return some (← literalChars)
  else return none

def text? : Reader (Option (List Char)) := do
  if ← accept (tripled '"') then return some (← multiline '"' true)
  else if ← accept (tripled Text.apostrophe) then return some (← multiline Text.apostrophe false)
  else lineText?

end Reader

end ReportRelay.Toml
