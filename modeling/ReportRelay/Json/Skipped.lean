import ReportRelay.Json.Reader

/-!
# Passing over JSON values

What is passed over must be JSON, but its texts are not decoded and its numbers may be of any size.
-/

namespace ReportRelay.Json.Reader

def skipEscape : Reader Unit := do
  let b ← take
  if b = byte 'u' then do
    let _ ← fourHexDigits
  else if (shortEscape? b).isNone then fail

def skipText : Nat → Reader Unit
  | 0 => fail
  | fuel + 1 => do
    let b ← take
    if b = byte '"' then return
    else if b = byte '\\' then do
      skipEscape
      skipText fuel
    else if b < 32 then fail
    else skipText fuel

def skipKey (fuel : Nat) : Reader Unit := do
  expect '"'
  skipText fuel
  expect ':'

mutual

def skipValue : Nat → Reader Unit
  | 0 => fail
  | fuel + 1 => do
    match ← next with
    | none => fail
    | some b =>
      if b = byte '"' then do
        let _ ← take
        skipText fuel
      else if b = byte '[' then do
        let _ ← take
        if (← next) = some (byte ']') then expect ']' else skipElements fuel
      else if b = byte '\x7b' then do
        let _ ← take
        if (← next) = some (byte '\x7d') then expect '\x7d' else skipMembers fuel
      else if b = byte 'n' then word "null"
      else if b = byte 't' then word "true"
      else if b = byte 'f' then word "false"
      else do
        let _ ← number

/-- The elements of a list up to its end, at least one. -/
def skipElements : Nat → Reader Unit
  | 0 => fail
  | fuel + 1 => do
    skipValue fuel
    if (← next) = some (byte ',') then do
      expect ','
      skipElements fuel
    else expect ']'

/-- The members of an object up to its end, at least one. -/
def skipMembers : Nat → Reader Unit
  | 0 => fail
  | fuel + 1 => do
    skipKey fuel
    skipValue fuel
    if (← next) = some (byte ',') then do
      expect ','
      skipMembers fuel
    else expect '\x7d'

end

def skip : Reader Unit := do
  skipValue (2 * (← get).length + 2)

end ReportRelay.Json.Reader
