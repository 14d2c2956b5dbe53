import ReportRelay.Text.Hex

/-!
# Writing JSON

Texts between quotation marks, lists and objects, without any space. A text has a short escape for the mark,
the backslash and the usual control characters, a numeric one for every other control character, and
everything else as it is.
-/

namespace ReportRelay.Json

def escapedChar (c : Char) : List Char :=
  if c = '"' then ['\\', '"']
  else if c = '\\' then ['\\', '\\']
  else if c = '\x08' then ['\\', 'b']
  else if c = '\t' then ['\\', 't']
  else if c = '\n' then ['\\', 'n']
  else if c = '\x0c' then ['\\', 'f']
  else if c = '\r' then ['\\', 'r']
  else if c.toNat < 32 then
    "\\u00".toList ++ (Hex.encode [UInt8.ofNat c.toNat]).toList
  else [c]

def quoted (text : String) : String :=
  "\"" ++ String.ofList (text.toList.flatMap escapedChar) ++ "\""

/-- A list of values that are written already. -/
def list (values : List String) : String :=
  "[" ++ ",".intercalate values ++ "]"

/-- An object whose values are written already. -/
def object (members : List (String × String)) : String :=
  "\x7b" ++ ",".intercalate (members.map fun (key, value) => quoted key ++ ":" ++ value) ++ "\x7d"

def texts (values : List String) : String :=
  list (values.map quoted)

end ReportRelay.Json
