import ReportRelay.Text.Printable

/-!
# Quoted text

How a text, a list of texts and a single character are shown inside a message: between quotation marks,
with a backslash before the mark itself and before a backslash, with short escapes for the usual control
characters, and with the code point of every other character that would not be visible.
-/

namespace ReportRelay.Text

def hexDigits (n : Nat) : String :=
  String.ofList (Nat.toDigits 16 n)

def escapedChar (mark c : Char) : String :=
  if c = mark ∨ c = '\\' then String.ofList ['\\', c]
  else if c = '\x00' then "\\0"
  else if c = '\t' then "\\t"
  else if c = '\r' then "\\r"
  else if c = '\n' then "\\n"
  else if isPlain c then String.singleton c
  else "\\u\x7b" ++ hexDigits c.toNat ++ "\x7d"

def quoted (text : String) : String :=
  "\"" ++ String.join (text.toList.map (escapedChar '"')) ++ "\""

def apostrophe : Char := Char.ofNat 39

def quotedChar (c : Char) : String :=
  String.singleton apostrophe ++ escapedChar apostrophe c ++ String.singleton apostrophe

def quotedList (texts : List String) : String :=
  "[" ++ ", ".intercalate (texts.map quoted) ++ "]"

end ReportRelay.Text
