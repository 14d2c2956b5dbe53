
/-!
# Placeholders

A placeholder is the name of a variable in braces behind a dollar sign. The placeholders of a text are filled
in one after the other, each wherever it stands by then: also in what was filled in before. A variable
without a value counts as empty.
-/

namespace ReportRelay.Placeholder

def isNameStart (c : Char) : Bool :=
  c = '_' || ('A' ≤ c && c ≤ 'Z')

def isNameChar (c : Char) : Bool :=
  isNameStart c || c.isDigit

/-- The name in a placeholder at the front of a text. -/
def atFront? : List Char → Option (List Char)
  | '$' :: '\x7b' :: first :: rest =>
    let tail := rest.takeWhile isNameChar
    if isNameStart first ∧ (rest.drop tail.length).head? = some '\x7d' then some (first :: tail)
    else none
  | _ => none

/-- The names in the placeholders of a text, in order. -/
def names : List Char → List (List Char)
  | [] => []
  | c :: rest =>
    match atFront? (c :: rest) with
    | some name => name :: names rest
    | none => names rest

def written (name : List Char) : List Char :=
  ['$', '\x7b'] ++ name ++ ['\x7d']

/-- Replaces a text wherever it stands, from left to right; some characters are still to be passed over. -/
def replaceFrom (old new : List Char) : Nat → List Char → List Char
  | _, [] => []
  | skip + 1, _ :: rest => replaceFrom old new skip rest
  | 0, c :: rest =>
    if old.isPrefixOf (c :: rest) then new ++ replaceFrom old new (old.length - 1) rest
    else c :: replaceFrom old new 0 rest

def replace (old new text : List Char) : List Char :=
  replaceFrom old new 0 text

def fillAll (value : String → String) (text : List Char) : List Char :=
  (names text).foldl
    (fun filled name => replace (written name) (value (String.ofList name)).toList filled) text

def fill (valueOf? : String → Option String) (text : String) : String :=
  String.ofList (fillAll (fun name => (valueOf? name).getD "") text.toList)

end ReportRelay.Placeholder
