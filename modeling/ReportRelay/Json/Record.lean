import ReportRelay.Json.Skipped

/-!
# Lists and records in JSON

A record is an object with known fields, in whatever order they come, or a list of them in their own order.
-/

namespace ReportRelay.Json

namespace Reader

variable {α σ : Type}

/-- The elements behind the first `index` ones of a list, `count` of them. -/
def elements (element : Reader α) (index : Nat) : Nat → Reader (List α)
  | 0 => return []
  | count + 1 => do
    if index ≠ 0 then expect ','
    let a ← element
    let rest ← elements element (index + 1) count
    return a :: rest

/-- A list of known length. -/
def fixedList (element : Reader α) (count : Nat) : Reader (List α) := do
  if (← next) = some (byte '[') then do
    expect '['
    let values ← elements element 0 count
    expect ']'
    return values
  else unexpected

/-- A field of a record that is built up step by step in a state. -/
structure Field (σ : Type) where
  name : String
  isRead : σ → Bool
  read : σ → Reader σ

/-- A field that is kept as an optional value of the state. -/
def Field.of (name : String) (get : σ → Option α) (put : α → σ → σ) (reader : Reader α) :
    Field σ where
  name
  isRead state := (get state).isSome
  read state := do return put (← reader) state

/-- Reads the fields of an object in whatever order they come, each at most once. Other members are passed
over. -/
def members (fields : List (Field σ)) : Nat → σ → Reader σ
  | 0, _ => fail
  | fuel + 1, state => do
    expect '"'
    let key ← openText
    let field? := fields.find? (·.name = key)
    if field?.any (·.isRead state) then fail
    expect ':'
    let state ←
      match field? with
      | some field => field.read state
      | none => do
        skip
        pure state
    if (← next) = some (byte ',') then do
      expect ','
      members fields fuel state
    else do
      expect '\x7d'
      return state

/-- Reads the fields from a list, in their own order. -/
def inOrder : List (Field σ) → σ → Bool → Reader σ
  | [], state, _ => return state
  | field :: rest, state, isFirst => do
    if !isFirst then expect ','
    let state ← field.read state
    inOrder rest state false

/-- A record, as an object or as the list of its fields. -/
def record (fields : List (Field σ)) (start : σ) : Reader σ := do
  match ← next with
  | none => fail
  | some b =>
    if b = byte '\x7b' then do
      expect '\x7b'
      if (← next) = some (byte '\x7d') then do
        expect '\x7d'
        return start
      else members fields (← get).length start
    else if b = byte '[' then do
      expect '['
      let state ← inOrder fields start true
      expect ']'
      return state
    else unexpected

/-- The value of a field, which must have been read. -/
def required (value : Option α) : Reader α :=
  match value with
  | some a => return a
  | none => fail

/-- A value given by its name, on its own or as the only key of an object that maps it to nothing. -/
def named (ofName? : String → Option α) : Reader α := do
  if (← next) = some (byte '\x7b') then do
    expect '\x7b'
    let name ← text
    let a ← required (ofName? name)
    expect ':'
    null
    expect '\x7d'
    return a
  else do
    let name ← text
    required (ofName? name)

end Reader

/-- Reads a value that fills the whole input. -/
def read {α : Type} (reader : Reader α) (input : Bytes) : Except Fault α := do
  let (a, rest) ← reader.run input
  if rest.all Reader.isSpace then return a else throw .malformed

end ReportRelay.Json
