import ReportRelay.Bytes

/-!
# Protobuf wire format

Keys, variable-length integers, length-delimited fields and the skipping of unknown fields. A reader
takes the bytes that are left and returns what it read with what is left then. Each field starts with a
key of at least one byte, so the number of bytes bounds the number of fields, and serves as fuel.
-/

namespace ReportRelay.Protobuf

inductive WireType
  | varint
  | sixtyFourBit
  | lengthDelimited
  | startGroup
  | endGroup
  | thirtyTwoBit
  deriving DecidableEq, Repr

namespace WireType

def name : WireType → String
  | varint => "Varint"
  | sixtyFourBit => "SixtyFourBit"
  | lengthDelimited => "LengthDelimited"
  | startGroup => "StartGroup"
  | endGroup => "EndGroup"
  | thirtyTwoBit => "ThirtyTwoBit"

def ofNat? : Nat → Option WireType
  | 0 => some varint
  | 1 => some sixtyFourBit
  | 2 => some lengthDelimited
  | 3 => some startGroup
  | 4 => some endGroup
  | 5 => some thirtyTwoBit
  | _ => none

end WireType

inductive Reason
  | invalidVarint
  | invalidKey (value : Nat)
  | invalidWireType (value : Nat)
  | invalidTag
  | unexpectedWireType (actual : WireType)
  | bufferUnderflow
  | delimitedLengthExceeded
  | invalidUtf8
  | unexpectedEndGroup
  | recursionLimit
  deriving DecidableEq, Repr

namespace Reason

def message : Reason → String
  | invalidVarint => "invalid varint"
  | invalidKey value => s!"invalid key value: {value}"
  | invalidWireType value => s!"invalid wire type value: {value}"
  | invalidTag => "invalid tag value: 0"
  | unexpectedWireType actual =>
    s!"invalid wire type: {actual.name} (expected LengthDelimited)"
  | bufferUnderflow => "buffer underflow"
  | delimitedLengthExceeded => "delimited length exceeded"
  | invalidUtf8 => "invalid string value: data is not UTF-8 encoded"
  | unexpectedEndGroup => "unexpected end group tag"
  | recursionLimit => "recursion limit reached"

end Reason

/-- What is wrong, and the fields in which it was found, innermost first. -/
structure Fault where
  path : List String
  reason : Reason
  deriving DecidableEq, Repr

namespace Fault

def message (fault : Fault) : String :=
  "failed to decode Protobuf message: "
    ++ String.join (fault.path.map fun field => field ++ ": ") ++ fault.reason.message

def within (field : String) (fault : Fault) : Fault :=
  { fault with path := fault.path ++ [field] }

end Fault

def fail {α : Type} (reason : Reason) : Except Fault α :=
  .error ⟨[], reason⟩

/-! ## Reading -/

/-- Seven bits per byte, least significant first; at most ten bytes, of which the tenth may only hold
the topmost bit of 64. -/
def varintFrom (place : Nat) : Bytes → Except Fault (Nat × Bytes)
  | [] => fail .invalidVarint
  | b :: rest =>
    if 10 ≤ place then fail .invalidVarint
    else if b.toNat < 128 then
      if place = 9 ∧ 1 < b.toNat then fail .invalidVarint else .ok (b.toNat, rest)
    else
      match varintFrom (place + 1) rest with
      | .error fault => .error fault
      | .ok (n, rest) => .ok (b.toNat - 128 + 128 * n, rest)

def readVarint (input : Bytes) : Except Fault (Nat × Bytes) :=
  varintFrom 0 input

structure Key where
  tag : Nat
  wireType : WireType
  deriving DecidableEq, Repr

def readKey (input : Bytes) : Except Fault (Key × Bytes) := do
  let (n, rest) ← readVarint input
  if 2 ^ 32 ≤ n then fail (.invalidKey n)
  else
    match WireType.ofNat? (n % 8) with
    | none => fail (.invalidWireType (n % 8))
    | some wireType => if n / 8 = 0 then fail .invalidTag else .ok (⟨n / 8, wireType⟩, rest)

def expectDelimited (wireType : WireType) : Except Fault Unit :=
  if wireType = .lengthDelimited then .ok () else fail (.unexpectedWireType wireType)

def takeBytes (n : Nat) (input : Bytes) : Except Fault (Bytes × Bytes) :=
  if n ≤ input.length then .ok (input.take n, input.drop n) else fail .bufferUnderflow

def readBytes (wireType : WireType) (input : Bytes) : Except Fault (Bytes × Bytes) := do
  expectDelimited wireType
  let (n, rest) ← readVarint input
  takeBytes n rest

def readText (wireType : WireType) (input : Bytes) : Except Fault (String × Bytes) := do
  let (bytes, rest) ← readBytes wireType input
  match Bytes.toText? bytes with
  | none => fail .invalidUtf8
  | some text => .ok (text, rest)

/-- How deeply messages and groups may be nested. -/
def maxDepth : Nat := 100

/-- Passes over the value of an unknown field, and over a group as `group` does. `depth` is how much
deeper the nesting may go. -/
def skipValue (group : Bytes → Except Fault Bytes) (depth : Nat) (wireType : WireType)
    (input : Bytes) : Except Fault Bytes :=
  if depth = 0 then fail .recursionLimit
  else
    match wireType with
    | .varint => (readVarint input).map Prod.snd
    | .thirtyTwoBit => (takeBytes 4 input).map Prod.snd
    | .sixtyFourBit => (takeBytes 8 input).map Prod.snd
    | .lengthDelimited => do
      let (n, rest) ← readVarint input
      (takeBytes n rest).map Prod.snd
    | .startGroup => group input
    | .endGroup => fail .unexpectedEndGroup

/-- Passes over the fields of a group up to its end. -/
def skipGroup : Nat → Nat → Nat → Bytes → Except Fault Bytes
  | 0, _, _, _ => fail .invalidVarint
  | fuel + 1, depth, tag, input => do
    let (key, rest) ← readKey input
    if key.wireType = .endGroup then
      if key.tag = tag then return rest else fail .unexpectedEndGroup
    else
      let rest ← skipValue (skipGroup fuel (depth - 1) key.tag) (depth - 1) key.wireType rest
      skipGroup fuel depth tag rest

def skipField (depth : Nat) (key : Key) (input : Bytes) : Except Fault Bytes :=
  skipValue (skipGroup input.length depth key.tag) depth key.wireType input

/-- How one kind of message takes in a field: the message read so far, the depth left, the field's key,
and the bytes after the key. -/
abbrev MergeField (μ : Type) := μ → Nat → Key → Bytes → Except Fault (μ × Bytes)

/-- Reads fields until no more than `limit` bytes are left. -/
def mergeUntil {μ : Type} (merge : MergeField μ) (limit depth : Nat) :
    Nat → μ → Bytes → Except Fault (μ × Bytes)
  | 0, message, input => .ok (message, input)
  | fuel + 1, message, input =>
    if input.length ≤ limit then .ok (message, input)
    else do
      let (key, rest) ← readKey input
      let (message, rest) ← merge message depth key rest
      mergeUntil merge limit depth fuel message rest

/-- A message that fills the whole input. -/
def readMessage {μ : Type} (merge : MergeField μ) (empty : μ) (input : Bytes) : Except Fault μ :=
  (mergeUntil merge 0 maxDepth input.length empty input).map Prod.fst

/-- A message inside a field. Its fields may not reach past the length that the field states. -/
def readNested {μ : Type} (merge : MergeField μ) (empty : μ) (depth : Nat) (wireType : WireType)
    (input : Bytes) : Except Fault (μ × Bytes) := do
  expectDelimited wireType
  if depth = 0 then fail .recursionLimit
  let (n, rest) ← readVarint input
  if rest.length < n then fail .bufferUnderflow
  let limit := rest.length - n
  let (message, rest) ← mergeUntil merge limit (depth - 1) rest.length empty rest
  if rest.length = limit then .ok (message, rest) else fail .delimitedLengthExceeded

/-- Names the field in which a fault was found. -/
def inField {α : Type} (field : String) (read : Except Fault α) : Except Fault α :=
  read.mapError (Fault.within field)

def unknownField {μ : Type} : MergeField μ :=
  fun message depth key input => do
    let rest ← skipField depth key input
    return (message, rest)

/-! ## Writing -/

def writeVarint (n : Nat) : Bytes :=
  if h : n < 128 then [UInt8.ofNat n]
  else UInt8.ofNat (n % 128 + 128) :: writeVarint (n / 128)
termination_by n
decreasing_by omega

def writeDelimited (tag : Nat) (bytes : Bytes) : Bytes :=
  writeVarint (8 * tag + 2) ++ writeVarint bytes.length ++ bytes

/-- An empty scalar is not written. -/
def writeBytes (tag : Nat) (bytes : Bytes) : Bytes :=
  if bytes.isEmpty then [] else writeDelimited tag bytes

def writeText (tag : Nat) (text : String) : Bytes :=
  writeBytes tag (.ofText text)

end ReportRelay.Protobuf
