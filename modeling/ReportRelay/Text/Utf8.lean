import ReportRelay.Bytes

/-!
# Bytes that may be UTF-8

The first byte of a character says how many bytes follow it and between which bounds the first of them lies.
Bytes that belong to no character are reported with their place and length: they are as many as could have
begun a character. Read with replacement, each such piece becomes one replacement character.
-/

namespace ReportRelay.Utf8

/-- What a first byte asks for: the number of bytes after it, and the bounds of the next one. -/
structure Lead where
  followers : Nat
  low : UInt8
  high : UInt8

def lead? (first : UInt8) : Option Lead :=
  if first < 0x80 then some ⟨0, 0x80, 0xbf⟩
  else if first < 0xc2 then none
  else if first < 0xe0 then some ⟨1, 0x80, 0xbf⟩
  else if first = 0xe0 then some ⟨2, 0xa0, 0xbf⟩
  else if first = 0xed then some ⟨2, 0x80, 0x9f⟩
  else if first < 0xf0 then some ⟨2, 0x80, 0xbf⟩
  else if first = 0xf0 then some ⟨3, 0x90, 0xbf⟩
  else if first < 0xf4 then some ⟨3, 0x80, 0xbf⟩
  else if first = 0xf4 then some ⟨3, 0x80, 0x8f⟩
  else none

/-- How many of the bytes go on as a lead asks for. -/
def matching : Lead → Bytes → Nat
  | ⟨n + 1, low, high⟩, b :: rest =>
    if low ≤ b ∧ b ≤ high then 1 + matching ⟨n, 0x80, 0xbf⟩ rest else 0
  | _, _ => 0

/-- What stands at the front: a character or a piece of none, with the number of bytes after the first. A
piece that ends the bytes might have become a character. -/
inductive Front
  | char (c : Char) (more : Nat)
  | broken (more : Nat)
  | unfinished (more : Nat)

/-- The code point that the first byte and those after it spell. -/
def codePoint (first : UInt8) (followers : Bytes) : Nat :=
  let head := if followers.isEmpty then first.toNat else first.toNat % 2 ^ (6 - followers.length)
  followers.foldl (fun n b => 64 * n + b.toNat % 64) head

def front (first : UInt8) (rest : Bytes) : Front :=
  match lead? first with
  | none => .broken 0
  | some lead =>
    let more := matching lead rest
    if more = lead.followers then .char (Char.ofNat (codePoint first (rest.take more))) more
    else if more = rest.length then .unfinished more
    else .broken more

structure Fault where
  position : Nat
  /-- How many bytes are wrong, if it is not that bytes are missing at the end. -/
  length : Option Nat
  deriving DecidableEq, Repr

def Fault.message : Fault → String
  | ⟨position, some length⟩ => s!"invalid utf-8 sequence of {length} bytes from index {position}"
  | ⟨position, none⟩ => s!"incomplete utf-8 byte sequence from index {position}"

/-- Reads on after the bytes that belong to what stands before them. -/
def decodeFrom (position : Nat) : Nat → Bytes → Except Fault (List Char)
  | _, [] => .ok []
  | skipped + 1, _ :: rest => decodeFrom (position + 1) skipped rest
  | 0, first :: rest =>
    match front first rest with
    | .char c more => (decodeFrom (position + 1) more rest).map (c :: ·)
    | .broken more => .error ⟨position, some (more + 1)⟩
    | .unfinished _ => .error ⟨position, none⟩

def decode (bytes : Bytes) : Except Fault String :=
  (decodeFrom 0 0 bytes).map String.ofList

def replacement : Char := '\ufffd'

def replacingFrom : Nat → Bytes → List Char
  | _, [] => []
  | skipped + 1, _ :: rest => replacingFrom skipped rest
  | 0, first :: rest =>
    match front first rest with
    | .char c more => c :: replacingFrom more rest
    | .broken more | .unfinished more => replacement :: replacingFrom more rest

def decodeReplacing (bytes : Bytes) : String :=
  String.ofList (replacingFrom 0 bytes)

end ReportRelay.Utf8
