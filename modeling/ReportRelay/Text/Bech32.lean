import ReportRelay.Bytes

/-!
# Bech32 addresses

A human-readable part, the separator `1`, and data symbols of five bits, of which the last six are a
checksum over both. Reading accepts the checksum constant of either variant of the format; writing uses
the first variant.
-/

namespace ReportRelay.Bech32

inductive Fault
  | missingSeparator
  | invalidLength
  | invalidChar (c : Char)
  | mixedCase
  | invalidChecksum
  deriving DecidableEq, Repr

namespace Fault

def message : Fault → String
  | missingSeparator => "missing human-readable separator, \"1\""
  | invalidLength => "invalid length"
  | invalidChar c => s!"invalid character (code={c})"
  | mixedCase => "mixed-case strings not allowed"
  | invalidChecksum => "invalid checksum"

end Fault

def charset : List Char :=
  "qpzry9x8gf2tvdw0s3jn54khce6mua7l".toList

/-- The letter case that a text has shown so far. -/
inductive LetterCase
  | unknown
  | lower
  | upper
  deriving DecidableEq, Repr

/-- Takes one more character into account, unless it is of the other case. -/
def LetterCase.see? (seen : LetterCase) (c : Char) : Option LetterCase :=
  if c.isLower then (if seen = .upper then none else some .lower)
  else if c.isUpper then (if seen = .lower then none else some .upper)
  else some seen

def hrpBytes (seen : LetterCase) : Bytes → Except Fault LetterCase
  | [] => .ok seen
  | b :: rest =>
    let c := Char.ofNat b.toNat
    if b.toNat < 33 ∨ 126 < b.toNat then .error (.invalidChar c)
    else
      match seen.see? c with
      | none => .error .mixedCase
      | some seen => hrpBytes seen rest

/-- The letter case of a human-readable part: 1 to 83 printable bytes in one case. -/
def hrpCase (hrp : String) : Except Fault LetterCase :=
  let bytes := Bytes.ofText hrp
  if bytes.isEmpty ∨ 83 < bytes.length then .error .invalidLength
  else hrpBytes .unknown bytes

def lowerCase (hrp : String) : String :=
  String.ofList (hrp.toList.map Char.toLower)

def dataValues (seen : LetterCase) : List Char → Except Fault (List Nat)
  | [] => .ok []
  | c :: rest =>
    if 128 ≤ c.toNat then .error (.invalidChar c)
    else
      match seen.see? c with
      | none => .error .mixedCase
      | some seen =>
        match charset.idxOf? c.toLower with
        | none => .error (.invalidChar c)
        | some n => (dataValues seen rest).map (n :: ·)

/-- One step of the checksum polynomial: five bits enter, and the five that leave choose the generators
to add. -/
def polymodStep (state value : Nat) : Nat :=
  let top := state / 2 ^ 25
  let shifted := (state % 2 ^ 25 * 32) ^^^ value
  let add (bit generator acc : Nat) : Nat := if top.testBit bit then acc ^^^ generator else acc
  add 4 0x2a1462b3 (add 3 0x3d4233dd (add 2 0x1ea119fa (add 1 0x26508e6d (add 0 0x3b6a57b2 shifted))))

def polymod (values : List Nat) : Nat :=
  values.foldl polymodStep 1

def expandHrp (hrp : String) : List Nat :=
  let codes := (Bytes.ofText hrp).map UInt8.toNat
  codes.map (· / 32) ++ [0] ++ codes.map (· % 32)

/-- The two values that the checksum polynomial may have for a whole address. -/
def checksums : List Nat :=
  [1, 0x2bc830a3]

def checksumLength : Nat := 6

/-- Splits at the last separator. -/
def split? (text : List Char) : Option (List Char × List Char) :=
  let (data, rest) := text.reverse.span (· ≠ '1')
  match rest with
  | [] => none
  | _ :: hrp => some (hrp.reverse, data.reverse)

/-- The lower-case human-readable part and the data symbols without the checksum. -/
def decode (text : String) : Except Fault (String × List Nat) :=
  match split? text.toList with
  | none => .error .missingSeparator
  | some (rawHrp, rawData) =>
    let hrp := String.ofList rawHrp
    match hrpCase hrp with
    | .error fault => .error fault
    | .ok seen =>
      match dataValues seen rawData with
      | .error fault => .error fault
      | .ok values =>
        if values.length < checksumLength then .error .invalidLength
        else if polymod (expandHrp (lowerCase hrp) ++ values) ∈ checksums then
          .ok (lowerCase hrp, values.take (values.length - checksumLength))
        else .error .invalidChecksum

/-- Eight-bit groups as five-bit groups, the last filled up with zero bits. `carry` holds `bits` bits
that are still to be written. -/
def regroup (carry bits : Nat) : Bytes → List Nat
  | [] => if bits = 0 then [] else [carry * 2 ^ (5 - bits) % 32]
  | b :: rest =>
    let n := carry * 256 + b.toNat
    let bits := bits + 8
    if 10 ≤ bits then
      n / 2 ^ (bits - 5) % 32 :: n / 2 ^ (bits - 10) % 32
        :: regroup (n % 2 ^ (bits - 10)) (bits - 10) rest
    else n / 2 ^ (bits - 5) % 32 :: regroup (n % 2 ^ (bits - 5)) (bits - 5) rest

def checksum (hrp : String) (values : List Nat) : List Nat :=
  let residue := polymod (expandHrp hrp ++ values ++ List.replicate checksumLength 0) ^^^ 1
  (List.range checksumLength).map fun i => residue / 32 ^ (5 - i) % 32

def symbolChar (n : Nat) : Char :=
  charset[n]?.getD 'q'

def encode (hrp : String) (bytes : Bytes) : Except Fault String :=
  match hrpCase hrp with
  | .error fault => .error fault
  | .ok _ =>
    let lower := lowerCase hrp
    let values := regroup 0 0 bytes
    .ok (String.ofList (lower.toList ++ ['1'] ++ (values ++ checksum lower values).map symbolChar))

end ReportRelay.Bech32
