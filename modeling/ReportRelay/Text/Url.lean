import ReportRelay.Text.Hex
import ReportRelay.Text.Utf8

/-!
# Parts of a URL

A percent sign and two hexadecimal digits stand for a byte; a percent sign without them stands for itself. The
parameters of a URL are joined by ampersands, and in them a plus sign stands for a space.
-/

namespace ReportRelay.Url

def percent : UInt8 := 0x25

def plus : UInt8 := 0x2b

def space : UInt8 := 0x20

def percentDecode : Bytes → Bytes
  | a :: b :: c :: rest =>
    match if a = percent then Hex.value? b else none, Hex.value? c with
    | some high, some low => UInt8.ofNat (16 * high + low) :: percentDecode rest
    | _, _ => a :: percentDecode (b :: c :: rest)
  | bytes => bytes

/-- A name or a value among the parameters. -/
def parameterText (text : String) : String :=
  Utf8.decodeReplacing
    (percentDecode ((Bytes.ofText text).map fun b => if b = plus then space else b))

/-- The parameters, each with its value; one without an equals sign has an empty value. -/
def parameters (text : String) : List (String × String) :=
  ((text.splitOn "&").filter (· ≠ "")).map fun parameter =>
    let parts := parameter.splitOn "="
    (parameterText (parts.headD ""), parameterText ("=".intercalate parts.tail))

end ReportRelay.Url
