import ReportRelay.Files
import ReportRelay.Queue.Store
import ReportRelay.Text.Url

/-!
# Where a store is kept

A database URL names a file, or the memory, and may have parameters behind a question mark. A file is made
if it is not there, unless it is to be read only, but its directory must be. Without a name the file is a
temporary one.
-/

namespace ReportRelay

inductive StorePlace
  | memory
  | file (path : String)
  deriving DecidableEq, Repr

structure StoreLocation where
  place : StorePlace
  readOnly : Bool
  /-- Whether the file is said not to change. -/
  immutable : Bool
  /-- The file access layer that is asked for. -/
  layer : Option String
  deriving DecidableEq, Repr

namespace StoreLocation

/-- Drops a text from the front of another one as often as it stands there. -/
def dropAll (start : List Char) : Nat → List Char → List Char
  | 0, text => text
  | fuel + 1, text =>
    if start ≠ [] ∧ start.isPrefixOf text then dropAll start fuel (text.drop start.length) else text

/-- The URL without its scheme. -/
def address (url : String) : List Char :=
  let text := url.toList
  let text := dropAll "sqlite://".toList text.length text
  dropAll "sqlite:".toList text.length text

/-- The place that a path names. In the name of a file any byte may be written with a percent sign. -/
def placeOf (path : String) : Except DatabaseFault StorePlace :=
  if path = ":memory:" then .ok .memory
  else
    match Utf8.decode (Url.percentDecode (Bytes.ofText path)) with
    | .ok path => .ok (.file path)
    | .error fault => .error (.badUrl fault.message)

def badValue (key value : String) : DatabaseFault :=
  .badUrl s!"unknown value {Text.quoted value} for `{key}`"

/-- What a parameter changes. A later one counts, except that what is read only stays so. -/
def withParameter (location : StoreLocation) (key value : String) :
    Except DatabaseFault StoreLocation :=
  match key with
  | "mode" =>
    match value with
    | "ro" => .ok { location with readOnly := true }
    | "rw" | "rwc" => .ok location
    | "memory" => .ok { location with place := .memory }
    | _ => .error (badValue key value)
  | "cache" =>
    match value with
    | "private" | "shared" => .ok location
    | _ => .error (badValue key value)
  | "immutable" =>
    match value with
    | "true" | "1" => .ok { location with immutable := true }
    | "false" | "0" => .ok { location with immutable := false }
    | _ => .error (badValue key value)
  | "vfs" => .ok { location with layer := some value }
  | _ => .error (.badUrl s!"unknown query parameter `{key}` while parsing connection URL")

def ofUrl (url : String) : Except DatabaseFault StoreLocation := do
  let address := address url
  let place ← placeOf (String.ofList (address.takeWhile (· ≠ '?')))
  let parameters := Url.parameters (String.ofList ((address.dropWhile (· ≠ '?')).drop 1))
  parameters.foldlM (fun location p => withParameter location p.1 p.2) ⟨place, false, false, none⟩

/-! ## Opening -/

def layers : List String :=
  ["unix", "unix-none", "unix-dotfile", "unix-excl", "memdb"]

/-- The part of a text before the first of some characters. -/
def before (ends : List Char) (text : String) : String :=
  String.ofList (text.toList.takeWhile fun c => !ends.contains c)

/-- The layer's name as it is understood behind the name of the file, in a URL once more. -/
def layerName (layer : String) : String :=
  before ['\x00'] (Utf8.decodeReplacing (Url.percentDecode (.ofText (before ['&', '#'] layer))))

/-- The path in a text that begins like the URL of a file; any other text is a path itself. -/
def localPath (text : String) : Except DatabaseFault String :=
  let chars := text.toList
  let scheme := "file:".toList
  if scheme.isPrefixOf chars then
    let rest := chars.drop scheme.length
    let host := if "//".toList.isPrefixOf rest then (rest.drop 2).takeWhile (· ≠ '/') else []
    let path := if "//".toList.isPrefixOf rest then rest.drop (2 + host.length) else rest
    if host = [] ∨ host = "localhost".toList then
      .ok (Utf8.decodeReplacing
        (Url.percentDecode (.ofText (before ['?', '#'] (String.ofList path)))))
    else .error (.unknownHost (String.ofList host))
  else .ok text

/-- The longest path of a file, in bytes. -/
def longestPath : Nat := 512

/-- What is wrong with a file that is to be opened or made. One that is there must be empty. -/
def fileFault? (files : FileSystem) (readOnly : Bool) (path : String) : Option DatabaseFault :=
  let names := files.resolve path
  let short := names.all (·.utf8ByteSize ≤ FileSystem.longestName)
    && ("/".intercalate ("" :: names)).utf8ByteSize ≤ longestPath
  match files.entry? names with
  | some (.file content) => if content = "" then none else some .noDatabase
  | some .binary => some .noDatabase
  | some .directory => some .cannotOpen
  | none =>
    if !readOnly && short && files.entry? names.dropLast = some .directory then none
    else some .cannotOpen

/-- Opens a new store at its place. A file of which is said that it does not change is not written to. -/
def openStore (files : FileSystem) (location : StoreLocation) : Except DatabaseFault Store := do
  let inUrl := location.immutable || location.layer.isSome
  if location.layer.any (·.contains '\x00') then throw .nulInName
  if let some layer := location.layer then
    if !layers.contains (layerName layer) then throw (.unknownLayer (layerName layer))
  match location.place with
  | .memory => return if location.readOnly then .readOnly else .new
  | .file path => do
    if !inUrl && path.contains '\x00' then throw .nulInName
    let path := before ['\x00'] (← if inUrl then .ok path else localPath path)
    if path = "" || path = ":memory:" then
      return if location.readOnly then .readOnly else .new
    if location.layer ≠ some "memdb" then
      if let some fault := fileFault? files location.readOnly path then throw fault
    return if location.readOnly || location.immutable then .readOnly else .new

def connect (files : FileSystem) (url : String) : Except Error Store :=
  ((ofUrl url).bind (openStore files)).mapError .database

end StoreLocation

end ReportRelay
