/-!
# Files

A view of a file system: what stands under the names from the root on. A path is followed name by name from the
root, or from the working directory, and every name but the last must be that of a directory.
-/

namespace ReportRelay

inductive FileEntry
  | directory
  | file (content : String)
  /-- A file whose bytes are no text. -/
  | binary
  deriving DecidableEq, Repr

structure FileSystem where
  entry? : List String → Option FileEntry
  workingDirectory : List String

/-- Why a file cannot be read. -/
inductive FileFault
  | missing
  | notDirectory
  | directory
  | nameTooLong
  | nulByte
  | noText
  deriving DecidableEq, Repr

namespace FileFault

def message : FileFault → String
  | missing => "No such file or directory (os error 2)"
  | notDirectory => "Not a directory (os error 20)"
  | directory => "Is a directory (os error 21)"
  | nameTooLong => "File name too long (os error 36)"
  | nulByte => "file name contained an unexpected NUL byte"
  | noText => "stream did not contain valid UTF-8"

end FileFault

namespace FileSystem

/-- The longest name, in bytes. -/
def longestName : Nat := 255

/-- The longest path, in bytes. -/
def longestPath : Nat := 4095

/-- Where a path begins. -/
def origin (files : FileSystem) (path : String) : List String :=
  if path.startsWith "/" then [] else files.workingDirectory

def follow (files : FileSystem) : List String → List String → Except FileFault FileEntry
  | here, [] =>
    match files.entry? here with
    | some entry => .ok entry
    | none => .error .missing
  | here, name :: rest =>
    match files.entry? here with
    | none => .error .missing
    | some (.file _) | some .binary => .error .notDirectory
    | some .directory =>
      if name = "" ∨ name = "." then follow files here rest
      else if name = ".." then follow files here.dropLast rest
      else if longestName < name.utf8ByteSize then .error .nameTooLong
      else follow files (here ++ [name]) rest

def lookUp (files : FileSystem) (path : String) : Except FileFault FileEntry :=
  if path.contains '\x00' then .error .nulByte
  else if path = "" then .error .missing
  else if longestPath < path.utf8ByteSize then .error .nameTooLong
  else files.follow (files.origin path) (path.splitOn "/")

def read (files : FileSystem) (path : String) : Except FileFault String := do
  match ← files.lookUp path with
  | .file content => return content
  | .directory => throw .directory
  | .binary => throw .noText

/-- The names from the root on that a path comes to, found without a look at the files. -/
def resolve (files : FileSystem) (path : String) : List String :=
  (path.splitOn "/").foldl (fun here name =>
    if name = "" ∨ name = "." then here
    else if name = ".." then here.dropLast
    else here ++ [name]) (files.origin path)

def write (files : FileSystem) (path content : String) : FileSystem :=
  let names := files.resolve path
  { files with entry? := fun here => if here = names then some (.file content) else files.entry? here }

/-- What every machine has: some directories under the root, the device that is empty, and a few files. -/
def usual : FileSystem where
  workingDirectory := ["home"]
  entry?
    | [] => some .directory
    | [name] =>
      if ["bin", "dev", "etc", "home", "lib", "opt", "proc", "root", "run", "sys", "tmp", "usr", "var"].contains
          name then some .directory
      else none
    | ["dev", "null"] => some (.file "")
    | ["etc", "passwd"] => some (.file "root:x:0:0:root:/root:/bin/sh\n")
    | ["etc", "group"] => some (.file "root:x:0:\n")
    | ["etc", "hosts"] => some (.file "127.0.0.1\tlocalhost\n")
    | ["etc", "hostname"] => some (.file "localhost\n")
    | ["bin", "sh"] => some .binary
    | _ => none

end FileSystem

end ReportRelay
