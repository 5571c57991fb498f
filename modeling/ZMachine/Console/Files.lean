import ZMachine.Console.Path
import ZMachine.Number

/-!
# Files

A set of files by their paths. A directory is there when a file stands in it.
Files can be read, replaced and appended to, and a new file can be put into any
directory that is there. Outside the directory where the program runs there are
only the directories above it, those that every system has, and the null device.
-/

set_option autoImplicit false

namespace ZMachine

/-- Why a file cannot be used. -/
inductive FileError where
  | notFound
  | notDirectory
  | isDirectory
  | nameTooLong
  | zeroInName
  | notText
  deriving DecidableEq, Repr, Inhabited

/-- The wording of a file error. -/
def FileError.message : FileError → String
  | .notFound => "No such file or directory (os error 2)"
  | .notDirectory => "Not a directory (os error 20)"
  | .isDirectory => "Is a directory (os error 21)"
  | .nameTooLong => "File name too long (os error 36)"
  | .zeroInName => "file name contained an unexpected NUL byte"
  | .notText => "stream did not contain valid UTF-8"

/-- A file: where it stands and what it holds. -/
structure File where
  path : List String
  bytes : Array Byte
  deriving DecidableEq, Repr, Inhabited

/-- A set of files. -/
abbrev Files := List File

/-- The text that bytes hold, if they hold any. -/
def textOfBytes? (bytes : Array Byte) : Option String :=
  String.fromUTF8? ⟨bytes⟩

/-- The bytes of a text. -/
def bytesOfText (text : String) : Array Byte :=
  text.toUTF8.data

namespace Files

/-- The device that is always there. It holds nothing, and what is written to it is
lost. -/
def nullDevice : List String := ["/", "dev", "null"]

/-- Directories that every system has. -/
def systemDirectories : List (List String) := [["/", "dev"], ["/", "tmp"]]

/-- The file at a place. -/
def get? (files : Files) (path : List String) : Option File :=
  if path = nullDevice then some ⟨path, #[]⟩ else files.find? (·.path = path)

/-- Whether a directory is there. -/
def hasDirectory (files : Files) (path : List String) : Bool :=
  Path.isAbove path || systemDirectories.contains path ||
    files.any fun f => path.isPrefixOf f.path && f.path ≠ path

/-- Put a file at a place, instead of one that stands there. -/
def put (files : Files) (path : List String) (bytes : Array Byte) : Files :=
  if path = nullDevice then files
  else if (files.get? path).isSome then
    files.map fun f => if f.path = path then ⟨path, bytes⟩ else f
  else files ++ [⟨path, bytes⟩]

/-- The files where the program runs that are new or have other bytes than before. -/
def changedSince (files before : Files) : Files :=
  files.filter fun f =>
    Path.isInside f.path && (before.get? f.path).map (·.bytes) != some f.bytes

/-- Follow the steps of a path. Each begins in a directory that is there. -/
def follow (files : Files) : (place : List String) → List String → Except FileError (List String)
  | place, [] => .ok place
  | place, part :: rest =>
      if (files.get? place).isSome then .error .notDirectory
      else if !files.hasDirectory place then .error .notFound
      else if 255 < part.utf8ByteSize then .error .nameTooLong
      else follow files (Path.step place part) rest

/-- How many bytes a path may have. -/
def maxPathSize : Nat := 4095

/-- The place that a path leads to. -/
def resolve (files : Files) (path : String) : Except FileError (List String) :=
  if path.contains '\x00' then .error .zeroInName
  else if path = "" then .error .notFound
  else if maxPathSize < path.utf8ByteSize then .error .nameTooLong
  else files.follow (Path.origin path) (Path.steps path)

/-- Whether something stands at a path. -/
def contains (files : Files) (path : String) : Bool :=
  match files.resolve path with
  | .ok place => (files.get? place).isSome || files.hasDirectory place
  | .error _ => false

/-- The bytes of the file at a path. -/
def readBytes (files : Files) (path : String) : Except FileError (Array Byte) := do
  let place ← files.resolve path
  match files.get? place with
  | some file => return file.bytes
  | none => if files.hasDirectory place then throw .isDirectory else throw .notFound

/-- The text of the file at a path. -/
def readText (files : Files) (path : String) : Except FileError String := do
  match textOfBytes? (← files.readBytes path) with
  | some text => return text
  | none => throw .notText

/-- Replace the file at a path, or make it. -/
def write (files : Files) (path text : String) : Except FileError Files := do
  let place ← files.resolve path
  if files.hasDirectory place then throw .isDirectory
  return files.put place (bytesOfText text)

/-- Add to the file at a path, or make it. -/
def append (files : Files) (path text : String) : Except FileError Files := do
  let place ← files.resolve path
  if files.hasDirectory place then throw .isDirectory
  let old := ((files.get? place).map (·.bytes)).getD #[]
  return files.put place (old ++ bytesOfText text)

end Files

end ZMachine
