import ZMachine.Snapshot
import ZMachine.Snapshot.Compression
import ZMachine.Toml.Library

/-!
# Snapshots as documents

A snapshot can be written as a document as it is, or as a saved game, in which
its memory is compressed against the pristine image. Reading either needs every
field; fields that mean nothing here are passed over. The documents themselves
are the business of a library, which is an argument here.
-/

set_option autoImplicit false

namespace ZMachine

/-- A snapshot with its memory compressed. -/
structure SavedGame where
  sourceName : String
  pc : Nat
  frame : Nat
  alphabet : Alphabet
  stack : Array Word
  compressed : Array Byte
  deriving DecidableEq, Repr, Inhabited

namespace SavedGame

/-- Compress a snapshot against the pristine dynamic memory. -/
def compress (s : Snapshot) (pristine : Array Byte) : Except Fault SavedGame := do
  let compressed ← Compression.compress s.memory pristine
  return {
    sourceName := s.sourceName
    pc := s.pc
    frame := s.frame
    alphabet := s.alphabet
    stack := s.stack
    compressed }

/-- Recover the snapshot with the help of the pristine dynamic memory. -/
def expand (g : SavedGame) (pristine : Array Byte) : Except Fault Snapshot := do
  let memory ← Compression.expand g.compressed pristine
  return {
    pc := g.pc
    frame := g.frame
    memory
    stack := g.stack
    alphabet := g.alphabet
    sourceName := g.sourceName }

end SavedGame

/-! ## Values of fields -/

/-- The name of an alphabet in documents. -/
def Alphabet.label : Alphabet → String
  | .a0 => "A0"
  | .a1 => "A1"
  | .a2 => "A2"

/-- The alphabet with a name. -/
def Alphabet.ofLabel? (s : String) : Option Alphabet :=
  if s = "A0" then some .a0
  else if s = "A1" then some .a1
  else if s = "A2" then some .a2
  else none

/-- Bytes as a value. -/
def bytesValue (bytes : Array Byte) : Toml.Value :=
  .array (bytes.toList.map fun b => .integer b.toNat)

/-- Words as a value. -/
def wordsValue (words : Array Word) : Toml.Value :=
  .array (words.toList.map fun w => .integer w.toNat)

/-- The bytes that a value holds. -/
def bytes? (value : Toml.Value) : Option (Array Byte) :=
  (value.nats? 255).map fun ns => (ns.map UInt8.ofNat).toArray

/-- The words that a value holds. -/
def words? (value : Toml.Value) : Option (Array Word) :=
  (value.nats? 65535).map fun ns => (ns.map UInt16.ofNat).toArray

/-- The address that a value holds. -/
def address? : Toml.Value → Option Nat :=
  Toml.Value.natUpTo? Toml.maxInteger

/-- The alphabet that a value names, by a text or by the only key of a table, whose
value is empty. -/
def alphabet? : Toml.Value → Option Alphabet
  | .string label => Alphabet.ofLabel? label
  | .table _ [(label, value)] => if value.isEmpty then Alphabet.ofLabel? label else none
  | _ => none

/-! ## Snapshots -/

namespace Snapshot

/-- The name of these documents in messages. -/
def documentKind : String := "snapshot"

/-- The keys and values of a snapshot. -/
def entries (s : Snapshot) : Toml.Entries := [
  ("pc", .integer s.pc),
  ("fp", .integer s.frame),
  ("memory", bytesValue s.memory),
  ("stack", wordsValue s.stack),
  ("alphabet", .string s.alphabet.label),
  ("source_name", .string s.sourceName)]

/-- Write a snapshot. -/
def write (s : Snapshot) (toml : Toml.Library := .standard) : Except Fault String :=
  toml.writeAs documentKind s.entries

/-- The snapshot that the entries of a document give. -/
def ofEntries (entries : Toml.Entries) : Except Toml.Error Snapshot := do
  let pc ← Toml.required entries "pc" address?
  let frame ← Toml.required entries "fp" address?
  let memory ← Toml.required entries "memory" bytes?
  let stack ← Toml.required entries "stack" words?
  let alphabet ← Toml.required entries "alphabet" alphabet?
  let sourceName ← Toml.required entries "source_name" Toml.Value.string?
  return { pc, frame, memory, stack, alphabet, sourceName }

/-- Read a snapshot. -/
def read (text : String) (toml : Toml.Library := .standard) : Except Fault Snapshot :=
  toml.readAs documentKind ofEntries text

end Snapshot

/-! ## Saved games -/

namespace SavedGame

/-- The name of these documents in messages. -/
def documentKind : String := "saved game"

/-- The keys and values of a saved game. -/
def entries (g : SavedGame) : Toml.Entries := [
  ("source_name", .string g.sourceName),
  ("pc", .integer g.pc),
  ("fp", .integer g.frame),
  ("alphabet", .string g.alphabet.label),
  ("stack", wordsValue g.stack),
  ("cmem", bytesValue g.compressed)]

/-- Write a saved game. -/
def write (g : SavedGame) (toml : Toml.Library := .standard) : Except Fault String :=
  toml.writeAs documentKind g.entries

/-- The saved game that the entries of a document give. -/
def ofEntries (entries : Toml.Entries) : Except Toml.Error SavedGame := do
  let sourceName ← Toml.required entries "source_name" Toml.Value.string?
  let pc ← Toml.required entries "pc" address?
  let frame ← Toml.required entries "fp" address?
  let alphabet ← Toml.required entries "alphabet" alphabet?
  let stack ← Toml.required entries "stack" words?
  let compressed ← Toml.required entries "cmem" bytes?
  return { sourceName, pc, frame, alphabet, stack, compressed }

/-- Read a saved game. -/
def read (text : String) (toml : Toml.Library := .standard) : Except Fault SavedGame :=
  toml.readAs documentKind ofEntries text

end SavedGame

end ZMachine
