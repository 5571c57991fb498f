import ZMachine.Settings
import ZMachine.Toml.Library

/-!
# Settings as documents

Settings are kept in a document with one key for each. A key that is left out
takes its default, and keys that mean nothing here are passed over. The document
itself is the business of a library, which is an argument here.
-/

set_option autoImplicit false

namespace ZMachine.Settings

/-- The name of these documents in messages. -/
def documentKind : String := "engine config"

/-- The settings that the entries of a document give. -/
def ofEntries (entries : Toml.Entries) : Except Toml.Error Settings := do
  let byte := Toml.Value.natUpTo? 255
  let standard : Settings := {}
  let seed ← Toml.optional entries "seed" (Toml.Value.natUpTo? Toml.maxInteger)
  let width ← Toml.optional entries "screen_width" byte
  let height ← Toml.optional entries "screen_height" byte
  let number ← Toml.optional entries "interpreter_number" byte
  let version ← Toml.optional entries "interpreter_version" byte
  let transcript ← Toml.optional entries "transcript" Toml.Value.boolean?
  return {
    seed := seed.map UInt64.ofNat
    screenWidth := (width.map UInt8.ofNat).getD standard.screenWidth
    screenHeight := (height.map UInt8.ofNat).getD standard.screenHeight
    interpreterNumber := (number.map UInt8.ofNat).getD standard.interpreterNumber
    interpreterVersion := (version.map UInt8.ofNat).getD standard.interpreterVersion
    transcript := transcript.getD standard.transcript }

/-- Read settings. -/
def read (text : String) (toml : Toml.Library := .standard) : Except Fault Settings :=
  toml.readAs documentKind ofEntries text

/-- The keys and values of settings; the seed is left out when there is none. -/
def entries (s : Settings) : Toml.Entries :=
  let byte := fun (b : Byte) => Toml.Value.integer b.toNat
  (s.seed.map fun seed => ("seed", Toml.Value.integer seed.toNat)).toList ++ [
    ("screen_width", byte s.screenWidth),
    ("screen_height", byte s.screenHeight),
    ("interpreter_number", byte s.interpreterNumber),
    ("interpreter_version", byte s.interpreterVersion),
    ("transcript", .boolean s.transcript)]

/-- Write settings. -/
def write (s : Settings) (toml : Toml.Library := .standard) : Except Fault String :=
  toml.writeAs documentKind s.entries

end ZMachine.Settings
