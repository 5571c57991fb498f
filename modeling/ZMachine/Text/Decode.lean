import ZMachine.Text.Codec

/-!
# Reading strings

A string is a sequence of words, each holding three z-characters of five bits;
the top bit marks the last word. Reading has two parts. `gather` collects the
z-characters of the words up to the end mark or a bound. `Reader.step` then
takes them one at a time, through shifts, abbreviations and codes written out
in full, and adds the glyphs they stand for.

An abbreviation is a string of its own whose glyphs are put in place of the
reference; it may not refer to another one.
-/

set_option autoImplicit false

namespace ZMachine

/-- A character produced by a string: its code, and how it prints if it does. -/
structure Glyph where
  code : Word
  char : Option Char
  deriving DecidableEq, Repr, Inhabited

/-- A string read from a story. -/
structure ZString where
  text : String
  /-- The number of bytes it takes. -/
  length : Nat
  /-- The codes of its characters. -/
  codes : List Word
  deriving DecidableEq, Repr, Inhabited

namespace Text

/-! ## Collecting z-characters -/

/-- The three z-characters of a word. -/
def zcharsOfWord (w : Word) : List Byte :=
  [(w >>> 10 &&& 0x1F).toUInt8, (w >>> 5 &&& 0x1F).toUInt8, (w &&& 0x1F).toUInt8]

/-- Whether a word carries the end mark. -/
def endsString (w : Word) : Bool :=
  0x8000 ≤ w.toNat

/-- The z-characters of a string and how it ended. -/
structure Packed where
  zchars : Array Byte
  /-- The number of bytes taken. -/
  length : Nat
  /-- Whether the end mark or the bound was reached before the bytes ran out. -/
  complete : Bool
  deriving DecidableEq, Repr, Inhabited

/-- Collect the z-characters of the words from `start + offset` on, up to the end
mark or until `limit` bytes have been taken. -/
def gather (bytes : Array Byte) (limit : Option Nat) (start offset : Nat)
    (found : Array Byte) : Packed :=
  if limit.any (· ≤ offset) then ⟨found, offset, true⟩
  else if h : start + offset + 1 < bytes.size then
    let word := wordOfBytes bytes[start + offset] bytes[start + offset + 1]
    let found := found ++ zcharsOfWord word
    if endsString word then ⟨found, offset + 2, true⟩
    else gather bytes limit start (offset + 2) found
  else ⟨found, offset, false⟩
termination_by bytes.size - (start + offset)

/-! ## From z-characters to glyphs -/

/-- What the next z-character means. -/
inductive Mode where
  | plain
  /-- It picks an abbreviation of a bank. -/
  | abbreviation (bank : Byte)
  /-- It is the high half of a code. -/
  | codeHigh
  /-- It is the low half of a code. -/
  | codeLow (high : Byte)
  deriving DecidableEq, Repr, Inhabited

/-- The state of reading a string. -/
structure Reader where
  mode : Mode
  /-- The alphabet that is returned to. -/
  lock : Alphabet
  /-- The alphabet of the next character. -/
  current : Alphabet
  glyphs : Array Glyph
  deriving DecidableEq, Repr, Inhabited

/-- The state before the first z-character. -/
def Reader.start (lock : Alphabet) : Reader :=
  ⟨.plain, lock, lock, #[]⟩

/-- The glyphs of an abbreviation, by its bank and number. -/
abbrev Expander := Byte → Byte → Except Fault (List Glyph)

/-- Add a glyph and return to the locked alphabet. -/
def Reader.add (r : Reader) (g : Glyph) : Reader :=
  { r with mode := .plain, current := r.lock, glyphs := r.glyphs.push g }

/-- The glyph of a character of an alphabet. -/
def glyphOfChar (c : Char) : Glyph :=
  ⟨if c = '\n' then 13 else UInt16.ofNat c.toNat, some c⟩

/-- Take a z-character that does not complete an abbreviation or a code. Inside
an abbreviation, where there is no expander, another reference is a fault. -/
def Reader.plainStep (c : Codec) (expander : Option Expander) (r : Reader) (z : Byte) :
    Except Fault Reader :=
  if z = 0 then .ok (r.add ⟨32, some ' '⟩)
  else if z = 1 ∧ c.version = 1 then .ok (r.add ⟨13, some '\n'⟩)
  else if z = 1 ∨ (z ≤ 3 ∧ 3 ≤ c.version) then
    match expander with
    | none => .error .nestedAbbreviation
    | some _ => .ok { r with mode := .abbreviation z }
  else if z ≤ 3 then .ok { r with current := r.lock.rotate (z.toNat - 1) }
  else if z ≤ 5 then
    if 3 ≤ c.version then .ok { r with current := if z = 4 then .a1 else .a2 }
    else
      let lock := r.lock.rotate (z.toNat - 3)
      .ok { r with lock, current := lock }
  else if z = 6 ∧ r.current = .a2 then .ok { r with mode := .codeHigh }
  else .ok (r.add (glyphOfChar (r.current.charAt c.version z)))

/-- Take one z-character. -/
def Reader.step (c : Codec) (expander : Option Expander) (r : Reader) (z : Byte) :
    Except Fault Reader :=
  match r.mode with
  | .plain => r.plainStep c expander z
  | .abbreviation bank =>
      match expander with
      | none => .error .nestedAbbreviation
      | some expand => do
          let glyphs ← expand bank z
          return { r with mode := .plain, glyphs := r.glyphs ++ glyphs }
  | .codeHigh => .ok { r with mode := .codeLow z }
  | .codeLow high => do
      let code := (high.toUInt16 <<< 5) ||| z.toUInt16
      let char ← c.charOfCode code
      return r.add ⟨code, char⟩

/-- Take z-characters in order. -/
def Reader.steps (c : Codec) (expander : Option Expander) (r : Reader) (zs : List Byte) :
    Except Fault Reader :=
  zs.foldlM (Reader.step c expander) r

/-! ## Whole strings -/

/-- The string that collected glyphs spell. -/
def spell (glyphs : List Glyph) (length : Nat) : ZString :=
  ⟨String.ofList (glyphs.filterMap (·.char)), length, glyphs.map (·.code)⟩

/-- Read the string whose words begin at a place of some bytes. Gives its glyphs,
the bytes it takes and the alphabet locked after it. -/
def readGlyphs (c : Codec) (expander : Option Expander) (bytes : Array Byte)
    (limit : Option Nat) (start : Nat) (lock : Alphabet) :
    Except Fault (List Glyph × Nat × Alphabet) :=
  if c.alphabetTable ≠ 0 then .error (.customAlphabet c.alphabetTable)
  else do
    let packed := gather bytes limit start 0 #[]
    let lock := if 3 ≤ c.version then .a0 else lock
    let r ← (Reader.start lock).steps c expander packed.zchars.toList
    if packed.complete then
      return (r.glyphs.toList, packed.length, if 3 ≤ c.version then .a0 else r.lock)
    else throw .unterminatedString

/-- The glyphs of an abbreviation. -/
def expandAbbreviation (c : Codec) (m : Memory) : Expander :=
  fun bank z => do
    let entry := 32 * (bank.toNat - 1) + z.toNat
    let addr := 2 * (← m.getWord (c.abbreviations + entry * 2)).toNat
    if m.size < addr then throw (.abbreviationOutside entry)
    let (glyphs, _) ← readGlyphs c none m.bytes none addr .a0
    return glyphs

end Text

namespace Codec

/-- Read the string at an address, taking at most `limit` bytes and starting with
a locked alphabet. Gives the alphabet locked after it, which from version 3 on
is always the first. -/
def decodeFrom (c : Codec) (m : Memory) (addr : Nat) (limit : Option Nat) (lock : Alphabet) :
    Except Fault (ZString × Alphabet) :=
  if m.size < addr then .error (.stringOutside addr)
  else
    match Text.readGlyphs c (some (Text.expandAbbreviation c m)) m.bytes limit addr lock with
    | .ok (glyphs, length, lock) => .ok (Text.spell glyphs length, lock)
    | .error e => .error (.stringAt addr e)

/-- Read the string at an address. -/
def decode (c : Codec) (m : Memory) (addr : Nat) : Except Fault ZString := do
  return (← c.decodeFrom m addr none .a0).1

/-- Read a string that takes a bounded number of bytes. -/
def decodeBounded (c : Codec) (m : Memory) (addr limit : Nat) : Except Fault ZString := do
  return (← c.decodeFrom m addr (some limit) .a0).1

/-- Read a string held outside story memory. -/
def decodeBytes (c : Codec) (m : Memory) (bytes : Array Byte) : Except Fault ZString := do
  let (glyphs, length, _) ←
    Text.readGlyphs c (some (Text.expandAbbreviation c m)) bytes (some bytes.size) 0 .a0
  return Text.spell glyphs length

end Codec

end ZMachine
