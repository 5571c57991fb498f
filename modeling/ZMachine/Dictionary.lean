import ZMachine.Text.Decode
import ZMachine.Text.Encode
import Std.Data.HashMap

/-!
# The dictionary

The dictionary lists the words that a story knows, each with its text in a
fixed number of z-characters and some data of the story's own. A word is looked
up by its text, cut to the length of the dictionary's words, or by searching
the encoded entries, which are in ascending order unless the story says
otherwise. The player's line is split into words at blanks and separators.
-/

set_option autoImplicit false

namespace ZMachine

/-- An entry of a dictionary. -/
structure DictionaryEntry where
  text : String
  addr : Nat
  /-- The encoded text as stored. -/
  encoded : List Byte
  dataAddr : Nat
  dataLength : Nat
  deriving DecidableEq, Repr, Inhabited

/-- A word of the player's line. -/
structure Token where
  text : String
  /-- How many characters of the line stand before it. -/
  start : Nat
  deriving DecidableEq, Repr, Inhabited

/-- A dictionary of a story. -/
structure Dictionary where
  addr : Nat
  separators : List Char
  entryLength : Nat
  /-- The stated number of entries; negative when they are in no order. -/
  entryCount : Int
  entries : Array DictionaryEntry
  /-- The address of the first entry with each text. -/
  index : Std.HashMap String Word
  /-- The length of the words in z-characters. -/
  wordLength : Nat
  deriving Inhabited

namespace Dictionary

/-! ## Reading a dictionary -/

/-- The number of bytes that the text of an entry takes. -/
def textBytes (version : Nat) : Nat :=
  if version < 4 then 4 else 6

/-- The number of z-characters in a word. -/
def wordZchars (version : Nat) : Nat :=
  if version < 4 then 6 else 9

/-- Read entry `i` of the entries that begin at `base`. -/
def readEntry (m : Memory) (c : Codec) (base entryLength i : Nat) :
    Except Fault DictionaryEntry := do
  let width := textBytes m.version
  let addr := base + i * entryLength
  let word ← c.decodeBounded m addr width
  if 0xFFFF < addr then throw (.entryBeyond i)
  let encoded ← m.readBytes addr width
  return {
    text := word.text
    addr
    encoded := encoded.toList
    dataAddr := addr + width
    dataLength := entryLength - width }

/-- Read `count` entries from number `i` on, behind those already read. -/
def readEntries (m : Memory) (c : Codec) (base entryLength : Nat) :
    (count i : Nat) → Array DictionaryEntry → Except Fault (Array DictionaryEntry)
  | 0, _, found => .ok found
  | count + 1, i, found => do
      let entry ← readEntry m c base entryLength i
      readEntries m c base entryLength count (i + 1) (found.push entry)

/-- The first address of each text. -/
def indexOf (entries : Array DictionaryEntry) : Std.HashMap String Word :=
  entries.foldl (fun index e => index.insertIfNew e.text (UInt16.ofNat e.addr)) ∅

/-- The characters of separator codes; a code that does not print is left out. -/
def readSeparators (c : Codec) : List Byte → Except Fault (List Char)
  | [] => .ok []
  | code :: rest => do
      let char ← c.charOfCode code.toUInt16
      let chars ← readSeparators c rest
      return char.toList ++ chars

/-- Read the dictionary at an address. -/
def read (m : Memory) (c : Codec) (addr : Nat) : Except Fault Dictionary := do
  let separatorCount := (← m.getByte addr).toNat
  let codes ← m.readBytes (addr + 1) separatorCount
  let separators ← readSeparators c codes.toList
  let table := addr + 1 + separatorCount
  let entryLength := (← m.getByte table).toNat
  let entryCount := signed (← m.getWord (table + 1))
  let width := textBytes m.version
  if entryCount ≠ 0 ∧ entryLength < width then throw (.shortEntry entryLength width)
  let entries ← readEntries m c (table + 3) entryLength entryCount.natAbs 0 #[]
  return {
    addr, separators, entryLength, entryCount, entries
    index := indexOf entries
    wordLength := wordZchars m.version }

/-! ## Looking words up -/

/-- The address of the first entry whose text is that of a word cut to the
dictionary's length, or 0. -/
def lookup (d : Dictionary) (m : Memory) (c : Codec) (word : String) : Except Fault Word := do
  let cut ← c.decodeBytes m (c.encode word d.wordLength).toArray
  return (d.index.get? cut.text).getD 0

/-- Halve the part of the entries in which a key can stand until one is left. -/
def narrow (entries : Array DictionaryEntry) (key : List Byte) (base size : Nat) : Nat :=
  if _h : 1 < size then
    let half := size / 2
    let mid := base + half
    let base :=
      match compare (entries.getD mid default).encoded key with
      | .gt => base
      | _ => mid
    narrow entries key base (size - half)
  else base
termination_by size

/-- The entry with an encoded text, among entries in ascending order. -/
def bisect (entries : Array DictionaryEntry) (key : List Byte) : Option DictionaryEntry :=
  match entries[narrow entries key 0 entries.size]? with
  | some e => if e.encoded = key then some e else none
  | none => none

/-- The address of the entry whose stored text is that of a word, or 0. Entries
in no order are searched one after another. -/
def search (d : Dictionary) (c : Codec) (word : String) : Word :=
  let key := c.encode word d.wordLength
  let found :=
    if d.entryCount < 0 then d.entries.find? (·.encoded = key) else bisect d.entries key
  match found with
  | some e => UInt16.ofNat e.addr
  | none => 0

/-- How two words compare in the order of the dictionary. -/
def collate (d : Dictionary) (c : Codec) (a b : String) : Ordering :=
  compare (c.encode a d.wordLength) (c.encode b d.wordLength)

/-! ## Splitting a line -/

/-- Whether a character separates words and is none itself. -/
def isBlank (c : Char) : Bool :=
  c = ' ' || c = '\t' || c = '\n'

/-- Whether a character belongs to a word of several characters. -/
def isInner (separators : List Char) (c : Char) : Bool :=
  !isBlank c && !separators.contains c

/-- The words of a line from character `start` on. Blanks end a word, and a
separator is a word by itself. -/
def split (separators : List Char) (start : Nat) : List Char → List Token
  | [] => []
  | c :: rest =>
      if isBlank c then split separators (start + 1) rest
      else if separators.contains c then
        ⟨String.singleton c, start⟩ :: split separators (start + 1) rest
      else
        let word := c :: rest.takeWhile (isInner separators)
        ⟨String.ofList word, start⟩ ::
          split separators (start + word.length) (rest.dropWhile (isInner separators))
termination_by line => line.length
decreasing_by
  · simp
  · simp
  · have := (List.dropWhile_sublist (isInner separators) (l := rest)).length_le
    simp only [List.length_cons]
    omega

/-- The words of a line. -/
def tokenize (d : Dictionary) (line : String) : List Token :=
  split d.separators 0 line.toList

/-! ## Listing -/

/-- The dictionary as a listing, one entry a line. -/
def listing (d : Dictionary) : String :=
  let counts := s!"Number of separators: {decimal d.separators.length}, "
    ++ s!"word size: {decimal d.entryLength}, word count: {signedDecimal d.entryCount}\n"
  let separators := String.join (d.separators.map fun c => s!" '{c}'")
  let lines := d.entries.toList.mapIdx fun i e =>
    "[" ++ padLeft 4 ' ' (decimal (i + 1)) ++ s!"] {hexAddress 4 e.addr} {e.text}\n"
  counts ++ "separators:" ++ separators ++ "\n" ++ String.join lines

end Dictionary

end ZMachine
