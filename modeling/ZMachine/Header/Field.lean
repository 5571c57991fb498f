import ZMachine.Memory
import ZMachine.Settings

/-!
# Header fields

The header holds flags and fields, each defined in a range of versions only. A
flag is a bit of a byte; a field is a byte or a word at an address that may
depend on the version. Asking for one outside its versions is a fault.
-/

set_option autoImplicit false

namespace ZMachine

/-- The versions in which a part of the header is defined. -/
structure Era where
  first : Nat
  last : Option Nat := none
  deriving DecidableEq, Repr, Inhabited

/-- Whether a version belongs to an era. -/
def Era.covers (e : Era) (version : Nat) : Bool :=
  e.first ≤ version && e.last.all (version ≤ ·)

/-- A bit of the header. -/
structure Flag where
  name : String
  byte : Nat
  bit : Nat
  era : Era
  deriving Repr, Inhabited

/-- A byte or word of the header. -/
structure Field where
  name : String
  era : Era
  /-- Where the field stands in a version. -/
  address : Nat → Nat
  deriving Inhabited

/-! ## The flags -/

namespace Flag

def statusShowsTime : Flag := ⟨"status line type", 0x01, 1, ⟨1, some 3⟩⟩
def storySplit : Flag := ⟨"story file split", 0x01, 2, ⟨1, some 3⟩⟩
def statusUnavailable : Flag := ⟨"status line unavailable", 0x01, 4, ⟨1, some 3⟩⟩
def screenSplit : Flag := ⟨"screen splitting", 0x01, 5, ⟨1, some 3⟩⟩
def variablePitch : Flag := ⟨"variable pitch font", 0x01, 6, ⟨1, some 3⟩⟩
def colours : Flag := ⟨"colours available", 0x01, 0, ⟨5, none⟩⟩
def pictures : Flag := ⟨"pictures available", 0x01, 1, ⟨6, none⟩⟩
def bold : Flag := ⟨"boldface available", 0x01, 2, ⟨4, none⟩⟩
def italic : Flag := ⟨"italic available", 0x01, 3, ⟨4, none⟩⟩
def fixedSpace : Flag := ⟨"fixed-space available", 0x01, 4, ⟨4, none⟩⟩
def sound : Flag := ⟨"sound effects available", 0x01, 5, ⟨6, none⟩⟩
def timedInput : Flag := ⟨"timed keyboard input", 0x01, 7, ⟨4, none⟩⟩
def transcripting : Flag := ⟨"transcripting", 0x11, 0, ⟨1, none⟩⟩
def fixedPitch : Flag := ⟨"force fixed pitch", 0x11, 1, ⟨3, none⟩⟩
def redraw : Flag := ⟨"screen redraw", 0x11, 2, ⟨6, none⟩⟩
def wantsPictures : Flag := ⟨"wants pictures", 0x11, 3, ⟨5, none⟩⟩
def wantsUndo : Flag := ⟨"wants undo", 0x11, 4, ⟨5, none⟩⟩
def wantsMouse : Flag := ⟨"wants mouse", 0x11, 5, ⟨5, none⟩⟩
def wantsColours : Flag := ⟨"wants colours", 0x11, 6, ⟨5, none⟩⟩
def wantsSound : Flag := ⟨"wants sound", 0x11, 7, ⟨5, none⟩⟩
def wantsMenus : Flag := ⟨"wants menus", 0x10, 0, ⟨6, none⟩⟩

end Flag

/-! ## The fields -/

namespace Field

def interpreterNumber : Field := ⟨"interpreter number", ⟨4, none⟩, fun _ => 0x1E⟩
def interpreterVersion : Field := ⟨"interpreter version", ⟨4, none⟩, fun _ => 0x1F⟩
def screenHeight : Field := ⟨"screen height", ⟨4, none⟩, fun _ => 0x20⟩
def screenWidth : Field := ⟨"screen width", ⟨4, none⟩, fun _ => 0x21⟩
def widthUnits : Field := ⟨"screen width in units", ⟨5, none⟩, fun _ => 0x22⟩
def heightUnits : Field := ⟨"screen height in units", ⟨5, none⟩, fun _ => 0x24⟩
def routinesOffset : Field := ⟨"routines offset", ⟨6, some 7⟩, fun _ => 0x28⟩
def stringsOffset : Field := ⟨"static strings offset", ⟨6, some 7⟩, fun _ => 0x2A⟩
def background : Field := ⟨"default background colour", ⟨5, none⟩, fun _ => 0x2C⟩
def foreground : Field := ⟨"default foreground colour", ⟨5, none⟩, fun _ => 0x2D⟩
def terminators : Field := ⟨"terminating characters table", ⟨5, none⟩, fun _ => 0x2E⟩
def streamWidth : Field := ⟨"stream 3 pixel width", ⟨6, none⟩, fun _ => 0x30⟩
def standardRevision : Field := ⟨"standard revision", ⟨1, none⟩, fun _ => 0x32⟩
def abbreviations : Field := ⟨"abbreviations table", ⟨2, none⟩, fun _ => 0x18⟩
def alphabetTable : Field := ⟨"alphabet table", ⟨5, none⟩, fun _ => 0x34⟩
def extensionTable : Field := ⟨"header extension table", ⟨5, none⟩, fun _ => 0x36⟩

/-- The width of the font; it trades places with the height after version 5. -/
def fontWidth : Field := ⟨"font width", ⟨5, none⟩, fun v => if v = 5 then 0x26 else 0x27⟩

/-- The height of the font; it trades places with the width after version 5. -/
def fontHeight : Field := ⟨"font height", ⟨5, none⟩, fun v => if v = 5 then 0x27 else 0x26⟩

end Field

namespace Memory

/-- Refuse a part of the header that the story's version does not have. -/
def requireEra (m : Memory) (era : Era) (name : String) : Except Fault Unit :=
  if era.covers m.version then .ok () else .error (.fieldUndefined name m.version)

/-! ## Reading and setting -/

/-- Whether a flag is set. -/
def flag (m : Memory) (f : Flag) : Except Fault Bool := do
  m.requireEra f.era f.name
  let b ← m.getByte f.byte
  return b &&& ((1 : Byte) <<< UInt8.ofNat f.bit) != 0

/-- Set or clear a flag. -/
def setFlag (f : Flag) (on : Bool) : Op Memory Unit := do
  Op.query (·.requireEra f.era f.name)
  let old ← Op.query (·.getByte f.byte)
  let mask : Byte := (1 : Byte) <<< UInt8.ofNat f.bit
  setByte f.byte (if on then old ||| mask else old &&& ~~~mask)

/-- The value of a field one byte wide. -/
def byteField (m : Memory) (f : Field) : Except Fault Byte := do
  m.requireEra f.era f.name
  m.getByte (f.address m.version)

/-- Set a field one byte wide. -/
def setByteField (f : Field) (value : Byte) : Op Memory Unit := do
  Op.query (·.requireEra f.era f.name)
  let version ← Op.view (·.version)
  setByte (f.address version) value

/-- The value of a field one word wide. -/
def wordField (m : Memory) (f : Field) : Except Fault Word := do
  m.requireEra f.era f.name
  m.getWord (f.address m.version)

/-- Set a field one word wide. -/
def setWordField (f : Field) (value : Word) : Op Memory Unit := do
  Op.query (·.requireEra f.era f.name)
  let version ← Op.view (·.version)
  setWord (f.address version) value

/-- Word `n` of the header extension table, counted from 1, when the table is
that long. -/
def extensionWord (m : Memory) (n : Nat) : Except Fault (Option Word) := do
  let table := (← m.wordField .extensionTable).toNat
  if table = 0 then return none
  let count := (← m.getWord table).toNat
  if n = 0 ∨ count < n then return none
  return some (← m.getWord (table + 2 * n))

/-- The address of the story's own character table, or 0. -/
def unicodeTable (m : Memory) : Except Fault Nat := do
  return ((← m.extensionWord 3).getD 0).toNat

/-! ## What the interpreter advertises -/

/-- Tell the story what this interpreter can do. -/
def advertise (s : Settings) : Op Memory Unit := do
  let version ← Op.view (·.version)
  if version < 4 then
    setFlag .statusUnavailable false
    setFlag .screenSplit true
    setFlag .variablePitch true
  else
    if 5 ≤ version then
      setFlag .colours true
    setFlag .bold true
    setFlag .italic true
    setFlag .fixedSpace true
    setFlag .timedInput true
    setByteField .interpreterNumber s.interpreterNumber
    setByteField .interpreterVersion s.interpreterVersion
    setByteField .screenHeight s.screenHeight
    setByteField .screenWidth s.screenWidth
  setWordField .standardRevision 0x0100
  if 5 ≤ version then
    setWordField .widthUnits s.screenWidth.toUInt16
    setWordField .heightUnits s.screenHeight.toUInt16
    setByteField .background 5
    setByteField .foreground 2
    setByteField .fontWidth 1
    setByteField .fontHeight 1
  setFlag .transcripting s.transcript

end Memory

end ZMachine
