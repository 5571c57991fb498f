import ZMachine.Header.Field

/-!
# The header

The fixed part of a story's header: its version, release and serial number, and
where its tables stand. It is read once when the story is loaded, and the
tables have to stand inside the image.
-/

set_option autoImplicit false

namespace ZMachine

/-- The fixed fields of a story's header. -/
structure Header where
  version : Nat
  release : Word
  serial : String
  highBase : Nat
  staticBase : Nat
  initialPc : Nat
  dictionary : Nat
  objects : Nat
  globals : Nat
  abbreviations : Nat
  /-- The length of the story, at most that of the image. -/
  length : Nat
  checksum : Word
  deriving DecidableEq, Repr, Inhabited

namespace Header

/-- The unit in which a version states the length of its stories; a number that is
no version counts in the largest. -/
def lengthUnit (version : Nat) : Nat :=
  if 1 ≤ version ∧ version ≤ 3 then 2 else if version = 4 ∨ version = 5 then 4 else 8

/-- Refuse a table that stands outside the image. -/
def requireInside (m : Memory) (table : String) (addr : Nat) : Except Fault Unit :=
  if m.size ≤ addr then .error (.headerAddress table addr m.size) else .ok ()

/-- Read the header of an image. A story that states no length is as long as
its image. -/
def read (m : Memory) : Except Fault Header := do
  let version := (← m.getByte 0x00).toNat
  let stated := (← m.getWord 0x1A).toNat * lengthUnit version
  let length := if stated = 0 then m.size else min stated m.size
  let release ← m.getWord 0x02
  let serial ← m.readBytes 0x12 6
  let highBase ← m.getWord 0x04
  let staticBase ← m.getWord 0x0E
  let initialPc ← m.getWord 0x06
  let dictionary ← m.getWord 0x08
  let objects ← m.getWord 0x0A
  let globals ← m.getWord 0x0C
  let abbreviations ← m.getWord 0x18
  let checksum ← m.getWord 0x1C
  requireInside m "initial PC" initialPc.toNat
  requireInside m "dictionary" dictionary.toNat
  requireInside m "object table" objects.toNat
  requireInside m "globals table" globals.toNat
  return {
    version, release, length, checksum
    serial := String.ofList (serial.toList.map fun b => Char.ofNat b.toNat)
    highBase := highBase.toNat
    staticBase := staticBase.toNat
    initialPc := initialPc.toNat
    dictionary := dictionary.toNat
    objects := objects.toNat
    globals := globals.toNat
    abbreviations := abbreviations.toNat }

/-- The header as a listing, one field a line. -/
def listing (h : Header) : String :=
  "\n" ++ String.join [
    s!"Z-code version:           {decimal h.version}\n",
    s!"Release number:           {decimal h.release.toNat}\n",
    s!"Size of resident memory:  {hexAddress 4 h.highBase}\n",
    s!"Start PC:                 {hexAddress 4 h.initialPc}\n",
    s!"Dictionary address:       {hexAddress 4 h.dictionary}\n",
    s!"Object table address:     {hexAddress 4 h.objects}\n",
    s!"Global variables address: {hexAddress 4 h.globals}\n",
    s!"Size of dynamic memory:   {hexAddress 4 h.staticBase}\n",
    s!"Serial number:            {h.serial}\n",
    s!"Abbreviations address:    {hexAddress 4 h.abbreviations}\n",
    s!"File size:                {hexAddress 4 h.length}\n",
    s!"Checksum:                 {hexAddress 4 h.checksum.toNat}\n"]

end Header

end ZMachine
