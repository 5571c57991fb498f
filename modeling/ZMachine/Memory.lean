import ZMachine.Op

/-!
# Story memory

The image of a story divides into dynamic memory below the static base, static
memory up to the high base, and high memory above it. The story may write
dynamic memory only, and may load from the first 64K only; instructions and
strings are fetched from anywhere. A pristine copy of the image is kept for
restarting and for the checksum.
-/

set_option autoImplicit false

namespace ZMachine

/-- The bytes of a loaded story, with a pristine copy and its region bounds. -/
structure Memory where
  bytes : Array Byte
  pristine : Array Byte
  version : Nat
  staticBase : Nat
  highBase : Nat
  deriving DecidableEq, Repr, Inhabited

namespace Memory

/-- The size of the header, which no image is smaller than. -/
def headerSize : Nat := 0x40

/-- The highest address a story may load from. -/
def lastLoad : Nat := 0xFFFF

/-- The word at an index of raw bytes, with zeros past the end. -/
def rawWord (bytes : Array Byte) (addr : Nat) : Word :=
  wordOfBytes (bytes.getD addr 0) (bytes.getD (addr + 1) 0)

/-- Take raw story bytes as an image, checking the version and region bounds. -/
def load (bytes : Array Byte) : Except Fault Memory :=
  let version := (bytes.getD 0 0).toNat
  let highBase := (rawWord bytes 0x04).toNat
  let staticBase := (rawWord bytes 0x0E).toNat
  if bytes.size < headerSize then .error (.imageTooSmall bytes.size)
  else if version < 1 ∨ 8 < version then .error (.unsupportedVersion version)
  else if staticBase < headerSize then .error (.staticOverlapsHeader staticBase)
  else if bytes.size < staticBase then .error (.staticPastEnd staticBase bytes.size)
  else if bytes.size < highBase then .error (.highPastEnd highBase bytes.size)
  else .ok { bytes, pristine := bytes, version, staticBase, highBase }

/-- The number of bytes in the image. -/
def size (m : Memory) : Nat :=
  m.bytes.size

/-! ## Reading -/

/-- The byte at any address of the image. -/
def getByte (m : Memory) (addr : Nat) : Except Fault Byte :=
  if h : addr < m.bytes.size then .ok m.bytes[addr]
  else .error (.byteRead addr (m.size - 1))

/-- The word at any address of the image. -/
def getWord (m : Memory) (addr : Nat) : Except Fault Word :=
  if h : addr + 1 < m.bytes.size then .ok (wordOfBytes m.bytes[addr] m.bytes[addr + 1])
  else .error (.wordRead addr (m.size - 2))

/-- The byte that a story's load instruction sees, in the first 64K. -/
def loadByte (m : Memory) (addr : Nat) : Except Fault Byte :=
  if lastLoad < addr then .error (.byteLoad addr) else m.getByte addr

/-- The word that a story's load instruction sees, in the first 64K. -/
def loadWord (m : Memory) (addr : Nat) : Except Fault Word :=
  if lastLoad < addr + 1 then .error (.wordLoad addr) else m.getWord addr

/-- A run of bytes anywhere in the image. -/
def readBytes (m : Memory) (addr count : Nat) : Except Fault (Array Byte) :=
  if addr + count ≤ m.size then .ok (m.bytes.extract addr (addr + count))
  else .error (.bytesRead count addr)

/-! ## Writing -/

/-- Write a byte anywhere, whatever its region. -/
def setByte (addr : Nat) (value : Byte) : Op Memory Unit :=
  fun m =>
    if addr < m.size then (.ok (), { m with bytes := m.bytes.setIfInBounds addr value })
    else (.error (.byteWrite addr), m)

/-- Write a word anywhere, whatever its region. -/
def setWord (addr : Nat) (value : Word) : Op Memory Unit :=
  fun m =>
    if addr + 1 < m.size then
      (.ok (), { m with
        bytes := (m.bytes.setIfInBounds addr (highByte value)).setIfInBounds (addr + 1)
          (lowByte value) })
    else (.error (.wordWrite addr), m)

/-- Write a byte as the story does, in dynamic memory only. -/
def writeByte (addr : Nat) (value : Byte) : Op Memory Unit :=
  fun m =>
    if m.staticBase ≤ addr then (.error (.protectedByte addr m.staticBase), m)
    else setByte addr value m

/-- Write a word as the story does, in dynamic memory only. -/
def writeWord (addr : Nat) (value : Word) : Op Memory Unit :=
  fun m =>
    if m.staticBase ≤ addr + 1 then (.error (.protectedWord addr m.staticBase), m)
    else setWord addr value m

/-- Write bytes one after another, in dynamic memory only. -/
def writeBytes : Nat → List Byte → Op Memory Unit
  | _, [] => pure ()
  | addr, b :: rest => do
      writeByte addr b
      writeBytes (addr + 1) rest

/-! ## Packed addresses -/

/-- The byte address of a packed address. Versions 6 and 7 add an offset that
the header holds at `field`. -/
def unpack (m : Memory) (packed : Word) (field : Nat) : Nat :=
  if m.version ≤ 3 then packed.toNat * 2
  else if m.version ≤ 5 then packed.toNat * 4
  else if m.version ≤ 7 then packed.toNat * 4 + (rawWord m.bytes field).toNat * 8
  else packed.toNat * 8

/-- The byte address of a packed routine address. -/
def unpackRoutine (m : Memory) (packed : Word) : Nat :=
  m.unpack packed 0x28

/-- The byte address of a packed string address. -/
def unpackString (m : Memory) (packed : Word) : Nat :=
  m.unpack packed 0x2A

/-! ## Dynamic memory as a whole -/

/-- Dynamic memory as it stands. -/
def dynamic (m : Memory) : Array Byte :=
  m.bytes.extract 0 m.staticBase

/-- Dynamic memory as it was loaded. -/
def pristineDynamic (m : Memory) : Array Byte :=
  m.pristine.extract 0 m.staticBase

/-- Replace dynamic memory by a copy of the same size. -/
def restoreDynamic (data : Array Byte) : Op Memory Unit :=
  fun m =>
    if data.size = m.staticBase then
      (.ok (), { m with bytes := data ++ m.bytes.extract m.staticBase m.bytes.size })
    else (.error (.dynamicSize m.staticBase data.size), m)

/-- The image as it was loaded. -/
def reset (m : Memory) : Memory :=
  { m with bytes := m.pristine }

/-- The sum of the pristine bytes from the end of the header to `bound`. -/
def checksum (m : Memory) (bound : Nat) : Word :=
  (m.pristine.extract headerSize (min bound m.pristine.size)).foldl
    (fun sum b => sum + b.toUInt16) 0

/-! ## Comparison with the pristine image -/

/-- A run of consecutive bytes and the address where it begins. -/
structure Run where
  start : Nat
  bytes : Array Byte
  deriving DecidableEq, Repr, Inhabited

/-- Add a byte to the runs found so far, of which the last comes first: it
continues the last run when it stands right behind it. -/
def addToRuns (runs : List Run) (addr : Nat) (b : Byte) : List Run :=
  match runs with
  | [] => [⟨addr, #[b]⟩]
  | ⟨start, bytes⟩ :: rest =>
      if start + bytes.size = addr then ⟨start, bytes.push b⟩ :: rest
      else ⟨addr, #[b]⟩ :: ⟨start, bytes⟩ :: rest

/-- The runs in which some bytes differ from others, over their common length. -/
def runsOfChange (current base : Array Byte) : List Run :=
  let step := fun (acc : Nat × List Run) (pair : Byte × Byte) =>
    (acc.1 + 1, if pair.1 = pair.2 then acc.2 else addToRuns acc.2 acc.1 pair.1)
  ((current.zip base).foldl step (0, [])).2.reverse

/-- The runs in which the image differs from its pristine copy. -/
def changes (m : Memory) : List Run :=
  runsOfChange m.bytes m.pristine

end Memory

end ZMachine
