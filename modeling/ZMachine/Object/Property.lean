import ZMachine.Object.Basic
import ZMachine.Text.Decode

/-!
# Names and properties of objects

The property table of an object begins with its short name and goes on with
blocks of descending number, each with a header of one or two bytes that gives
the number and the length of the data. A property that an object does not have
takes its value from the defaults.
-/

set_option autoImplicit false

namespace ZMachine

/-- A block of an object's property table. -/
structure PropertyBlock where
  id : Nat
  length : Nat
  dataAddr : Nat
  /-- Where the header of the block begins. -/
  headerAddr : Nat
  deriving DecidableEq, Repr, Inhabited

namespace ObjectTable

/-- Where an object's property table stands. -/
def propertiesAddr (t : ObjectTable) (m : Memory) (obj : Word) : Except Fault Nat := do
  let entry ← t.entryAddr obj
  return (← m.getWord (entry + if t.early then 7 else 12)).toNat

/-- The short name of an object. -/
def shortName (t : ObjectTable) (m : Memory) (c : Codec) (obj : Word) : Except Fault String := do
  let addr ← t.propertiesAddr m obj
  if (← m.getByte addr) = 0 then return ""
  return (← c.decode m (addr + 1)).text

/-! ## Blocks -/

/-- The length that a size byte of a two-byte header states; 0 stands for 64. -/
def longLength (b : Byte) : Nat :=
  if b.toNat % 64 = 0 then 64 else b.toNat % 64

/-- Read the block at an address; a zero byte ends the table. -/
def readBlock (t : ObjectTable) (m : Memory) (addr : Nat) :
    Except Fault (Option PropertyBlock) := do
  let b ← m.getByte addr
  if b = 0 then return none
  if t.early then return some ⟨b.toNat % 32, b.toNat / 32 + 1, addr + 1, addr⟩
  if 0x80 ≤ b.toNat then
    let second ← m.getByte (addr + 1)
    return some ⟨b.toNat % 64, longLength second, addr + 2, addr⟩
  return some ⟨b.toNat % 64, if b &&& 0x40 ≠ 0 then 2 else 1, addr + 1, addr⟩

/-- The blocks from an address on. A table with more than `room` blocks does not
end where it should. -/
def readBlocks (t : ObjectTable) (m : Memory) (obj : Word) :
    (room addr : Nat) → Except Fault (List PropertyBlock)
  | room, addr => do
      match ← t.readBlock m addr with
      | none => return []
      | some block =>
          match room with
          | 0 => throw (.runawayProperties obj.toNat)
          | room + 1 =>
              let rest ← readBlocks t m obj room (block.dataAddr + block.length)
              return block :: rest
  termination_by structural room => room

/-- The property blocks of an object, in the order of the table. -/
def properties (t : ObjectTable) (m : Memory) (obj : Word) :
    Except Fault (List PropertyBlock) := do
  let table ← t.propertiesAddr m obj
  let nameWords := (← m.getByte table).toNat
  t.readBlocks m obj (t.lastProperty + 1) (table + 1 + nameWords * 2)

/-- The block of an object with a property number. -/
def findProperty (t : ObjectTable) (m : Memory) (obj prop : Word) :
    Except Fault (Option PropertyBlock) := do
  return (← t.properties m obj).find? (·.id = prop.toNat)

/-! ## Values -/

/-- Refuse a property number outside the range of the version. -/
def requireProperty (t : ObjectTable) (prop : Word) : Except Fault Unit :=
  if prop = 0 ∨ t.lastProperty < prop.toNat then
    .error (.propertyRange prop.toNat t.lastProperty)
  else .ok ()

/-- The value of a property for objects that do not have it. -/
def defaultProperty (t : ObjectTable) (m : Memory) (prop : Word) : Except Fault Word := do
  t.requireProperty prop
  m.getWord (t.addr + (prop.toNat - 1) * 2)

/-- The value of a property of an object. -/
def getProperty (t : ObjectTable) (m : Memory) (obj prop : Word) : Except Fault Word := do
  t.requireProperty prop
  match ← t.findProperty m obj prop with
  | some b =>
      if b.length = 1 then return (← m.getByte b.dataAddr).toUInt16
      else if b.length = 2 then m.getWord b.dataAddr
      else throw (.propertyTooLongToRead prop.toNat obj.toNat b.length)
  | none => t.defaultProperty m prop

/-- Change the value of a property that an object has. -/
def putProperty (t : ObjectTable) (obj prop value : Word) : Op Memory Unit := do
  match ← Op.query (t.findProperty · obj prop) with
  | some b =>
      if b.length = 1 then Memory.writeByte b.dataAddr (lowByte value)
      else if b.length = 2 then Memory.writeWord b.dataAddr value
      else Op.fail (.propertyTooLongToWrite prop.toNat obj.toNat b.length)
  | none => Op.fail (.noSuchProperty obj.toNat prop.toNat)

/-- The address of a property's data, or 0 when the object does not have it. -/
def propertyAddress (t : ObjectTable) (m : Memory) (obj prop : Word) : Except Fault Word := do
  match ← t.findProperty m obj prop with
  | some b => return UInt16.ofNat b.dataAddr
  | none => return 0

/-- The length of the property whose data begins at an address, from the size
byte before it; 0 for address 0. -/
def propertyLength (t : ObjectTable) (m : Memory) (dataAddr : Nat) : Except Fault Word := do
  if dataAddr = 0 then return 0
  let b ← m.getByte (dataAddr - 1)
  if t.early then return UInt16.ofNat (b.toNat / 32 + 1)
  if 0x80 ≤ b.toNat then return UInt16.ofNat (longLength b)
  return if b &&& 0x40 ≠ 0 then 2 else 1

/-- The number of a block, or 0 when there is none. -/
def idOrZero (block : Option PropertyBlock) : Word :=
  match block with
  | some b => UInt16.ofNat b.id
  | none => 0

/-- The number of the property after a property, or of the first one after 0. The
answer is 0 after the last. -/
def nextProperty (t : ObjectTable) (m : Memory) (obj prop : Word) : Except Fault Word := do
  let blocks ← t.properties m obj
  if prop = 0 then return idOrZero blocks.head?
  match blocks.dropWhile (·.id ≠ prop.toNat) with
  | _ :: rest => return idOrZero rest.head?
  | [] => throw (.noPropertyToFollow obj.toNat prop.toNat)

end ObjectTable

end ZMachine
