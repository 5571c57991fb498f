import ZMachine.Memory

/-!
# Objects

A story's objects stand in a table behind the default property values. Each
entry holds the object's attributes, the numbers of its parent, its next
sibling and its first child, and the address of its properties. Up to version
3 there are 31 defaults, 32 attributes and links of one byte; later there are
63, 48 and links of one word.
-/

set_option autoImplicit false

namespace ZMachine

/-- The object table of a story: its version and where it stands. -/
structure ObjectTable where
  version : Nat
  addr : Nat
  deriving DecidableEq, Repr, Inhabited

/-- A link from one object to another. -/
inductive Link where
  | parent
  | sibling
  | child
  deriving DecidableEq, Repr, Inhabited

namespace ObjectTable

/-! ## Layout -/

/-- Whether the table has the layout of the first three versions. -/
def early (t : ObjectTable) : Bool :=
  t.version < 4

/-- The highest property number, which is also the number of defaults. -/
def lastProperty (t : ObjectTable) : Nat :=
  if t.early then 31 else 63

/-- The number of bytes in an entry. -/
def entrySize (t : ObjectTable) : Nat :=
  if t.early then 9 else 14

/-- The number of attributes of an object. -/
def attributeCount (t : ObjectTable) : Nat :=
  if t.early then 32 else 48

/-- Where the entries begin. -/
def entriesAddr (t : ObjectTable) : Nat :=
  t.addr + t.lastProperty * 2

/-- The address of an object's entry. -/
def entryAddr (t : ObjectTable) (obj : Word) : Except Fault Nat :=
  if obj = 0 then .error .objectZero
  else if t.early && 255 < obj.toNat then .error (.objectNumber obj.toNat)
  else .ok (t.entriesAddr + (obj.toNat - 1) * t.entrySize)

/-! ## Links -/

/-- The place of a link among the links of an entry. -/
def linkSlot : Link → Nat
  | .parent => 0
  | .sibling => 1
  | .child => 2

/-- Where a link stands within an entry. -/
def linkOffset (t : ObjectTable) (l : Link) : Nat :=
  if t.early then 4 + linkSlot l else 6 + linkSlot l * 2

/-- The object that a link leads to, or 0. -/
def link (t : ObjectTable) (m : Memory) (obj : Word) (l : Link) : Except Fault Word := do
  let addr := (← t.entryAddr obj) + t.linkOffset l
  if t.early then return (← m.getByte addr).toUInt16 else m.getWord addr

/-- Make a link lead to an object. -/
def setLink (t : ObjectTable) (obj : Word) (l : Link) (value : Word) : Op Memory Unit := do
  let addr := (← Op.ofExcept (t.entryAddr obj)) + t.linkOffset l
  if t.early then
    if 255 < value.toNat then Op.fail (.linkTooLarge value.toNat)
    else Memory.writeByte addr (lowByte value)
  else Memory.writeWord addr value

/-- The object that contains an object, or 0. -/
def parent (t : ObjectTable) (m : Memory) (obj : Word) : Except Fault Word :=
  t.link m obj .parent

/-- The object after an object in the same container, or 0. -/
def sibling (t : ObjectTable) (m : Memory) (obj : Word) : Except Fault Word :=
  t.link m obj .sibling

/-- The first object that an object contains, or 0. -/
def child (t : ObjectTable) (m : Memory) (obj : Word) : Except Fault Word :=
  t.link m obj .child

/-! ## Attributes -/

/-- Refuse an attribute that objects do not have. -/
def requireAttribute (t : ObjectTable) (attr : Word) : Except Fault Unit :=
  if attr.toNat < t.attributeCount then .ok ()
  else .error (.attributeRange attr.toNat t.attributeCount)

/-- The bytes that hold an object's attributes. -/
def attributeBytes (t : ObjectTable) (m : Memory) (obj : Word) : Except Fault (Array Byte) := do
  m.readBytes (← t.entryAddr obj) (t.attributeCount / 8)

/-- The bit of an attribute within its byte; attribute 0 is the highest bit. -/
def attributeMask (attr : Nat) : Byte :=
  (0x80 : Byte) >>> UInt8.ofNat (attr % 8)

/-- Whether an attribute is set in the bytes that hold it. -/
def attributeIn (bytes : Array Byte) (attr : Nat) : Bool :=
  bytes.getD (attr / 8) 0 &&& attributeMask attr != 0

/-- The bytes with an attribute set or cleared. -/
def withAttribute (bytes : Array Byte) (attr : Nat) (on : Bool) : Array Byte :=
  let old := bytes.getD (attr / 8) 0
  let mask := attributeMask attr
  bytes.setIfInBounds (attr / 8) (if on then old ||| mask else old &&& ~~~mask)

/-- Whether an object has an attribute. -/
def testAttribute (t : ObjectTable) (m : Memory) (obj attr : Word) : Except Fault Bool := do
  t.requireAttribute attr
  let bytes ← t.attributeBytes m obj
  return attributeIn bytes attr.toNat

/-- Give an object an attribute, or take it away. All the attribute bytes are
written back. -/
def setAttribute (t : ObjectTable) (obj attr : Word) (on : Bool) : Op Memory Unit := do
  Op.ofExcept (t.requireAttribute attr)
  let bytes ← Op.query (t.attributeBytes · obj)
  let addr ← Op.ofExcept (t.entryAddr obj)
  Memory.writeBytes addr (withAttribute bytes attr.toNat on).toList

/-- The attributes of an object, in ascending order. -/
def attributes (t : ObjectTable) (m : Memory) (obj : Word) : Except Fault (List Nat) := do
  let bytes ← t.attributeBytes m obj
  return (List.range (bytes.size * 8)).filter (attributeIn bytes)

end ObjectTable

end ZMachine
