import ZMachine.Session

/-!
# Memory instructions

Loading and storing bytes and words, changing variables, and searching tables.
An instruction that names its variable by an operand works on the last value of
the stack in place when that number is 0.
-/

set_option autoImplicit false

namespace ZMachine

/-- A memory operation. -/
inductive StorageOp where
  | increment
  | decrement
  | load
  | decrementCheck
  | incrementCheck
  | store
  | loadWord
  | loadByte
  | storeWord
  | storeByte
  | scanTable
  | copyTable
  deriving DecidableEq, Repr, Inhabited

/-- The memory operation of an opcode number. -/
def StorageOp.of? : OperandCount → Nat → Option StorageOp
  | .one, 0x05 => some .increment
  | .one, 0x06 => some .decrement
  | .one, 0x0E => some .load
  | .two, 0x04 => some .decrementCheck
  | .two, 0x05 => some .incrementCheck
  | .two, 0x0D => some .store
  | .two, 0x0F => some .loadWord
  | .two, 0x10 => some .loadByte
  | .var, 0x01 => some .storeWord
  | .var, 0x02 => some .storeByte
  | .var, 0x17 => some .scanTable
  | .var, 0x1D => some .copyTable
  | _, _ => none

namespace Session

variable {ω : Type}

/-! ## Searching a table -/

/-- The field at an address: a word or a byte. -/
def tableField (m : Memory) (words : Bool) (addr : Nat) : Except Fault Word :=
  if words then m.loadWord addr else return (← m.loadByte addr).toUInt16

/-- The address of the first of `count` fields from `addr` on, `stride` bytes
apart, that equals `x`, or 0. -/
def findField (m : Memory) (x : Word) (words : Bool) (stride : Nat) :
    (count addr : Nat) → Except Fault Word
  | 0, _ => .ok 0
  | count + 1, addr => do
      let field ← tableField m words addr
      if field = x then return UInt16.ofNat addr
      findField m x words stride count (addr + stride)

/-- Search the table that the operands describe. The form says by its top bit
whether the fields are words, and by the others how far apart they stand. -/
def scanTable (operands : List Word) : Op (Session ω) Word := do
  let x ← operand operands 0
  let table ← operand operands 1
  let count ← operand operands 2
  let form := operands.getD 3 0x82
  let stride := (form &&& 0x7F).toNat
  if stride = 0 then Op.fail .emptyScanEntry
  queryMachine fun m =>
    findField m.memory x (form &&& 0x80 != 0) stride count.toNat table.toNat

/-! ## The operations -/

/-- Add to a variable in place and give its new value. -/
def adjust (number : Byte) (amount : Word) : Op (Session ω) Word := do
  let old ← queryMachine (·.peekVariable number)
  let value := old + amount
  onMachine (Machine.setInPlace number value)
  return value

/-- Carry out a memory operation on its first operand. -/
def storage (i : Instruction) (operands : List Word) (a : Word) :
    StorageOp → Op (Session ω) Outcome
  | .increment => do
      let _ ← adjust (lowByte a) 1
      return .advanced
  | .decrement => do
      let _ ← adjust (lowByte a) (-1)
      return .advanced
  | .load => do
      store i (← queryMachine (·.peekVariable (lowByte a)))
      return .advanced
  | .decrementCheck => do
      let limit ← operand operands 1
      let value ← adjust (lowByte a) (-1)
      branch i (signedLess value limit)
  | .incrementCheck => do
      let limit ← operand operands 1
      let value ← adjust (lowByte a) 1
      branch i (signedLess limit value)
  | .store => do
      let value ← operand operands 1
      onMachine (Machine.setInPlace (lowByte a) value)
      return .advanced
  | .loadWord => do
      let index ← operand operands 1
      store i (← queryMachine (·.memory.loadWord (a.toNat + 2 * index.toNat)))
      return .advanced
  | .loadByte => do
      let index ← operand operands 1
      let value ← queryMachine (·.memory.loadByte (a.toNat + index.toNat))
      store i value.toUInt16
      return .advanced
  | .storeWord => do
      let index ← operand operands 1
      let value ← operand operands 2
      onMemory (Memory.writeWord (a.toNat + 2 * index.toNat) value)
      return .advanced
  | .storeByte => do
      let index ← operand operands 1
      let value ← operand operands 2
      onMemory (Memory.writeByte (a.toNat + index.toNat) (lowByte value))
      return .advanced
  | .scanTable => do
      requireVersion i 4
      let found ← scanTable operands
      store i found
      branch i (found != 0)
  | .copyTable => Op.fail .noCopyTable

end Session

end ZMachine
