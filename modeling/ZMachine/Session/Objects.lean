import ZMachine.Session.Output

/-!
# Object instructions

Questions about objects, their attributes and properties, and moving them.
Asking about object 0 gives 0 or false; changing it is a fault.
-/

set_option autoImplicit false

namespace ZMachine

/-- An object operation. -/
inductive ObjectOp where
  | getSibling
  | getChild
  | getParent
  | getPropertyLength
  | remove
  | print
  | jumpIfIn
  | testAttribute
  | setAttribute
  | clearAttribute
  | insert
  | getProperty
  | getPropertyAddress
  | getNextProperty
  | putProperty
  deriving DecidableEq, Repr, Inhabited

/-- The object operation of an opcode number. -/
def ObjectOp.of? : OperandCount → Nat → Option ObjectOp
  | .one, 0x01 => some .getSibling
  | .one, 0x02 => some .getChild
  | .one, 0x03 => some .getParent
  | .one, 0x04 => some .getPropertyLength
  | .one, 0x09 => some .remove
  | .one, 0x0A => some .print
  | .two, 0x06 => some .jumpIfIn
  | .two, 0x0A => some .testAttribute
  | .two, 0x0B => some .setAttribute
  | .two, 0x0C => some .clearAttribute
  | .two, 0x0E => some .insert
  | .two, 0x11 => some .getProperty
  | .two, 0x12 => some .getPropertyAddress
  | .two, 0x13 => some .getNextProperty
  | .var, 0x03 => some .putProperty
  | _, _ => none

namespace Session

variable {ω : Type}

/-- Where a link of an object leads; nothing is linked to object 0. -/
def followLink (obj : Word) (l : Link) : Op (Session ω) Word :=
  if obj = 0 then pure 0 else queryMachine fun m => m.objects.link m.memory obj l

/-- Run an operation that the object table gives on the memory. -/
def onObjects (x : ObjectTable → Op Memory Unit) : Op (Session ω) Unit := do
  onMemory (x (← viewMachine (·.objects)))

/-- Carry out an object operation on its first operand. -/
def object (h : Host ω) (i : Instruction) (operands : List Word) (obj : Word) :
    ObjectOp → Op (Session ω) Outcome
  | .getSibling => do
      let found ← followLink obj .sibling
      store i found
      branch i (found != 0)
  | .getChild => do
      let found ← followLink obj .child
      store i found
      branch i (found != 0)
  | .getParent => do
      store i (← followLink obj .parent)
      return .advanced
  | .getPropertyLength => do
      store i (← queryMachine fun m => m.objects.propertyLength m.memory obj.toNat)
      return .advanced
  | .remove => do
      if obj ≠ 0 then onObjects (·.remove obj)
      return .advanced
  | .print => do
      let name ← queryMachine fun m => m.objects.shortName m.memory m.codec obj
      output h name
      return .advanced
  | .jumpIfIn => do
      let container ← operand operands 1
      let found ← followLink obj .parent
      branch i (found == container)
  | .testAttribute => do
      let attr ← operand operands 1
      let set ← if obj = 0 then pure false
        else queryMachine fun m => m.objects.testAttribute m.memory obj attr
      branch i set
  | .setAttribute => do
      let attr ← operand operands 1
      onObjects (·.setAttribute obj attr true)
      return .advanced
  | .clearAttribute => do
      let attr ← operand operands 1
      onObjects (·.setAttribute obj attr false)
      return .advanced
  | .insert => do
      let dest ← operand operands 1
      onObjects (·.insert obj dest)
      return .advanced
  | .getProperty => do
      let prop ← operand operands 1
      store i (← queryMachine fun m => m.objects.getProperty m.memory obj prop)
      return .advanced
  | .getPropertyAddress => do
      let prop ← operand operands 1
      let addr ← if obj = 0 then pure 0
        else queryMachine fun m => m.objects.propertyAddress m.memory obj prop
      store i addr
      return .advanced
  | .getNextProperty => do
      let prop ← operand operands 1
      store i (← queryMachine fun m => m.objects.nextProperty m.memory obj prop)
      return .advanced
  | .putProperty => do
      let prop ← operand operands 1
      let value ← operand operands 2
      onObjects (·.putProperty obj prop value)
      return .advanced

end Session

end ZMachine
