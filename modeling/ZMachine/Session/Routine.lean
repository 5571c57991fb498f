import ZMachine.Session

/-!
# Stack instructions

Pushing and pulling values, and the calls. The calls differ in the version that
introduced them and in whether they store the result.
-/

set_option autoImplicit false

namespace ZMachine

/-- A stack operation. -/
inductive RoutineOp where
  | pop
  | push
  | pull
  /-- A call, known from version `since` on. -/
  | call (since : Nat) (stores : Bool)
  deriving DecidableEq, Repr, Inhabited

/-- The stack operation of an opcode number. -/
def RoutineOp.of? : OperandCount → Nat → Option RoutineOp
  | .zero, 0x09 => some .pop
  | .var, 0x08 => some .push
  | .var, 0x09 => some .pull
  | .var, 0x00 => some (.call 1 true)
  | .one, 0x08 => some (.call 4 true)
  | .one, 0x0F => some (.call 5 false)
  | .two, 0x19 => some (.call 4 true)
  | .two, 0x1A => some (.call 5 false)
  | .var, 0x0C => some (.call 4 true)
  | .var, 0x19 => some (.call 5 false)
  | .var, 0x1A => some (.call 5 false)
  | _, _ => none

namespace Session

variable {ω : Type}

/-- Carry out a stack operation. From version 5 on the opcode that discards a
value has another meaning, which is not provided. -/
def routine (i : Instruction) (operands : List Word) : RoutineOp → Op (Session ω) Outcome
  | .pop => do
      if 5 ≤ (← viewMachine (·.version)) then Op.fail .noCatch
      let _ ← onStack CallStack.pop
      return .advanced
  | .push => do
      let value ← operand operands 0
      onStack (CallStack.push value)
      return .advanced
  | .pull => do
      let number ← operand operands 0
      let value ← onStack CallStack.pop
      onMachine (Machine.setInPlace (lowByte number) value)
      return .advanced
  | .call since stores => do
      requireVersion i since
      call i operands stores

end Session

end ZMachine
