import ZMachine.Session

/-!
# Arithmetic instructions

Calculation on words, bit by bit or as signed numbers, and random numbers. The
result is stored.
-/

set_option autoImplicit false

namespace ZMachine

/-- An operation on two words. -/
inductive BinaryOp where
  | or
  | and
  | add
  | sub
  | mul
  | div
  | mod
  deriving DecidableEq, Repr, Inhabited

/-- The operation on two words of an opcode number. -/
def BinaryOp.of? : Nat → Option BinaryOp
  | 0x08 => some .or
  | 0x09 => some .and
  | 0x14 => some .add
  | 0x15 => some .sub
  | 0x16 => some .mul
  | 0x17 => some .div
  | 0x18 => some .mod
  | _ => none

/-- The result of an operation on two words. -/
def BinaryOp.apply (a b : Word) : BinaryOp → Except Fault Word
  | .or => .ok (a ||| b)
  | .and => .ok (a &&& b)
  | .add => .ok (a + b)
  | .sub => .ok (a - b)
  | .mul => .ok (a * b)
  | .div => divide a b
  | .mod => remainder a b

/-- An operation on one word. -/
inductive UnaryOp where
  | not
  | random
  deriving DecidableEq, Repr, Inhabited

/-- The operation on one word of an opcode number. -/
def UnaryOp.of? : OperandCount → Nat → Option UnaryOp
  | .one, 0x0F => some .not
  | .var, 0x18 => some .not
  | .var, 0x07 => some .random
  | _, _ => none

namespace Session

variable {ω : Type}

/-- Ask the generator for a random number. -/
def drawRandom (range : Word) : Op (Session ω) Word :=
  onMachine fun m =>
    let (value, random) := m.random.request range
    (.ok value, { m with random })

/-- The result of an arithmetic instruction. -/
def calculation (i : Instruction) (operands : List Word) : Op (Session ω) Word := do
  let a ← operand operands 0
  let number := i.opcode.number.toNat
  if i.opcode.count = .two then
    let b ← operand operands 1
    match BinaryOp.of? number with
    | some op => Op.ofExcept (op.apply a b)
    | none => Op.fail (.unhandledBinary number)
  else
    match UnaryOp.of? i.opcode.count number with
    | some .not => return ~~~a
    | some .random => drawRandom a
    | none => Op.fail (.unhandled .arithmetic number i.opcode.count)

/-- Carry out an arithmetic instruction. -/
def arithmetic (i : Instruction) (operands : List Word) : Op (Session ω) Outcome := do
  store i (← calculation i operands)
  return .advanced

end Session

end ZMachine
