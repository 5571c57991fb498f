/-!
# Kinds of instruction and operand

The first bits of an instruction fix its form and how many operands it takes.
Each operand slot of a type byte says whether a large constant, a small
constant, a variable or nothing follows. The opcodes divide into families, each
carried out by its own part of the machine.
-/

set_option autoImplicit false

namespace ZMachine

/-- How the first bytes of an instruction are laid out. -/
inductive Form where
  | long
  | short
  | extended
  | variable
  deriving DecidableEq, Repr, Inhabited

/-- The operand-count class that an opcode number belongs to. -/
inductive OperandCount where
  | zero
  | one
  | two
  | var
  deriving DecidableEq, Repr, Inhabited

/-- What a two-bit operand type announces. -/
inductive OperandType where
  | large
  | small
  | variable
  | omitted
  deriving DecidableEq, Repr, Inhabited

/-- The part of the machine that carries an opcode out. -/
inductive Family where
  | control
  | arithmetic
  | memory
  | stack
  | object
  | display
  | input
  deriving DecidableEq, Repr, Inhabited

/-- The name of a form in listings. -/
def Form.label : Form → String
  | .long => "Long"
  | .short => "Short"
  | .extended => "Extended"
  | .variable => "Variable"

/-- The name of an operand-count class in listings. -/
def OperandCount.label : OperandCount → String
  | .zero => "OP0"
  | .one => "OP1"
  | .two => "OP2"
  | .var => "VAR"

/-- The name of an operand type in listings. -/
def OperandType.label : OperandType → String
  | .large => "LargeConstant"
  | .small => "SmallConstant"
  | .variable => "Variable"
  | .omitted => "Omitted"

/-- The name of a family in messages. -/
def Family.label : Family → String
  | .control => "control"
  | .arithmetic => "math"
  | .memory => "memory"
  | .stack => "stack"
  | .object => "object"
  | .display => "display"
  | .input => "I/O"

/-- The operand type in the low two bits of a byte. -/
def OperandType.ofBits (bits : UInt8) : OperandType :=
  match bits.toNat % 4 with
  | 0 => .large
  | 1 => .small
  | 2 => .variable
  | _ => .omitted

/-- How many bytes an operand of this type takes. -/
def OperandType.size : OperandType → Nat
  | .large => 2
  | .small => 1
  | .variable => 1
  | .omitted => 0

end ZMachine
