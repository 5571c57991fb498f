import ZMachine.Session.Output

/-!
# Display instructions

Printing text, characters and numbers, showing the status line, and commands to
the windows, which go to the host as they are.
-/

set_option autoImplicit false

namespace ZMachine

/-- A display operation. -/
inductive DisplayOp where
  | print
  | printReturn
  | newLine
  | showStatus
  | printAddress
  | printPacked
  | printChar
  | printNumber
  | splitWindow
  | setWindow
  | eraseWindow
  | setCursor
  | setTextStyle
  | bufferMode
  | soundEffect
  deriving DecidableEq, Repr, Inhabited

/-- The display operation of an opcode number. -/
def DisplayOp.of? : OperandCount → Nat → Option DisplayOp
  | .zero, 0x02 => some .print
  | .zero, 0x03 => some .printReturn
  | .zero, 0x0B => some .newLine
  | .zero, 0x0C => some .showStatus
  | .one, 0x07 => some .printAddress
  | .one, 0x0D => some .printPacked
  | .var, 0x05 => some .printChar
  | .var, 0x06 => some .printNumber
  | .var, 0x0A => some .splitWindow
  | .var, 0x0B => some .setWindow
  | .var, 0x0D => some .eraseWindow
  | .var, 0x0F => some .setCursor
  | .var, 0x11 => some .setTextStyle
  | .var, 0x12 => some .bufferMode
  | .var, 0x15 => some .soundEffect
  | _, _ => none

namespace Session

variable {ω : Type}

/-- The string that follows an instruction. -/
def inlineText (i : Instruction) : Op (Session ω) String :=
  match i.text with
  | some addr => readText addr
  | none => Op.fail .noInlineText

/-- Send a command to the windows. -/
def window (h : Host ω) (command : WindowCommand) : Op (Session ω) Outcome := do
  request (h.command command)
  return .advanced

/-- Print a text and go on. -/
def printOut (h : Host ω) (text : String) : Op (Session ω) Outcome := do
  output h text
  return .advanced

/-- Carry out a display operation. -/
def display (h : Host ω) (i : Instruction) (operands : List Word) :
    DisplayOp → Op (Session ω) Outcome
  | .print => do printOut h (← inlineText i)
  | .printReturn => do
      output h (← inlineText i)
      output h "\n"
      leave 1
  | .newLine => printOut h "\n"
  | .showStatus => do
      updateStatus h
      return .advanced
  | .printAddress => do
      let addr ← operand operands 0
      printOut h (← readText addr.toNat)
  | .printPacked => do
      let packed ← operand operands 0
      let addr ← viewMachine (·.memory.unpackString packed)
      printOut h (← readText addr)
  | .printChar => do
      let code ← operand operands 0
      match ← queryMachine (·.codec.charOfCode code) with
      | some c => printOut h (String.singleton c)
      | none => return .advanced
  | .printNumber => do
      let number ← operand operands 0
      printOut h (signedDecimal (signed number))
  | .splitWindow => do
      requireVersion i 3
      window h (.splitWindow (← operand operands 0))
  | .setWindow => do
      requireVersion i 3
      window h (.setWindow (← operand operands 0))
  | .eraseWindow => do
      requireVersion i 4
      window h (.eraseWindow (signed (← operand operands 0)))
  | .setCursor => do
      requireVersion i 4
      let line ← operand operands 0
      let column ← operand operands 1
      window h (.setCursor line column)
  | .setTextStyle => do
      requireVersion i 4
      window h (.setTextStyle (← operand operands 0))
  | .bufferMode => do
      requireVersion i 4
      window h (.bufferMode ((← operand operands 0) != 0))
  | .soundEffect => pure .advanced

end Session

end ZMachine
