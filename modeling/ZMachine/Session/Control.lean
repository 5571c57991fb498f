import ZMachine.Session.Output

/-!
# Control instructions

Branches, jumps and returns, and the operations on the whole story: saving,
restoring, starting over, checking and quitting.

A restore either takes a snapshot whole and goes on as if the instruction that
saved it had just succeeded, or reports failure and changes nothing; only a frame
pointer that is close to the last size makes it break off.
-/

set_option autoImplicit false

namespace ZMachine

/-- A control operation. -/
inductive ControlOp where
  | returnTrue
  | returnFalse
  | nop
  | save
  | restore
  | restart
  | returnPopped
  | quit
  | verify
  | piracy
  | jumpIfZero
  | returnValue
  | jump
  | jumpIfEqual
  | jumpIfLess
  | jumpIfGreater
  | test
  | checkArgCount
  deriving DecidableEq, Repr, Inhabited

/-- The control operation of an opcode number. -/
def ControlOp.of? : OperandCount → Nat → Option ControlOp
  | .zero, 0x00 => some .returnTrue
  | .zero, 0x01 => some .returnFalse
  | .zero, 0x04 => some .nop
  | .zero, 0x05 => some .save
  | .zero, 0x06 => some .restore
  | .zero, 0x07 => some .restart
  | .zero, 0x08 => some .returnPopped
  | .zero, 0x0A => some .quit
  | .zero, 0x0D => some .verify
  | .zero, 0x0F => some .piracy
  | .one, 0x00 => some .jumpIfZero
  | .one, 0x0B => some .returnValue
  | .one, 0x0C => some .jump
  | .two, 0x01 => some .jumpIfEqual
  | .two, 0x02 => some .jumpIfLess
  | .two, 0x03 => some .jumpIfGreater
  | .two, 0x07 => some .test
  | .var, 0x1F => some .checkArgCount
  | _, _ => none

namespace Session

variable {ω : Type}

/-! ## Saving and restoring -/

/-- Save a snapshot with the host and report whether it was taken. -/
def save (h : Host ω) (i : Instruction) : Op (Session ω) Outcome := do
  if 4 < (← viewMachine (·.version)) then Op.fail .saveRetired
  let snapshot ← Op.view fun s => Snapshot.capture s.machine i.addr s.sourceName
  let name ← Op.view (·.sourceName)
  match ← attempt (h.save name snapshot) with
  | .ok _ => report i true
  | .error _ => report i false

/-- The instruction that saved a snapshot, if the snapshot belongs to this story
and a save instruction stands at its address. -/
def savingInstruction (m : Machine) (name : String) (snapshot : Snapshot) :
    Option Instruction :=
  if snapshot.sourceName ≠ name then none
  else
    match m.decodeAt snapshot.pc with
    | .ok i => if i.name m.version = "save" then some i else none
    | .error _ => none

/-- Whether a snapshot was taken, when taking it has ended. A refusal is an answer; a sum
that is no size breaks the program off. -/
def taken : Except Fault Unit → Except Fault Bool
  | .ok _ => .ok true
  | .error fault => if fault = .sizeOverflow then .error fault else .ok false

/-- Take a snapshot back, and tell whether it was taken; one that does not fit changes
nothing. -/
def takeSnapshot (snapshot : Snapshot) : Op (Session ω) Bool :=
  fun s =>
    let (ended, machine) := snapshot.apply s.machine
    (taken ended, { s with machine })

/-- Go on from a snapshot as the instruction that saved it, or report failure. -/
def resume (i : Instruction) (snapshot : Snapshot) : Op (Session ω) Outcome := do
  match ← Op.view fun s => savingInstruction s.machine s.sourceName snapshot with
  | none => report i false
  | some saving =>
      if ← takeSnapshot snapshot then
        Op.update fun s => { s with streams.tables := [] }
        onMachine (Machine.jumpTo saving.next)
        report saving true
      else report i false

/-- Ask the host for a snapshot and go on from it. -/
def restore (h : Host ω) (i : Instruction) : Op (Session ω) Outcome := do
  if 4 < (← viewMachine (·.version)) then Op.fail .restoreRetired
  let name ← Op.view (·.sourceName)
  match ← attempt (h.restore name) with
  | .ok (some snapshot) => resume i snapshot
  | .ok none => report i false
  | .error _ => report i false

/-- Start the story over with the streams it began with. -/
def restart : Op (Session ω) Outcome := do
  onMachine Machine.restart
  Op.update fun s => { s with streams := {}, pending := none }
  return .advanced

/-! ## The operations -/

/-- Carry out a control operation. -/
def control (h : Host ω) (i : Instruction) (operands : List Word) :
    ControlOp → Op (Session ω) Outcome
  | .returnTrue => leave 1
  | .returnFalse => leave 0
  | .nop => pure .advanced
  | .save => save h i
  | .restore => restore h i
  | .restart => restart
  | .returnPopped => do leave (← onStack CallStack.pop)
  | .quit => pure .quit
  | .verify => do
      requireVersion i 3
      branch i (← viewMachine (·.verify))
  | .piracy => do
      requireVersion i 5
      branch i true
  | .jumpIfZero => do
      let a ← operand operands 0
      branch i (a == 0)
  | .returnValue => do leave (← operand operands 0)
  | .jump => do
      let offset ← operand operands 0
      jumpBy (signed offset) .negativeJump
  | .jumpIfEqual => do
      let a ← operand operands 0
      if operands.length < 2 then Op.fail .nothingToCompare
      branch i ((operands.drop 1).contains a)
  | .jumpIfLess => do
      let a ← operand operands 0
      let b ← operand operands 1
      branch i (signedLess a b)
  | .jumpIfGreater => do
      let a ← operand operands 0
      let b ← operand operands 1
      branch i (signedLess b a)
  | .test => do
      let bitmap ← operand operands 0
      let flags ← operand operands 1
      branch i (bitmap &&& flags == flags)
  | .checkArgCount => Op.fail .noArgumentCount

end Session

end ZMachine
