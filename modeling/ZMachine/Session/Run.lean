import ZMachine.Session.Calculation
import ZMachine.Session.Control
import ZMachine.Session.Display
import ZMachine.Session.Input
import ZMachine.Session.Objects
import ZMachine.Session.Routine
import ZMachine.Session.Storage

/-!
# Running a session

A step decodes the instruction at the program counter, moves the counter behind
it and carries it out through its family. A fault halts the session for good. A
read suspends it: steps then do nothing until the player's answer is provided.
-/

set_option autoImplicit false

namespace ZMachine

/-! ## Families -/

/-- The family of an opcode in a version. Two numbers change families between
versions: one is negation up to version 4 and a call later, and the count of
arguments is asked for from version 5 on. -/
def Family.of? (version : Nat) (count : OperandCount) (number : Nat) : Option Family :=
  if (ControlOp.of? count number).isSome && (count != .var || 5 ≤ version) then some .control
  else if count = .one ∧ number = 0x0F then some (if version ≤ 4 then .arithmetic else .stack)
  else if count = .two ∧ (BinaryOp.of? number).isSome then some .arithmetic
  else if count = .var ∧ (number = 0x07 ∨ (number = 0x18 ∧ 5 ≤ version)) then some .arithmetic
  else if (StorageOp.of? count number).isSome then some .memory
  else if (RoutineOp.of? count number).isSome then some .stack
  else if (ObjectOp.of? count number).isSome then some .object
  else if (DisplayOp.of? count number).isSome then some .display
  else if (InputOp.of? count number).isSome then some .input
  else none

namespace Session

variable {ω : Type}

/-- Carry out an operation found by opcode number, or refuse the number. -/
def dispatch {ο : Type} (family : Family) (i : Instruction)
    (of? : OperandCount → Nat → Option ο) (run : ο → Op (Session ω) Outcome) :
    Op (Session ω) Outcome :=
  match of? i.opcode.count i.opcode.number.toNat with
  | some op => run op
  | none => Op.fail (.unhandled family i.opcode.number.toNat i.opcode.count)

/-- Carry out an instruction as one of a family. Some families look at their
first operand before the opcode. -/
def executeAs (h : Host ω) (i : Instruction) (operands : List Word) :
    Family → Op (Session ω) Outcome
  | .control => dispatch .control i ControlOp.of? (control h i operands)
  | .arithmetic => arithmetic i operands
  | .memory => do
      let a ← operand operands 0
      dispatch .memory i StorageOp.of? (storage i operands a)
  | .stack => dispatch .stack i RoutineOp.of? (routine i operands)
  | .object => do
      let obj ← operand operands 0
      dispatch .object i ObjectOp.of? (object h i operands obj)
  | .display => dispatch .display i DisplayOp.of? (display h i operands)
  | .input => dispatch .input i InputOp.of? (input h i operands)

/-- Carry out a decoded instruction. -/
def execute (h : Host ω) (i : Instruction) : Op (Session ω) Outcome := do
  let operands ← resolveAll i.operands
  let version ← viewMachine (·.version)
  if i.opcode.form = .extended then
    Op.fail (.extendedOpcode (i.opcode.extended.getD 0).toNat)
  match Family.of? version i.opcode.count i.opcode.number.toNat with
  | some family => executeAs h i operands family
  | none => Op.fail (.unimplemented (i.name version) i.opcode.count i.opcode.number.toNat)

/-! ## Steps -/

/-- Begin a session with a machine. -/
def start (machine : Machine) (sourceName : String) (world : ω) : Session ω where
  machine
  sourceName
  world

/-- Refuse a program counter outside high memory. -/
def checkPc (m : Machine) : Except Fault Unit :=
  if m.pc < m.memory.highBase then .error (.belowHighMemory m.pc m.memory.highBase)
  else if m.header.length ≤ m.pc then .error (.pastStory m.pc m.header.length)
  else .ok ()

/-- The instruction at the program counter. -/
def nextInstruction (m : Machine) : Except Fault Instruction := do
  checkPc m
  m.decodeAt m.pc

/-- Move behind an instruction, count it and show it to the host. -/
def enter (h : Host ω) (i : Instruction) (s : Session ω) : Session ω :=
  let version := s.machine.version
  { s with
    machine.pc := i.next
    executed := s.executed + 1
    world :=
      match h.trace with
      | some trace => trace i.addr (i.listing version) s.world
      | none => s.world }

/-- Halt for good on a fault. -/
def halt (pc : Nat) (opcode : String) (fault : Fault) (s : Session ω) :
    ExecutionError × Session ω :=
  (⟨pc, opcode, fault⟩, { s with halted := true })

/-- What the outcome of an instruction leaves the session doing. -/
def conclude (i : Instruction) (version : Nat) :
    Except Fault Outcome × Session ω → Status × Session ω
  | (.ok .quit, s) => (.halted, { s with halted := true })
  | (.ok .awaitLine, s) => (.waitingForLine, s)
  | (.ok .awaitChar, s) => (.waitingForChar, s)
  | (.ok _, s) => (.running, s)
  | (.error fault, s) =>
      let (error, s) := halt i.addr (i.name version) fault s
      (.failed error, s)

/-- Run the instruction at the program counter. -/
def advance (h : Host ω) (s : Session ω) : Status × Session ω :=
  match nextInstruction s.machine with
  | .error fault =>
      let (error, s) := halt s.machine.pc "?" fault s
      (.failed error, s)
  | .ok i =>
      let version := s.machine.version
      conclude i version ((execute h i).run (s.enter h i))

/-- Run one instruction, or tell why none can run. -/
def step (h : Host ω) (s : Session ω) : Status × Session ω :=
  if s.halted then (.halted, s)
  else
    match s.pending with
    | some (.line ..) => (.waitingForLine, s)
    | some (.char ..) => (.waitingForChar, s)
    | none => s.advance h

/-- Run up to a number of instructions, until the session is not running. -/
def run (h : Host ω) : Nat → Session ω → Status × Session ω
  | 0, s => (.running, s)
  | n + 1, s =>
      match s.step h with
      | (.running, s) => run h n s
      | stopped => stopped

/-! ## The player's answers -/

/-- The name of the instruction that reads a line. -/
def readName (version : Nat) : String :=
  if 5 ≤ version then "aread" else "sread"

/-- Provide the line that a read waits for. Its line end is dropped. With `echo`
the line is also printed, for a screen on which it does not stand already. -/
def provideLine (h : Host ω) (line : String) (echo : Bool) (s : Session ω) :
    Except ExecutionError Unit × Session ω :=
  match s.pending with
  | some (.line addr textAddr textMax parseAddr target) =>
      let s := { s with pending := none }
      let line := (line.dropEndWhile fun c => c = '\r' || c = '\n').toString
      match (finishRead h line echo textAddr textMax parseAddr target).run s with
      | (.ok _, s) => (.ok (), s)
      | (.error fault, s) =>
          let (error, s) := halt addr (readName s.machine.version) fault s
          (.error error, s)
  | _ => (.error ⟨s.machine.pc, "provide_line", .noLinePending⟩, s)

/-- Provide the key that a read waits for. -/
def provideChar (c : Char) (s : Session ω) : Except ExecutionError Unit × Session ω :=
  match s.pending with
  | some (.char addr target) =>
      let s := { s with pending := none }
      match target with
      | none => (.ok (), s)
      | some number =>
          match (onMachine (Machine.writeVariable number (Zscii.ofChar c).toUInt16)).run s with
          | (.ok _, s) => (.ok (), s)
          | (.error fault, s) =>
              let (error, s) := halt addr "read_char" fault s
              (.error error, s)
  | _ => (.error ⟨s.machine.pc, "provide_char", .noCharPending⟩, s)

end Session

end ZMachine
