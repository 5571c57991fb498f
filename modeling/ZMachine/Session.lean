import ZMachine.Host

/-!
# Sessions

A session is a machine being played: besides the machine it holds the selected
output streams, a read that waits for the player, whether the story has ended,
how many instructions have run, and the world of the host.

This module has the type and the small steps that every instruction is made of:
taking operands, storing a result, branching, returning and calling.
-/

set_option autoImplicit false

namespace ZMachine

/-- A read that waits for the player. -/
inductive PendingRead where
  /-- A line is to be stored in a text buffer and split into a parse buffer. -/
  | line (addr textAddr : Nat) (textMax : Byte) (parseAddr : Nat) (store : Option Byte)
  | char (addr : Nat) (store : Option Byte)
  deriving DecidableEq, Repr, Inhabited

/-- A table in memory that receives output. -/
structure OutputTable where
  addr : Nat
  /-- How many characters it has received. -/
  count : Word
  deriving DecidableEq, Repr, Inhabited

/-- The selected output streams. The transcript is selected in the header. -/
structure Streams where
  screen : Bool := true
  commands : Bool := false
  /-- The open tables, the innermost first. -/
  tables : List OutputTable := []
  deriving DecidableEq, Repr, Inhabited

/-- How an instruction ended. -/
inductive Outcome where
  | advanced
  | branched
  | called
  | returned
  | quit
  | awaitLine
  | awaitChar
  deriving DecidableEq, Repr, Inhabited

/-- A fault together with the instruction in which it arose. -/
structure ExecutionError where
  pc : Nat
  opcode : String
  fault : Fault
  deriving DecidableEq, Repr, Inhabited

/-- The wording of an execution error. -/
def ExecutionError.display (e : ExecutionError) : String :=
  s!"Error at PC {hexAddress 5 e.pc} ({e.opcode}): {e.fault.message}"

/-- What a step has left the session doing. -/
inductive Status where
  | running
  | waitingForLine
  | waitingForChar
  | halted
  | failed (error : ExecutionError)
  deriving DecidableEq, Repr, Inhabited

/-- A machine being played in a world `ω`. -/
structure Session (ω : Type) where
  machine : Machine
  /-- The name under which the story is saved. -/
  sourceName : String
  pending : Option PendingRead := none
  streams : Streams := {}
  halted : Bool := false
  /-- How many instructions have run. -/
  executed : Nat := 0
  world : ω
  deriving Inhabited

namespace Session

variable {ω α : Type}

/-! ## Parts -/

/-- Run an operation on the machine. -/
@[inline] def onMachine (x : Op Machine α) : Op (Session ω) α :=
  Op.zoom (·.machine) (fun machine s => { s with machine }) x

/-- Run an operation on the memory. -/
@[inline] def onMemory (x : Op Memory α) : Op (Session ω) α :=
  onMachine (Machine.onMemory x)

/-- Run an operation on the stack. -/
@[inline] def onStack (x : Op CallStack α) : Op (Session ω) α :=
  onMachine (Machine.onStack x)

/-- Look at the machine. -/
@[inline] def viewMachine (f : Machine → α) : Op (Session ω) α :=
  Op.view fun s => f s.machine

/-- Look at the machine in a way that may fail. -/
@[inline] def queryMachine (f : Machine → Except Fault α) : Op (Session ω) α :=
  Op.query fun s => f s.machine

/-- Make a request of the host and keep its answer, a refusal included. -/
@[inline] def attempt (request : ω → Except HostError α × ω) :
    Op (Session ω) (Except HostError α) :=
  fun s =>
    match request s.world with
    | (r, world) => (.ok r, { s with world })

/-- Make a request of the host; a refusal is a fault. -/
def request (r : ω → Except HostError α × ω) : Op (Session ω) α := do
  match ← attempt r with
  | .ok a => return a
  | .error e => Op.fail (.host e.message)

/-! ## Operands and results -/

/-- The value of an operand; a variable is read, and variable 0 taken off the
stack. -/
def resolve : Operand → Op (Session ω) Word
  | .large value => pure value
  | .small value => pure value.toUInt16
  | .variable number => onMachine (Machine.readVariable number)

/-- The values of operands, in order. -/
def resolveAll : List Operand → Op (Session ω) (List Word)
  | [] => pure []
  | operand :: rest => do
      let value ← resolve operand
      return value :: (← resolveAll rest)

/-- The operand at a place, counted from 0. -/
def operand (operands : List Word) (i : Nat) : Op (Session ω) Word :=
  match operands[i]? with
  | some value => pure value
  | none => Op.fail (.missingOperand (i + 1))

/-- Refuse an instruction before a version. -/
def requireVersion (i : Instruction) (least : Nat) : Op (Session ω) Unit := do
  let version ← viewMachine (·.version)
  if version < least then Op.fail (.unavailable (i.name version) version)

/-- Store a result where the instruction says, if it does. -/
def store (i : Instruction) (value : Word) : Op (Session ω) Unit :=
  match i.store with
  | some number => onMachine (Machine.writeVariable number value)
  | none => pure ()

/-! ## Control -/

/-- Leave the active routine. -/
def leave (value : Word) : Op (Session ω) Outcome := do
  onMachine (Machine.returnRoutine value)
  return .returned

/-- Continue at an address relative to the next instruction. The offset is
counted from two bytes before it; a target below 0 is the given fault. -/
def jumpBy (offset : Int) (negative : Int → Fault) : Op (Session ω) Outcome := do
  let pc ← viewMachine (·.pc)
  let target := (pc : Int) + offset - 2
  if target < 0 then Op.fail (negative target)
  onMachine (Machine.jumpTo target.toNat)
  return .branched

/-- Take the branch of an instruction if a condition has its sense. -/
def branch (i : Instruction) (condition : Bool) : Op (Session ω) Outcome :=
  match i.branch with
  | none => pure .advanced
  | some b =>
      if condition ≠ b.onTrue then pure .advanced
      else if b.offset = 0 then leave 0
      else if b.offset = 1 then leave 1
      else jumpBy b.offset .negativeBranch

/-- Store whether something has succeeded, or branch on it. -/
def report (i : Instruction) (success : Bool) : Op (Session ω) Outcome :=
  match i.branch with
  | some _ => branch i success
  | none => do
      store i (if success then 1 else 0)
      return .advanced

/-- Call the routine that the first operand names with the others. -/
def call (i : Instruction) (operands : List Word) (stores : Bool) : Op (Session ω) Outcome := do
  let routine ← operand operands 0
  let pc ← viewMachine (·.pc)
  let target := if stores then i.store else none
  let entered ← onMachine (Machine.callRoutine routine (operands.drop 1) target pc)
  return if entered then .called else .advanced

end Session

end ZMachine
