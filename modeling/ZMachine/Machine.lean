import ZMachine.Arithmetic
import ZMachine.Dictionary
import ZMachine.Header
import ZMachine.Instruction
import ZMachine.Object.Tree
import ZMachine.Random
import ZMachine.Stack

/-!
# The machine

A machine is a loaded story with its memory, its call stack, the address of the
next instruction and the tables found through its header. Here are its
variables, its routines, and the two whole-story operations: starting over, and
checking the story against its checksum.

Variable 0 is the last value on the stack, variables 1 to 15 are the locals of
the active routine, and the rest are the globals.
-/

set_option autoImplicit false

namespace ZMachine

/-- A story in the course of being run. -/
structure Machine where
  memory : Memory
  header : Header
  stack : CallStack
  /-- The address of the next instruction. -/
  pc : Nat
  objects : ObjectTable
  dictionary : Dictionary
  codec : Codec
  /-- The alphabet locked between strings, in versions 1 and 2. -/
  alphabet : Alphabet
  random : Random
  settings : Settings
  deriving Inhabited

namespace Machine

/-! ## Parts -/

/-- Run an operation on the memory. -/
@[inline] def onMemory {α : Type} (x : Op Memory α) : Op Machine α :=
  Op.zoom (·.memory) (fun memory m => { m with memory }) x

/-- Run an operation on the stack. -/
@[inline] def onStack {α : Type} (x : Op CallStack α) : Op Machine α :=
  Op.zoom (·.stack) (fun stack m => { m with stack }) x

/-- The version of the story. -/
def version (m : Machine) : Nat :=
  m.header.version

/-- Continue at an address. -/
def jumpTo (pc : Nat) : Op Machine Unit :=
  Op.update fun m => { m with pc }

/-! ## Loading -/

/-- Make a machine of an image: advertise what the interpreter can do and find
the tables. -/
def ofMemory (memory : Memory) (settings : Settings) (entropy : UInt64)
    (generator : Random.Generator := .standard) : Except Fault Machine := do
  let (advertised, memory) := (Memory.advertise settings).run memory
  advertised
  let header ← Header.read memory
  let codec ← Codec.read memory
  let dictionary ← Dictionary.read memory codec header.dictionary
  return {
    memory, header, codec, dictionary, settings
    stack := .empty
    pc := header.initialPc
    objects := ⟨memory.version, header.objects⟩
    alphabet := .a0
    random := .start settings.seed entropy generator }

/-- Load a story. Version 6 is refused. -/
def load (story : Array Byte) (settings : Settings) (entropy : UInt64)
    (generator : Random.Generator := .standard) : Except Fault Machine := do
  let memory ← Memory.load story
  if memory.version = 6 then throw .pictureStory
  ofMemory memory settings entropy generator

/-- The instruction at an address. -/
def decodeAt (m : Machine) (pc : Nat) : Except Fault Instruction :=
  match Instruction.decode m.memory pc m.version with
  | .ok i => .ok i
  | .error e => .error (.undecodable pc e)

/-! ## Variables -/

/-- The number of global variables. -/
def globalCount : Nat := 240

/-- The address of a global variable. -/
def globalAddr (m : Machine) (number : Byte) : Except Fault Nat :=
  if number < 0x10 then .error (.notGlobal number.toNat)
  else .ok (m.header.globals + (number.toNat - 0x10) * 2)

/-- The value of a global variable. -/
def readGlobal (m : Machine) (number : Byte) : Except Fault Word := do
  m.memory.getWord (← m.globalAddr number)

/-- Set a global variable. -/
def writeGlobal (number : Byte) (value : Word) : Op Machine Unit := do
  let addr ← Op.query (·.globalAddr number)
  onMemory (Memory.writeWord addr value)

/-- The values of the global variables from number `n` on. -/
def globalsFrom (m : Machine) : (count n : Nat) → Except Fault (List Word)
  | 0, _ => .ok []
  | count + 1, n => do
      let value ← m.memory.getWord (m.header.globals + n * 2)
      return value :: (← globalsFrom m count (n + 1))

/-- The values of all global variables. -/
def globals (m : Machine) : Except Fault (List Word) :=
  m.globalsFrom globalCount 0

/-- Read a variable; variable 0 is taken off the stack. -/
def readVariable (number : Byte) : Op Machine Word :=
  if number = 0 then onStack CallStack.pop
  else if number < 0x10 then Op.query (·.stack.getLocal number)
  else Op.query (·.readGlobal number)

/-- Write a variable; variable 0 is pushed onto the stack. -/
def writeVariable (number : Byte) (value : Word) : Op Machine Unit :=
  if number = 0 then onStack (CallStack.push value)
  else if number < 0x10 then onStack (CallStack.setLocal number value)
  else writeGlobal number value

/-- The value of a variable that an operand names; the stack is left as it is. -/
def peekVariable (m : Machine) (number : Byte) : Except Fault Word :=
  if number = 0 then m.stack.peek
  else if number < 0x10 then m.stack.getLocal number
  else m.readGlobal number

/-- Set a variable that an operand names; the last value on the stack is replaced. -/
def setInPlace (number : Byte) (value : Word) : Op Machine Unit :=
  if number = 0 then onStack (CallStack.setTop value)
  else if number < 0x10 then onStack (CallStack.setLocal number value)
  else writeGlobal number value

/-! ## Routines -/

/-- The words of memory at `count` places from `addr` on. -/
def wordsFrom (m : Memory) : (count addr : Nat) → Except Fault (List Word)
  | 0, _ => .ok []
  | count + 1, addr => do
      let word ← m.getWord addr
      return word :: (← wordsFrom m count (addr + 2))

/-- First values with arguments put over them; surplus arguments are dropped. -/
def withArguments : (locals args : List Word) → List Word
  | _ :: locals, arg :: args => arg :: withArguments locals args
  | locals, _ => locals

/-- The header of a routine: the first values of its locals and where its
instructions begin. Before version 5 the values are written out. -/
def routineHeader (m : Machine) (addr : Nat) : Except Fault (List Word × Nat) := do
  let count := (← m.memory.getByte addr).toNat
  if CallStack.maxLocals < count then throw (.routineLocals addr count)
  if m.version < 5 then
    return (← wordsFrom m.memory count (addr + 1), addr + 1 + count * 2)
  return (List.replicate count 0, addr + 1)

/-- Enter a routine by its packed address, to return to `returnPc`. Routine 0
does nothing and gives 0. Tells whether a routine was entered. -/
def callRoutine (packed : Word) (args : List Word) (store : Option Byte) (returnPc : Nat) :
    Op Machine Bool :=
  if packed = 0 then do
    if let some number := store then writeVariable number 0
    jumpTo returnPc
    return false
  else do
    let (locals, body) ← Op.query fun m => m.routineHeader (m.memory.unpackRoutine packed)
    onStack (CallStack.pushFrame returnPc store (withArguments locals args))
    jumpTo body
    return true

/-- Leave the active routine with a result. -/
def returnRoutine (value : Word) : Op Machine Unit := do
  let back ← onStack CallStack.popFrame
  jumpTo back.returnAddr
  if let some number := back.store then writeVariable number value

/-! ## The whole story -/

/-- Start the story over from its pristine image, with the given choice of a
transcript and of a fixed pitch. -/
def startOver (transcript fixed : Bool) : Op Machine Unit := do
  Op.update fun m => { m with memory := m.memory.reset }
  let settings ← Op.view (·.settings)
  onMemory (Memory.advertise { settings with transcript })
  if fixed then onMemory (Memory.setFlag .fixedPitch true)
  let header ← Op.query (Header.read ·.memory)
  Op.update fun m =>
    { m with header, pc := header.initialPc, stack := .empty, alphabet := .a0 }

/-- Start the story over. Whether a transcript is kept and whether the pitch is
fixed stay as they are. -/
def restart : Op Machine Unit := do
  let transcript ← Op.query (·.memory.flag .transcripting)
  let version ← Op.view version
  let fixed ← if 3 ≤ version then Op.query (·.memory.flag .fixedPitch) else pure false
  startOver transcript fixed

/-- Whether the story's contents have the checksum that its header states. -/
def verify (m : Machine) : Bool :=
  m.memory.checksum m.header.length == m.header.checksum

end Machine

end ZMachine
