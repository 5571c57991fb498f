import ZMachine.Machine

/-!
# Snapshots

A snapshot holds everything needed to go on with a story later: dynamic memory,
the stack, the locked alphabet, the address of the instruction that saved, and
the name of the story it belongs to. It is taken back whole or not at all.
-/

set_option autoImplicit false

namespace ZMachine

/-- What is kept of a machine to go on later. -/
structure Snapshot where
  /-- The address of the instruction that saved. -/
  pc : Nat
  frame : Nat
  /-- Dynamic memory. -/
  memory : Array Byte
  stack : Array Word
  alphabet : Alphabet
  /-- The name of the story. -/
  sourceName : String
  deriving DecidableEq, Repr, Inhabited

namespace Snapshot

/-- A snapshot of a machine, saved by the instruction at `pc`. -/
def capture (m : Machine) (pc : Nat) (sourceName : String) : Snapshot where
  pc
  frame := m.stack.frame
  memory := m.memory.dynamic
  stack := m.stack.cells
  alphabet := m.alphabet
  sourceName

/-- Put a machine into the state of a snapshot. A snapshot that does not fit
leaves the machine as it is. -/
def apply (s : Snapshot) : Op Machine Unit := do
  let stack ← Op.ofExcept (CallStack.ofParts s.stack s.frame)
  let size ← Op.view (·.memory.size)
  if size ≤ s.pc then Op.fail (.savedPcOutside s.pc)
  Machine.onMemory (Memory.restoreDynamic s.memory)
  Op.update fun m => { m with stack, pc := s.pc, alphabet := s.alphabet }

end Snapshot

end ZMachine
