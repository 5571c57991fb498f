import ZMachine.Proofs.Operation
import ZMachine.Session

/-!
# Machines that are alike

Two machines are alike when they differ at most in what an outcome is not reported
through: their settings, their random numbers, and the tables found at loading.
Storing a result, branching and returning lead from machines that are alike to
machines that are alike, whatever the worlds in which they are played
(`report_matches`).
-/

set_option autoImplicit false

namespace ZMachine

namespace Machine

/-- The machines have the same memory, header, stack, program counter and locked
alphabet. -/
structure Alike (m t : Machine) : Prop where
  memory : m.memory = t.memory
  header : m.header = t.header
  stack : m.stack = t.stack
  pc : m.pc = t.pc
  alphabet : m.alphabet = t.alphabet

variable {α : Type}

theorem onMemory_matches (x : Op Memory α) : Op.Matches Alike (onMemory x) (onMemory x) :=
  .zoom (.same x) (fun _ _ alike => alike.memory) fun _ _ _ _ alike same =>
    ⟨same, alike.header, alike.stack, alike.pc, alike.alphabet⟩

theorem onStack_matches (x : Op CallStack α) : Op.Matches Alike (onStack x) (onStack x) :=
  .zoom (.same x) (fun _ _ alike => alike.stack) fun _ _ _ _ alike same =>
    ⟨alike.memory, alike.header, same, alike.pc, alike.alphabet⟩

theorem jumpTo_matches (pc : Nat) : Op.Matches Alike (jumpTo pc) (jumpTo pc) :=
  .update fun _ _ alike => ⟨alike.memory, alike.header, alike.stack, rfl, alike.alphabet⟩

theorem writeGlobal_matches (number : Byte) (value : Word) :
    Op.Matches Alike (writeGlobal number value) (writeGlobal number value) := by
  refine .bind (.query fun m t alike => ?_) fun addr => onMemory_matches _
  simp only [globalAddr, alike.header]

theorem writeVariable_matches (number : Byte) (value : Word) :
    Op.Matches Alike (writeVariable number value) (writeVariable number value) :=
  .ite (onStack_matches _) (.ite (onStack_matches _) (writeGlobal_matches number value))

theorem returnRoutine_matches (value : Word) :
    Op.Matches Alike (returnRoutine value) (returnRoutine value) := by
  refine .bind (onStack_matches _) fun back => .bind (jumpTo_matches _) fun _ => ?_
  cases back.store with
  | none => exact .pure _
  | some number => exact writeVariable_matches number value

end Machine

namespace Session

/-- The sessions are played on machines that are alike. -/
def Alike {ω ω' : Type} (s : Session ω) (t : Session ω') : Prop :=
  s.machine.Alike t.machine

variable {ω ω' α : Type}

theorem onMachine_matches {x y : Op Machine α} (matched : Op.Matches Machine.Alike x y) :
    Op.Matches Alike (onMachine x : Op (Session ω) α) (onMachine y : Op (Session ω') α) :=
  .zoom matched (fun _ _ alike => alike) fun _ _ _ _ _ alike => alike

theorem store_matches (i : Instruction) (value : Word) :
    Op.Matches Alike (store i value : Op (Session ω) Unit)
      (store i value : Op (Session ω') Unit) := by
  simp only [store]
  cases i.store with
  | none => exact .pure _
  | some number => exact onMachine_matches (Machine.writeVariable_matches number value)

theorem leave_matches (value : Word) :
    Op.Matches Alike (leave value : Op (Session ω) Outcome)
      (leave value : Op (Session ω') Outcome) :=
  .bind (onMachine_matches (Machine.returnRoutine_matches value)) fun _ => .pure _

theorem jumpBy_matches (offset : Int) (negative : Int → Fault) :
    Op.Matches Alike (jumpBy offset negative : Op (Session ω) Outcome)
      (jumpBy offset negative : Op (Session ω') Outcome) := by
  refine .bind (.view fun _ _ alike => alike.pc) fun pc => .guard ?_
  exact .bind (onMachine_matches (Machine.jumpTo_matches _)) fun _ => .pure _

theorem branch_matches (i : Instruction) (condition : Bool) :
    Op.Matches Alike (branch i condition : Op (Session ω) Outcome)
      (branch i condition : Op (Session ω') Outcome) := by
  simp only [branch]
  cases i.branch with
  | none => exact .pure _
  | some b =>
      refine .ite (.pure _) (.ite (leave_matches 0) (.ite (leave_matches 1) ?_))
      exact jumpBy_matches _ _

/-- **Reporting.** The outcome of an instruction is reported in the same way to
machines that are alike. -/
theorem report_matches (i : Instruction) (success : Bool) :
    Op.Matches Alike (report i success : Op (Session ω) Outcome)
      (report i success : Op (Session ω') Outcome) := by
  simp only [report]
  cases i.branch with
  | none => exact .bind (store_matches i _) fun _ => .pure _
  | some b => exact branch_matches i success

end Session

end ZMachine
