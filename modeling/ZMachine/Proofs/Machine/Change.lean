import ZMachine.Proofs.Memory.Writes
import ZMachine.Proofs.Stack.Operations
import ZMachine.Snapshot

/-!
# Changes of a machine

Whatever a story does to its machine is made of a few kinds of change: a byte of
dynamic memory or of the interpreter's part of the header is written, an operation
on the stack is carried out, the program counter moves, an alphabet is locked, the
random numbers go on, the story is started over, or a snapshot is taken back.

Which snapshots can be taken back is a parameter, since they come from outside.

Most operations do less: they may enter routines, but leave none, and neither start
the story over nor take anything back. They are made of changes that stay in the
active routine. All of these but jumps and calls also stay at the program counter.
-/

set_option autoImplicit false

namespace ZMachine

variable {offered : Snapshot → Prop}

/-! ## Objects -/

namespace ObjectTable

theorem setLink_madeOf (t : ObjectTable) (obj : Word) (l : Link) (value : Word) :
    (t.setLink obj l value).MadeOf (Memory.Writes Memory.Dynamic) := by
  refine .bind (.ofExcept _) fun addr => .ite (.ite (.fail _) ?_) ?_
  · exact Memory.writeByte_madeOf _ _
  · exact Memory.writeWord_madeOf _ _

theorem remove_madeOf (t : ObjectTable) (obj : Word) :
    (t.remove obj).MadeOf (Memory.Writes Memory.Dynamic) := by
  have cleared := (t.setLink_madeOf obj .parent 0).bind fun _ => t.setLink_madeOf obj .sibling 0
  refine .bind (.query _) fun container => .ite (.pure _) ?_
  refine .bind (.query _) fun next => .bind (.query _) fun first => .ite ?_ ?_
  · exact .bind (t.setLink_madeOf _ _ _) fun _ => cleared
  · exact .bind (.query _) fun before => .bind (t.setLink_madeOf _ _ _) fun _ => cleared

theorem insert_madeOf (t : ObjectTable) (obj dest : Word) :
    (t.insert obj dest).MadeOf (Memory.Writes Memory.Dynamic) := by
  refine .guard (.bind (t.remove_madeOf obj) fun _ => .bind (.query _) fun first => ?_)
  refine .bind (t.setLink_madeOf _ _ _) fun _ => .bind (t.setLink_madeOf _ _ _) fun _ => ?_
  exact t.setLink_madeOf _ _ _

theorem setAttribute_madeOf (t : ObjectTable) (obj attr : Word) (on : Bool) :
    (t.setAttribute obj attr on).MadeOf (Memory.Writes Memory.Dynamic) :=
  .bind (.ofExcept _) fun _ => .bind (.query _) fun _ => .bind (.ofExcept _) fun _ =>
    Memory.writeBytes_madeOf _ _

theorem putProperty_madeOf (t : ObjectTable) (obj prop value : Word) :
    (t.putProperty obj prop value).MadeOf (Memory.Writes Memory.Dynamic) := by
  refine .bind (.query _) fun found => ?_
  cases found with
  | none => exact .fail _
  | some block =>
      exact .ite (Memory.writeByte_madeOf _ _) (.ite (Memory.writeWord_madeOf _ _) (.fail _))

end ObjectTable

namespace Machine

/-- A single change of a machine. -/
inductive Change (offered : Snapshot → Prop) (m : Machine) : Machine → Prop where
  | wrote {memory : Memory} (write : m.memory.Writes Memory.Dynamic memory) :
      Change offered m { m with memory }
  | advertised {memory : Memory} (write : m.memory.Writes (fun _ => Memory.Advertised) memory) :
      Change offered m { m with memory }
  | stacked (op : StackOp) : Change offered m { m with stack := (op.perform.run m.stack).2 }
  | moved (pc : Nat) : Change offered m { m with pc }
  | locked (alphabet : Alphabet) : Change offered m { m with alphabet }
  | drew (random : Random) : Change offered m { m with random }
  | restarted : Change offered m (restart.run m).2
  | took {snapshot : Snapshot} (allowed : offered snapshot) :
      Change offered m (snapshot.apply.run m).2

/-- A single change of a machine that neither leaves the active routine nor moves the
program counter. -/
inductive Works (m : Machine) : Machine → Prop where
  | wrote {memory : Memory} (write : m.memory.Writes Memory.Dynamic memory) :
      Works m { m with memory }
  | advertised {memory : Memory} (write : m.memory.Writes (fun _ => Memory.Advertised) memory) :
      Works m { m with memory }
  | stacked (op : StackOp) (inward : op ≠ .popFrame) :
      Works m { m with stack := (op.perform.run m.stack).2 }
  | locked (alphabet : Alphabet) : Works m { m with alphabet }
  | drew (random : Random) : Works m { m with random }

/-- A single change of a machine that does not leave the active routine. -/
inductive Stays (m : Machine) : Machine → Prop where
  | works {t : Machine} (works : m.Works t) : Stays m t
  | moved (pc : Nat) : Stays m { m with pc }

theorem Works.pc_eq {m t : Machine} (works : m.Works t) : t.pc = m.pc := by
  cases works <;> rfl

theorem Stays.change {m t : Machine} (stays : m.Stays t) : m.Change offered t := by
  cases stays with
  | works works =>
      cases works with
      | wrote write => exact .wrote write
      | advertised write => exact .advertised write
      | stacked op _ => exact .stacked op
      | locked alphabet => exact .locked alphabet
      | drew random => exact .drew random
  | moved pc => exact .moved pc

/-! ## Parts -/

variable {α : Type}

theorem madeOf_stays {x : Op Machine α} (made : x.MadeOf Works) : x.MadeOf Stays :=
  made.mono fun _ _ => .works

theorem onMemory_madeOf {x : Op Memory α} (made : x.MadeOf (Memory.Writes Memory.Dynamic)) :
    (onMemory x).MadeOf Works :=
  made.zoom (fun _ => rfl) fun _ _ _ write => .wrote write

theorem onMemory_advertised {x : Op Memory α}
    (made : x.MadeOf (Memory.Writes fun _ => Memory.Advertised)) :
    (onMemory x).MadeOf Works :=
  made.zoom (fun _ => rfl) fun _ _ _ write => .advertised write

theorem onStack_madeOf {x : Op CallStack α} (op : StackOp) (inward : op ≠ .popFrame)
    (same : ∀ s, (x.run s).2 = (op.perform.run s).2) : (onStack x).MadeOf Works := by
  intro m
  have change : m.Works { m with stack := (x.run m.stack).2 } := by
    rw [same]
    exact .stacked op inward
  exact .single change

theorem pop_madeOf : (onStack CallStack.pop).MadeOf Works :=
  onStack_madeOf .pop nofun fun s => by rw [StackOp.perform, CallStack.run_drop]

theorem jumpTo_madeOf (pc : Nat) : (jumpTo pc).MadeOf Stays :=
  .update fun _ => .moved pc

/-! ## Variables -/

theorem writeGlobal_madeOf (number : Byte) (value : Word) :
    (writeGlobal number value).MadeOf Works :=
  .bind (.query _) fun _ => onMemory_madeOf (Memory.writeWord_madeOf _ _)

theorem readVariable_madeOf (number : Byte) : (readVariable number).MadeOf Works :=
  .ite pop_madeOf (.ite (.query _) (.query _))

theorem writeVariable_madeOf (number : Byte) (value : Word) :
    (writeVariable number value).MadeOf Works :=
  .ite (onStack_madeOf (.push value) nofun fun _ => rfl)
    (.ite (onStack_madeOf (.setLocal number value) nofun fun _ => rfl) (writeGlobal_madeOf _ _))

theorem setInPlace_madeOf (number : Byte) (value : Word) :
    (setInPlace number value).MadeOf Works :=
  .ite (onStack_madeOf (.setTop value) nofun fun _ => rfl)
    (.ite (onStack_madeOf (.setLocal number value) nofun fun _ => rfl) (writeGlobal_madeOf _ _))

/-! ## Routines -/

theorem callRoutine_madeOf (packed : Word) (args : List Word) (store : Option Byte)
    (returnPc : Nat) : (callRoutine packed args store returnPc).MadeOf Stays := by
  have back : (do jumpTo returnPc; return false).MadeOf Stays :=
    .bind (jumpTo_madeOf _) fun _ => .pure _
  refine .ite ?_ ?_
  · cases store with
    | none => exact back
    | some number => exact .bind (madeOf_stays (writeVariable_madeOf _ _)) fun _ => back
  · refine .bind (.query _) fun (locals, body) => ?_
    refine .bind (madeOf_stays ?_) fun _ => .bind (jumpTo_madeOf _) fun _ => .pure _
    exact onStack_madeOf (.pushFrame _ _ _) nofun fun _ => rfl

/-- Handing a result back to a caller stays in the caller. -/
theorem handBack_madeOf (back : FrameReturn) (value : Word) :
    (do jumpTo back.returnAddr
        if let some number := back.store then writeVariable number value :
      Op Machine Unit).MadeOf Stays := by
  refine .bind (jumpTo_madeOf _) fun _ => ?_
  cases back.store with
  | none => exact .pure _
  | some number => exact madeOf_stays (writeVariable_madeOf _ _)

theorem returnRoutine_madeOf (value : Word) : (returnRoutine value).MadeOf (Change offered) := by
  have left : (onStack CallStack.popFrame).MadeOf (Change offered) := by
    intro m
    have change : m.Change offered { m with stack := (StackOp.popFrame.perform.run m.stack).2 } :=
      .stacked .popFrame
    rw [StackOp.perform, CallStack.run_drop] at change
    exact .single change
  exact .bind left fun back => (handBack_madeOf back value).mono fun _ _ => Stays.change

end Machine

end ZMachine
