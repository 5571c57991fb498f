import ZMachine.Proofs.Machine.Change
import ZMachine.Proofs.Stack.Calls

/-!
# Entering and leaving a routine

A call that enters a routine puts a frame on the stack that names the place to return to
and the variable that receives the result (`callRoutine_entered`). Leaving that very
frame, whatever has been done above it, gives the caller its stack and its place back
and hands it the result (`returnRoutine_ok`); leaving another one does not touch it
(`returnRoutine_inside`).
-/

set_option autoImplicit false

namespace ZMachine.Machine

open Relation (ReflTransGen)

variable {m t : Machine} {c e : CallStack} {returnAddr : Nat} {store : Option Byte}
  {locals : List Word}

/-- A change that stays in the active routine leaves no routine below it. -/
theorem Stays.inside (stays : m.Stays t) (inside : e.Inside m.stack) : e.Inside t.stack := by
  cases stays with
  | works works =>
      cases works with
      | stacked op inward => exact inside.perform op fun leaves => absurd leaves inward
      | _ => exact inside
  | moved pc => exact inside

theorem inside_of_stays (stays : ReflTransGen Stays m t) (inside : e.Inside m.stack) :
    e.Inside t.stack := by
  induction stays with
  | refl => exact inside
  | tail _ change ih => exact change.inside ih

/-- A call that enters a routine has read the routine's header, puts its frame on the stack and
goes on behind the header. -/
theorem callRoutine_true {packed : Word} {args : List Word} (formed : m.stack.WellFormed)
    (run : (callRoutine packed args store returnAddr).run m = (.ok true, t)) :
    ∃ first body, m.routineHeader (m.memory.unpackRoutine packed) = .ok (first, body) ∧
      m.stack.Admits returnAddr (withArguments first args) ∧
      t = { m with
        stack := m.stack.entered returnAddr store (withArguments first args), pc := body } := by
  rw [callRoutine] at run
  by_cases none : packed = 0
  · rw [if_pos none] at run
    -- Routine 0 is not entered, whether or not a variable receives its result.
    rcases store with _ | number
    · cases (Prod.mk.inj run).1
    · obtain ⟨_, _, run⟩ := Op.run_bind_eq_ok run
      cases (Prod.mk.inj run).1
  · rw [if_neg none] at run
    obtain ⟨⟨first, body⟩, read, run⟩ := Op.run_bind_eq_ok run
    obtain ⟨_, pushed, run⟩ := Op.run_bind_eq_ok run
    obtain ⟨few, near, room, same⟩ := CallStack.pushFrame_ok pushed
    obtain ⟨_, rfl⟩ := Prod.mk.inj run
    refine ⟨first, body, read, ⟨formed, near, few, room⟩, ?_⟩
    exact congrArg (fun stack => { m with stack, pc := body }) same

/-- A call that enters a routine puts its frame on the stack. -/
theorem callRoutine_entered {packed : Word} {args : List Word} (formed : m.stack.WellFormed)
    (run : (callRoutine packed args store returnAddr).run m = (.ok true, t)) :
    ∃ locals, m.stack.Admits returnAddr locals ∧
      t.stack = m.stack.entered returnAddr store locals := by
  obtain ⟨_, _, _, admits, rfl⟩ := callRoutine_true formed run
  exact ⟨_, admits, rfl⟩

/-- A variable that was written holds the value, and the stack has received it. -/
theorem writeVariable_ok {number : Byte} {value : Word} (inside : m.stack.frameTop ≤ m.stack.depth)
    (run : (writeVariable number value).run m = (.ok (), t)) :
    t.pc = m.pc ∧ t.stack = m.stack.received value (some number) ∧
      t.peekVariable number = .ok value := by
  by_cases zero : number = 0
  · subst zero
    rw [writeVariable, if_pos rfl] at run
    by_cases full : CallStack.capacity ≤ m.stack.cells.size
    · simp only [onStack, Op.zoom, Op.run, CallStack.push, if_pos full] at run
      cases run
    · simp only [onStack, Op.zoom, Op.run, CallStack.push, if_neg full] at run
      obtain ⟨_, rfl⟩ := Prod.mk.inj run
      refine ⟨rfl, rfl, ?_⟩
      exact CallStack.peek_push inside value
  · by_cases small : number < 0x10
    · rw [writeVariable, if_neg zero, if_pos small] at run
      have set : CallStack.setLocal number value m.stack = _ :=
        CallStack.run_setLocal inside number value
      by_cases absent : number = 0 ∨ m.stack.localCount < number.toNat
      · simp only [onStack, Op.zoom, Op.run, set, if_pos absent] at run
        cases run
      · simp only [onStack, Op.zoom, Op.run, set, if_neg absent] at run
        obtain ⟨_, rfl⟩ := Prod.mk.inj run
        refine ⟨rfl, ?_, ?_⟩
        · simp only [CallStack.received, if_neg zero, if_pos small]
        · rw [peekVariable, if_neg zero, if_pos small]
          exact CallStack.getLocal_set inside absent value
    · rw [writeVariable, if_neg zero, if_neg small] at run
      obtain ⟨addr, found, written⟩ := Op.run_bind_eq_ok run
      have found : m.globalAddr number = .ok addr := found
      obtain ⟨ended, rfl⟩ := Prod.mk.inj written
      refine ⟨rfl, ?_, ?_⟩
      · simp only [CallStack.received, if_neg zero, if_neg small]
        rfl
      · have read := Memory.getWord_of_writeWord (Prod.ext ended rfl)
        rw [peekVariable, if_neg zero, if_neg small]
        change (m.globalAddr number >>= Memory.getWord _) = _
        rw [found]
        exact read

/-- A variable that is written, or cannot be, stands in the frame that is active. -/
theorem frame_writeVariable (number : Byte) (value : Word) (m : Machine) :
    ((writeVariable number value).run m).2.stack.frame = m.stack.frame := by
  rw [writeVariable]
  split
  · simp only [onStack, Op.zoom, Op.run, CallStack.push]
    split <;> rfl
  · split
    · exact CallStack.frame_setLocal number value m.stack
    · rcases run : (writeGlobal number value).run m with ⟨ended, t⟩
      obtain ⟨_, _, _, rfl⟩ | ⟨addr, _, run⟩ := Op.bind_cases run
      · rfl
      · obtain ⟨_, rfl⟩ := Prod.mk.inj run
        rfl

/-- Leaving another routine than the one that was entered does not leave that one. -/
theorem returnRoutine_inside (value : Word) (inside : e.Inside m.stack)
    (other : m.stack.frame ≠ e.frame) : e.Inside ((returnRoutine value).run m).2.stack := by
  have popped : e.Inside (CallStack.popFrame.run m.stack).2 := by
    have kept := inside.perform .popFrame fun _ => other
    rwa [StackOp.perform, CallStack.run_drop] at kept
  rcases run : (returnRoutine value).run m with ⟨ended, t⟩
  obtain ⟨_, _, _, rfl⟩ | ⟨back, _, rest⟩ := Op.bind_cases run
  · exact popped
  · have stays : ReflTransGen Stays ((onStack CallStack.popFrame).run m).2 t := by
      have after : _ = t := congrArg Prod.snd rest
      rw [← after]
      exact handBack_madeOf back value _
    exact inside_of_stays stays popped

/-- Receive a result in a variable, if there is one for it. -/
def receive (value : Word) : Option Byte → Op Machine Unit
  | none => pure ()
  | some number => writeVariable number value

section Own

variable (admits : c.Admits returnAddr locals)
  (inside : (c.entered returnAddr store locals).Inside m.stack) (own : m.stack.frame = c.depth)
include admits inside own

/-- Leaving the routine that was entered goes back to the caller, which is handed the
result. -/
theorem run_returnRoutine (value : Word) :
    (returnRoutine value).run m =
      (receive value store).run { m with stack := c, pc := returnAddr } := by
  have popped : (onStack CallStack.popFrame).run m =
      (.ok ⟨returnAddr, store⟩, { m with stack := c }) := by
    simp only [onStack, Op.zoom, Op.run]
    have left : CallStack.popFrame m.stack = _ := inside.run_popFrame admits own
    rw [left]
  rw [returnRoutine, Op.run_bind_ok popped]
  cases store <;> rfl

/-- Whether or not the caller can receive the result, its frame is the active one. -/
theorem frame_returnRoutine (value : Word) :
    ((returnRoutine value).run m).2.stack.frame = c.frame := by
  rw [run_returnRoutine admits inside own]
  cases store with
  | none => rfl
  | some number => exact frame_writeVariable number value _

/-- A result that the caller can receive is all that it finds changed. -/
theorem returnRoutine_ok {value : Word} (run : (returnRoutine value).run m = (.ok (), t)) :
    t.pc = returnAddr ∧ t.stack = c.received value store ∧
      ∀ number, store = some number → t.peekVariable number = .ok value := by
  rw [run_returnRoutine admits inside own] at run
  cases store with
  | none =>
      obtain ⟨_, rfl⟩ := Prod.mk.inj run
      exact ⟨rfl, rfl, nofun⟩
  | some number =>
      obtain ⟨pc, stack, held⟩ := writeVariable_ok admits.formed.frameTop_le run
      refine ⟨pc, stack, ?_⟩
      rintro _ ⟨⟩
      exact held

end Own

end ZMachine.Machine
