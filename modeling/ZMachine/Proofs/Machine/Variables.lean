import ZMachine.Machine
import ZMachine.Proofs.Memory.Layout
import ZMachine.Proofs.Stack.Operations

/-!
# Variables as cells

A variable is a cell of the stack or a word of memory. Up to number 15 it has a place on the
stack (`CallStack.place?`): the last value, which stands behind the locals of the active frame,
or a local, which stands behind the frame's header. No two variables have the same place
(`CallStack.place?_inj`), and a change of one such cell moves no place
(`CallStack.place?_set`). The words of two global variables share no byte.

So an instruction that names its variable by an operand sets that variable and no other
(`Machine.Receives`), or it changes nothing (`Machine.setInPlace_cases`). Writing a variable
does the same, but for a value that is put on the stack (`Machine.writeVariable_cases`).
-/

set_option autoImplicit false

namespace ZMachine

namespace CallStack

variable {s : CallStack} {v w : Byte} {p q : Nat}

/-! ## Places on the stack -/

/-- The cell that holds a variable below 16: the last value of the routine for variable 0, and
else a local of it. -/
def place? (s : CallStack) (v : Byte) : Option Nat :=
  if v = 0 then if s.depth ≤ s.frameTop then none else some (s.depth - 1)
  else if s.localCount < v.toNat then none else some (s.frame + 3 + v.toNat)

theorem place?_eq_some : s.place? v = some p ↔
    v = 0 ∧ s.frameTop < s.depth ∧ p = s.depth - 1 ∨
      0 < v.toNat ∧ v.toNat ≤ s.localCount ∧ p = s.frame + 3 + v.toNat := by
  rw [place?]
  by_cases last : v = 0
  · simp [last, eq_comm]
  · have counted : 0 < v.toNat := Nat.pos_of_ne_zero fun zero => last (UInt8.toNat_inj.mp zero)
    simp [last, counted, eq_comm]

/-- No two variables have the same place. -/
theorem place?_inj (found : s.place? v = some p) (found' : s.place? w = some p) : v = w := by
  have top : s.frameTop = s.frame + 4 + s.localCount := rfl
  obtain ⟨rfl, more, rfl⟩ | ⟨some, few, rfl⟩ := place?_eq_some.mp found <;>
    obtain ⟨rfl, more', same⟩ | ⟨some', few', same⟩ := place?_eq_some.mp found'
  · rfl
  · omega
  · omega
  · exact UInt8.toNat_inj.mp (by omega)

/-- A change behind the header of the active frame leaves its locals as many as they are. -/
theorem localCount_set (behind : s.frame + 4 ≤ p) (value : Word) :
    localCount ⟨s.cells.setIfInBounds p value, s.frame⟩ = s.localCount := by
  simp only [localCount, localCountAt, s.cell_set value (show s.frame + 3 ≠ p by omega)]

theorem frameTop_set (behind : s.frame + 4 ≤ p) (value : Word) :
    frameTop ⟨s.cells.setIfInBounds p value, s.frame⟩ = s.frameTop := by
  rw [frameTop, localCount_set behind]
  rfl

theorem depth_set (s : CallStack) (p : Nat) (value : Word) :
    depth ⟨s.cells.setIfInBounds p value, s.frame⟩ = s.depth :=
  Array.size_setIfInBounds

/-- A change behind the header of the active frame moves no place. -/
theorem place?_set (behind : s.frame + 4 ≤ p) (value : Word) (w : Byte) :
    place? ⟨s.cells.setIfInBounds p value, s.frame⟩ w = s.place? w := by
  rw [place?, frameTop_set behind, localCount_set behind, depth_set]
  rfl

theorem cell_set_self (value : Word) (low : p < s.depth) :
    cell ⟨s.cells.setIfInBounds p value, s.frame⟩ p = value := by
  have bound : p < s.cells.size := low
  simp [cell, bound]

section Inside

variable (inside : s.frameTop ≤ s.depth)
include inside

/-- A place stands behind the header of the active frame, among the cells. -/
theorem place?_bounds (found : s.place? v = some p) : s.frame + 4 ≤ p ∧ p < s.depth := by
  have top : s.frameTop = s.frame + 4 + s.localCount := rfl
  obtain ⟨_, more, rfl⟩ | ⟨_, _, rfl⟩ := place?_eq_some.mp found <;> omega

/-- A value that was pushed is taken off again, and the stack is what it was. -/
theorem run_pop_push (value : Word) : pop.run ⟨s.cells.push value, s.frame⟩ = (.ok value, s) := by
  have header := header_inside inside
  have more : depth ⟨s.cells.push value, s.frame⟩ = s.depth + 1 := Array.size_push _
  have top : frameTop ⟨s.cells.push value, s.frame⟩ = s.frameTop := by
    have same := s.cell_push value (show s.frame + 3 < s.depth by omega)
    simp only [frameTop, localCount, localCountAt, same]
  have last : cell ⟨s.cells.push value, s.frame⟩ s.depth = value := by simp [cell, depth]
  have header' : s.frame + 4 ≤ depth ⟨s.cells.push value, s.frame⟩ := by omega
  rw [run_pop header', if_neg (by omega), more, Nat.add_sub_cancel, last, Array.pop_push]

end Inside

end CallStack

namespace Machine

variable {m t : Machine} {v w : Byte} {x : Word} {p addr i : Nat}

/-! ## Where variables stand -/

/-- The fault of a variable on the stack that has no place. -/
def missing (m : Machine) (v : Byte) : Fault :=
  if v = 0 then .noTopToRead else .noSuchLocal v.toNat m.stack.localCount

/-- The address of the word of a global variable. -/
def globalPlace (m : Machine) (v : Byte) : Nat :=
  m.header.globals + (v.toNat - 0x10) * 2

/-- The byte at an address belongs to the word of a global variable. -/
def InGlobal (m : Machine) (v : Byte) (i : Nat) : Prop :=
  0x10 ≤ v.toNat ∧ m.globalPlace v ≤ i ∧ i < m.globalPlace v + 2

/-- The words of two global variables share no byte. -/
theorem inGlobal_inj (here : m.InGlobal v i) (there : m.InGlobal w i) : v = w := by
  obtain ⟨global, low, high⟩ := here
  obtain ⟨global', low', high'⟩ := there
  rw [globalPlace] at low high low' high'
  exact UInt8.toNat_inj.mp (by omega)

theorem peekVariable_global (global : ¬ v < 0x10) :
    m.peekVariable v = m.memory.getWord (m.globalPlace v) := by
  have named : v ≠ 0 := by
    rintro rfl
    exact global (by decide)
  rw [peekVariable, if_neg named, if_neg global, readGlobal, globalAddr, if_neg global]
  rfl

theorem peekVariable_stack (inside : m.stack.frameTop ≤ m.stack.depth) (small : v < 0x10) :
    m.peekVariable v =
      match m.stack.place? v with
      | some p => .ok (m.stack.cell p)
      | none => .error (m.missing v) := by
  rw [peekVariable, CallStack.place?, missing]
  by_cases last : v = 0
  · rw [if_pos last, if_pos last, if_pos last, CallStack.peek,
      CallStack.lastValue_eq (CallStack.header_inside inside)]
    by_cases bare : m.stack.depth ≤ m.stack.frameTop
    · rw [if_pos bare, if_pos bare]
    · rw [if_neg bare, if_neg bare]
  · rw [if_neg last, if_pos small, if_neg last, if_neg last, CallStack.getLocal_eq inside]
    by_cases absent : m.stack.localCount < v.toNat
    · rw [if_pos absent, if_pos (.inr absent)]
    · rw [if_neg absent, if_neg (not_or.mpr ⟨last, absent⟩)]

/-! ## Setting a variable in place -/

/-- A machine with one cell of the stack changed. -/
def withCell (m : Machine) (p : Nat) (x : Word) : Machine :=
  { m with stack := ⟨m.stack.cells.setIfInBounds p x, m.stack.frame⟩ }

/-- A machine with the word of a global variable changed. -/
def withGlobal (m : Machine) (v : Byte) (x : Word) : Machine :=
  { m with memory := m.memory.lay (m.globalPlace v) [highByte x, lowByte x] }

/-- Setting a variable that stands on the stack sets the cell where it stands. -/
theorem run_setInPlace_stack (inside : m.stack.frameTop ≤ m.stack.depth) (small : v < 0x10)
    (x : Word) :
    (∃ p, m.stack.place? v = some p ∧ (setInPlace v x).run m = (.ok (), m.withCell p x)) ∨
      ∃ e, (setInPlace v x).run m = (.error e, m) := by
  rw [setInPlace, CallStack.place?]
  by_cases last : v = 0
  · have run : CallStack.setTop x m.stack = _ :=
      CallStack.run_setTop (CallStack.header_inside inside) x
    rw [if_pos last, if_pos last]
    simp only [onStack, Op.zoom, Op.run, run]
    by_cases bare : m.stack.depth ≤ m.stack.frameTop
    · simp only [if_pos bare]
      exact .inr ⟨_, rfl⟩
    · simp only [if_neg bare]
      exact .inl ⟨_, rfl, rfl⟩
  · have run : CallStack.setLocal v x m.stack = _ := CallStack.run_setLocal inside v x
    rw [if_neg last, if_pos small, if_neg last]
    simp only [onStack, Op.zoom, Op.run, run]
    by_cases absent : m.stack.localCount < v.toNat
    · simp only [if_pos absent, if_pos (Or.inr absent)]
      exact .inr ⟨_, rfl⟩
    · simp only [if_neg absent, if_neg (not_or.mpr ⟨last, absent⟩)]
      exact .inl ⟨_, rfl, rfl⟩

/-- Setting a global variable writes its word. -/
theorem run_setInPlace_global (global : ¬ v < 0x10) (x : Word) :
    m.memory.Writable (m.globalPlace v) 2 ∧
        (setInPlace v x).run m = (.ok (), m.withGlobal v x) ∨
      ∃ e, (setInPlace v x).run m = (.error e, m) := by
  have named : v ≠ 0 := by
    rintro rfl
    exact global (by decide)
  have found : (Op.query (·.globalAddr v)).run m = (.ok (m.globalPlace v), m) :=
    congrArg (Prod.mk · m) (if_neg global)
  rw [setInPlace, if_neg named, if_neg global, writeGlobal, Op.run_bind_ok found]
  have whole : (onMemory (Memory.writeWord (m.globalPlace v) x)).run m =
      (((Memory.writeWord (m.globalPlace v) x).run m.memory).1,
        { m with memory := ((Memory.writeWord (m.globalPlace v) x).run m.memory).2 }) := rfl
  rw [whole]
  rcases run : (Memory.writeWord (m.globalPlace v) x).run m.memory with ⟨e | _, memory⟩
  · obtain rfl := Memory.guarded_eq_error run
    exact .inr ⟨e, rfl⟩
  · obtain ⟨writable, rfl⟩ := Memory.writeWord_eq_ok.mp run
    exact .inl ⟨writable, rfl⟩

/-- A variable has received a value, and nothing else has changed: every other variable gives
what it gave, the stack is as deep and its active frame the same, and no byte of memory outside
the word of a global variable that was set is another. -/
structure Receives (m t : Machine) (v : Byte) (x : Word) : Prop where
  held : t.peekVariable v = .ok x
  others : ∀ w, w ≠ v → t.peekVariable w = m.peekVariable w
  depth : t.stack.depth = m.stack.depth
  frame : t.stack.frame = m.stack.frame
  rest : t = { m with memory := t.memory, stack := t.stack }
  bounds : m.memory.SameBounds t.memory
  bytes : ∀ i, ¬ m.InGlobal v i → t.memory.bytes[i]? = m.memory.bytes[i]?

/-- A variable has been written, and nothing else has changed: variable 0 by putting the value
on the stack, any other where it stands. -/
inductive Written (m : Machine) (x : Word) : Byte → Machine → Prop where
  | pushed (room : m.stack.depth < CallStack.capacity) :
      Written m x 0 { m with stack := ⟨m.stack.cells.push x, m.stack.frame⟩ }
  | set {v : Byte} {t : Machine} (named : v ≠ 0) (receives : m.Receives t v x) : Written m x v t

/-- A global variable does not stand on the stack. -/
theorem peekVariable_withCell (global : ¬ w < 0x10) (p : Nat) (x : Word) :
    (m.withCell p x).peekVariable w = m.peekVariable w := by
  rw [peekVariable_global global, peekVariable_global global]
  rfl

/-- A variable on the stack does not stand in memory. -/
theorem peekVariable_withGlobal (small : w < 0x10) (v : Byte) (x : Word) :
    (m.withGlobal v x).peekVariable w = m.peekVariable w := by
  rw [peekVariable, peekVariable, if_pos small, if_pos small]
  rfl

section Inside

variable (inside : m.stack.frameTop ≤ m.stack.depth)
include inside

/-- A cell that is set is that of one variable. -/
theorem receives_withCell (small : v < 0x10) (found : m.stack.place? v = some p) (x : Word) :
    m.Receives (m.withCell p x) v x := by
  obtain ⟨behind, low⟩ := CallStack.place?_bounds inside found
  have depth : (m.withCell p x).stack.depth = m.stack.depth := m.stack.depth_set p x
  have inside' : (m.withCell p x).stack.frameTop ≤ (m.withCell p x).stack.depth := by
    rw [depth]
    exact (CallStack.frameTop_set behind x).symm ▸ inside
  have places : ∀ w, (m.withCell p x).stack.place? w = m.stack.place? w :=
    CallStack.place?_set behind x
  have missing : ∀ w, (m.withCell p x).missing w = m.missing w := fun w => by
    rw [Machine.missing, Machine.missing, withCell, CallStack.localCount_set behind]
  refine ⟨?_, fun w other => ?_, depth, rfl, rfl, .refl _, fun _ _ => rfl⟩
  · rw [peekVariable_stack inside' small, places, found]
    exact congrArg Except.ok (CallStack.cell_set_self x low)
  · by_cases small' : w < 0x10
    · rw [peekVariable_stack inside' small', peekVariable_stack inside small', places, missing]
      cases found' : m.stack.place? w with
      | none => rfl
      | some q =>
          have apart : q ≠ p := by
            rintro rfl
            exact other (CallStack.place?_inj found' found)
          exact congrArg Except.ok (m.stack.cell_set x apart)
    · exact peekVariable_withCell small' p x

end Inside

/-- A word that is written is that of one global variable. -/
theorem receives_withGlobal (global : ¬ v < 0x10)
    (writable : m.memory.Writable (m.globalPlace v) [highByte x, lowByte x].length) :
    m.Receives (m.withGlobal v x) v x := by
  have global' : ∀ {w : Byte}, ¬ w < 0x10 → 0x10 ≤ w.toNat := fun big => Nat.not_lt.mp big
  have bounds : m.memory.SameBounds (m.withGlobal v x).memory := writable.sameBounds
  have bytes : ∀ i, ¬ m.InGlobal v i →
      (m.withGlobal v x).memory.bytes[i]? = m.memory.bytes[i]? := by
    intro i outside
    refine writable.getElem?_lay ?_
    have := global' global
    rw [InGlobal] at outside
    simp only [List.length_cons, List.length_nil]
    omega
  refine ⟨?_, fun w other => ?_, rfl, rfl, rfl, bounds, bytes⟩
  · rw [peekVariable_global global]
    exact (Memory.Writable.stand_lay writable).getWord
  · by_cases small : w < 0x10
    · exact peekVariable_withGlobal small v x
    · have apart : ∀ i, m.InGlobal w i → ¬ m.InGlobal v i :=
        fun i there here => other (inGlobal_inj there here)
      have first : m.InGlobal w (m.globalPlace w) := ⟨global' small, by omega, by omega⟩
      have second : m.InGlobal w (m.globalPlace w + 1) := ⟨global' small, by omega, by omega⟩
      rw [peekVariable_global small, peekVariable_global small]
      exact Memory.getWord_congr bounds.size (bytes _ (apart _ first)) (bytes _ (apart _ second))

section InPlace

variable (inside : m.stack.frameTop ≤ m.stack.depth)
include inside

/-- Setting a variable in place succeeds and does just that, or it fails and does nothing. -/
theorem setInPlace_cases (v : Byte) (x : Word) :
    (∃ t, (setInPlace v x).run m = (.ok (), t) ∧ m.Receives t v x) ∨
      ∃ e, (setInPlace v x).run m = (.error e, m) := by
  by_cases small : v < 0x10
  · obtain ⟨p, found, run⟩ | failed := run_setInPlace_stack inside small x
    · exact .inl ⟨_, run, receives_withCell inside small found x⟩
    · exact .inr failed
  · obtain ⟨writable, run⟩ | failed := run_setInPlace_global (m := m) small x
    · exact .inl ⟨_, run, receives_withGlobal small writable⟩
    · exact .inr failed

/-- **Variables are cells.** A variable that was set in place holds the value, and nothing else
has changed. -/
theorem receives_of_setInPlace (run : (setInPlace v x).run m = (.ok (), t)) : m.Receives t v x := by
  obtain ⟨t', run', receives⟩ | ⟨e, failed⟩ := setInPlace_cases inside v x
  · cases run.symm.trans run'
    exact receives
  · cases run.symm.trans failed

/-- Setting a variable in place fails without a change. -/
theorem eq_of_setInPlace_error {e : Fault} (run : (setInPlace v x).run m = (.error e, t)) :
    t = m := by
  obtain ⟨t', run', _⟩ | ⟨e', failed⟩ := setInPlace_cases inside v x
  · cases run.symm.trans run'
  · cases run.symm.trans failed
    rfl

/-- Writing a variable succeeds and does just that, or it fails and does nothing. -/
theorem writeVariable_cases (v : Byte) (x : Word) :
    (∃ t, (writeVariable v x).run m = (.ok (), t) ∧ m.Written x v t) ∨
      ∃ e, (writeVariable v x).run m = (.error e, m) := by
  by_cases last : v = 0
  · subst last
    rw [writeVariable, if_pos rfl]
    simp only [onStack, Op.zoom, Op.run, CallStack.push]
    by_cases full : CallStack.capacity ≤ m.stack.cells.size
    · rw [if_pos full]
      exact .inr ⟨_, rfl⟩
    · rw [if_neg full]
      exact .inl ⟨_, rfl, .pushed (Nat.lt_of_not_le full)⟩
  · -- Any other variable is written where it stands.
    have same : writeVariable v x = setInPlace v x := by
      rw [writeVariable, setInPlace, if_neg last, if_neg last]
    rw [same]
    obtain ⟨t, run, receives⟩ | failed := setInPlace_cases inside v x
    · exact .inl ⟨t, run, .set last receives⟩
    · exact .inr failed

/-- Writing a variable fails without a change. -/
theorem eq_of_writeVariable_error {e : Fault} (run : (writeVariable v x).run m = (.error e, t)) :
    t = m := by
  obtain ⟨t', run', _⟩ | ⟨e', failed⟩ := writeVariable_cases inside v x
  · cases run.symm.trans run'
  · cases run.symm.trans failed
    rfl

/-- A value that was put on the stack is taken off again, and the machine is what it was. -/
theorem readVariable_of_writeVariable (run : (writeVariable 0 x).run m = (.ok (), t)) :
    (readVariable 0).run t = (.ok x, m) := by
  have pushed : (onStack (CallStack.push x)).run m = (.ok (), t) := run
  simp only [onStack, Op.zoom, Op.run, CallStack.push] at pushed
  by_cases full : CallStack.capacity ≤ m.stack.cells.size
  · rw [if_pos full] at pushed
    cases pushed
  · rw [if_neg full] at pushed
    obtain ⟨_, rfl⟩ := Prod.mk.inj pushed
    have popped : CallStack.pop ⟨m.stack.cells.push x, m.stack.frame⟩ = (.ok x, m.stack) :=
      CallStack.run_pop_push inside x
    rw [readVariable, if_pos rfl]
    simp only [onStack, Op.zoom, Op.run, popped]

end InPlace

end Machine

end ZMachine
