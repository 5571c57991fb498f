import ZMachine.Proofs.Session.Calls
import ZMachine.Proofs.Session.Results

/-!
# Instructions that name their variable

Five instructions name the variable that they set by an operand: they add 1 to it, take 1 from
it, do that and branch, or give it a value. They set the variable in place, so that a last
value on the stack is replaced (`Machine.Receives`). Where the operands are constants they take
nothing off the stack either: up to a branch that returns from the routine, the stack stays as
deep as it is (`execute_keepsDepth`).
-/

set_option autoImplicit false

namespace ZMachine

/-- The instruction sets the variable that its first operand names. -/
def StorageOp.SetsNamed : StorageOp → Prop
  | .increment | .decrement | .decrementCheck | .incrementCheck | .store => True
  | _ => False

/-- The instruction branches on the new value of its variable. -/
def StorageOp.Checks : StorageOp → Prop
  | .decrementCheck | .incrementCheck => True
  | _ => False

/-- An operand that is a number in the instruction itself. -/
def Operand.Constant : Operand → Prop
  | .large _ | .small _ => True
  | .variable _ => False

namespace Session

variable {ω α : Type} {s t : Session ω} {i : Instruction} {results : Word → Prop}

/-! ## Depth -/

/-- How an operation ends that leaves the stack as deep as it is: in a session with a stack of
that depth, or there it leaves the active routine with one of the given results. -/
inductive KeepsDepth (results : Word → Prop) (s : Session ω) : Except Fault Outcome × Session ω → Prop
    where
  | stays {ended : Except Fault Outcome} {t : Session ω}
      (depth : t.machine.stack.depth = s.machine.stack.depth) : KeepsDepth results s (ended, t)
  | leaves {value : Word} {t : Session ω}
      (depth : t.machine.stack.depth = s.machine.stack.depth) (result : results value) :
      KeepsDepth results s ((leave value).run t)

/-- After an operation that keeps the depth, another may do the same. -/
theorem KeepsDepth.after {z : Op (Session ω) α} {f : α → Op (Session ω) Outcome}
    (depth : (z.run s).2.machine.stack.depth = s.machine.stack.depth)
    (rest : ∀ a, KeepsDepth results (z.run s).2 ((f a).run (z.run s).2)) :
    KeepsDepth results s ((z >>= f).run s) := by
  rw [Op.run_bind]
  rcases run : z.run s with ⟨fault | a, t⟩
  · rw [run] at depth
    exact .stays depth
  · rw [run] at depth rest
    show KeepsDepth results s ((f a).run t)
    have kept := rest a
    generalize (f a).run t = ended at kept ⊢
    cases kept with
    | stays same => exact .stays (same.trans depth)
    | leaves same result => exact .leaves (same.trans depth) result

theorem KeepsDepth.mono {results' : Word → Prop} {ended : Except Fault Outcome × Session ω}
    (kept : KeepsDepth results s ended) (more : ∀ value, results value → results' value) :
    KeepsDepth results' s ended := by
  cases kept with
  | stays depth => exact .stays depth
  | leaves depth result => exact .leaves depth (more _ result)

theorem KeepsDepth.pure (outcome : Outcome) :
    KeepsDepth results s ((Pure.pure outcome : Op (Session ω) Outcome).run s) :=
  .stays rfl

/-- A branch keeps the depth, unless it is one that returns. -/
theorem branch_keepsDepth (condition : Bool) :
    KeepsDepth (BranchReturns i) s ((branch i condition).run s) := by
  have ends := branch_ends i condition s
  generalize (branch i condition).run s = ended at ends ⊢
  cases ends with
  | passed => exact .stays rfl
  | returns takes result => exact .leaves rfl ⟨_, takes.1, result⟩
  | jumps => exact .stays rfl
  | below => exact .stays rfl

/-! ## Setting the named variable -/

section Setting

variable (inside : s.machine.stack.frameTop ≤ s.machine.stack.depth)
include inside

theorem depth_setInPlace (v : Byte) (x : Word) :
    ((onMachine (Machine.setInPlace v x)).run s).2.machine.stack.depth =
      s.machine.stack.depth := by
  show ((Machine.setInPlace v x).run s.machine).2.stack.depth = _
  obtain ⟨t, run, receives⟩ | ⟨e, run⟩ := Machine.setInPlace_cases inside v x
  · rw [run]
    exact receives.depth
  · rw [run]

theorem depth_adjust (v : Byte) (amount : Word) :
    ((adjust v amount).run s).2.machine.stack.depth = s.machine.stack.depth := by
  rcases run : (adjust v amount).run s with ⟨ended, t⟩
  obtain ⟨_, _, _, rfl⟩ | ⟨old, _, run⟩ := Op.bind_cases run
  · rfl
  · have kept := depth_setInPlace inside v (old + amount)
    obtain ⟨_, _, _, rfl⟩ | ⟨_, _, run⟩ := Op.bind_cases run
    · exact kept
    · cases run
      exact kept

/-- An instruction that sets the variable it names keeps the depth. -/
theorem storage_keepsDepth {op : StorageOp} (sets : op.SetsNamed) (operands : List Word)
    (a : Word) :
    KeepsDepth (fun value => op.Checks ∧ BranchReturns i value) s
      ((storage i operands a op).run s) := by
  have second : ((operand operands 1).run s).2 = s := operand_unmoved operands 1 s
  have adjusted := depth_adjust inside (lowByte a)
  cases op with
  | increment => exact .after (adjusted 1) fun _ => .pure .advanced
  | decrement => exact .after (adjusted (-1)) fun _ => .pure .advanced
  | decrementCheck =>
      refine .after (by rw [second]) fun limit => ?_
      rw [second]
      refine .after (adjusted (-1)) fun value => ?_
      exact (branch_keepsDepth _).mono fun _ returns => ⟨trivial, returns⟩
  | incrementCheck =>
      refine .after (by rw [second]) fun limit => ?_
      rw [second]
      refine .after (adjusted 1) fun value => ?_
      exact (branch_keepsDepth _).mono fun _ returns => ⟨trivial, returns⟩
  | store =>
      refine .after (by rw [second]) fun value => ?_
      rw [second]
      exact .after (depth_setInPlace inside _ value) fun _ => .pure .advanced
  | load | loadWord | loadByte | storeWord | storeByte | scanTable | copyTable => exact sets.elim

end Setting

/-- Constant operands are taken without a change. -/
theorem resolveAll_constant {operands : List Operand} (constant : ∀ o ∈ operands, o.Constant) :
    ∃ values, ∀ s : Session ω, (resolveAll operands).run s = (.ok values, s) := by
  induction operands with
  | nil => exact ⟨[], fun _ => rfl⟩
  | cons o rest ih =>
      obtain ⟨values, taken⟩ := ih fun o' among => constant o' (List.mem_cons_of_mem o among)
      have here := constant o List.mem_cons_self
      obtain ⟨value, given⟩ : ∃ value, ∀ s : Session ω, (resolve o).run s = (.ok value, s) := by
        rcases o with value | value | _
        · exact ⟨value, fun _ => rfl⟩
        · exact ⟨value.toUInt16, fun _ => rfl⟩
        · exact here.elim
      refine ⟨value :: values, fun s => ?_⟩
      rw [resolveAll, Op.run_bind_ok (given s), Op.run_bind_ok (taken s)]
      rfl

/-- An instruction that sets the variable it names, and whose operands are constants, keeps
the depth up to a branch that returns. -/
theorem execute_keepsDepth (inside : s.machine.stack.frameTop ≤ s.machine.stack.depth)
    (h : Host ω) {op : StorageOp}
    (carried : StorageOp.of? i.opcode.count i.opcode.number.toNat = some op) (sets : op.SetsNamed)
    (constant : ∀ o ∈ i.operands, o.Constant) :
    KeepsDepth (fun value => op.Checks ∧ BranchReturns i value) s ((execute h i).run s) := by
  obtain ⟨values, taken⟩ := resolveAll_constant (ω := ω) constant
  obtain ⟨_, family, found, run⟩ | ⟨_, fault, run⟩ := run_execute h i (taken s)
  · rw [family_of_storage carried] at found
    cases found
    have first : ((operand values 0).run s).2 = s := operand_unmoved values 0 s
    rw [run, executeAs]
    refine .after (by rw [first]) fun a => ?_
    rw [first, dispatch, carried]
    exact storage_keepsDepth inside sets values a
  · rw [run]
    exact .stays rfl

end Session

namespace Machine

open StackOp (performAll)

/-- **Variables are cells.** Where the stack of the machine comes about by stack operations:
a variable that is set in place holds the value, every other variable gives what it gave, a
fault included, and nothing else changes; setting one in place fails without a change; a value
pushed is taken off again; and the instructions that set the variable they name, with constant
operands, leave the stack as deep as it is, up to a branch that returns. -/
theorem variables_are_cells {m : Machine} {ops : List StackOp}
    (reached : performAll ops .empty = m.stack) :
    (∀ v x t, (setInPlace v x).run m = (.ok (), t) → m.Receives t v x) ∧
    (∀ v x e t, (setInPlace v x).run m = (.error e, t) → t = m) ∧
    (∀ x t, (writeVariable 0 x).run m = (.ok (), t) → (readVariable 0).run t = (.ok x, m)) ∧
    ∀ (ω : Type) (h : Host ω) (s : Session ω) (i : Instruction) (op : StorageOp),
      s.machine = m → StorageOp.of? i.opcode.count i.opcode.number.toNat = some op →
      op.SetsNamed → (∀ o ∈ i.operands, o.Constant) →
      s.KeepsDepth (fun value => op.Checks ∧ Session.BranchReturns i value)
        ((Session.execute h i).run s) := by
  have inside : m.stack.frameTop ≤ m.stack.depth :=
    reached ▸ (CallStack.performAll_wellFormed ops CallStack.wellFormed_empty).frameTop_le
  refine ⟨fun v x t run => receives_of_setInPlace inside run,
    fun v x e t run => eq_of_setInPlace_error inside run,
    fun x t run => readVariable_of_writeVariable inside run, ?_⟩
  rintro ω h s i op rfl carried sets constant
  exact Session.execute_keepsDepth inside h carried sets constant

/-- A story in a routine with two locals that has put a value on the stack. -/
def workingMachine : Machine :=
  { Session.callingMachine with
    stack := performAll [.pushFrame 0x40 none [7, 8], .push 9] .empty }

/-- The value on the stack is replaced, and the second local is what it was. -/
theorem value_replaced :
    performAll [.pushFrame 0x40 none [7, 8], .push 9] .empty = workingMachine.stack ∧
      ∃ t, (setInPlace 0 5).run workingMachine = (.ok (), t) ∧ t.peekVariable 0 = .ok 5 ∧
        t.peekVariable 2 = .ok 8 ∧ t.stack.depth = 11 := by
  have reached : performAll [.pushFrame 0x40 none [7, 8], .push 9] .empty = workingMachine.stack :=
    rfl
  have succeeds : ((setInPlace 0 5).run workingMachine).1 = .ok () :=
    eq_ok_of_toOption (by decide +kernel)
  have second : workingMachine.peekVariable 2 = .ok 8 := eq_ok_of_toOption (by decide +kernel)
  have depth : workingMachine.stack.depth = 11 := by decide +kernel
  have receives := (variables_are_cells reached).1 0 5 _ (Prod.ext succeeds rfl)
  exact ⟨reached, _, Prod.ext succeeds rfl, receives.held,
    (receives.others 2 (by decide)).trans second, receives.depth.trans depth⟩

end Machine

end ZMachine
