import ZMachine.Proofs.Machine.Calls
import ZMachine.Proofs.Session.Resume

/-!
# Calls return to their callers

A call that enters a routine puts a frame where the caller's cells end. Whatever the
story and its player do next, as long as the story is neither started over nor taken
back to a snapshot, the caller's cells stay as they are until the frame is left. The
step that leaves it puts the story back behind the call, with the caller's frame active
and the caller's cells as they were, except that the variable that the call names has
received the result (`call_returns`).

A step leaves a routine at most once, and last of all (`Executes.leavesLast`), so one
step cannot leave the routine and go on in the caller. Everything else that a step does,
and all that an answer of the player does, stays in the routine that is active.
-/

set_option autoImplicit false

namespace ZMachine

open Relation (ReflTransGen)

namespace Session

variable {ω : Type} {h : Host ω} {s t u : Session ω} {i : Instruction}

/-! ## Steps that go on -/

/-- The next step of the session starts the story over. -/
def Restarts (s : Session ω) : Prop :=
  ∃ i, s.Executes i ∧ ControlOp.of? i.opcode.count i.opcode.number.toNat = some .restart

/-- The next step of the session restores, and the snapshot that the host hands over is
taken back. -/
def Resumes (h : Host ω) (s : Session ω) : Prop :=
  ∃ i snapshot saving, s.Executes i ∧
    ControlOp.of? i.opcode.count i.opcode.number.toNat = some .restore ∧
    s.machine.version ≤ 4 ∧
    (h.restore s.sourceName (s.enter h i).world).1 = .ok (some snapshot) ∧
    savingInstruction (s.enter h i).machine s.sourceName snapshot = some saving ∧
    (snapshot.apply.run (s.enter h i).machine).1 = .ok ()

/-- What can happen to a session next, short of starting over and of taking a snapshot
back: a step, or an answer of the player. -/
inductive Move (h : Host ω) (s : Session ω) : Session ω → Prop where
  | stepped (begins : ¬ s.Restarts) (resumes : ¬ s.Resumes h) : Move h s (s.step h).2
  | line (text : String) (echo : Bool) : Move h s (s.provideLine h text echo).2
  | char (c : Char) : Move h s (s.provideChar c).2

/-- A restore that takes nothing back reports its failure, or breaks off. -/
theorem restore_leavesLast (h : Host ω) (i : Instruction) {s : Session ω}
    (refused : ∀ snapshot saving, s.machine.version ≤ 4 →
      (h.restore s.sourceName s.world).1 = .ok (some snapshot) →
      savingInstruction s.machine s.sourceName snapshot = some saving →
      (snapshot.apply.run s.machine).1 ≠ .ok ()) :
    LeavesLastFrom (BranchReturns i) s (restore h i) := by
  have asked : Acts Machine.Stays s { s with world := (h.restore s.sourceName s.world).2 } :=
    .sent s.streams _
  by_cases late : 4 < s.machine.version
  · refine .of_run .refl ?_ (LeavesLast.fail .restoreRetired s)
    simp only [restore, viewMachine, Op.run_bind, Op.run_view, if_pos late, Op.run_fail]
  have early : s.machine.version ≤ 4 := Nat.not_lt.mp late
  by_cases breaking : ∃ snapshot,
      (h.restore s.sourceName s.world).1 = .ok (some snapshot) ∧ s.WouldBreakOff snapshot
  · obtain ⟨snapshot, handed, broken⟩ := breaking
    refine .of_run (.single asked) ?_ (LeavesLast.fail .sizeOverflow _)
    rw [run_restore i early handed]
    exact run_resume_broken (t := { s with world := (h.restore s.sourceName s.world).2 }) i broken
  · refine .of_run (.single asked) ?_ (report_leavesLast i false _)
    refine run_restore_refused i early fun snapshot handed => ⟨?_, fun broken =>
      breaking ⟨snapshot, handed, broken⟩⟩
    rintro ⟨saving, fits⟩
    obtain ⟨found, taken⟩ := taken_of_fits fits
    exact refused snapshot saving early handed found (congrArg Prod.fst taken)

/-- What an instruction that goes on can return, taking its operands in a session. -/
def CanReturn (i : Instruction) (s : Session ω) (value : Word) : Prop :=
  ∃ operands t, (resolveAll i.operands).run s = (.ok operands, t) ∧
    Returns i operands t.machine.stack value

/-- An instruction that neither restarts nor restores leaves the active routine last. -/
theorem execute_leavesLast (h : Host ω) (i : Instruction) {s : Session ω}
    (goesOn : ∀ op, ControlOp.of? i.opcode.count i.opcode.number.toNat = some op →
      op ≠ .restart ∧ op ≠ .restore) :
    LeavesLastFrom (CanReturn i s) s (execute h i) := by
  have made := acting (resolveAll_madeOf (ω := ω) i.operands)
  have reached := made s
  rcases resolved : (resolveAll i.operands).run s with ⟨fault | operands, t⟩
  · exact .stopped made resolved
  rw [resolved] at reached
  have result : ∀ value, Returns i operands t.machine.stack value → CanReturn i s value :=
    fun value returns => ⟨operands, t, resolved, returns⟩
  obtain ⟨_, family, _, run⟩ | ⟨_, fault, run⟩ := run_execute h i resolved
  · refine .of_run reached run (LeavesLastFrom.mono ?_ result)
    by_cases control : family = .control
    · subst control
      exact dispatch_induct (P := LeavesLastFrom (Returns i operands t.machine.stack) t)
        (fun e => LeavesLast.fail e t)
        fun op found => control_leavesLast h i operands found (goesOn op found) t
    · exact executeAs_leavesLast h i operands t.machine.stack control t
  · exact .of_run reached run (LeavesLast.fail fault t)

/-- **One step.** An instruction that neither starts the story over nor takes a snapshot
back leaves the active routine at most once, last of all. -/
theorem Executes.leavesLast (runs : s.Executes i) (begins : ¬ s.Restarts)
    (resumes : ¬ s.Resumes h) :
    LeavesLastFrom (CanReturn i (s.enter h i)) (s.enter h i) (execute h i) := by
  by_cases restoring : ControlOp.of? i.opcode.count i.opcode.number.toNat = some .restore
  · have zero := (count_of_restore restoring).1
    have run : (execute h i).run (s.enter h i) = (restore h i).run (s.enter h i) :=
      runs.run_zero zero restoring h _
    have bare := (Instruction.decode_ok runs.decoded).bare
    have result : ∀ value, BranchReturns i value → CanReturn i (s.enter h i) value := by
      intro value short
      refine ⟨[], s.enter h i, ?_, .branched short⟩
      rw [(bare zero).2]
      rfl
    refine .of_run .refl run (LeavesLastFrom.mono (restore_leavesLast h i ?_) result)
    intro snapshot saving early handed found taken
    exact resumes ⟨i, snapshot, saving, runs, restoring, early, handed, found, taken⟩
  · refine execute_leavesLast h i fun op found => ⟨?_, ?_⟩
    · rintro rfl
      exact begins ⟨i, runs, found⟩
    · rintro rfl
      exact restoring found

/-- The next step of the session leaves the active routine with a result, after it has
done all else that it does. -/
structure Leaves (h : Host ω) (s : Session ω) (i : Instruction) (value : Word) (w : Session ω) :
    Prop where
  runs : s.Executes i
  result : CanReturn i (s.enter h i) value
  before : ReflTransGen Stays s w
  left : (execute h i).run (s.enter h i) = (leave value).run w

/-- **One move.** It stays in the active routine, or it is a step that leaves it. -/
theorem Move.stays_or_leaves (move : s.Move h u) :
    ReflTransGen Stays s u ∨ u = (s.step h).2 ∧ ∃ i value w, s.Leaves h i value w := by
  cases move with
  | line text echo => exact .inl (provideLine_stays h text echo s)
  | char c => exact .inl (provideChar_stays c s)
  | stepped begins resumes =>
      by_cases active : ∃ i, s.Executes i
      · obtain ⟨i, runs⟩ := active
        have entered := enter_stays h i s
        obtain stays | ⟨w, value, result, stays, left⟩ :=
          (runs.leavesLast begins resumes).stays_or_leaves
        · refine .inl ?_
          rw [runs.step_eq h]
          exact entered.trans (stays.trans (conclude_stays _ _ _))
        · exact .inr ⟨rfl, i, value, w, runs, result, entered.trans stays, left⟩
      · exact .inl (step_idle h active)

theorem inside_of_stays {e : CallStack} (stays : ReflTransGen Stays s t)
    (inside : e.Inside s.machine.stack) : e.Inside t.machine.stack := by
  induction stays with
  | refl => exact inside
  | tail _ change ih =>
      cases change with
      | within change => exact change.inside ih
      | around => exact ih

/-! ## Calls -/

/-- The next step of the session carries out a call that enters a routine. The stack of
the caller is the one that is left when the operands have been taken, and the target is
the variable that receives the result, for a kind of call that stores one. -/
structure Calls (h : Host ω) (s : Session ω) (i : Instruction) (stores : Bool)
    (caller : CallStack) (target : Option Byte) : Prop where
  runs : s.Executes i
  call : ∃ since, RoutineOp.of? i.opcode.count i.opcode.number.toNat = some (.call since stores)
  taken : ((resolveAll i.operands).run (s.enter h i)).2.machine.stack = caller
  named : target = if stores then i.store else none
  entered : ((execute h i).run (s.enter h i)).1 = .ok .called

/-- A call that stores a result is an opcode that does. -/
theorem stores_of_call {o : Opcode} {version since : Nat} (plain : o.form ≠ .extended)
    (call : RoutineOp.of? o.count o.number.toNat = some (.call since true)) :
    o.stores version = true := by
  unfold RoutineOp.of? at call
  split at call <;> simp_all [Opcode.stores]

/-- The calls are stack instructions, except that up to version 4 one of the numbers is
that of an arithmetic instruction. -/
theorem family_of_call {version : Nat} {count : OperandCount} {number since : Nat} {stores : Bool}
    {family : Family} (call : RoutineOp.of? count number = some (.call since stores))
    (found : Family.of? version count number = some family) :
    family = .stack ∨ family = .arithmetic := by
  unfold RoutineOp.of? at call
  split at call <;>
    simp_all [Family.of?, ControlOp.of?, BinaryOp.of?, StorageOp.of?, RoutineOp.of?]
  rw [← found]
  split <;> simp

/-- An arithmetic instruction enters no routine. -/
theorem arithmetic_outcome {operands : List Word} {outcome : Outcome}
    (run : (arithmetic i operands).run s = (.ok outcome, t)) : outcome = .advanced := by
  obtain ⟨_, _, run⟩ := Op.run_bind_eq_ok run
  obtain ⟨_, _, run⟩ := Op.run_bind_eq_ok run
  exact (Except.ok.inj (Prod.mk.inj run).1).symm

theorem operand_unmoved (operands : List Word) (place : Nat) (s : Session ω) :
    ((operand operands place).run s).2 = s := by
  rw [operand]
  cases operands[place]? <;> rfl

theorem requireVersion_unmoved (i : Instruction) (least : Nat) (s : Session ω) :
    ((requireVersion i least).run s).2 = s := by
  rw [requireVersion, viewMachine, Op.run_view_bind]
  split <;> rfl

/-- A call that enters a routine puts its frame on the stack, to return to the program
counter. -/
theorem call_entered {operands : List Word} {since : Nat} {stores : Bool}
    (formed : s.machine.stack.WellFormed)
    (run : (routine i operands (.call since stores)).run s = (.ok .called, t)) :
    ∃ locals, s.machine.stack.Admits s.machine.pc locals ∧
      t.machine.stack = s.machine.stack.entered s.machine.pc (if stores then i.store else none)
        locals := by
  obtain ⟨_, _, run⟩ := Op.run_bind_eq_ok run
  rw [requireVersion_unmoved] at run
  obtain ⟨packed, _, run⟩ := Op.run_bind_eq_ok run
  rw [operand_unmoved, viewMachine, Op.run_view_bind] at run
  obtain ⟨entered, given, run⟩ := Op.run_bind_eq_ok run
  obtain ⟨outcome, rfl⟩ := Prod.mk.inj run
  cases entered with
  | false => cases outcome
  | true => exact Machine.callRoutine_entered formed (Prod.ext given rfl)

/-- **Entering.** After a step that calls, the routine's frame stands where the caller's
cells ended. -/
theorem Calls.step_stack {stores : Bool} {caller : CallStack} {target : Option Byte}
    (calls : s.Calls h i stores caller target) (formed : s.machine.stack.WellFormed) :
    target.isSome = stores ∧ ∃ locals, caller.Admits i.next locals ∧
      (s.step h).2.machine.stack = caller.entered i.next target locals := by
  obtain ⟨runs, ⟨since, call⟩, rfl, rfl, entered⟩ := calls
  rw [runs.step_eq h, conclude_machine]
  obtain ⟨stack, kept⟩ := run_resolveAll i.operands (s.enter h i)
  have changes : ReflTransGen (Change fun _ => False) (s.enter h i) _ :=
    changes_of_acts (acts_of_works (resolveAll_madeOf i.operands (s.enter h i)))
  rcases resolved : (resolveAll i.operands).run (s.enter h i) with ⟨fault | operands, t⟩
  · rw [execute, Op.run_bind_error resolved] at entered
    cases entered
  rw [resolved] at kept changes
  have pc : t.machine.pc = i.next := congrArg (·.machine.pc) kept
  have formed : t.machine.stack.WellFormed :=
    Machine.wellFormed_of_changes (changes_within changes).1 (fun _ _ none => none.elim) formed
  obtain ⟨plain, family, found, run⟩ | ⟨_, fault, run⟩ := run_execute h i resolved
  · have named : (if stores then i.store else none).isSome = stores := by
      have stored := (Instruction.decode_ok runs.decoded).stores
      cases stores with
      | false => rfl
      | true => exact stored.trans (stores_of_call plain call)
    refine ⟨named, ?_⟩
    rw [run] at entered ⊢
    rcases ended : (executeAs h i operands family).run t with ⟨fault | outcome, u⟩
    · rw [ended] at entered
      cases entered
    rw [ended] at entered
    obtain rfl : outcome = .called := Except.ok.inj entered
    obtain rfl | rfl := family_of_call call found
    · rw [executeAs, dispatch, call] at ended
      rw [← pc]
      exact call_entered formed ended
    · cases arithmetic_outcome ended
  · rw [run] at entered
    cases entered

/-! ## Returning -/

/-- A move after which the active frame begins at a place or above it. -/
def MoveAbove (h : Host ω) (place : Nat) (s u : Session ω) : Prop :=
  s.Move h u ∧ place ≤ u.machine.stack.frame

theorem run_leave (value : Word) (s : Session ω) :
    (leave value).run s =
      (((Machine.returnRoutine value).run s.machine).1.map fun _ => .returned,
        { s with machine := ((Machine.returnRoutine value).run s.machine).2 }) := by
  have whole : (onMachine (Machine.returnRoutine value)).run s =
      (((Machine.returnRoutine value).run s.machine).1,
        { s with machine := ((Machine.returnRoutine value).run s.machine).2 }) := rfl
  rw [leave, Op.run_bind, whole]
  rcases (Machine.returnRoutine value).run s.machine with ⟨_ | _, _⟩ <;> rfl

section Return

variable {stores : Bool} {caller : CallStack} {target : Option Byte} {returnAddr : Nat}
  {locals : List Word}

/-- **Isolation, one move.** The routine that was entered is not left, or a step leaves
it. -/
theorem Move.inside_or_own (move : s.Move h u)
    (inside : (caller.entered returnAddr target locals).Inside s.machine.stack) :
    (caller.entered returnAddr target locals).Inside u.machine.stack ∨
      u = (s.step h).2 ∧ ∃ i value w, s.Leaves h i value w ∧
        (caller.entered returnAddr target locals).Inside w.machine.stack ∧
        w.machine.stack.frame = caller.depth := by
  obtain stays | ⟨rfl, i, value, w, leaves⟩ := move.stays_or_leaves
  · exact .inl (inside_of_stays stays inside)
  have inside := inside_of_stays leaves.before inside
  by_cases own : w.machine.stack.frame = caller.depth
  · exact .inr ⟨rfl, i, value, w, leaves, inside, own⟩
  · refine .inl ?_
    rw [leaves.runs.step_eq h, conclude_machine, leaves.left, run_leave]
    exact Machine.returnRoutine_inside value inside own

/-- **Isolation, a run.** As long as the active frame does not begin below the routine's,
the routine is not left. -/
theorem inside_of_moves (admits : caller.Admits returnAddr locals)
    (inside : (caller.entered returnAddr target locals).Inside s.machine.stack)
    (moves : ReflTransGen (MoveAbove h caller.depth) s t) :
    (caller.entered returnAddr target locals).Inside t.machine.stack := by
  induction moves with
  | refl => exact inside
  | @tail t u _ above ih =>
      obtain ⟨move, above⟩ := above
      obtain kept | ⟨rfl, i, value, w, leaves, within, own⟩ := move.inside_or_own ih
      · exact kept
      · -- Leaving the routine makes the caller's frame the active one, which begins below.
        have frame := Machine.frame_returnRoutine admits within own value
        have header := CallStack.header_inside admits.formed.frameTop_le
        rw [leaves.runs.step_eq h, conclude_machine, leaves.left, run_leave] at above
        simp only [frame] at above
        omega

/-- **Calls return to their callers.** A genuine session carries out a call that enters a
routine; the call names a variable exactly if it is of a kind that stores a result. The
frame of the routine begins where the caller's cells ended. After any moves in which the
active frame never begins below it, the caller's cells are unchanged. A move after which
the active frame does begin below is a step; if it does not fail, it returns a value as
its instruction says, and the story goes on behind the call with the caller's frame and
cells, except that the variable of the call has received the value. -/
theorem call_returns {story : Array Byte} {name : String} (genuine : Genuine story name h s)
    (calls : s.Calls h i stores caller target) :
    target.isSome = stores ∧
    (s.step h).2.machine.stack.frame = caller.depth ∧
    ∀ t, ReflTransGen (MoveAbove h caller.depth) (s.step h).2 t →
      t.machine.stack.cells.extract 0 caller.depth = caller.cells ∧
      ∀ u, t.Move h u → u.machine.stack.frame < caller.depth →
        u = (t.step h).2 ∧
        ((∀ error, (t.step h).1 ≠ .failed error) →
          ∃ j value, t.Executes j ∧ CanReturn j (t.enter h j) value ∧
            u.machine.pc = i.next ∧
            u.machine.stack.frame = caller.frame ∧
            u.machine.stack.cells = (caller.received value target).cells ∧
            ∀ number, target = some number → u.machine.peekVariable number = .ok value) := by
  obtain ⟨named, locals, admits, stack⟩ := calls.step_stack genuine.sound.formed
  have entered : (caller.entered i.next target locals).Inside (s.step h).2.machine.stack :=
    stack ▸ admits.inside_entered target
  refine ⟨named, congrArg CallStack.frame stack, fun t moves => ?_⟩
  have inside := inside_of_moves admits entered moves
  refine ⟨inside.below, fun u move below => ?_⟩
  obtain kept | ⟨rfl, j, value, w, leaves, within, own⟩ := move.inside_or_own inside
  · exact absurd kept.frame_le (Nat.not_le.mpr below)
  refine ⟨rfl, fun succeeds => ⟨j, value, leaves.runs, leaves.result, ?_⟩⟩
  have step := leaves.runs.step_eq h
  rw [leaves.left, run_leave] at step
  rcases run : (Machine.returnRoutine value).run w.machine with ⟨fault | _, machine⟩
  · rw [run] at step
    exact absurd (congrArg Prod.fst step) (succeeds _)
  · rw [run] at step
    obtain ⟨pc, received, held⟩ := Machine.returnRoutine_ok admits within own run
    have after : (t.step h).2.machine = machine := congrArg (·.2.machine) step
    rw [after, received]
    exact ⟨pc, CallStack.frame_received _ _ _, rfl, held⟩

/-- A story that calls a routine, which returns a number, and ends. -/
def callingStory : Array Byte :=
  #[3, 0, 0, 0, 0, 0x40, 0, 0x40, 0, 0x50, 0, 0x40, 0, 0x40, 0, 0x40] ++ Array.replicate 48 0 ++
    #[0xE0, 0x3F, 0, 0x24, 0, 0xBA, 0, 0, 1, 0, 7, 0x9B, 5, 0, 0, 0, 0, 0, 0, 0]

/-- The machine on which the story that calls is played. -/
@[irreducible] def callingMachine : Machine :=
  match Machine.load callingStory {} 0 with
  | .ok machine => machine
  | .error _ => default

theorem callingMachine_loaded : Machine.load callingStory {} 0 = .ok callingMachine := by
  have loads : (Machine.load callingStory {} 0).isOk = true := by decide +kernel
  rcases loaded : Machine.load callingStory {} 0 with _ | machine
  · rw [loaded] at loads
    cases loads
  · rw [callingMachine, loaded]

/-- The call of the story, whose result is pushed. -/
def callInstruction : Instruction where
  addr := 0x40
  opcode := ⟨.variable, .var, 0, none⟩
  operands := [.large 0x24]
  store := some 0
  branch := none
  text := none
  size := 5

/-- The return from the routine. -/
def returnInstruction : Instruction where
  addr := 0x4B
  opcode := ⟨.short, .one, 0x0B, none⟩
  operands := [.small 5]
  store := none
  branch := none
  text := none
  size := 2

/-- The routine of the story returns behind the call, and its result is pushed. -/
theorem callingStory_returns :
    (performAll Host.null [.step, .step] (start callingMachine "tale" ())).machine.pc = 0x45 ∧
      (performAll Host.null [.step, .step] (start callingMachine "tale" ())).machine.stack.cells =
        #[0, 0, 0, 0, 5] := by
  have calls : (start callingMachine "tale" ()).Calls Host.null callInstruction true
      CallStack.empty (some 0) := by
    refine ⟨⟨rfl, rfl, eq_ok_of_toOption ?_⟩, ⟨1, rfl⟩, ?_, rfl, eq_ok_of_toOption ?_⟩
    · decide +kernel
    · decide +kernel
    · decide +kernel
  have runs : ((start callingMachine "tale" ()).step Host.null).2.Executes returnInstruction := by
    refine ⟨?_, ?_, eq_ok_of_toOption ?_⟩
    · decide +kernel
    · decide +kernel
    · decide +kernel
  have move : ((start callingMachine "tale" ()).step Host.null).2.Move Host.null
      (performAll Host.null [.step, .step] (start callingMachine "tale" ())) := by
    refine .stepped ?_ ?_
    · rintro ⟨i, runs', restarts⟩
      cases runs.next.symm.trans runs'.next
      cases restarts
    · rintro ⟨i, _, _, runs', restores, _⟩
      cases runs.next.symm.trans runs'.next
      cases restores
  have running : (((start callingMachine "tale" ()).step Host.null).2.step Host.null).1 =
      .running := by decide +kernel
  obtain ⟨_, _, isolated⟩ := call_returns (.started callingMachine_loaded ()) calls
  obtain ⟨_, returned⟩ := (isolated _ .refl).2 _ move (by decide +kernel)
  obtain ⟨j, value, runs', ⟨operands, t, resolved, returns⟩, pc, _, cells, _⟩ :=
    returned fun error failed => by cases running.symm.trans failed
  cases runs.next.symm.trans runs'.next
  -- The instruction returns its operand, and no other rule gives it a result.
  obtain rfl : operands = [5] := (Except.ok.inj (Prod.mk.inj resolved).1).symm
  cases returns with
  | operand _ given =>
      cases given
      exact ⟨pc, cells⟩
  | popped op _ => cases op
  | branched short =>
      obtain ⟨_, impossible, _⟩ := short
      cases impossible
  | yes op => cases op
  | no op => cases op
  | printed op => cases op

end Return

end Session

end ZMachine
