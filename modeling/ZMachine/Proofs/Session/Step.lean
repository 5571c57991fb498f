import ZMachine.Proofs.Session.Change

/-!
# Steps and runs of a session

A step carries out one instruction. It changes the session only in the ways of its
instruction, and it takes back a snapshot only when its instruction restores, the
host hands that snapshot over and it fits (`step_changes`). An answer of the player is refused,
or it ends the pending read and finishes its instruction (`Answers`). Whatever is asked
of a session, in whatever order, is made of such changes (`performAll_changes`).
-/

set_option autoImplicit false

namespace ZMachine

/-- What a session waits for while a read is pending. -/
def PendingRead.status : PendingRead → Status
  | .line .. => .waitingForLine
  | .char .. => .waitingForChar

namespace Session

open Relation (ReflTransGen)

variable {ω : Type} {offered : Snapshot → Prop}

/-- The next step of the session carries out an instruction. -/
structure Executes (s : Session ω) (i : Instruction) : Prop where
  going : s.halted = false
  free : s.pending = none
  next : nextInstruction s.machine = .ok i

/-- The next step of the session restores, and the host hands over a snapshot. -/
def Restores (h : Host ω) (s : Session ω) (snapshot : Snapshot) : Prop :=
  ∃ i, s.Executes i ∧
    ControlOp.of? i.opcode.count i.opcode.number.toNat = some .restore ∧
    (h.restore s.sourceName (s.enter h i).world).1 = .ok (some snapshot)

/-! ## Instructions -/

/-- Taking operands leaves all but the stack alone. -/
theorem run_resolveAll (operands : List Operand) (s : Session ω) :
    ∃ stack, ((resolveAll operands).run s).2 = { s with machine := { s.machine with stack } } := by
  have resolved : ∀ (o : Operand) (s : Session ω),
      ∃ stack, ((resolve o).run s).2 = { s with machine := { s.machine with stack } } := by
    intro o s
    match o with
    | .large _ => exact ⟨s.machine.stack, rfl⟩
    | .small _ => exact ⟨s.machine.stack, rfl⟩
    | .variable number =>
        rw [resolve, Machine.readVariable]
        by_cases zero : number = 0
        · rw [if_pos zero]
          exact ⟨_, rfl⟩
        · rw [if_neg zero]
          exact ⟨s.machine.stack, by split <;> rfl⟩
  induction operands generalizing s with
  | nil => exact ⟨s.machine.stack, rfl⟩
  | cons o rest ih =>
      obtain ⟨stack, first⟩ := resolved o s
      rw [resolveAll, Op.run_bind]
      rcases run : (resolve o).run s with ⟨_ | value, t⟩
      · rw [run] at first
        exact ⟨stack, first⟩
      · rw [run] at first
        obtain rfl : t = { s with machine := { s.machine with stack } } := first
        obtain ⟨stack', second⟩ := ih { s with machine := { s.machine with stack } }
        refine ⟨stack', ?_⟩
        simp only [Op.run_bind]
        rcases run' : (resolveAll rest).run { s with machine := { s.machine with stack } } with
          ⟨_ | values, u⟩
        · rw [run'] at second
          exact second
        · rw [run'] at second
          exact second

/-- What holds of each operation that an opcode number may stand for, and of a
refusal, holds of carrying out the opcode. -/
theorem dispatch_induct {ο : Type} {family : Family} {i : Instruction}
    {of? : OperandCount → Nat → Option ο} {run : ο → Op (Session ω) Outcome}
    {P : Op (Session ω) Outcome → Prop} (refused : ∀ e, P (Op.fail e))
    (each : ∀ op, of? i.opcode.count i.opcode.number.toNat = some op → P (run op)) :
    P (dispatch family i of? run) := by
  rw [dispatch]
  rcases found : of? i.opcode.count i.opcode.number.toNat with _ | op
  · exact refused _
  · exact each op found

/-- An instruction of a family other than the control operations leaves the active
routine last. -/
theorem executeAs_leavesLast (h : Host ω) (i : Instruction) (operands : List Word)
    (stack : CallStack) {family : Family} (other : family ≠ .control) :
    LeavesLast (Returns i operands stack) (executeAs h i operands family) := by
  cases family with
  | control => exact absurd rfl other
  | arithmetic => exact arithmetic_leavesLast i operands
  | memory =>
      refine .bind (operand_madeOf _ _) fun a => ?_
      exact dispatch_induct .fail fun op _ =>
        (storage_leavesLast i operands a op).mono fun _ => .branched
  | stack => exact dispatch_induct .fail fun op _ => routine_leavesLast i operands op
  | object =>
      refine .bind (operand_madeOf _ _) fun obj => ?_
      exact dispatch_induct .fail fun op _ =>
        (object_leavesLast h i operands obj op).mono fun _ => .branched
  | display =>
      refine dispatch_induct .fail fun op found => (display_leavesLast h i operands op).mono ?_
      rintro _ ⟨rfl, rfl⟩
      exact .printed found
  | input => exact dispatch_induct .fail fun op _ => input_leavesLast h i operands op

theorem executeAs_changes (h : Host ω) (i : Instruction) (operands : List Word) (family : Family)
    {s : Session ω} (allowed : ControlOp.of? i.opcode.count i.opcode.number.toNat = some .restore →
      ∀ snapshot, (h.restore s.sourceName s.world).1 = .ok (some snapshot) →
        s.WouldTake snapshot → offered snapshot) :
    ReflTransGen (Change offered) s ((executeAs h i operands family).run s).2 := by
  by_cases control : family = .control
  · subst control
    refine dispatch_induct (P := fun x => ReflTransGen (Change offered) s (x.run s).2)
      (fun _ => .refl) fun op found => control_changes h i operands found ?_
    rintro rfl
    exact allowed found
  · exact (executeAs_leavesLast h i operands s.machine.stack control).changes s

/-- An instruction whose operands were taken is carried out as one of its family, or
refused when it has none or is written in the extended form. -/
theorem run_execute (h : Host ω) (i : Instruction) {s t : Session ω} {operands : List Word}
    (resolved : (resolveAll i.operands).run s = (.ok operands, t)) :
    (i.opcode.form ≠ .extended ∧ ∃ family,
      Family.of? t.machine.version i.opcode.count i.opcode.number.toNat = some family ∧
      (execute h i).run s = (executeAs h i operands family).run t) ∨
    (i.opcode.form = .extended ∨
      Family.of? t.machine.version i.opcode.count i.opcode.number.toNat = none) ∧
      ∃ fault, (execute h i).run s = (.error fault, t) := by
  have viewed : (viewMachine (·.version)).run t = (.ok t.machine.version, t) := rfl
  rw [execute, Op.run_bind_ok resolved, Op.run_bind_ok viewed]
  by_cases extended : i.opcode.form = .extended
  · refine .inr ⟨.inl extended, .extendedOpcode (i.opcode.extended.getD 0).toNat, ?_⟩
    simp only [if_pos extended, Op.run_bind, Op.run_fail]
  · simp only [if_neg extended]
    generalize Family.of? t.machine.version i.opcode.count i.opcode.number.toNat = found
    cases found with
    | none => exact .inr ⟨.inr rfl, _, rfl⟩
    | some family => exact .inl ⟨extended, family, rfl, rfl⟩

/-- The numbers of memory operations belong to the memory family in every version. -/
theorem family_of_storage {version : Nat} {count : OperandCount} {number : Nat} {op : StorageOp}
    (carried : StorageOp.of? count number = some op) :
    Family.of? version count number = some .memory := by
  unfold StorageOp.of? at carried
  split at carried <;> cases carried <;>
    simp [Family.of?, ControlOp.of?, BinaryOp.of?, StorageOp.of?]

/-- A memory operation is carried out on the operands that were taken. -/
theorem run_execute_storage (h : Host ω) {i : Instruction} {op : StorageOp}
    (carried : StorageOp.of? i.opcode.count i.opcode.number.toNat = some op)
    (plain : i.opcode.form ≠ .extended) {s t : Session ω} {a : Word} {operands : List Word}
    (resolved : (resolveAll i.operands).run s = (.ok (a :: operands), t)) :
    (execute h i).run s = (storage i (a :: operands) a op).run t := by
  obtain ⟨_, family, found, run⟩ | ⟨extended | none, _⟩ := run_execute h i resolved
  · rw [family_of_storage carried] at found
    cases found
    have first : (operand (a :: operands) 0).run t = (.ok a, t) := rfl
    rw [run, executeAs, Op.run_bind_ok first, dispatch, carried]
  · exact absurd extended plain
  · rw [family_of_storage carried] at none
    cases none

theorem execute_changes (h : Host ω) (i : Instruction) {s : Session ω}
    (allowed : ControlOp.of? i.opcode.count i.opcode.number.toNat = some .restore →
      ∀ snapshot, (h.restore s.sourceName s.world).1 = .ok (some snapshot) →
        s.WouldTake snapshot → offered snapshot) :
    ReflTransGen (Change offered) s ((execute h i).run s).2 := by
  have made := acting (resolveAll_madeOf (ω := ω) i.operands)
  obtain ⟨stack, kept⟩ := run_resolveAll i.operands s
  rcases resolved : (resolveAll i.operands).run s with ⟨fault | operands, t⟩
  · rw [execute, Op.run_bind_error resolved]
    exact changes_of_acts (made.reaches resolved)
  · have reached : ReflTransGen (Change offered) s t := changes_of_acts (made.reaches resolved)
    rw [resolved] at kept
    obtain rfl : t = { s with machine := { s.machine with stack } } := kept
    obtain ⟨_, family, _, run⟩ | ⟨_, fault, run⟩ := run_execute h i resolved
    · rw [run]
      exact reached.trans (executeAs_changes h i operands family allowed)
    · rwa [run]

/-! ## Steps -/

theorem Executes.step_eq {s : Session ω} {i : Instruction} (runs : s.Executes i) (h : Host ω) :
    s.step h = conclude i s.machine.version ((execute h i).run (s.enter h i)) := by
  simp only [step, runs.going, runs.free, advance, runs.next, Bool.false_eq_true, if_false]

theorem conclude_stays (i : Instruction) (version : Nat)
    (ended : Except Fault Outcome × Session ω) :
    ReflTransGen Stays ended.2 (conclude i version ended).2 := by
  have halted : ended.2.Stays { ended.2 with halted := true } :=
    .around ended.2.pending ended.2.streams true ended.2.executed ended.2.world
  rcases ended with ⟨_ | outcome, s⟩
  · exact .single halted
  · cases outcome with
    | quit => exact .single halted
    | _ => exact .refl

theorem enter_stays (h : Host ω) (i : Instruction) (s : Session ω) :
    ReflTransGen Stays s (s.enter h i) := by
  have moved : s.Stays { s with machine := { s.machine with pc := i.next } } :=
    .within (.moved i.next)
  have entered : Stays { s with machine := { s.machine with pc := i.next } } (s.enter h i) :=
    .around _ _ _ _ _
  exact .head moved (.single entered)

/-- A step of a session that carries out no instruction does no more than halt it. -/
theorem step_idle (h : Host ω) {s : Session ω} (idle : ¬ ∃ i, s.Executes i) :
    ReflTransGen Stays s (s.step h).2 := by
  by_cases going : s.halted = false
  · rcases free : s.pending with _ | pending
    · rcases next : nextInstruction s.machine with fault | i
      · simp only [step, going, free, advance, next, halt, Bool.false_eq_true, if_false]
        exact .single (.around none s.streams true s.executed s.world)
      · exact absurd ⟨i, going, free, next⟩ idle
    · simp only [step, going, free, Bool.false_eq_true, if_false]
      cases pending <;> exact .refl
  · simp only [step, Bool.not_eq_false] at going ⊢
    rw [if_pos going]

/-- **One step.** A step takes back only a snapshot that it restores and that fits. -/
theorem step_changes (h : Host ω) {s : Session ω}
    (allowed : ∀ snapshot, s.Restores h snapshot → s.WouldTake snapshot → offered snapshot) :
    ReflTransGen (Change offered) s (s.step h).2 := by
  by_cases active : ∃ i, s.Executes i
  · obtain ⟨i, runs⟩ := active
    rw [runs.step_eq h]
    refine .trans (changes_of_stays (enter_stays h i s)) ?_
    refine .trans ?_ (changes_of_stays (conclude_stays _ _ _))
    exact execute_changes h i fun restores snapshot answer =>
      allowed snapshot ⟨i, runs, restores, answer⟩
  · exact changes_of_stays (step_idle h active)

/-! ## The player's answers -/

/-- The session waits for the player in the way that the status says. -/
def Awaits (s : Session ω) (status : Status) : Prop :=
  s.pending.map PendingRead.status = some status

/-- How an answer that a read waits for is taken: the read is over and its instruction is
finished, and the session is halted if that fails. -/
inductive Answers (s : Session ω) : Except ExecutionError Unit × Session ω → Prop where
  | taken {t : Session ω} (finished : ReflTransGen Works { s with pending := none } t) :
      Answers s (.ok (), t)
  | failed {t : Session ω} (finished : ReflTransGen Works { s with pending := none } t)
      (error : ExecutionError) : Answers s (.error error, { t with halted := true })

theorem Answers.stays {s : Session ω} {answered : Except ExecutionError Unit × Session ω}
    (answers : s.Answers answered) : ReflTransGen Stays s answered.2 := by
  have released : s.Stays { s with pending := none } :=
    .around none s.streams s.halted s.executed s.world
  cases answers with
  | taken finished => exact .head released (stays_of_acts (acts_of_works finished))
  | @failed t finished error =>
      refine .head released ((stays_of_acts (acts_of_works finished)).tail ?_)
      exact .around t.pending t.streams true t.executed t.world

theorem provideLine_answers (h : Host ω) (line : String) (echo : Bool) {s : Session ω}
    (awaits : s.Awaits .waitingForLine) : s.Answers (s.provideLine h line echo) := by
  obtain ⟨read, pending, status⟩ := Option.map_eq_some_iff.mp awaits
  rcases read with ⟨addr, textAddr, textMax, parseAddr, target⟩ | _
  · simp only [provideLine, pending]
    generalize (line.dropEndWhile _).toString = line
    have made := finishRead_madeOf h line echo textAddr textMax parseAddr target
    rcases run : (finishRead h line echo textAddr textMax parseAddr target).run
      { s with pending := none } with ⟨_ | _, t⟩
    · exact .failed (made.reaches run) _
    · exact .taken (made.reaches run)
  · cases status

theorem provideLine_refused (h : Host ω) (line : String) (echo : Bool) {s : Session ω}
    (other : ¬ s.Awaits .waitingForLine) :
    s.provideLine h line echo = (.error ⟨s.machine.pc, "provide_line", .noLinePending⟩, s) := by
  rcases pending : s.pending with _ | _ | _
  · simp only [provideLine, pending]
  · exact absurd (congrArg (Option.map PendingRead.status) pending) other
  · simp only [provideLine, pending]

theorem provideChar_answers (c : Char) {s : Session ω} (awaits : s.Awaits .waitingForChar) :
    s.Answers (s.provideChar c) := by
  obtain ⟨read, pending, status⟩ := Option.map_eq_some_iff.mp awaits
  rcases read with _ | ⟨addr, _ | number⟩
  · cases status
  · simp only [provideChar, pending]
    exact .taken .refl
  · have made := onMachine_madeOf (ω := ω)
      (Machine.writeVariable_madeOf number (Zscii.ofChar c).toUInt16)
    simp only [provideChar, pending]
    rcases run : (onMachine (Machine.writeVariable number (Zscii.ofChar c).toUInt16)).run
      { s with pending := none } with ⟨_ | _, t⟩
    · exact .failed (made.reaches run) _
    · exact .taken (made.reaches run)

theorem provideChar_refused (c : Char) {s : Session ω} (other : ¬ s.Awaits .waitingForChar) :
    s.provideChar c = (.error ⟨s.machine.pc, "provide_char", .noCharPending⟩, s) := by
  rcases pending : s.pending with _ | _ | _
  · simp only [provideChar, pending]
  · simp only [provideChar, pending]
  · exact absurd (congrArg (Option.map PendingRead.status) pending) other

theorem provideLine_stays (h : Host ω) (line : String) (echo : Bool) (s : Session ω) :
    ReflTransGen Stays s (s.provideLine h line echo).2 := by
  by_cases awaits : s.Awaits .waitingForLine
  · exact (provideLine_answers h line echo awaits).stays
  · rw [provideLine_refused h line echo awaits]

theorem provideChar_stays (c : Char) (s : Session ω) :
    ReflTransGen Stays s (s.provideChar c).2 := by
  by_cases awaits : s.Awaits .waitingForChar
  · exact (provideChar_answers c awaits).stays
  · rw [provideChar_refused c awaits]

theorem provideLine_changes (h : Host ω) (line : String) (echo : Bool) (s : Session ω) :
    ReflTransGen (Change offered) s (s.provideLine h line echo).2 :=
  changes_of_stays (provideLine_stays h line echo s)

theorem provideChar_changes (c : Char) (s : Session ω) :
    ReflTransGen (Change offered) s (s.provideChar c).2 :=
  changes_of_stays (provideChar_stays c s)

/-! ## Runs -/

/-- What can be asked of a session. -/
inductive Action where
  | step
  | run (count : Nat)
  | line (text : String) (echo : Bool)
  | char (c : Char)
  deriving DecidableEq, Repr, Inhabited

/-- The session after an action, whether or not it succeeds. -/
def perform (h : Host ω) (s : Session ω) : Action → Session ω
  | .step => (s.step h).2
  | .run count => (run h count s).2
  | .line text echo => (s.provideLine h text echo).2
  | .char c => (s.provideChar c).2

/-- The session after actions, one after another. -/
def performAll (h : Host ω) (actions : List Action) (s : Session ω) : Session ω :=
  actions.foldl (perform h) s

/-- A run is some number of steps. -/
theorem run_eq_steps (h : Host ω) (count : Nat) (s : Session ω) :
    ∃ steps ≤ count, (run h count s).2 = performAll h (List.replicate steps .step) s := by
  induction count generalizing s with
  | zero => exact ⟨0, Nat.le_refl _, rfl⟩
  | succ count ih =>
      have first : perform h s .step = (s.step h).2 := rfl
      rw [run]
      rcases stepped : s.step h with ⟨status, t⟩
      rw [stepped] at first
      cases status with
      | running =>
          obtain ⟨steps, few, same⟩ := ih t
          refine ⟨steps + 1, Nat.succ_le_succ few, ?_⟩
          rw [performAll, List.replicate_succ, List.foldl_cons, first]
          exact same
      | _ => exact ⟨1, Nat.succ_le_succ (Nat.zero_le _), first.symm⟩

theorem steps_changes (h : Host ω) (steps : Nat) (s : Session ω) :
    ReflTransGen (Change fun _ => True) s (performAll h (List.replicate steps .step) s) := by
  induction steps generalizing s with
  | zero => exact .refl
  | succ steps ih => exact .trans (step_changes h fun _ _ _ => trivial) (ih (s.step h).2)

/-- **Runs.** Whatever is asked of a session changes it only by single changes. -/
theorem performAll_changes (h : Host ω) (actions : List Action) (s : Session ω) :
    ReflTransGen (Change fun _ => True) s (performAll h actions s) := by
  induction actions generalizing s with
  | nil => exact .refl
  | cons action rest ih =>
      refine .trans ?_ (ih (perform h s action))
      cases action with
      | step => exact step_changes h fun _ _ _ => trivial
      | run count =>
          obtain ⟨steps, _, same⟩ := run_eq_steps h count s
          rw [perform, same]
          exact steps_changes h steps s
      | line text echo => exact provideLine_changes h text echo s
      | char c => exact provideChar_changes c s

end Session

end ZMachine
