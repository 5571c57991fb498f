import ZMachine.Proofs.Machine.Story
import ZMachine.Session.Run

/-!
# Changes of a session

Every instruction, and every answer of the player, changes a session only by
changing its machine and by keeping its own books: the pending read, the streams,
whether the story has ended, the count of instructions and the host's world. The
name of the story is never changed.

While an instruction is carried out, only the machine, the streams and the world
change (`Acts`). An instruction that neither starts the story over nor restores ends in
one of four ways (`Ends`): it stops with a fault, goes on, waits for the player, or
leaves the active routine, and whichever it is comes last of all (`LeavesLast`).

A snapshot is taken back only by an instruction that restores, and only when it is
the one that the host hands over for it, and fits (`restore_changes`).
-/

set_option autoImplicit false

namespace ZMachine

/-- What is known of a read that an instruction has begun: a text buffer has a size of 3 at
least. -/
def PendingRead.Begun : PendingRead → Prop
  | .line _ _ textMax _ _ => 3 ≤ textMax
  | .char .. => True

/-- How the instruction that begins a read ends. -/
def PendingRead.outcome : PendingRead → Outcome
  | .line .. => .awaitLine
  | .char .. => .awaitChar

/-- Whether an instruction that ends so waits for the player. -/
def Outcome.waits : Outcome → Bool
  | .awaitLine => true
  | .awaitChar => true
  | _ => false

namespace Session

open Relation (ReflTransGen)

variable {ω α : Type} {offered : Snapshot → Prop} {R : Machine → Machine → Prop}

/-- A single change of a session. -/
inductive Change (offered : Snapshot → Prop) (s : Session ω) : Session ω → Prop where
  | within {machine : Machine} (change : s.machine.Change offered machine) :
      Change offered s { s with machine }
  | around (pending : Option PendingRead) (streams : Streams) (halted : Bool) (executed : Nat)
      (world : ω) : Change offered s { s with pending, streams, halted, executed, world }

/-- A single change of a session that does not leave the active routine. -/
inductive Stays (s : Session ω) : Session ω → Prop where
  | within {machine : Machine} (stays : s.machine.Stays machine) : Stays s { s with machine }
  | around (pending : Option PendingRead) (streams : Streams) (halted : Bool) (executed : Nat)
      (world : ω) : Stays s { s with pending, streams, halted, executed, world }

/-- A single change of a session in the course of an instruction: its machine changes
in one of the given ways, or something goes to the streams and to the host. -/
inductive Acts (R : Machine → Machine → Prop) (s : Session ω) : Session ω → Prop where
  | within {machine : Machine} (change : R s.machine machine) : Acts R s { s with machine }
  | sent (streams : Streams) (world : ω) : Acts R s { s with streams, world }

/-- A single change of a session in the course of an instruction that neither leaves the
active routine nor moves the program counter. -/
abbrev Works : Session ω → Session ω → Prop := Acts Machine.Works

theorem Stays.change {s t : Session ω} (stays : s.Stays t) : s.Change offered t := by
  cases stays with
  | within stays => exact .within stays.change
  | around => exact .around _ _ _ _ _

theorem changes_of_stays {s t : Session ω} (stays : ReflTransGen Stays s t) :
    ReflTransGen (Change offered) s t :=
  ReflTransGen.mono (fun _ _ => Stays.change) s t stays

theorem Acts.stays {s t : Session ω} (acts : Acts Machine.Stays s t) : s.Stays t := by
  cases acts with
  | within stays => exact .within stays
  | sent streams world => exact .around s.pending streams s.halted s.executed world

theorem stays_of_acts {s t : Session ω} (acts : ReflTransGen (Acts Machine.Stays) s t) :
    ReflTransGen Stays s t :=
  ReflTransGen.mono (fun _ _ => Acts.stays) s t acts

theorem changes_of_acts {s t : Session ω} (acts : ReflTransGen (Acts Machine.Stays) s t) :
    ReflTransGen (Change offered) s t :=
  changes_of_stays (stays_of_acts acts)

theorem Works.acts {s t : Session ω} (works : s.Works t) : Acts Machine.Stays s t := by
  cases works with
  | within works => exact .within (.works works)
  | sent streams world => exact .sent streams world

theorem acts_of_works {s t : Session ω} (works : ReflTransGen Works s t) :
    ReflTransGen (Acts Machine.Stays) s t :=
  ReflTransGen.mono (fun _ _ => Works.acts) s t works

/-- An instruction in its course leaves the pending read, the end of the story and the
count of instructions alone. -/
theorem books_of_acts {s t : Session ω} (acts : ReflTransGen (Acts R) s t) :
    t.pending = s.pending ∧ t.halted = s.halted ∧ t.executed = s.executed := by
  induction acts with
  | refl => exact ⟨rfl, rfl, rfl⟩
  | tail _ act ih => cases act <;> exact ih

/-! ## Parts -/

theorem onMachine_madeOf {x : Op Machine α} (made : x.MadeOf R) :
    (onMachine x : Op (Session ω) α).MadeOf (Acts R) :=
  made.zoom (fun _ => rfl) fun _ _ _ change => .within change

theorem onMemory_madeOf {x : Op Memory α} (made : x.MadeOf (Memory.Writes Memory.Dynamic)) :
    (onMemory x : Op (Session ω) α).MadeOf Works :=
  onMachine_madeOf (Machine.onMemory_madeOf made)

theorem run_attempt (request : ω → Except HostError α × ω) (s : Session ω) :
    (attempt request).run s = (.ok (request s.world).1, { s with world := (request s.world).2 }) :=
  rfl

theorem attempt_madeOf (request : ω → Except HostError α × ω) :
    (attempt request).MadeOf Works :=
  fun s => .single (.sent s.streams (request s.world).2)

theorem request_madeOf (r : ω → Except HostError α × ω) : (request r).MadeOf Works := by
  refine .bind (attempt_madeOf r) fun answer => ?_
  cases answer with
  | ok a => exact .pure a
  | error e => exact .fail _

/-! ## Operands and results -/

theorem resolve_madeOf (o : Operand) :
    (resolve o : Op (Session ω) Word).MadeOf Works := by
  match o with
  | .large value => exact .pure _
  | .small value => exact .pure _
  | .variable number => exact onMachine_madeOf (Machine.readVariable_madeOf number)

theorem resolveAll_madeOf (operands : List Operand) :
    (resolveAll operands : Op (Session ω) (List Word)).MadeOf Works := by
  induction operands with
  | nil => exact .pure _
  | cons o rest ih => exact .bind (resolve_madeOf o) fun _ => .bind ih fun _ => .pure _

theorem operand_madeOf (operands : List Word) (i : Nat) :
    (operand operands i : Op (Session ω) Word).MadeOf Works := by
  rw [operand]
  cases operands[i]? with
  | none => exact .fail _
  | some value => exact .pure value

theorem requireVersion_madeOf (i : Instruction) (least : Nat) :
    (requireVersion i least : Op (Session ω) Unit).MadeOf Works :=
  .bind (.view _) fun _ => .ite (.fail _) (.pure _)

theorem store_madeOf (i : Instruction) (value : Word) :
    (store i value : Op (Session ω) Unit).MadeOf Works := by
  rw [store]
  cases i.store with
  | none => exact .pure _
  | some number => exact onMachine_madeOf (Machine.writeVariable_madeOf number value)

/-! ## Returning, branching and calling -/

theorem leave_changes (value : Word) :
    (leave value : Op (Session ω) Outcome).MadeOf (Change offered) :=
  .bind ((Machine.returnRoutine_madeOf value).zoom (fun _ => rfl) fun _ _ _ change =>
    .within change) fun _ => .pure _

/-- How an instruction that has done all else ends: it stops with a fault, goes on, waits
for the player, or leaves the active routine with one of the given results. -/
inductive Ends (results : Word → Prop) (t : Session ω) : Except Fault Outcome × Session ω → Prop
    where
  | stopped (fault : Fault) : Ends results t (.error fault, t)
  | goesOn {outcome : Outcome} (awake : outcome.waits = false) : Ends results t (.ok outcome, t)
  | waits {read : PendingRead} (begun : read.Begun) :
      Ends results t (.ok read.outcome, { t with pending := some read })
  | leaves {value : Word} (result : results value) : Ends results t ((leave value).run t)

/-- From a session the operation acts in the active routine until, last of all, it ends
in one of the four ways. -/
def LeavesLastFrom (results : Word → Prop) (s : Session ω) (x : Op (Session ω) Outcome) : Prop :=
  ∃ t, ReflTransGen (Acts Machine.Stays) s t ∧ Ends results t (x.run s)

/-- The operation leaves the active routine at most once, last of all, with one of the
given results. -/
def LeavesLast (results : Word → Prop) (x : Op (Session ω) Outcome) : Prop :=
  ∀ s, LeavesLastFrom results s x

section LeavesLast

variable {β : Type} {results results' : Word → Prop} {x y : Op (Session ω) Outcome}
  {condition : Prop} [Decidable condition]

theorem Ends.mono {t : Session ω} {ended : Except Fault Outcome × Session ω}
    (ends : Ends results t ended) (more : ∀ value, results value → results' value) :
    Ends results' t ended := by
  cases ends with
  | stopped fault => exact .stopped fault
  | goesOn awake => exact .goesOn awake
  | waits begun => exact .waits begun
  | leaves result => exact .leaves (more _ result)

/-- An operation stays in the active routine, or it stays there until it leaves it. -/
theorem LeavesLastFrom.stays_or_leaves {s : Session ω} (last : LeavesLastFrom results s x) :
    ReflTransGen Stays s (x.run s).2 ∨
      ∃ t value, results value ∧ ReflTransGen Stays s t ∧ x.run s = (leave value).run t := by
  obtain ⟨t, acts, ends⟩ := last
  have stays := stays_of_acts acts
  generalize x.run s = ended at ends
  cases ends with
  | stopped fault => exact .inl stays
  | goesOn awake => exact .inl stays
  | @waits read _ =>
      exact .inl (stays.tail (.around (some read) t.streams t.halted t.executed t.world))
  | leaves result => exact .inr ⟨t, _, result, stays, rfl⟩

theorem LeavesLastFrom.changes {s : Session ω} (last : LeavesLastFrom results s x) :
    ReflTransGen (Change offered) s (x.run s).2 := by
  obtain stays | ⟨t, value, _, stays, run⟩ := last.stays_or_leaves
  · exact changes_of_stays stays
  · rw [run]
    exact (changes_of_stays stays).trans (leave_changes value t)

theorem LeavesLastFrom.mono {s : Session ω} (last : LeavesLastFrom results s x)
    (more : ∀ value, results value → results' value) : LeavesLastFrom results' s x := by
  obtain ⟨t, acts, ends⟩ := last
  exact ⟨t, acts, ends.mono more⟩

/-- The operation may begin with changes that stay in the active routine. -/
theorem LeavesLastFrom.of_run {s t : Session ω} (reached : ReflTransGen (Acts Machine.Stays) s t)
    (same : x.run s = y.run t) (last : LeavesLastFrom results t y) :
    LeavesLastFrom results s x := by
  obtain ⟨u, acts, ends⟩ := last
  exact ⟨u, reached.trans acts, same.symm ▸ ends⟩

/-- What comes before an operation stays in the active routine. -/
theorem LeavesLastFrom.after {s t : Session ω} {z : Op (Session ω) β} {b : β}
    {f : β → Op (Session ω) Outcome} (first : z.MadeOf (Acts Machine.Stays))
    (run : z.run s = (.ok b, t)) (last : LeavesLastFrom results t (f b)) :
    LeavesLastFrom results s (z >>= f) :=
  .of_run (first.reaches run) (Op.run_bind_ok run) last

/-- A fault before an operation. -/
theorem LeavesLastFrom.stopped {s t : Session ω} {z : Op (Session ω) β} {e : Fault}
    {f : β → Op (Session ω) Outcome} (first : z.MadeOf (Acts Machine.Stays))
    (run : z.run s = (.error e, t)) : LeavesLastFrom results s (z >>= f) :=
  ⟨t, first.reaches run, (Op.run_bind_error run).symm ▸ .stopped e⟩

theorem acting {z : Op (Session ω) β} (made : z.MadeOf Works) : z.MadeOf (Acts Machine.Stays) :=
  made.mono fun _ _ => Works.acts

namespace LeavesLast

theorem changes (last : LeavesLast results x) : x.MadeOf (Change offered) :=
  fun s => (last s).changes

theorem mono (last : LeavesLast results x) (more : ∀ value, results value → results' value) :
    LeavesLast results' x :=
  fun s => (last s).mono more

theorem pure {outcome : Outcome} (awake : outcome.waits = false) :
    LeavesLast results (Pure.pure outcome : Op (Session ω) Outcome) :=
  fun s => ⟨s, .refl, .goesOn awake⟩

theorem fail (e : Fault) : LeavesLast results (Op.fail e : Op (Session ω) Outcome) :=
  fun s => ⟨s, .refl, .stopped e⟩

theorem waiting (read : PendingRead) (begun : read.Begun) :
    LeavesLast results (do
      Op.update fun s => { s with pending := some read }
      return read.outcome : Op (Session ω) Outcome) :=
  fun s => ⟨s, .refl, .waits begun⟩

theorem leaving {value : Word} (result : results value) :
    LeavesLast results (leave value : Op (Session ω) Outcome) :=
  fun s => ⟨s, .refl, .leaves result⟩

/-- What comes before the end may move the program counter. -/
theorem moving {z : Op (Session ω) β} {f : β → Op (Session ω) Outcome}
    (first : z.MadeOf (Acts Machine.Stays)) (rest : ∀ b, LeavesLast results (f b)) :
    LeavesLast results (z >>= f) := by
  intro s
  rcases run : z.run s with ⟨fault | b, t⟩
  · exact .stopped first run
  · exact .after first run (rest b t)

theorem bind {z : Op (Session ω) β} {f : β → Op (Session ω) Outcome} (first : z.MadeOf Works)
    (rest : ∀ b, LeavesLast results (f b)) : LeavesLast results (z >>= f) :=
  moving (acting first) rest

theorem ite (yes : LeavesLast results x) (no : LeavesLast results y) :
    LeavesLast results (if condition then x else y) := by
  split
  · exact yes
  · exact no

/-- One of two parts before the rest. -/
theorem either {z z' : Op (Session ω) β} {k : β → Op (Session ω) Outcome} (yes : z.MadeOf Works)
    (no : z'.MadeOf Works) (rest : ∀ b, LeavesLast results (k b)) :
    LeavesLast results (if condition then z >>= k else z' >>= k) :=
  .ite (.bind yes rest) (.bind no rest)

/-- A part that is only sometimes carried out before the rest. -/
theorem sometimes {z : Op (Session ω) Unit} {k : Unit → Op (Session ω) Outcome}
    (made : z.MadeOf Works) (rest : ∀ u, LeavesLast results (k u)) :
    LeavesLast results (if condition then z >>= k else k ()) :=
  .ite (.bind made rest) (rest ())

/-- A refusal in front of an operation that relies on it. -/
theorem guarded {e : Fault} {k : β → Op (Session ω) Outcome}
    (last : ¬ condition → LeavesLast results x) :
    LeavesLast results (if condition then Op.fail e >>= k else x) := by
  split
  · exact fun s => ⟨s, .refl, .stopped e⟩
  · exact last ‹_›

/-- A refusal in front of an operation. -/
theorem guard {e : Fault} {k : β → Op (Session ω) Outcome} (last : LeavesLast results x) :
    LeavesLast results (if condition then Op.fail e >>= k else x) :=
  guarded fun _ => last

end LeavesLast

end LeavesLast

/-- A branch of the instruction that returns instead of jumping: one by 0 returns 0,
and one by 1 returns 1. -/
def BranchReturns (i : Instruction) (value : Word) : Prop :=
  ∃ b, i.branch = some b ∧ (b.offset = 0 ∧ value = 0 ∨ b.offset = 1 ∧ value = 1)

/-- The results with which an instruction can leave the active routine, with its
operands and the stack at hand. -/
inductive Returns (i : Instruction) (operands : List Word) (stack : CallStack) : Word → Prop where
  | yes (op : ControlOp.of? i.opcode.count i.opcode.number.toNat = some .returnTrue) :
      Returns i operands stack 1
  | no (op : ControlOp.of? i.opcode.count i.opcode.number.toNat = some .returnFalse) :
      Returns i operands stack 0
  | operand {value : Word}
      (op : ControlOp.of? i.opcode.count i.opcode.number.toNat = some .returnValue)
      (given : operands[0]? = some value) : Returns i operands stack value
  | popped {value : Word}
      (op : ControlOp.of? i.opcode.count i.opcode.number.toNat = some .returnPopped)
      (given : (CallStack.pop.run stack).1 = .ok value) : Returns i operands stack value
  | printed (op : DisplayOp.of? i.opcode.count i.opcode.number.toNat = some .printReturn) :
      Returns i operands stack 1
  | branched {value : Word} (short : BranchReturns i value) : Returns i operands stack value

theorem jumpBy_leavesLast {results : Word → Prop} (offset : Int) (negative : Int → Fault) :
    LeavesLast results (jumpBy offset negative : Op (Session ω) Outcome) :=
  .bind (.view _) fun _ =>
    .guard (.moving (onMachine_madeOf (Machine.jumpTo_madeOf _)) fun _ => .pure rfl)

theorem branch_leavesLast (i : Instruction) (condition : Bool) :
    LeavesLast (BranchReturns i) (branch i condition : Op (Session ω) Outcome) := by
  rw [branch]
  rcases found : i.branch with _ | b
  · exact .pure rfl
  · refine .ite (.pure rfl) ?_
    by_cases zero : b.offset = 0
    · rw [if_pos zero]
      exact .leaving ⟨b, found, .inl ⟨zero, rfl⟩⟩
    · by_cases one : b.offset = 1
      · rw [if_neg zero, if_pos one]
        exact .leaving ⟨b, found, .inr ⟨one, rfl⟩⟩
      · rw [if_neg zero, if_neg one]
        exact jumpBy_leavesLast _ _

theorem report_leavesLast (i : Instruction) (success : Bool) :
    LeavesLast (BranchReturns i) (report i success : Op (Session ω) Outcome) := by
  rw [report]
  cases i.branch with
  | none => exact .bind (store_madeOf i _) fun _ => .pure rfl
  | some b => exact branch_leavesLast i success

theorem call_leavesLast {results : Word → Prop} (i : Instruction) (operands : List Word)
    (stores : Bool) : LeavesLast results (call i operands stores : Op (Session ω) Outcome) := by
  refine .bind (operand_madeOf _ _) fun _ => .bind (.view _) fun _ => ?_
  refine .moving (onMachine_madeOf (Machine.callRoutine_madeOf _ _ _ _)) fun entered => .pure ?_
  cases entered <;> rfl

/-! ## Output -/

theorem writeToTable_madeOf (table : OutputTable) (outer : List OutputTable) (text : String) :
    (writeToTable table outer text : Op (Session ω) Unit).MadeOf Works := by
  refine .bind (onMemory_madeOf (Memory.writeBytes_madeOf _ _)) fun _ => ?_
  refine .bind (.update fun s => .sent _ s.world) fun _ => ?_
  exact onMemory_madeOf (Memory.writeWord_madeOf _ _)

theorem output_madeOf (h : Host ω) (text : String) : (output h text).MadeOf Works := by
  refine .ite (.pure _) (.bind (.view _) fun tables => ?_)
  cases tables with
  | cons table outer => exact writeToTable_madeOf table outer text
  | nil =>
      refine .bind (.view _) fun _ => .sometimes (request_madeOf _) fun _ => ?_
      exact .bind (.query _) fun _ => .ite (request_madeOf _) (.pure _)

theorem readText_madeOf (addr : Nat) :
    (readText addr : Op (Session ω) String).MadeOf Works :=
  .bind (.query _) fun (_, alphabet) =>
    .bind (onMachine_madeOf (.update fun _ => .locked alphabet)) fun _ => .pure _

theorem echoCommand_madeOf (h : Host ω) (line : String) :
    (echoCommand h line).MadeOf Works :=
  .bind (.view _) fun _ => .ite (request_madeOf _) (.pure _)

theorem updateStatus_madeOf (h : Host ω) : (updateStatus h).MadeOf Works :=
  .bind (.view _) fun _ => .ite (.pure _) (.bind (.query _) fun _ => request_madeOf _)

theorem openTable_madeOf (table : Option Word) :
    (openTable table : Op (Session ω) Unit).MadeOf Works := by
  cases table with
  | none => exact .fail _
  | some addr =>
      refine .bind (.view _) fun _ => .guard ?_
      refine .bind (onMemory_madeOf (Memory.writeWord_madeOf _ _)) fun _ => ?_
      exact .update fun s => .sent _ s.world

theorem selectStream_madeOf (stream : Int) (table : Option Word) :
    (selectStream stream table : Op (Session ω) Unit).MadeOf Works := by
  have streams : ∀ f : Session ω → Streams,
      (Op.update fun s => { s with streams := f s }).MadeOf Works :=
    fun f => .update fun s => .sent (f s) s.world
  have transcript : ∀ on, (onMemory (Memory.setFlag .transcripting on) : Op (Session ω) Unit).MadeOf
      Works :=
    fun on => onMachine_madeOf (Machine.onMemory_advertised (Memory.setFlag_madeOf on (by decide)))
  refine .ite (streams _) (.ite (streams _) (.ite (transcript _) (.ite (transcript _) ?_)))
  refine .ite (openTable_madeOf table) (.ite (streams _) (.ite (streams _) (.ite (streams _) ?_)))
  exact .pure _

/-! ## The families -/

section Families

variable {results : Word → Prop}

theorem arithmetic_leavesLast (i : Instruction) (operands : List Word) :
    LeavesLast results (arithmetic i operands : Op (Session ω) Outcome) := by
  have drawn : ∀ range, (drawRandom range : Op (Session ω) Word).MadeOf Works :=
    fun range => onMachine_madeOf fun m => .single (.drew (m.random.request range).2)
  have calculated : (calculation i operands : Op (Session ω) Word).MadeOf Works := by
    refine .bind (operand_madeOf _ _) fun a => .ite (.bind (operand_madeOf _ _) fun b => ?_) ?_
    · cases BinaryOp.of? i.opcode.number.toNat with
      | none => exact .fail _
      | some op => exact .ofExcept _
    · rcases UnaryOp.of? i.opcode.count i.opcode.number.toNat with _ | ⟨_ | _⟩
      · exact .fail _
      · exact .pure _
      · exact drawn a
  exact .bind calculated fun _ => .bind (store_madeOf i _) fun _ => .pure rfl

theorem adjust_madeOf (number : Byte) (amount : Word) :
    (adjust number amount : Op (Session ω) Word).MadeOf Works :=
  .bind (.query _) fun _ =>
    .bind (onMachine_madeOf (Machine.setInPlace_madeOf _ _)) fun _ => .pure _

theorem scanTable_madeOf (operands : List Word) :
    (scanTable operands : Op (Session ω) Word).MadeOf Works :=
  .bind (operand_madeOf _ _) fun _ => .bind (operand_madeOf _ _) fun _ =>
    .bind (operand_madeOf _ _) fun _ => .guard (.query _)

theorem storage_leavesLast (i : Instruction) (operands : List Word) (a : Word) (op : StorageOp) :
    LeavesLast (BranchReturns i) (storage i operands a op : Op (Session ω) Outcome) := by
  cases op with
  | increment => exact .bind (adjust_madeOf _ _) fun _ => .pure rfl
  | decrement => exact .bind (adjust_madeOf _ _) fun _ => .pure rfl
  | load => exact .bind (.query _) fun _ => .bind (store_madeOf i _) fun _ => .pure rfl
  | decrementCheck =>
      refine .bind (operand_madeOf _ _) fun _ => .bind (adjust_madeOf _ _) fun _ => ?_
      exact branch_leavesLast i _
  | incrementCheck =>
      refine .bind (operand_madeOf _ _) fun _ => .bind (adjust_madeOf _ _) fun _ => ?_
      exact branch_leavesLast i _
  | store =>
      refine .bind (operand_madeOf _ _) fun _ => ?_
      exact .bind (onMachine_madeOf (Machine.setInPlace_madeOf _ _)) fun _ => .pure rfl
  | loadWord =>
      refine .bind (operand_madeOf _ _) fun _ => .bind (.query _) fun _ => ?_
      exact .bind (store_madeOf i _) fun _ => .pure rfl
  | loadByte =>
      refine .bind (operand_madeOf _ _) fun _ => .bind (.query _) fun _ => ?_
      exact .bind (store_madeOf i _) fun _ => .pure rfl
  | storeWord =>
      refine .bind (operand_madeOf _ _) fun _ => .bind (operand_madeOf _ _) fun _ => ?_
      exact .bind (onMemory_madeOf (Memory.writeWord_madeOf _ _)) fun _ => .pure rfl
  | storeByte =>
      refine .bind (operand_madeOf _ _) fun _ => .bind (operand_madeOf _ _) fun _ => ?_
      exact .bind (onMemory_madeOf (Memory.writeByte_madeOf _ _)) fun _ => .pure rfl
  | scanTable =>
      refine .bind (requireVersion_madeOf i 4) fun _ => .bind (scanTable_madeOf _) fun _ => ?_
      exact .bind (store_madeOf i _) fun _ => branch_leavesLast i _
  | copyTable => exact .fail _

theorem routine_leavesLast (i : Instruction) (operands : List Word) (op : RoutineOp) :
    LeavesLast results (routine i operands op : Op (Session ω) Outcome) := by
  have popped : (onStack CallStack.pop : Op (Session ω) Word).MadeOf Works :=
    onMachine_madeOf Machine.pop_madeOf
  cases op with
  | pop => exact .bind (.view _) fun _ => .guard (.bind popped fun _ => .pure rfl)
  | push =>
      refine .bind (operand_madeOf _ _) fun value => ?_
      refine .bind (onMachine_madeOf ?_) fun _ => .pure rfl
      exact Machine.onStack_madeOf (.push value) nofun fun _ => rfl
  | pull =>
      refine .bind (operand_madeOf _ _) fun _ => .bind popped fun _ => ?_
      exact .bind (onMachine_madeOf (Machine.setInPlace_madeOf _ _)) fun _ => .pure rfl
  | call since stores =>
      exact .bind (requireVersion_madeOf i since) fun _ => call_leavesLast i operands stores

theorem onObjects_madeOf {x : ObjectTable → Op Memory Unit}
    (made : ∀ t, (x t).MadeOf (Memory.Writes Memory.Dynamic)) :
    (onObjects x : Op (Session ω) Unit).MadeOf Works :=
  .bind (.view _) fun t => onMemory_madeOf (made t)

theorem followLink_madeOf (obj : Word) (l : Link) :
    (followLink obj l : Op (Session ω) Word).MadeOf Works :=
  .ite (.pure _) (.query _)

theorem object_leavesLast (h : Host ω) (i : Instruction) (operands : List Word) (obj : Word)
    (op : ObjectOp) : LeavesLast (BranchReturns i) (object h i operands obj op) := by
  cases op with
  | getSibling =>
      refine .bind (followLink_madeOf _ _) fun _ => ?_
      exact .bind (store_madeOf i _) fun _ => branch_leavesLast i _
  | getChild =>
      refine .bind (followLink_madeOf _ _) fun _ => ?_
      exact .bind (store_madeOf i _) fun _ => branch_leavesLast i _
  | getParent =>
      exact .bind (followLink_madeOf _ _) fun _ => .bind (store_madeOf i _) fun _ => .pure rfl
  | getPropertyLength => exact .bind (.query _) fun _ => .bind (store_madeOf i _) fun _ => .pure rfl
  | remove => exact .sometimes (onObjects_madeOf fun t => t.remove_madeOf obj) fun _ => .pure rfl
  | print => exact .bind (.query _) fun _ => .bind (output_madeOf h _) fun _ => .pure rfl
  | jumpIfIn =>
      refine .bind (operand_madeOf _ _) fun _ => ?_
      exact .bind (followLink_madeOf _ _) fun _ => branch_leavesLast i _
  | testAttribute =>
      refine .bind (operand_madeOf _ _) fun _ => ?_
      exact .either (.pure _) (.query _) fun _ => branch_leavesLast i _
  | setAttribute =>
      refine .bind (operand_madeOf _ _) fun attr => ?_
      refine .bind (onObjects_madeOf fun t => ?_) fun _ => .pure rfl
      exact t.setAttribute_madeOf obj attr true
  | clearAttribute =>
      refine .bind (operand_madeOf _ _) fun attr => ?_
      refine .bind (onObjects_madeOf fun t => ?_) fun _ => .pure rfl
      exact t.setAttribute_madeOf obj attr false
  | insert =>
      refine .bind (operand_madeOf _ _) fun dest => ?_
      exact .bind (onObjects_madeOf fun t => t.insert_madeOf obj dest) fun _ => .pure rfl
  | getProperty =>
      refine .bind (operand_madeOf _ _) fun _ => .bind (.query _) fun _ => ?_
      exact .bind (store_madeOf i _) fun _ => .pure rfl
  | getPropertyAddress =>
      refine .bind (operand_madeOf _ _) fun _ => .either (.pure _) (.query _) fun _ => ?_
      exact .bind (store_madeOf i _) fun _ => .pure rfl
  | getNextProperty =>
      refine .bind (operand_madeOf _ _) fun _ => .bind (.query _) fun _ => ?_
      exact .bind (store_madeOf i _) fun _ => .pure rfl
  | putProperty =>
      refine .bind (operand_madeOf _ _) fun prop => .bind (operand_madeOf _ _) fun value => ?_
      exact .bind (onObjects_madeOf fun t => t.putProperty_madeOf obj prop value) fun _ => .pure rfl

theorem inlineText_madeOf (i : Instruction) :
    (inlineText i : Op (Session ω) String).MadeOf Works := by
  rw [inlineText]
  cases i.text with
  | none => exact .fail _
  | some addr => exact readText_madeOf addr

theorem window_leavesLast (h : Host ω) (command : WindowCommand) :
    LeavesLast results (window h command) :=
  .bind (request_madeOf _) fun _ => .pure rfl

theorem printOut_leavesLast (h : Host ω) (text : String) : LeavesLast results (printOut h text) :=
  .bind (output_madeOf h text) fun _ => .pure rfl

/-- Of the display operations only one leaves the active routine, and it returns 1. -/
theorem display_leavesLast (h : Host ω) (i : Instruction) (operands : List Word) (op : DisplayOp) :
    LeavesLast (fun value => op = .printReturn ∧ value = 1) (display h i operands op) := by
  have asked : ∀ (results : Word → Prop) (least place : Nat) (command : Word → WindowCommand),
      LeavesLast results
        (do requireVersion i least; window h (command (← operand operands place))) := by
    intro results least place command
    refine .bind (requireVersion_madeOf i least) fun _ => ?_
    exact .bind (operand_madeOf _ _) fun _ => window_leavesLast h _
  cases op with
  | print => exact .bind (inlineText_madeOf i) fun _ => printOut_leavesLast h _
  | printReturn =>
      refine .bind (inlineText_madeOf i) fun _ => .bind (output_madeOf h _) fun _ => ?_
      exact .bind (output_madeOf h _) fun _ => .leaving ⟨rfl, rfl⟩
  | newLine => exact printOut_leavesLast h _
  | showStatus => exact .bind (updateStatus_madeOf h) fun _ => .pure rfl
  | printAddress =>
      refine .bind (operand_madeOf _ _) fun _ => ?_
      exact .bind (readText_madeOf _) fun _ => printOut_leavesLast h _
  | printPacked =>
      refine .bind (operand_madeOf _ _) fun _ => .bind (.view _) fun _ => ?_
      exact .bind (readText_madeOf _) fun _ => printOut_leavesLast h _
  | printChar =>
      refine .bind (operand_madeOf _ _) fun _ => .bind (.query _) fun character => ?_
      cases character with
      | none => exact .pure rfl
      | some c => exact printOut_leavesLast h _
  | printNumber => exact .bind (operand_madeOf _ _) fun _ => printOut_leavesLast h _
  | splitWindow => exact asked _ _ _ _
  | setWindow => exact asked _ _ _ _
  | eraseWindow => exact asked _ _ _ _
  | setCursor =>
      refine .bind (requireVersion_madeOf i _) fun _ => .bind (operand_madeOf _ _) fun _ => ?_
      exact .bind (operand_madeOf _ _) fun _ => window_leavesLast h _
  | setTextStyle => exact asked _ _ _ _
  | bufferMode => exact asked _ _ _ _
  | soundEffect => exact .pure rfl

/-! ## Input -/

theorem describeWords_madeOf (skipUnknown : Bool) (offset entry : Nat) (tokens : List Token) :
    (describeWords skipUnknown offset entry tokens).MadeOf Machine.Works := by
  induction tokens generalizing entry with
  | nil => exact .pure _
  | cons token rest ih =>
      refine .bind (.query _) fun address => .sometimes (Machine.onMemory_madeOf ?_) fun _ => ih _
      refine .bind (Memory.writeWord_madeOf _ _) fun _ => ?_
      exact .bind (Memory.writeByte_madeOf _ _) fun _ => Memory.writeByte_madeOf _ _

theorem fillParseBuffer_madeOf (text : String) (parseAddr : Nat) (skipUnknown : Bool) :
    (fillParseBuffer text parseAddr skipUnknown).MadeOf Machine.Works := by
  refine .bind (.query _) fun _ => .guard (.bind (.view _) fun _ => .bind (.view _) fun _ => ?_)
  refine .bind (Machine.onMemory_madeOf (Memory.writeByte_madeOf _ _)) fun _ => ?_
  exact describeWords_madeOf _ _ _ _

theorem beginRead_leavesLast (h : Host ω) (i : Instruction) (operands : List Word) :
    LeavesLast results (beginRead h i operands) := by
  refine .bind (.view _) fun version => .bind (operand_madeOf _ _) fun text => ?_
  refine .either (.pure _) (operand_madeOf _ _) fun parse => .bind (.query _) fun textMax => ?_
  refine .guarded fun roomy => ?_
  have suspended : LeavesLast results (do
      updateStatus h
      Op.update fun s =>
        { s with pending := some (.line i.addr text.toNat textMax parse.toNat i.store) }
      return .awaitLine) :=
    .bind (updateStatus_madeOf h) fun _ => .waiting (.line _ _ _ _ _) (UInt8.not_lt.mp roomy)
  exact .ite (.bind (.query _) fun _ => .guard suspended) suspended

theorem beginReadChar_leavesLast (i : Instruction) (operands : List Word) :
    LeavesLast results (beginReadChar i operands : Op (Session ω) Outcome) := by
  refine .bind (requireVersion_madeOf i 4) fun _ => .bind (operand_madeOf _ _) fun _ => .guard ?_
  exact .waiting (.char i.addr i.store) trivial

theorem tokenise_leavesLast (i : Instruction) (operands : List Word) :
    LeavesLast results (tokenise i operands : Op (Session ω) Outcome) := by
  refine .bind (requireVersion_madeOf i 5) fun _ => .bind (operand_madeOf _ _) fun _ => ?_
  refine .bind (operand_madeOf _ _) fun _ => .guard ?_
  refine .bind (.query _) fun _ => .bind (.query _) fun _ => ?_
  exact .bind (onMachine_madeOf (fillParseBuffer_madeOf _ _ _)) fun _ => .pure rfl

theorem input_leavesLast (h : Host ω) (i : Instruction) (operands : List Word) (op : InputOp) :
    LeavesLast results (input h i operands op) := by
  cases op with
  | read => exact beginRead_leavesLast h i operands
  | readChar => exact beginReadChar_leavesLast i operands
  | tokenise => exact tokenise_leavesLast i operands
  | outputStream =>
      refine .bind (requireVersion_madeOf i 3) fun _ => .bind (operand_madeOf _ _) fun _ => ?_
      exact .bind (selectStream_madeOf _ _) fun _ => .pure rfl
  | inputStream =>
      refine .bind (requireVersion_madeOf i 3) fun _ => ?_
      exact .bind (operand_madeOf _ _) fun _ => .pure rfl

end Families

theorem storeText_madeOf (version textAddr : Nat) (codes : List Byte) :
    (storeText version textAddr codes).MadeOf (Memory.Writes Memory.Dynamic) := by
  refine .ite ?_ ?_
  · exact .bind (Memory.writeBytes_madeOf _ _) fun _ => Memory.writeByte_madeOf _ _
  · exact .bind (Memory.writeByte_madeOf _ _) fun _ => Memory.writeBytes_madeOf _ _

theorem finishRead_madeOf (h : Host ω) (line : String) (echo : Bool) (textAddr : Nat)
    (textMax : Byte) (parseAddr : Nat) (target : Option Byte) :
    (finishRead h line echo textAddr textMax parseAddr target).MadeOf Works := by
  refine .bind (.view _) fun version => .bind (onMemory_madeOf (storeText_madeOf _ _ _)) fun _ => ?_
  -- With an echo or without, what follows is the same.
  refine .ite (.bind (output_madeOf h _) fun _ => ?_)
    (.bind (.query _) fun _ => .sometimes (request_madeOf _) fun _ => ?_)
  all_goals
    refine .bind (echoCommand_madeOf h line) fun _ => ?_
    refine .sometimes (onMachine_madeOf (fillParseBuffer_madeOf _ _ _)) fun _ => .ite ?_ (.pure _)
    cases target with
    | none => exact .pure _
    | some number => exact onMachine_madeOf (Machine.writeVariable_madeOf number 13)

/-! ## Saving, restoring and the control operations -/

theorem run_takeSnapshot (snapshot : Snapshot) (s : Session ω) :
    (takeSnapshot snapshot).run s = (taken (snapshot.apply.run s.machine).1,
      { s with machine := (snapshot.apply.run s.machine).2 }) := rfl

/-- What is no sum beyond the last size is a refusal. -/
theorem taken_refused {fault : Fault} (reported : fault ≠ .sizeOverflow) :
    taken (.error fault) = .ok false :=
  if_neg reported

theorem savingInstruction_eq_some_iff {m : Machine} {name : String} {snapshot : Snapshot}
    {saving : Instruction} :
    savingInstruction m name snapshot = some saving ↔
      snapshot.SavedBy m.memory m.version name saving := by
  rw [savingInstruction, Machine.decodeAt]
  by_cases named : snapshot.sourceName = name
  · rw [if_neg (not_not.mpr named)]
    rcases decoded : Instruction.decode m.memory snapshot.pc m.version with fault | j
    · refine iff_of_false (by simp) fun saved => ?_
      cases decoded.symm.trans saved.decoded
    · by_cases saves : j.name m.version = "save"
      · simp only [if_pos saves, Option.some.injEq]
        constructor
        · rintro rfl
          exact ⟨named, decoded, saves⟩
        · exact fun saved => Except.ok.inj (decoded.symm.trans saved.decoded)
      · simp only [if_neg saves, reduceCtorEq, false_iff]
        intro saved
        cases decoded.symm.trans saved.decoded
        exact saves saved.saves
  · rw [if_pos named]
    exact iff_of_false (by simp) fun saved => named saved.named

/-- A snapshot that is taken back fits. -/
theorem fits_of_taken {m : Machine} {name : String} {snapshot : Snapshot} {saving : Instruction}
    (found : savingInstruction m name snapshot = some saving)
    (taken : (snapshot.apply.run m).1 = .ok ()) :
    snapshot.Fits m.memory m.version name saving := by
  rcases run : snapshot.apply.run m with ⟨ended, t⟩
  rw [run] at taken
  obtain ⟨⟨fault, failed⟩, _⟩ | ⟨stack, accepted, size, _⟩ := Machine.apply_cases run
  · cases failed.symm.trans taken
  · exact ⟨savingInstruction_eq_some_iff.mp found, size, ⟨stack, accepted⟩⟩

/-- The session would take the snapshot back. -/
def WouldTake (s : Session ω) (snapshot : Snapshot) : Prop :=
  ∃ saving, snapshot.Fits s.machine.memory s.machine.version s.sourceName saving

/-- A snapshot that does not fit is not taken back. -/
theorem resume_changes (i : Instruction) {s : Session ω} {snapshot : Snapshot}
    (allowed : s.WouldTake snapshot → offered snapshot) :
    ReflTransGen (Change offered) s ((resume i snapshot).run s).2 := by
  have reported : ∀ (j : Instruction) (success : Bool),
      (report j success : Op (Session ω) Outcome).MadeOf (Change offered) :=
    fun j success => (report_leavesLast j success).changes
  rw [resume, Op.run_view_bind]
  rcases found : savingInstruction s.machine s.sourceName snapshot with _ | saving
  · exact reported i false s
  rcases applied : snapshot.apply.run s.machine with ⟨ended, machine⟩
  have took : (takeSnapshot snapshot).run s = (taken ended, { s with machine }) := by
    rw [run_takeSnapshot, applied]
  obtain ⟨⟨fault, rfl⟩, rfl⟩ | ⟨_, _, _, rfl, _⟩ := Machine.apply_cases applied
  · by_cases broken : fault = .sizeOverflow
    · subst broken
      simp only [Op.run_bind_error took]
      exact .refl
    · rw [taken_refused broken] at took
      simp only [Op.run_bind_ok took]
      exact reported i false s
  · have fits := fits_of_taken found (congrArg Prod.fst applied)
    have change : s.Change offered { s with machine } := by
      have within := Machine.Change.took (m := s.machine) (allowed ⟨saving, fits⟩)
      rw [applied] at within
      exact .within within
    simp only [Op.run_bind_ok took]
    refine .head change (Op.MadeOf.bind (.update fun s => ?_) (fun _ => ?_) { s with machine })
    · exact .around s.pending _ s.halted s.executed s.world
    · refine .bind (.mono (onMachine_madeOf (Machine.jumpTo_madeOf _)) ?_) fun _ =>
        reported saving true
      exact fun _ _ acts => acts.stays.change

theorem save_leavesLast (h : Host ω) (i : Instruction) :
    LeavesLast (BranchReturns i) (save h i) := by
  refine .bind (.view _) fun _ => .guard (.bind (.view _) fun _ => .bind (.view _) fun _ => ?_)
  refine .bind (attempt_madeOf _) fun answer => ?_
  cases answer with
  | ok _ => exact report_leavesLast i true
  | error _ => exact report_leavesLast i false

/-- A restore takes back only what the host hands over for it, if it fits. -/
theorem restore_changes (h : Host ω) (i : Instruction) {s : Session ω}
    (allowed : ∀ snapshot, (h.restore s.sourceName s.world).1 = .ok (some snapshot) →
      s.WouldTake snapshot → offered snapshot) :
    ReflTransGen (Change offered) s ((restore h i).run s).2 := by
  have asked : s.Change offered { s with world := (h.restore s.sourceName s.world).2 } :=
    .around s.pending s.streams s.halted s.executed _
  by_cases retired : 4 < s.machine.version
  · simp only [restore, viewMachine, Op.run_bind, Op.run_view, if_pos retired, Op.run_fail]
    exact .refl
  · simp only [restore, viewMachine, Op.run_bind, Op.run_view, if_neg retired, run_attempt]
    refine .head asked ?_
    rcases answer : (h.restore s.sourceName s.world).1 with _ | _ | snapshot
    · exact (report_leavesLast i false).changes _
    · exact (report_leavesLast i false).changes _
    · exact resume_changes (s := { s with world := (h.restore s.sourceName s.world).2 }) i
        (allowed snapshot answer)

/-- A control operation other than a restart and a restore leaves the active routine
last. -/
theorem control_leavesLast (h : Host ω) (i : Instruction) (operands : List Word) {op : ControlOp}
    (found : ControlOp.of? i.opcode.count i.opcode.number.toNat = some op)
    (goesOn : op ≠ .restart ∧ op ≠ .restore) (s : Session ω) :
    LeavesLastFrom (Returns i operands s.machine.stack) s (control h i operands op) := by
  have branched : ∀ {x : Op (Session ω) Outcome}, LeavesLast (BranchReturns i) x →
      LeavesLastFrom (Returns i operands s.machine.stack) s x :=
    fun last => (last s).mono fun _ => .branched
  have compared : ∀ condition : Word → Word → Bool, LeavesLast (BranchReturns i) (do
      let a ← operand operands 0
      let b ← operand operands 1
      branch i (condition a b) : Op (Session ω) Outcome) := fun _ =>
    .bind (operand_madeOf _ _) fun _ => .bind (operand_madeOf _ _) fun _ => branch_leavesLast i _
  cases op with
  | returnTrue => exact LeavesLast.leaving (.yes found) s
  | returnFalse => exact LeavesLast.leaving (.no found) s
  | nop => exact branched (.pure rfl)
  | save => exact branched (save_leavesLast h i)
  | restore => exact absurd rfl goesOn.2
  | restart => exact absurd rfl goesOn.1
  | returnPopped =>
      have popped : (onStack CallStack.pop : Op (Session ω) Word).MadeOf (Acts Machine.Stays) :=
        acting (onMachine_madeOf Machine.pop_madeOf)
      rcases run : (onStack CallStack.pop).run s with ⟨fault | value, t⟩
      · exact .stopped popped run
      · have given : (CallStack.pop.run s.machine.stack).1 = .ok value := congrArg Prod.fst run
        exact .after popped run (LeavesLast.leaving (.popped found given) t)
  | quit => exact branched (.pure rfl)
  | verify =>
      refine branched (.bind (requireVersion_madeOf i 3) fun _ => ?_)
      exact .bind (.view _) fun _ => branch_leavesLast i _
  | piracy => exact branched (.bind (requireVersion_madeOf i 5) fun _ => branch_leavesLast i true)
  | jumpIfZero => exact branched (.bind (operand_madeOf _ _) fun _ => branch_leavesLast i _)
  | returnValue =>
      have taken := acting (operand_madeOf (ω := ω) operands 0)
      rcases given : operands[0]? with _ | value
      · refine .stopped taken (t := s) (e := .missingOperand 1) ?_
        rw [operand, given]
        rfl
      · refine .after taken (t := s) (b := value) ?_ (LeavesLast.leaving (.operand found given) s)
        rw [operand, given]
        rfl
  | jump => exact branched (.bind (operand_madeOf _ _) fun _ => jumpBy_leavesLast _ _)
  | jumpIfEqual =>
      exact branched (.bind (operand_madeOf _ _) fun _ => .guard (branch_leavesLast i _))
  | jumpIfLess => exact branched (compared signedLess)
  | jumpIfGreater => exact branched (compared fun a b => signedLess b a)
  | test => exact branched (compared fun bitmap flags => bitmap &&& flags == flags)
  | checkArgCount => exact branched (.fail _)

/-- A control operation takes back only what the host hands over for a restore. -/
theorem control_changes (h : Host ω) (i : Instruction) (operands : List Word) {op : ControlOp}
    (found : ControlOp.of? i.opcode.count i.opcode.number.toNat = some op)
    {s : Session ω} (allowed : op = .restore → ∀ snapshot,
      (h.restore s.sourceName s.world).1 = .ok (some snapshot) → s.WouldTake snapshot →
        offered snapshot) :
    ReflTransGen (Change offered) s ((control h i operands op).run s).2 := by
  by_cases restarts : op = .restart
  · subst restarts
    have restarted : (onMachine Machine.restart : Op (Session ω) Unit).MadeOf (Change offered) :=
      fun s => .single (.within .restarted)
    refine Op.MadeOf.bind restarted (fun _ => ?_) s
    exact .bind (.update fun s => .around none {} s.halted s.executed s.world) fun _ => .pure _
  · by_cases restores : op = .restore
    · subst restores
      exact restore_changes h i (allowed rfl)
    · exact (control_leavesLast h i operands found ⟨restarts, restores⟩ s).changes

end Session

end ZMachine
