import ZMachine.Proofs.Instruction.Decode
import ZMachine.Proofs.Session.Alike
import ZMachine.Proofs.Session.Story

/-!
# Going on from a save

A snapshot holds dynamic memory, the stack, the locked alphabet and the address of
the instruction that saved. A session that restores it decodes that instruction
again, in its own memory, and goes on as if the instruction had just succeeded.

For this to lead where the save led, the saved stack has to be accepted, static
memory has to be the same on both sides, and the instruction has to stand where the
story cannot write. Genuine sessions, which have taken back nothing but snapshots that
genuine sessions have saved, have well-formed stacks. So a snapshot that one of them
saves resumes any session of the story exactly where the save left off
(`restore_resumes`).
-/

set_option autoImplicit false

namespace ZMachine

open Relation (ReflTransGen)

/-- The image with other dynamic memory. -/
def Memory.withDynamic (m : Memory) (data : Array Byte) : Memory :=
  { m with bytes := data ++ m.bytes.extract m.staticBase m.bytes.size }

namespace Machine

variable {m t : Machine} {offered : Snapshot → Prop}

theorem decode_of_decodeAt {pc : Nat} {i : Instruction} (found : m.decodeAt pc = .ok i) :
    Instruction.decode m.memory pc m.version = .ok i := by
  simp only [decodeAt] at found
  split at found
  · rename_i decoded
    cases found
    exact decoded
  · cases found

/-! ## Well-formed stacks -/

/-- Changes keep the stack well formed, if the snapshots that are taken back have
well-formed stacks. -/
theorem Change.wellFormed (change : m.Change offered t)
    (sound : ∀ snapshot stack, offered snapshot →
      CallStack.ofParts snapshot.stack snapshot.frame = .ok stack → stack.WellFormed)
    (formed : m.stack.WellFormed) : t.stack.WellFormed := by
  cases change with
  | wrote _ => exact formed
  | advertised _ => exact formed
  | stacked op => exact CallStack.performAll_wellFormed [op] formed
  | moved _ => exact formed
  | locked _ => exact formed
  | drew _ => exact formed
  | restarted =>
      rcases run : restart.run m with ⟨ended, t⟩
      obtain rfl | again := restart_cases run
      · exact formed
      · cases again with
        | stopped _ => exact formed
        | begun _ _ => exact CallStack.wellFormed_empty
  | @took snapshot allowed =>
      rcases run : snapshot.apply.run m with ⟨ended, t⟩
      obtain ⟨_, rfl⟩ | ⟨stack, accepted, _, _, rfl⟩ := apply_cases run
      · exact formed
      · exact sound snapshot stack allowed accepted

theorem wellFormed_of_changes (changes : ReflTransGen (Change offered) m t)
    (sound : ∀ snapshot stack, offered snapshot →
      CallStack.ofParts snapshot.stack snapshot.frame = .ok stack → stack.WellFormed)
    (formed : m.stack.WellFormed) : t.stack.WellFormed := by
  induction changes with
  | refl => exact formed
  | tail _ change ih => exact change.wellFormed sound ih

end Machine

namespace Session

/-! ## Genuine sessions -/

section Genuine

variable {ω : Type}

/-- The next step of the session saves: it makes a snapshot and hands it to the
host, which gives the answer. -/
def Saves (h : Host ω) (s : Session ω) (snapshot : Snapshot) (answer : Except HostError Unit) :
    Prop :=
  ∃ i, s.Executes i ∧
    ControlOp.of? i.opcode.count i.opcode.number.toNat = some .save ∧
    snapshot = Snapshot.capture s.machine i.addr s.sourceName ∧
    (h.save s.sourceName snapshot (s.enter h i).world).1 = answer

/-- The sessions of a story under a name that have restored nothing but snapshots
saved by such sessions. What a host hands over may be any snapshot, as long as one that
no such session has saved is not taken back. A run is some number of steps
(`run_eq_steps`) and needs no case of its own. -/
inductive Genuine (story : Array Byte) (name : String) :
    {ω : Type} → Host ω → Session ω → Prop where
  | started {ω : Type} {h : Host ω} {settings : Settings} {entropy : UInt64}
      {generator : Random.Generator} {machine : Machine}
      (loaded : Machine.load story settings entropy generator = .ok machine) (world : ω) :
      Genuine story name h (start machine name world)
  | stepped {ω : Type} {h : Host ω} {s : Session ω} (genuine : Genuine story name h s)
      (nothing : ∀ snapshot, ¬ s.Restores h snapshot) : Genuine story name h (s.step h).2
  | refused {ω : Type} {h : Host ω} {s : Session ω} {snapshot : Snapshot}
      (genuine : Genuine story name h s) (restores : s.Restores h snapshot)
      (unfit : ¬ s.WouldTake snapshot) : Genuine story name h (s.step h).2
  | restored {ω ω' : Type} {h : Host ω} {h' : Host ω'} {s : Session ω} {s' : Session ω'}
      {snapshot : Snapshot} {answer : Except HostError Unit} (genuine : Genuine story name h s)
      (saver : Genuine story name h' s') (saved : s'.Saves h' snapshot answer)
      (restores : s.Restores h snapshot) : Genuine story name h (s.step h).2
  | line {ω : Type} {h : Host ω} {s : Session ω} (genuine : Genuine story name h s)
      (text : String) (echo : Bool) : Genuine story name h (s.provideLine h text echo).2
  | char {ω : Type} {h : Host ω} {s : Session ω} (genuine : Genuine story name h s) (c : Char) :
      Genuine story name h (s.provideChar c).2

/-- A step restores at most one snapshot. -/
theorem Restores.unique {h : Host ω} {s : Session ω} {snapshot snapshot' : Snapshot}
    (restores : s.Restores h snapshot) (restores' : s.Restores h snapshot') :
    snapshot' = snapshot := by
  obtain ⟨i, runs, _, handed⟩ := restores
  obtain ⟨i', runs', _, handed'⟩ := restores'
  obtain rfl : i = i' := Except.ok.inj (runs.next.symm.trans runs'.next)
  exact Option.some.inj (Except.ok.inj (handed'.symm.trans handed))

/-- What is kept by a genuine session. -/
structure Sound (story : Array Byte) (name : String) (s : Session ω) : Prop where
  plays : s.machine.Plays story
  formed : s.machine.stack.WellFormed
  named : s.sourceName = name

variable {story : Array Byte} {name : String} {offered : Snapshot → Prop}

theorem Sound.of_changes {s t : Session ω} (sound : s.Sound story name)
    (changes : ReflTransGen (Change offered) s t)
    (intact : ∀ snapshot stack, offered snapshot →
      CallStack.ofParts snapshot.stack snapshot.frame = .ok stack → stack.WellFormed) :
    t.Sound story name := by
  obtain ⟨within, named⟩ := changes_within changes
  exact ⟨Machine.plays_of_changes within sound.plays,
    Machine.wellFormed_of_changes within intact sound.formed, named.trans sound.named⟩

/-- Genuine sessions play their story with well-formed stacks. -/
theorem Genuine.sound {h : Host ω} {s : Session ω} (genuine : Genuine story name h s) :
    s.Sound story name := by
  have none : ∀ (snapshot : Snapshot) (stack : CallStack), False →
      CallStack.ofParts snapshot.stack snapshot.frame = .ok stack → stack.WellFormed :=
    fun _ _ impossible => impossible.elim
  induction genuine with
  | started loaded world =>
      obtain ⟨plays, empty⟩ := Machine.load_plays loaded
      exact ⟨plays, empty.symm ▸ CallStack.wellFormed_empty, rfl⟩
  | stepped _ nothing ih =>
      exact ih.of_changes (step_changes _ fun snapshot restores _ => nothing snapshot restores) none
  | refused _ restores unfit ih =>
      refine ih.of_changes (step_changes _ fun other restores' fits => unfit ?_) none
      exact restores.unique restores' ▸ fits
  | restored _ _ saved restores ih ih' =>
      refine ih.of_changes (step_changes _ fun _ other _ => restores.unique other) ?_
      rintro _ stack rfl accepted
      obtain ⟨i, _, _, rfl, _⟩ := saved
      cases ih'.formed.ofParts_eq.symm.trans accepted
      exact ih'.formed
  | line _ text echo ih => exact ih.of_changes (provideLine_changes _ text echo _) none
  | char _ c ih => exact ih.of_changes (provideChar_changes c _) none

end Genuine

/-! ## Instructions that save and restore -/

section Instructions

variable {ω : Type} {s : Session ω} {i : Instruction}

theorem count_of_save {count : OperandCount} {number : Nat}
    (found : ControlOp.of? count number = some .save) : count = .zero ∧ number = 5 := by
  unfold ControlOp.of? at found
  split at found <;> simp_all

theorem count_of_restore {count : OperandCount} {number : Nat}
    (found : ControlOp.of? count number = some .restore) : count = .zero ∧ number = 6 := by
  unfold ControlOp.of? at found
  split at found <;> simp_all

theorem count_of_restart {count : OperandCount} {number : Nat}
    (found : ControlOp.of? count number = some .restart) : count = .zero := by
  unfold ControlOp.of? at found
  split at found <;> simp_all

theorem Executes.decoded (runs : s.Executes i) :
    Instruction.decode s.machine.memory s.machine.pc s.machine.version = .ok i := by
  obtain ⟨_, _, found⟩ := bind_eq_ok runs.next
  exact Machine.decode_of_decodeAt found

/-- A control instruction without operands is carried out at once. -/
theorem Executes.run_zero (runs : s.Executes i) {op : ControlOp}
    (zero : i.opcode.count = .zero)
    (found : ControlOp.of? i.opcode.count i.opcode.number.toNat = some op) (h : Host ω)
    (t : Session ω) : (execute h i).run t = (control h i [] op).run t := by
  obtain ⟨short, operands⟩ := (Instruction.decode_ok runs.decoded).bare zero
  have resolved : (resolveAll i.operands).run t = (.ok [], t) := by
    rw [operands]
    rfl
  have control : Family.of? t.machine.version i.opcode.count i.opcode.number.toNat =
      some .control := by
    rw [zero] at found
    simp [Family.of?, zero, found]
  obtain ⟨_, family, given, run⟩ | ⟨extended | none, _⟩ := run_execute h i resolved
  · cases control.symm.trans given
    rw [run, executeAs, dispatch, found]
  · cases short.symm.trans extended
  · cases control.symm.trans none

/-- A save that the host accepts is reported as a success. -/
theorem Executes.run_save (runs : s.Executes i)
    (saving : ControlOp.of? i.opcode.count i.opcode.number.toNat = some .save) {h : Host ω}
    {t : Session ω} (early : t.machine.version ≤ 4)
    (accepted : (h.save t.sourceName (Snapshot.capture t.machine i.addr t.sourceName) t.world).1 =
      .ok ()) :
    ∃ world, (execute h i).run t = (report i true).run { t with world } := by
  refine ⟨(h.save t.sourceName (Snapshot.capture t.machine i.addr t.sourceName) t.world).2, ?_⟩
  rw [runs.run_zero (count_of_save saving).1 saving]
  simp only [control, save, viewMachine, Op.run_bind, Op.run_view, if_neg (Nat.not_lt.mpr early),
    run_attempt, accepted]

/-- A snapshot that fits is taken back, with its instruction found at its address. -/
theorem taken_of_fits {m : Machine} {name : String} {snapshot : Snapshot} {saving : Instruction}
    (fits : snapshot.Fits m.memory m.version name saving) :
    savingInstruction m name snapshot = some saving ∧
      snapshot.apply.run m = (.ok (), { m with
        memory := m.memory.withDynamic snapshot.memory
        stack := ⟨snapshot.stack, snapshot.frame⟩
        pc := snapshot.pc
        alphabet := snapshot.alphabet }) := by
  refine ⟨savingInstruction_eq_some_iff.mpr fits.toSavedBy, ?_⟩
  obtain ⟨stack, accepted⟩ := fits.stack
  obtain ⟨rfl, _⟩ := CallStack.checkFrames_of_ofParts accepted
  have inside : snapshot.pc < m.memory.size := (Instruction.decode_ok fits.decoded).inside
  refine Machine.run_apply accepted inside ?_
  rw [Memory.run_restoreDynamic, if_pos fits.size, Memory.withDynamic]

/-- A snapshot that is taken back is gone on from as the instruction that saved. -/
theorem run_resume (i : Instruction) {t : Session ω} {snapshot : Snapshot} {saving : Instruction}
    (found : savingInstruction t.machine t.sourceName snapshot = some saving) {machine : Machine}
    (taken : snapshot.apply.run t.machine = (.ok (), machine)) :
    (resume i snapshot).run t = (report saving true).run
      { t with
        streams := { t.streams with tables := [] }
        machine := { machine with pc := saving.next } } := by
  have took : (takeSnapshot snapshot).run t = (.ok true, { t with machine }) := by
    rw [run_takeSnapshot, taken]
    rfl
  rw [resume, Op.run_view_bind, found]
  simp only [Op.run_bind_ok took, if_true]
  rfl

/-- A restore for which the host hands over a snapshot goes on from it. -/
theorem run_restore {h : Host ω} (i : Instruction) {t : Session ω} (early : t.machine.version ≤ 4)
    {snapshot : Snapshot} (handed : (h.restore t.sourceName t.world).1 = .ok (some snapshot)) :
    (restore h i).run t =
      (resume i snapshot).run { t with world := (h.restore t.sourceName t.world).2 } := by
  simp only [restore, viewMachine, Op.run_bind, Op.run_view, if_neg (Nat.not_lt.mpr early),
    run_attempt, handed]

/-- Taking the snapshot back would break off: it was saved by an instruction of the story, and
its frame pointer is close to the last size. -/
def WouldBreakOff (s : Session ω) (snapshot : Snapshot) : Prop :=
  (∃ saving, snapshot.SavedBy s.machine.memory s.machine.version s.sourceName saving) ∧
    snapshot.BreaksOff

/-- A snapshot that is not taken back is reported as a failure. -/
theorem run_resume_refused (i : Instruction) {t : Session ω} {snapshot : Snapshot}
    (unfit : ¬ t.WouldTake snapshot) (unbroken : ¬ t.WouldBreakOff snapshot) :
    (resume i snapshot).run t = (report i false).run t := by
  rw [resume, Op.run_view_bind]
  rcases found : savingInstruction t.machine t.sourceName snapshot with _ | saving
  · rfl
  rcases applied : snapshot.apply.run t.machine with ⟨ended, machine⟩
  obtain ⟨⟨fault, rfl⟩, rfl⟩ | ⟨_, _, _, rfl, _⟩ := Machine.apply_cases applied
  · have reported : fault ≠ .sizeOverflow := by
      rintro rfl
      have breaks := Machine.apply_overflow_iff.mp (congrArg Prod.fst applied)
      exact unbroken ⟨⟨saving, savingInstruction_eq_some_iff.mp found⟩, breaks⟩
    have untaken : (takeSnapshot snapshot).run t = (.ok false, t) := by
      rw [run_takeSnapshot, applied, taken_refused reported]
    simp only [Op.run_bind_ok untaken, Bool.false_eq_true, if_false]
  · exact absurd ⟨saving, fits_of_taken found (congrArg Prod.fst applied)⟩ unfit

/-- One whose frame pointer is close to the last size is not reported. -/
theorem run_resume_broken (i : Instruction) {t : Session ω} {snapshot : Snapshot}
    (broken : t.WouldBreakOff snapshot) :
    (resume i snapshot).run t = (.error .sizeOverflow, t) := by
  obtain ⟨⟨saving, saved⟩, breaks⟩ := broken
  have stops := Machine.apply_overflow_iff (m := t.machine).mpr breaks
  rcases applied : snapshot.apply.run t.machine with ⟨ended, machine⟩
  rw [applied] at stops
  obtain ⟨_, rfl⟩ | ⟨_, _, _, fits, _⟩ := Machine.apply_cases applied
  · have untold : (takeSnapshot snapshot).run t = (.error .sizeOverflow, t) := by
      rw [run_takeSnapshot, applied]
      exact congrArg (fun ended => (taken ended, t)) stops
    rw [resume, Op.run_view_bind, savingInstruction_eq_some_iff.mpr saved]
    exact Op.run_bind_error untold
  · cases fits.symm.trans stops

/-- A restore that takes nothing back reports its failure. -/
theorem run_restore_refused {h : Host ω} (i : Instruction) {t : Session ω}
    (early : t.machine.version ≤ 4)
    (refused : ∀ snapshot, (h.restore t.sourceName t.world).1 = .ok (some snapshot) →
      ¬ t.WouldTake snapshot ∧ ¬ t.WouldBreakOff snapshot) :
    (restore h i).run t =
      (report i false).run { t with world := (h.restore t.sourceName t.world).2 } := by
  rcases answer : (h.restore t.sourceName t.world).1 with error | _ | snapshot
  · simp only [restore, viewMachine, Op.run_bind, Op.run_view, if_neg (Nat.not_lt.mpr early),
      run_attempt, answer]
  · simp only [restore, viewMachine, Op.run_bind, Op.run_view, if_neg (Nat.not_lt.mpr early),
      run_attempt, answer]
  · obtain ⟨unfit, unbroken⟩ := refused snapshot answer
    rw [run_restore i early answer]
    exact run_resume_refused (t := { t with world := (h.restore t.sourceName t.world).2 }) i unfit
      unbroken

/-- A restore of a snapshot that is taken back goes on as the instruction that
saved. -/
theorem Executes.run_restore (runs : s.Executes i)
    (restoring : ControlOp.of? i.opcode.count i.opcode.number.toNat = some .restore) {h : Host ω}
    {t : Session ω} (early : t.machine.version ≤ 4) {snapshot : Snapshot}
    (handed : (h.restore t.sourceName t.world).1 = .ok (some snapshot)) {saving : Instruction}
    (found : savingInstruction t.machine t.sourceName snapshot = some saving) {machine : Machine}
    (taken : snapshot.apply.run t.machine = (.ok (), machine)) :
    ∃ world streams, (execute h i).run t =
      (report saving true).run
        { t with world, streams, machine := { machine with pc := saving.next } } := by
  refine ⟨(h.restore t.sourceName t.world).2, { t.streams with tables := [] }, ?_⟩
  rw [runs.run_zero (count_of_restore restoring).1 restoring, control,
    Session.run_restore i early handed]
  exact run_resume (t := { t with world := (h.restore t.sourceName t.world).2 }) i found taken

end Instructions

/-! ## Going on -/

section Resume

variable {ω ω' : Type} {story : Array Byte} {name : String} {a : Session ω} {b : Session ω'}
  {i : Instruction}

/-- The instruction that saved stands in every session of the story, if it stands in
static memory. -/
theorem savingInstruction_eq (sound : a.Sound story name) (plays : b.machine.Plays story)
    (runs : a.Executes i)
    (saving : ControlOp.of? i.opcode.count i.opcode.number.toNat = some .save)
    (static : a.machine.memory.staticBase ≤ i.addr) :
    savingInstruction b.machine name (Snapshot.capture a.machine i.addr name) = some i := by
  have bounds := sound.plays.holds.sameBounds plays.holds
  have decoded := Instruction.decode_ok runs.decoded
  have same : ∀ n, i.addr ≤ n → b.machine.memory.bytes[n]? = a.machine.memory.bytes[n]? := by
    intro n above
    rw [sound.plays.holds.static n (Nat.le_trans static above), plays.holds.static n]
    exact bounds.staticBase ▸ Nat.le_trans static above
  have version : b.machine.version = a.machine.version :=
    congrArg Header.version (sound.plays.header_eq plays)
  have found : b.machine.decodeAt i.addr = .ok i := by
    have equal := Instruction.decode_congr bounds.size same b.machine.version
    rw [Machine.decodeAt, equal, version, decoded.addr, runs.decoded]
  have named : i.name b.machine.version = "save" := by
    obtain ⟨zero, five⟩ := count_of_save saving
    obtain ⟨short, _⟩ := decoded.bare zero
    simp [Instruction.name, Opcode.name, short, zero, five, Opcode.namesOfZero]
  have own : (Snapshot.capture a.machine i.addr name).sourceName = name := rfl
  have at_ : (Snapshot.capture a.machine i.addr name).pc = i.addr := rfl
  simp only [savingInstruction, own, at_, found, named, ne_eq, not_true_eq_false, if_false,
    if_true]

/-- A snapshot of a sound session gives any session of the story its state. -/
theorem apply_capture (sound : a.Sound story name) (plays : b.machine.Plays story)
    (runs : a.Executes i) :
    (Snapshot.capture a.machine i.addr a.sourceName).apply.run b.machine =
      (.ok (), { b.machine with
        memory := a.machine.memory
        stack := a.machine.stack
        pc := i.addr
        alphabet := a.machine.alphabet }) := by
  have decoded := Instruction.decode_ok runs.decoded
  have bounded : i.addr < b.machine.memory.bytes.size := by
    rw [decoded.addr, (sound.plays.holds.sameBounds plays.holds).size]
    exact decoded.inside
  exact Machine.run_apply sound.formed.ofParts_eq bounded (sound.plays.holds.restored plays.holds)

theorem conclude_machine (i : Instruction) (version : Nat)
    (ended : Except Fault Outcome × Session ω) :
    (conclude i version ended).2.machine = ended.2.machine := by
  rcases ended with ⟨_ | outcome, s⟩
  · rfl
  · cases outcome <;> rfl

theorem conclude_failed (i : Instruction) (version : Nat)
    (ended : Except Fault Outcome × Session ω) :
    (∃ e, (conclude i version ended).1 = .failed e) ↔ ∃ fault, ended.1 = .error fault := by
  rcases ended with ⟨fault | outcome, s⟩
  · exact ⟨fun _ => ⟨fault, rfl⟩, fun _ => ⟨_, rfl⟩⟩
  · refine ⟨?_, fun ⟨_, impossible⟩ => by cases impossible⟩
    rintro ⟨e, failed⟩
    cases outcome <;> cases failed

/-- **Going on from a save.** A genuine session saves in static memory and the host
accepts the snapshot; any session of the story under the same name, whatever it has
done, restores that snapshot. Then the snapshot is taken back, and the restore ends
as the save did: with the same memory, stack, locked alphabet and program counter,
and with a failure exactly when the save failed. -/
theorem restore_resumes {h : Host ω} {h' : Host ω'} (genuine : Genuine story name h a)
    {settings : Settings} {entropy : UInt64} {generator : Random.Generator} {machine : Machine}
    (loaded : Machine.load story settings entropy generator = .ok machine)
    (early : machine.version ≤ 4)
    {world : ω'} {actions : List Action}
    (reached : performAll h' actions (start machine name world) = b)
    {snapshot : Snapshot} (saves : a.Saves h snapshot (.ok ()))
    (static : a.machine.memory.staticBase ≤ snapshot.pc) (restores : b.Restores h' snapshot) :
    (∃ j saving, b.Executes j ∧
      savingInstruction (b.enter h' j).machine b.sourceName snapshot = some saving ∧
      (snapshot.apply.run (b.enter h' j).machine).1 = .ok ()) ∧
    (b.step h').2.machine.memory.bytes = (a.step h).2.machine.memory.bytes ∧
    (b.step h').2.machine.stack.cells = (a.step h).2.machine.stack.cells ∧
    (b.step h').2.machine.stack.frame = (a.step h).2.machine.stack.frame ∧
    (b.step h').2.machine.alphabet = (a.step h).2.machine.alphabet ∧
    (b.step h').2.machine.pc = (a.step h).2.machine.pc ∧
    ((∃ e, (b.step h').1 = .failed e) ↔ ∃ e, (a.step h).1 = .failed e) := by
  obtain ⟨i, runs, saving, rfl, accepted⟩ := saves
  obtain ⟨j, runs', restoring, handed⟩ := restores
  have sound := genuine.sound
  obtain ⟨begun, _⟩ := Machine.load_plays loaded
  have plays : b.machine.Plays story := reached ▸ performAll_plays h' actions begun
  have named : b.sourceName = name :=
    reached ▸ (changes_within (performAll_changes h' actions (start machine name world))).2
  have version : a.machine.version = machine.version :=
    congrArg Header.version (begun.header_eq sound.plays)
  have version' : b.machine.version = machine.version :=
    congrArg Header.version (begun.header_eq plays)
  -- The snapshot is taken back: its instruction is found and each of its parts fits.
  have found : savingInstruction (b.enter h' j).machine b.sourceName
      (Snapshot.capture a.machine i.addr a.sourceName) = some i := by
    rw [named, sound.named]
    exact savingInstruction_eq (b := b.enter h' j) sound ⟨plays.holds, plays.header⟩ runs saving
      static
  have taken := apply_capture (b := b.enter h' j) sound ⟨plays.holds, plays.header⟩ runs
  -- Both steps end by reporting success, on machines that are alike.
  obtain ⟨after, run⟩ := runs.run_save saving (t := a.enter h i) (version ▸ early) accepted
  obtain ⟨after', streams, run'⟩ :=
    runs'.run_restore restoring (t := b.enter h' j) (version' ▸ early) handed found taken
  have header : a.machine.header = b.machine.header := plays.header_eq sound.plays
  have alike : Alike { a.enter h i with world := after }
      { b.enter h' j with
        world := after'
        streams
        machine := { (b.enter h' j).machine with
          memory := a.machine.memory
          stack := a.machine.stack
          pc := i.next
          alphabet := a.machine.alphabet } } := ⟨rfl, header, rfl, rfl, rfl⟩
  obtain ⟨same, alike⟩ := report_matches i true _ _ alike
  rw [runs.step_eq h, runs'.step_eq h', run, run']
  simp only [conclude_machine, conclude_failed]
  refine ⟨⟨j, i, runs', found, congrArg Prod.fst taken⟩, congrArg Memory.bytes alike.memory.symm,
    congrArg CallStack.cells alike.stack.symm, congrArg CallStack.frame alike.stack.symm,
    alike.alphabet.symm, alike.pc.symm, ?_⟩
  rw [same]

/-- A host that shows nothing and keeps the last snapshot. -/
def keeper : Host (Option Snapshot) where
  print _ _ kept := (.ok (), kept)
  showStatus _ kept := (.ok (), kept)
  save _ snapshot _ := (.ok (), some snapshot)
  restore _ kept := (.ok kept, kept)
  command _ kept := (.ok (), kept)

/-- An instruction without operands that branches to the next one. -/
def plainInstruction (addr : Nat) (number : Byte) : Instruction where
  addr
  opcode := ⟨.short, .zero, number, none⟩
  operands := []
  store := none
  branch := some ⟨true, 2⟩
  text := none
  size := 2

/-- The story that saves goes on at the same place after its save and after its
restore. -/
theorem savingStory_resumes :
    (performAll keeper [.step, .step] (start savingMachine "tale" none)).machine.pc =
      (performAll keeper [.step] (start savingMachine "tale" none)).machine.pc := by
  have saves : (start savingMachine "tale" none).Saves keeper
      (Snapshot.capture savingMachine 0x40 "tale") (.ok ()) :=
    ⟨plainInstruction 0x40 5, ⟨rfl, rfl, eq_ok_of_toOption (by decide +kernel)⟩, rfl, rfl, rfl⟩
  have restores : (performAll keeper [.step] (start savingMachine "tale" none)).Restores keeper
      (Snapshot.capture savingMachine 0x40 "tale") := by
    have kept : (performAll keeper [.step] (start savingMachine "tale" none)).world =
        some (Snapshot.capture savingMachine 0x40 "tale") := by decide +kernel
    refine ⟨plainInstruction 0x42 6, ⟨?_, ?_, eq_ok_of_toOption ?_⟩, rfl, congrArg Except.ok kept⟩
    · decide +kernel
    · decide +kernel
    · decide +kernel
  obtain ⟨_, _, _, _, _, pc, _⟩ := restore_resumes (.started savingMachine_loaded none)
    savingMachine_loaded (by decide +kernel) rfl saves (by decide +kernel) restores
  exact pc

end Resume

end Session

end ZMachine
