import ZMachine.Proofs.Session.Resume

/-!
# Restoring is all or nothing

An instruction that restores asks the host for a snapshot. One that belongs to the story,
that has the size of dynamic memory and a stack whose frames check, and whose address is
that of an instruction that saves, fits. A snapshot that fits is taken whole before
anything else happens, and the instruction that saved it reports success. Whatever else
the host answers, nothing is taken, and the instruction that restores reports failure
(`restore_all_or_nothing`).

One kind of snapshot gets no report. The check of a stack adds the size of a frame's header
to the frame pointer, and within four of the last size that sum is none. Nothing is taken
then either, but the step breaks off where a refusal was due
(`frame_near_last_size_breaks_off`).
-/

set_option autoImplicit false

namespace ZMachine

/-! ## Memory that was taken back -/

namespace Memory

variable {m : Memory} {data : Array Byte}

theorem dynamic_withDynamic (fits : data.size = m.staticBase) :
    (m.withDynamic data).dynamic = data := by
  simp only [dynamic, withDynamic, ← fits]
  simp [Array.extract_append]

theorem static_withDynamic (fits : data.size = m.staticBase) {n : Nat} (above : m.staticBase ≤ n) :
    (m.withDynamic data).bytes[n]? = m.bytes[n]? := by
  simp only [withDynamic, ← fits] at above ⊢
  exact getElem?_overlay above

end Memory

namespace Session

variable {ω : Type} {h : Host ω} {s : Session ω} {i saving : Instruction} {snapshot : Snapshot}

/-! ## Restoring -/

/-- The session behind an instruction that restores, when the host has answered. -/
def asked (h : Host ω) (i : Instruction) (s : Session ω) : Session ω :=
  { s.enter h i with world := (h.restore s.sourceName (s.enter h i).world).2 }

/-- The second session is the first with a snapshot taken whole: dynamic memory, stack and
alphabet are the snapshot's, the story stands behind the instruction that saved it, no
table is open, and the rest is as it was. -/
structure TakesWhole (s : Session ω) (snapshot : Snapshot) (saving : Instruction)
    (t : Session ω) : Prop where
  dynamic : t.machine.memory.dynamic = snapshot.memory
  static : ∀ n, s.machine.memory.staticBase ≤ n →
    t.machine.memory.bytes[n]? = s.machine.memory.bytes[n]?
  cells : t.machine.stack.cells = snapshot.stack
  frame : t.machine.stack.frame = snapshot.frame
  alphabet : t.machine.alphabet = snapshot.alphabet
  pc : t.machine.pc = saving.next
  tables : t.streams.tables = []
  rest : t = { s with
    streams := { s.streams with tables := [] }
    machine := { s.machine with
      memory := { s.machine.memory with bytes := t.machine.memory.bytes }
      stack := t.machine.stack
      pc := t.machine.pc
      alphabet := t.machine.alphabet } }

/-- The instruction reports by its branch up to version 3, and by its store in version 4. -/
def ReportsIn (version : Nat) (i : Instruction) : Prop :=
  (version ≤ 3 → ∃ b, i.branch = some b) ∧
    (version = 4 → i.branch = none ∧ ∃ number, i.store = some number)

/-- An instruction that restores has a branch up to version 3 and a store in version 4. -/
theorem Executes.reportsIn (runs : s.Executes i)
    (restoring : ControlOp.of? i.opcode.count i.opcode.number.toNat = some .restore) :
    ReportsIn s.machine.version i := by
  have decoded := Instruction.decode_ok runs.decoded
  obtain ⟨zero, six⟩ := count_of_restore restoring
  obtain ⟨short, _⟩ := decoded.bare zero
  have stores := decoded.stores
  have branches := decoded.branches
  simp only [Opcode.stores, Opcode.branches, short, zero, six] at stores branches
  refine ⟨fun first => Option.isSome_iff_exists.mp ?_, fun fourth => ⟨?_, ?_⟩⟩
  · simp [branches, first]
  · simpa [fourth] using branches
  · exact Option.isSome_iff_exists.mp (by simp [stores, fourth])

/-- A snapshot that fits is taken whole before the instruction that saved it reports. -/
theorem run_resume_whole (i : Instruction)
    (fits : snapshot.Fits s.machine.memory s.machine.version s.sourceName saving) :
    ∃ t, s.TakesWhole snapshot saving t ∧
      (resume i snapshot).run s = (report saving true).run t := by
  obtain ⟨found, taken⟩ := taken_of_fits fits
  refine ⟨_, ?_, run_resume i found taken⟩
  exact {
    dynamic := Memory.dynamic_withDynamic fits.size
    static := fun _ => Memory.static_withDynamic fits.size
    cells := rfl
    frame := rfl
    alphabet := rfl
    pc := rfl
    tables := rfl
    rest := rfl }

theorem Executes.step_restore (h : Host ω) (runs : s.Executes i)
    (restoring : ControlOp.of? i.opcode.count i.opcode.number.toNat = some .restore) :
    s.step h = conclude i s.machine.version ((restore h i).run (s.enter h i)) := by
  rw [runs.step_eq h, runs.run_zero (count_of_restore restoring).1 restoring, control]

/-- A snapshot that would break the check of its stack off breaks the step off. -/
theorem Executes.step_broken (h : Host ω) (runs : s.Executes i)
    (restoring : ControlOp.of? i.opcode.count i.opcode.number.toNat = some .restore)
    (early : s.machine.version ≤ 4)
    (handed : (h.restore s.sourceName (s.enter h i).world).1 = .ok (some snapshot))
    (broken : s.WouldBreakOff snapshot) :
    s.step h = conclude i s.machine.version (.error .sizeOverflow, s.asked h i) := by
  rw [runs.step_restore h restoring, Session.run_restore (t := s.enter h i) i early handed]
  exact congrArg (conclude i s.machine.version) (run_resume_broken (t := s.asked h i) i broken)

/-- **Restoring is all or nothing.** A session of version 4 or before carries out an
instruction that restores. If the host hands over a snapshot that fits, the snapshot is
taken whole and the instruction that saved it reports success. If the snapshot would break
the check of its stack off, the step breaks off with it. In every other case, be it an error,
no snapshot or one that does not fit, the instruction that restores reports failure through
its own branch or store. In the last two cases the machine is as it was but for the program
counter, which stands behind the instruction, and so are the streams. -/
theorem restore_all_or_nothing (h : Host ω) (runs : s.Executes i)
    (restoring : ControlOp.of? i.opcode.count i.opcode.number.toNat = some .restore)
    (early : s.machine.version ≤ 4) :
    ((s.asked h i).machine = { s.machine with pc := i.next } ∧
      (s.asked h i).streams = s.streams) ∧
    ((∃ snapshot saving t,
      (h.restore s.sourceName (s.enter h i).world).1 = .ok (some snapshot) ∧
      snapshot.Fits s.machine.memory s.machine.version s.sourceName saving ∧
      (s.asked h i).TakesWhole snapshot saving t ∧
      s.step h = conclude i s.machine.version ((report saving true).run t)) ∨
    (∃ snapshot, (h.restore s.sourceName (s.enter h i).world).1 = .ok (some snapshot) ∧
      s.WouldBreakOff snapshot ∧
      s.step h = conclude i s.machine.version (.error .sizeOverflow, s.asked h i)) ∨
    (∀ snapshot, (h.restore s.sourceName (s.enter h i).world).1 = .ok (some snapshot) →
      ¬ s.WouldTake snapshot ∧ ¬ s.WouldBreakOff snapshot) ∧
    ReportsIn s.machine.version i ∧
    s.step h = conclude i s.machine.version ((report i false).run (s.asked h i))) := by
  refine ⟨⟨rfl, rfl⟩, ?_⟩
  have step := runs.step_restore h restoring
  by_cases fitting : ∃ snapshot,
      (h.restore s.sourceName (s.enter h i).world).1 = .ok (some snapshot) ∧ s.WouldTake snapshot
  · obtain ⟨snapshot, handed, saving, fits⟩ := fitting
    -- What fits does not depend on the program counter, which has moved by now.
    obtain ⟨t, whole, resumed⟩ := run_resume_whole (s := s.asked h i) i fits
    refine .inl ⟨snapshot, saving, t, handed, fits, whole, ?_⟩
    rw [step, run_restore (t := s.enter h i) i early handed]
    exact congrArg (conclude i s.machine.version) resumed
  by_cases breaking : ∃ snapshot,
      (h.restore s.sourceName (s.enter h i).world).1 = .ok (some snapshot) ∧
      s.WouldBreakOff snapshot
  · obtain ⟨snapshot, handed, broken⟩ := breaking
    exact .inr (.inl ⟨snapshot, handed, broken,
      runs.step_broken h restoring early handed broken⟩)
  · have refused : ∀ snapshot,
        (h.restore s.sourceName (s.enter h i).world).1 = .ok (some snapshot) →
        ¬ s.WouldTake snapshot ∧ ¬ s.WouldBreakOff snapshot := fun snapshot handed =>
      ⟨fun fits => fitting ⟨snapshot, handed, fits⟩,
        fun broken => breaking ⟨snapshot, handed, broken⟩⟩
    refine .inr (.inr ⟨refused, runs.reportsIn restoring, ?_⟩)
    rw [step, run_restore_refused (t := s.enter h i) i early refused]
    rfl

/-- What the story that saves would have saved, with the last size as its frame pointer. -/
def brokenSnapshot : Snapshot :=
  { Snapshot.capture savingMachine 0x40 "tale" with frame := sizeLimit - 1 }

/-- The story that saves, about to restore that snapshot. -/
def breakingSession : Session (Option Snapshot) :=
  start { savingMachine with pc := 0x42 } "tale" (some brokenSnapshot)

/-- The last size is a frame pointer past every stack. The snapshot is not taken, and the
instruction that restores reports no failure either: it breaks off. -/
theorem frame_near_last_size_breaks_off :
    breakingSession.Executes (plainInstruction 0x42 6) ∧
    breakingSession.Restores keeper brokenSnapshot ∧
    (breakingSession.step keeper).1 = .failed ⟨0x42, "restore", .sizeOverflow⟩ ∧
    (breakingSession.step keeper).2.machine = { savingMachine with pc := 0x44 } ∧
    breakingSession.step keeper ≠ conclude (plainInstruction 0x42 6) 3
      ((report (plainInstruction 0x42 6) false).run
        (breakingSession.asked keeper (plainInstruction 0x42 6))) := by
  have runs : breakingSession.Executes (plainInstruction 0x42 6) :=
    ⟨rfl, rfl, eq_ok_of_toOption (by decide +kernel)⟩
  have restores : breakingSession.Restores keeper brokenSnapshot :=
    ⟨plainInstruction 0x42 6, runs, rfl, rfl⟩
  have broken : breakingSession.WouldBreakOff brokenSnapshot := by
    refine ⟨⟨plainInstruction 0x40 5, rfl, eq_ok_of_toOption ?_, ?_⟩, ?_, ?_⟩
    · decide +kernel
    · decide +kernel
    · decide +kernel
    · decide +kernel
  have step := runs.step_broken keeper rfl (by decide +kernel) rfl broken
  have failed : (breakingSession.step keeper).1 = .failed ⟨0x42, "restore", .sizeOverflow⟩ := by
    rw [step]
    decide +kernel
  have machine : (breakingSession.step keeper).2.machine = { savingMachine with pc := 0x44 } := by
    rw [step, conclude_machine]
    rfl
  have reported : (conclude (plainInstruction 0x42 6) 3
      ((report (plainInstruction 0x42 6) false).run
        (breakingSession.asked keeper (plainInstruction 0x42 6)))).1 = .running := rfl
  refine ⟨runs, restores, failed, machine, fun same => ?_⟩
  rw [same, reported] at failed
  cases failed

/-- The story that saves takes back whole what it has saved. Under another name the same
snapshot is refused, and the restore does no more than go on behind itself. -/
theorem savingStory_restores_whole :
    (∃ t, ((performAll keeper [.step] (start savingMachine "tale" none)).asked keeper
      (plainInstruction 0x42 6)).TakesWhole (Snapshot.capture savingMachine 0x40 "tale")
        (plainInstruction 0x40 5) t) ∧
    ((start { savingMachine with pc := 0x42 } "other"
      (some (Snapshot.capture savingMachine 0x40 "tale"))).step keeper).2.machine =
        { savingMachine with pc := 0x44 } := by
  constructor
  · have kept : (performAll keeper [.step] (start savingMachine "tale" none)).world =
        some (Snapshot.capture savingMachine 0x40 "tale") := by decide +kernel
    have runs : (performAll keeper [.step] (start savingMachine "tale" none)).Executes
        (plainInstruction 0x42 6) := by
      refine ⟨?_, ?_, eq_ok_of_toOption ?_⟩
      · decide +kernel
      · decide +kernel
      · decide +kernel
    have fits : (Snapshot.capture savingMachine 0x40 "tale").Fits
        (performAll keeper [.step] (start savingMachine "tale" none)).machine.memory
        (performAll keeper [.step] (start savingMachine "tale" none)).machine.version
        (performAll keeper [.step] (start savingMachine "tale" none)).sourceName
        (plainInstruction 0x40 5) := by
      refine ⟨⟨?_, eq_ok_of_toOption ?_, ?_⟩, ?_, ⟨CallStack.empty, eq_ok_of_toOption ?_⟩⟩
      · decide +kernel
      · decide +kernel
      · decide +kernel
      · decide +kernel
      · decide +kernel
    obtain ⟨snapshot, saving, t, handed, fits', whole, _⟩ | ⟨_, handed, broken, _⟩ | ⟨unfit, _⟩ :=
      (restore_all_or_nothing keeper runs rfl (by decide +kernel)).2
    · cases (congrArg Except.ok kept).symm.trans handed
      cases fits.decoded.symm.trans fits'.decoded
      exact ⟨t, whole⟩
    · cases (congrArg Except.ok kept).symm.trans handed
      have near : (Snapshot.capture savingMachine 0x40 "tale").frame + 4 < sizeLimit := by
        decide +kernel
      exact absurd broken.2.beyond (Nat.not_le.mpr near)
    · exact absurd ⟨_, fits⟩ (unfit _ (congrArg Except.ok kept)).1
  · have runs : (start { savingMachine with pc := 0x42 } "other"
        (some (Snapshot.capture savingMachine 0x40 "tale"))).Executes (plainInstruction 0x42 6) :=
      ⟨rfl, rfl, eq_ok_of_toOption (by decide +kernel)⟩
    obtain ⟨snapshot, saving, t, handed, fits, _⟩ | ⟨_, handed, ⟨⟨_, saved⟩, _⟩, _⟩ | ⟨_, _, step⟩ :=
      (restore_all_or_nothing keeper runs rfl (by decide +kernel)).2
    · cases handed
      have named : "tale" = "other" := fits.named
      exact absurd named (by decide)
    · cases handed
      have named : "tale" = "other" := saved.named
      exact absurd named (by decide)
    · rw [step, conclude_machine]
      rfl

end Session

end ZMachine
