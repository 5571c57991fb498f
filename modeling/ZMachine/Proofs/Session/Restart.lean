import ZMachine.Proofs.Memory.Flags
import ZMachine.Proofs.Session.Calls

/-!
# Starting over

A story that starts over is where a fresh load would put it. None of its own writes is
left: the image is the pristine one with what the interpreter advertises, and the header
is read from it again, which cannot fail since it did not fail at load
(`restart_is_fresh_load`). Two flags are carried over on purpose. The transcript is
advertised as it stood, and a fixed pitch that the story had asked for is asked for again.

The pitch is carried over in one direction only. A story whose own image asks for a fixed
pitch, and which has taken that back, finds it asked for again (`flags_after_restart`,
`cleared_pitch_returns`).
-/

set_option autoImplicit false

namespace ZMachine

open Relation (ReflTransGen)

/-! ## Images of a story -/

namespace Memory

variable {story : Array Byte} {m : Memory}

/-- An image that a story was loaded into has room for a header, and the version that its
first byte states. -/
theorem load_shaped (loaded : load story = .ok m) :
    m.Shaped ∧ m.version = (m.bytes.getD 0 0).toNat := by
  simp only [load] at loaded
  split at loaded
  · cases loaded
  · split at loaded
    · cases loaded
    · split at loaded
      · cases loaded
      · split at loaded
        · cases loaded
        · split at loaded
          · cases loaded
          · rename_i small version _ _ _
            cases loaded
            rw [not_or, Nat.not_lt, Nat.not_lt] at version
            exact ⟨⟨Nat.not_lt.mp small, version.1, version.2⟩, rfl⟩

/-- The header has the version that the first byte of the image states. -/
theorem version_of_read {header : Header} (read : Header.read m = .ok header) :
    header.version = (m.bytes.getD 0 0).toNat := by
  obtain ⟨b, first, read⟩ := bind_eq_ok read
  have byte : b = m.bytes.getD 0 0 := by
    by_cases inside : 0 < m.size
    · rw [getByte_getD inside] at first
      exact (Except.ok.inj first).symm
    · simp [getByte, show ¬ 0 < m.bytes.size from inside] at first
  repeat obtain ⟨_, _, read⟩ := bind_eq_ok read
  cases read
  rw [byte]

theorem Holds.shaped (holds : m.Holds story) : m.Shaped := by
  obtain ⟨shaped, _⟩ := load_shaped holds.loaded
  have bounds := holds.sameBounds holds.reset
  have same : m.size = m.reset.size := bounds.size.symm
  exact ⟨same ▸ shaped.room, shaped.first, shaped.last⟩

end Memory

/-! ## Machines that start over -/

namespace Machine

variable {story : Array Byte} {m t : Machine} {offered : Snapshot → Prop}

/-- What a fresh load makes of a story before it looks for the tables: the image in which
the interpreter has advertised itself, and its header. -/
def freshLoad (story : Array Byte) (settings : Settings) : Except Fault (Memory × Header) := do
  let memory ← Memory.load story
  let (advertised, memory) := (Memory.advertise settings).run memory
  advertised
  return (memory, ← Header.read memory)

/-- A machine is loaded with the image and the header of a fresh load, and begins at its
first instruction. -/
theorem freshLoad_of_load {settings : Settings} {entropy : UInt64} {generator : Random.Generator}
    (loaded : load story settings entropy generator = .ok m) :
    freshLoad story settings = .ok (m.memory, m.header) ∧ m.pc = m.header.initialPc ∧
      m.settings = settings := by
  obtain ⟨memory, image, loaded⟩ := bind_eq_ok loaded
  split at loaded
  · cases loaded
  simp only [ofMemory] at loaded
  rcases run : (Memory.advertise settings).run memory with ⟨advertised, memory'⟩
  simp only [run] at loaded
  obtain ⟨_, given, loaded⟩ := bind_eq_ok loaded
  obtain ⟨header, read, loaded⟩ := bind_eq_ok loaded
  obtain ⟨codec, _, loaded⟩ := bind_eq_ok loaded
  obtain ⟨dictionary, _, loaded⟩ := bind_eq_ok loaded
  cases loaded
  refine ⟨?_, rfl, rfl⟩
  simp only [freshLoad, image, run, given, read, bind, Except.bind]
  rfl

theorem Plays.version_eq (plays : m.Plays story) : m.version = m.memory.version := by
  obtain ⟨_, version⟩ := Memory.load_shaped plays.holds.loaded
  exact (Memory.version_of_read plays.header).trans version.symm

/-- No change touches the settings. -/
theorem Change.settings_eq (change : m.Change offered t) : t.settings = m.settings := by
  cases change with
  | restarted =>
      rcases run : restart.run m with ⟨ended, t⟩
      obtain rfl | again := restart_cases run
      · rfl
      · cases again <;> rfl
  | @took snapshot allowed =>
      rcases run : snapshot.apply.run m with ⟨ended, t⟩
      obtain ⟨_, rfl⟩ | ⟨stack, _, _, _, rfl⟩ := apply_cases run
      · rfl
      · rfl
  | _ => rfl

theorem settings_of_changes (changes : ReflTransGen (Change offered) m t) :
    t.settings = m.settings := by
  induction changes with
  | refl => rfl
  | tail _ change ih => exact change.settings_eq.trans ih

/-- In the pristine image the interpreter can advertise itself, and this makes it the image
of a fresh load. The header is not among what is advertised, and the pitch is the story's
own. -/
theorem Plays.advertise_reset (plays : m.Plays story) (transcript : Bool) :
    ∃ memory,
      (Memory.advertise { m.settings with transcript }).run m.memory.reset = (.ok (), memory) ∧
      freshLoad story { m.settings with transcript } = .ok (memory, m.header) ∧
      Header.read memory = .ok m.header ∧
      m.memory.reset.KeepsPitch memory ∧ memory.bit 0x11 0 = transcript := by
  obtain ⟨shaped, _⟩ := Memory.load_shaped plays.holds.loaded
  obtain ⟨_, memory, described, keeps, set⟩ :=
    shaped.advertise_ensures { m.settings with transcript } m.memory.reset (.refl _)
  have written := Memory.advertise_madeOf { m.settings with transcript } m.memory.reset
  rw [described] at written
  have read : Header.read memory = .ok m.header :=
    (Memory.read_of_advertised written).trans plays.header
  refine ⟨memory, described, ?_, read, keeps, set⟩
  simp only [freshLoad, plays.holds.loaded, described, read, bind, Except.bind]
  rfl

/-- The machine at the beginning of its story, with an image in place of its own. -/
def atBeginning (m : Machine) (memory : Memory) : Machine :=
  { m with memory, pc := m.header.initialPc, stack := .empty, alphabet := .a0 }

/-- The end of starting over, where the header is read from the image. -/
theorem run_begin {memory : Memory} (read : Header.read memory = .ok m.header) (pc : Nat) :
    Op.run (do
      let header ← Op.query fun m : Machine => Header.read m.memory
      Op.update fun m =>
        { m with header, pc := header.initialPc, stack := .empty, alphabet := .a0 })
      { m with pc, memory } = (.ok (), m.atBeginning memory) := by
  simp only [Op.run_bind, Op.run_query, read, Op.run_update]
  rfl

/-- Starting over succeeds, wherever the story stands. The image is that of a fresh load, but
that the pitch is also fixed if it is to be. -/
theorem Plays.run_startOver (plays : m.Plays story) (transcript fixed : Bool)
    (third : fixed = true → 3 ≤ m.memory.version) :
    ∃ memory again,
      freshLoad story { m.settings with transcript } = .ok (memory, m.header) ∧
      memory.AgreesBut .fixedPitch again ∧ again.bit 0x11 0 = transcript ∧
      again.bit 0x11 1 = (fixed || m.memory.reset.bit 0x11 1) ∧
      ∀ pc, (startOver transcript fixed).run { m with pc } = (.ok (), m.atBeginning again) := by
  obtain ⟨shaped, _⟩ := Memory.load_shaped plays.holds.loaded
  obtain ⟨memory, described, fresh, read, keeps, set⟩ := plays.advertise_reset transcript
  have advertised : ∀ pc, (onMemory (Memory.advertise { m.settings with transcript })).run
      { m with pc, memory := m.memory.reset } = (.ok (), { m with pc, memory }) :=
    fun pc => Op.run_zoom_eq_ok.mpr ⟨memory, described, rfl⟩
  cases fixed with
  | false =>
      refine ⟨memory, memory, fresh, .refl _ _, set, keeps.pitch, fun pc => ?_⟩
      rw [startOver, Op.run_update_bind, Op.run_view_bind, Op.run_bind_ok (advertised pc)]
      exact run_begin read pc
  | true =>
      have has := (shaped.hasPitch (third rfl)).congr keeps.bounds
      obtain ⟨again, pitch, agrees, on⟩ := has.setFlag_agrees true
      have pitched : ∀ pc, (onMemory (Memory.setFlag .fixedPitch true)).run
          { m with pc, memory } = (.ok (), { m with pc, memory := again }) :=
        fun pc => Op.run_zoom_eq_ok.mpr ⟨again, pitch, rfl⟩
      have written := Memory.setFlag_madeOf (f := .fixedPitch) true (by decide) memory
      rw [pitch] at written
      have read' : Header.read again = .ok m.header :=
        (Memory.read_of_advertised written).trans read
      refine ⟨memory, again, fresh, agrees, ?_, on, fun pc => ?_⟩
      · exact (agrees.within 0 (by decide)).trans set
      · rw [startOver, Op.run_update_bind, Op.run_view_bind, Op.run_bind_ok (advertised pc)]
        exact (Op.run_bind_ok (pitched pc)).trans (run_begin read' pc)

/-- Starting over succeeds, wherever the story stands. The transcript is as it was, and from
version 3 on the pitch is fixed if it was, or if the story's own image fixes it. -/
theorem Plays.run_restart (plays : m.Plays story) :
    ∃ memory again,
      freshLoad story { m.settings with transcript := m.memory.bit 0x11 0 } =
        .ok (memory, m.header) ∧
      memory.AgreesBut .fixedPitch again ∧ again.bit 0x11 0 = m.memory.bit 0x11 0 ∧
      (3 ≤ m.memory.version →
        again.bit 0x11 1 = (m.memory.bit 0x11 1 || m.memory.reset.bit 0x11 1)) ∧
      ∀ pc, restart.run { m with pc } = (.ok (), m.atBeginning again) := by
  have shaped := plays.holds.shaped
  have transcript : ∀ pc, (Op.query fun m : Machine => m.memory.flag .transcripting).run
      { m with pc } = (.ok (m.memory.bit 0x11 0), { m with pc }) :=
    fun pc => congrArg (Prod.mk · _) shaped.hasTranscript.flag_eq
  have version : ∀ pc, ({ m with pc } : Machine).version = m.memory.version :=
    fun _ => plays.version_eq
  simp only [restart, Op.run_bind_ok (transcript _), Op.run_view_bind, version]
  by_cases third : 3 ≤ m.memory.version
  · have pitch : ∀ pc, (Op.query fun m : Machine => m.memory.flag .fixedPitch).run
        { m with pc } = (.ok (m.memory.bit 0x11 1), { m with pc }) :=
      fun pc => congrArg (Prod.mk · _) (shaped.hasPitch third).flag_eq
    obtain ⟨memory, again, fresh, agrees, set, fixed, run⟩ :=
      plays.run_startOver (m.memory.bit 0x11 0) (m.memory.bit 0x11 1) fun _ => third
    refine ⟨memory, again, fresh, agrees, set, fun _ => fixed, fun pc => ?_⟩
    rw [if_pos third, Op.run_bind_ok (pitch pc), run]
  · obtain ⟨memory, again, fresh, agrees, set, _, run⟩ :=
      plays.run_startOver (m.memory.bit 0x11 0) false (by simp)
    refine ⟨memory, again, fresh, agrees, set, fun third' => absurd third' third, fun pc => ?_⟩
    rw [if_neg third]
    exact run pc

end Machine

/-! ## Sessions that start over -/

namespace Session

variable {ω : Type} {story : Array Byte} {s : Session ω}

/-- Whatever is asked of it, a session keeps its settings. -/
theorem settings_of_performAll (h : Host ω) (actions : List Action) (s : Session ω) :
    (performAll h actions s).machine.settings = s.machine.settings :=
  Machine.settings_of_changes (changes_within (performAll_changes h actions s)).1

/-- The step that starts the story over leaves the machine as starting over does, and the
streams as they were at first. -/
theorem Restarts.step_eq {h : Host ω} (restarts : s.Restarts) {machine : Machine}
    (run : ∀ pc, Machine.restart.run { s.machine with pc } = (.ok (), machine)) :
    ∃ i, s.step h = (.running,
      { s.enter h i with machine, streams := {}, pending := none }) := by
  obtain ⟨i, runs, restarting⟩ := restarts
  have began : (onMachine Machine.restart).run (s.enter h i) =
      (.ok (), { s.enter h i with machine }) :=
    Op.run_zoom_eq_ok.mpr ⟨machine, run i.next, rfl⟩
  refine ⟨i, ?_⟩
  rw [runs.step_eq, runs.run_zero (count_of_restart restarting) restarting, control, restart,
    Op.run_bind_ok began]
  rfl

/-- **Starting over.** Whatever a story and its player have done, starting over succeeds.
The image and the header are then those of a fresh load with the transcript as it stood,
but for the flag of the fixed pitch, and the story stands at its beginning with an empty
stack and no alphabet locked. The instruction that starts the story over moreover closes
all tables, selects the screen, deselects the commands and leaves no read pending. -/
theorem restart_is_fresh_load {settings : Settings} {entropy : UInt64}
    {generator : Random.Generator} {machine : Machine}
    (loaded : Machine.load story settings entropy generator = .ok machine) (h : Host ω)
    (name : String) (world : ω) (actions : List Action)
    (reached : performAll h actions (start machine name world) = s) :
    ∃ memory header t,
      Machine.freshLoad story { settings with transcript := s.machine.memory.bit 0x11 0 } =
        .ok (memory, header) ∧
      Machine.restart.run s.machine = (.ok (), t) ∧
      memory.AgreesBut .fixedPitch t.memory ∧ t.header = header ∧
      t.pc = machine.pc ∧ t.stack = .empty ∧ t.alphabet = .a0 ∧
      (s.Restarts → ∃ u, s.step h = (.running, u) ∧ u.machine = t ∧ u.streams.tables = [] ∧
        u.streams.screen = true ∧ u.streams.commands = false ∧ u.pending = none) := by
  obtain ⟨plays, _⟩ := Machine.load_plays loaded
  obtain ⟨_, begins, same⟩ := Machine.freshLoad_of_load loaded
  have plays' : s.machine.Plays story := reached ▸ performAll_plays h actions plays
  have kept : s.machine.settings = settings := by
    rw [← reached, settings_of_performAll]
    exact same
  obtain ⟨memory, again, fresh, agrees, _, _, run⟩ := plays'.run_restart
  rw [kept] at fresh
  have pc : s.machine.header.initialPc = machine.pc := by
    rw [begins, plays.header_eq plays']
  refine ⟨memory, _, _, fresh, run s.machine.pc, agrees, rfl, pc, rfl, rfl, fun restarts => ?_⟩
  obtain ⟨_, stepped⟩ := restarts.step_eq (h := h) run
  exact ⟨_, stepped, rfl, rfl, rfl, rfl, rfl⟩

/-- A story whose image fixes the pitch, and which takes that back and starts over. -/
def pitchedStory : Array Byte :=
  #[3, 0, 0, 0, 0, 0x40, 0, 0x40, 0, 0x46, 0, 0x40, 0, 0x40, 0, 0x40, 0, 2] ++
    Array.replicate 46 0 ++ #[0xE2, 0x57, 0x00, 0x11, 0x00, 0xB7, 0, 0, 0, 0, 0, 0]

theorem pitchedStory_loaded : Machine.load pitchedStory {} 0 = .ok (.ofStory pitchedStory) :=
  Machine.load_ofStory (by decide +kernel)

/-- The session in which the story has taken back the fixed pitch. -/
def unpitched : Session Unit :=
  performAll Host.null [.step] (start (.ofStory pitchedStory) "tale" ())

/-- An instruction that starts the story over. -/
def restartInstruction (addr : Nat) : Instruction where
  addr
  opcode := ⟨.short, .zero, 7, none⟩
  operands := []
  store := none
  branch := none
  text := none
  size := 1

/-- The story that takes back the fixed pitch begins again at its first instruction. -/
theorem unpitched_starts_over :
    Machine.load pitchedStory {} 0 = .ok (.ofStory pitchedStory) ∧ unpitched.Restarts ∧
      ∃ u, unpitched.step Host.null = (.running, u) ∧
        u.machine.pc = (Machine.ofStory pitchedStory).pc ∧ u.machine.stack = .empty ∧
        u.streams.tables = [] ∧ u.pending = none := by
  have restarts : unpitched.Restarts := by
    refine ⟨restartInstruction 0x45, ⟨?_, ?_, eq_ok_of_toOption ?_⟩, rfl⟩ <;> decide +kernel
  obtain ⟨_, _, t, _, _, _, _, pc, stack, _, stepped⟩ :=
    restart_is_fresh_load pitchedStory_loaded Host.null "tale" () [.step] (s := unpitched) rfl
  obtain ⟨u, step, same, tables, _, _, pending⟩ := stepped restarts
  exact ⟨pitchedStory_loaded, restarts, u, step, same ▸ pc, same ▸ stack, tables, pending⟩

/-- **The flags that are carried over.** In a story of version 3 or later, whatever has
happened, starting over leaves the transcript as it was. It leaves the pitch fixed if it was
fixed, and also if the story's own image fixes it. So both flags are as they were unless the
story has taken back a pitch that its image fixes. -/
theorem flags_after_restart {settings : Settings} {entropy : UInt64}
    {generator : Random.Generator} {machine : Machine}
    (loaded : Machine.load story settings entropy generator = .ok machine)
    (third : 3 ≤ machine.version) (h : Host ω) (name : String) (world : ω) (actions : List Action)
    (reached : performAll h actions (start machine name world) = s) :
    ∃ transcript fixed forced image t,
      s.machine.memory.flag .transcripting = .ok transcript ∧
      s.machine.memory.flag .fixedPitch = .ok fixed ∧
      Memory.load story = .ok image ∧ image.flag .fixedPitch = .ok forced ∧
      Machine.restart.run s.machine = (.ok (), t) ∧
      t.memory.flag .transcripting = .ok transcript ∧
      t.memory.flag .fixedPitch = .ok (fixed || forced) ∧
      (t.memory.flag .fixedPitch = s.machine.memory.flag .fixedPitch ↔
        (forced = true → fixed = true)) := by
  obtain ⟨plays, _⟩ := Machine.load_plays loaded
  have plays' : s.machine.Plays story := reached ▸ performAll_plays h actions plays
  have third' : 3 ≤ s.machine.memory.version := by
    rw [(plays.holds.sameBounds plays'.holds).version, ← plays.version_eq]
    exact third
  obtain ⟨_, again, _, _, transcript, pitch, run⟩ := plays'.run_restart
  have again' : (s.machine.atBeginning again).Plays story := by
    have change : s.machine.Change (fun _ => True) (Machine.restart.run s.machine).2 := .restarted
    rw [run s.machine.pc] at change
    exact change.plays plays'
  have bounds := plays'.holds.sameBounds again'.holds
  have before := plays'.holds.shaped.hasPitch third'
  have file := plays'.holds.reset.shaped.hasPitch third'
  have fixed : s.machine.memory.flag .fixedPitch = .ok (s.machine.memory.bit 0x11 1) :=
    before.flag_eq
  have after := (before.congr bounds).flag_eq.trans (congrArg Except.ok (pitch third'))
  refine ⟨_, _, _, _, _, plays'.holds.shaped.hasTranscript.flag_eq, fixed,
    plays'.holds.loaded, file.flag_eq, run s.machine.pc, ?_, after, ?_⟩
  · exact again'.holds.shaped.hasTranscript.flag_eq.trans (congrArg Except.ok transcript)
  · rw [after, fixed, Except.ok.injEq, Bool.or_eq_left_iff_imp]
    rfl

/-- A pitch that the image fixes stays fixed if the story starts over at once. -/
theorem pitch_kept_at_first :
    3 ≤ (Machine.ofStory pitchedStory).version ∧
      ∃ t, Machine.restart.run (.ofStory pitchedStory) = (.ok (), t) ∧
        t.memory.flag .transcripting = (Machine.ofStory pitchedStory).memory.flag .transcripting ∧
        t.memory.flag .fixedPitch = (Machine.ofStory pitchedStory).memory.flag .fixedPitch := by
  have third : 3 ≤ (Machine.ofStory pitchedStory).version := by decide +kernel
  have fixed : (Machine.ofStory pitchedStory).memory.flag .fixedPitch = .ok true :=
    eq_ok_of_toOption (by decide +kernel)
  obtain ⟨_, pitch, _, _, t, before, given, _, _, run, after, _, same⟩ :=
    flags_after_restart pitchedStory_loaded third Host.null "tale" () [] rfl
  have on : pitch = true := Except.ok.inj (given.symm.trans fixed)
  exact ⟨third, t, run, after.trans before.symm, same.mpr fun _ => on⟩

/-- A story that has taken back the pitch that its image fixes finds it fixed again after
it has started over. -/
theorem cleared_pitch_returns :
    Machine.load pitchedStory {} 0 = .ok (.ofStory pitchedStory) ∧
      3 ≤ (Machine.ofStory pitchedStory).version ∧
      unpitched.machine.memory.flag .fixedPitch = .ok false ∧
      (Machine.restart.run unpitched.machine).2.memory.flag .fixedPitch = .ok true :=
  ⟨pitchedStory_loaded, by decide +kernel, eq_ok_of_toOption (by decide +kernel),
    eq_ok_of_toOption (by decide +kernel)⟩

end Session

end ZMachine
