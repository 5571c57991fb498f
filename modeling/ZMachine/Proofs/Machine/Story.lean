import ZMachine.Proofs.Machine.Change

/-!
# The story that a machine plays

A machine holds its story when starting over would bring back the image that was
loaded, and static memory is as it was loaded. It plays the story when its header
is also the one read from that image.

No change of a machine makes it play another story (`Change.plays`). The two
changes that could are starting over, where the header is read again, but only
after the story's own writes are gone, and taking back a snapshot, which replaces
dynamic memory only.
-/

set_option autoImplicit false

namespace ZMachine

open Relation (ReflTransGen)

/-! ## Memory -/

namespace Memory

/-- The image is one that a story was loaded into: its pristine copy and bounds are
the story's, and so is its static memory. -/
structure Holds (story : Array Byte) (m : Memory) : Prop where
  loaded : load story = .ok m.reset
  size : m.bytes.size = story.size
  static : ∀ i, m.staticBase ≤ i → m.bytes[i]? = story[i]?

variable {story : Array Byte} {m t : Memory} {allowed : Memory → Nat → Prop}

/-- What is known of an image that was loaded. -/
theorem load_ok (loaded : load story = .ok m) :
    m.bytes = story ∧ m.pristine = story ∧ headerSize ≤ m.staticBase ∧
      m.staticBase ≤ story.size := by
  simp only [load] at loaded
  split at loaded
  · cases loaded
  · split at loaded
    · cases loaded
    · split at loaded
      · cases loaded
      · split at loaded
        · cases loaded
        · split at loaded
          · cases loaded
          · cases loaded
            refine ⟨rfl, rfl, Nat.not_lt.mp ?_, Nat.not_lt.mp ?_⟩ <;> assumption

theorem Holds.pristine (holds : m.Holds story) : m.pristine = story :=
  (load_ok holds.loaded).2.1

theorem Holds.header_le (holds : m.Holds story) : headerSize ≤ m.staticBase :=
  (load_ok holds.loaded).2.2.1

theorem Holds.staticBase_le (holds : m.Holds story) : m.staticBase ≤ m.bytes.size :=
  holds.size ▸ (load_ok holds.loaded).2.2.2

theorem reset_of_load (loaded : load story = .ok m) : m.reset = m := by
  obtain ⟨bytes, pristine, _, _⟩ := load_ok loaded
  exact congrArg (fun bytes => { m with bytes }) (pristine.trans bytes.symm)

/-- The image that a story was loaded into holds it. -/
theorem holds_of_load (loaded : load story = .ok m) : m.Holds story := by
  obtain ⟨bytes, _, _, _⟩ := load_ok loaded
  exact ⟨(reset_of_load loaded).symm ▸ loaded, by rw [bytes], fun i _ => by rw [bytes]⟩

theorem Holds.reset_eq (holds : m.Holds story) (holds' : t.Holds story) : t.reset = m.reset :=
  Except.ok.inj (holds'.loaded.symm.trans holds.loaded)

/-- Images that hold one story have the same bounds. -/
theorem Holds.sameBounds (holds : m.Holds story) (holds' : t.Holds story) : m.SameBounds t := by
  obtain ⟨_, pristine, version, staticBase, highBase⟩ := Memory.mk.inj (holds.reset_eq holds')
  exact ⟨pristine, version, staticBase, highBase, holds'.size.trans holds.size.symm⟩

theorem Writes.reset_eq (write : Writes allowed m t) : t.reset = m.reset := by
  cases write with
  | byte addr value _ => rfl

/-- A write below static memory leaves the story held. -/
theorem Writes.holds (write : Writes allowed m t)
    (below : ∀ addr, allowed m addr → addr < m.staticBase) (holds : m.Holds story) :
    t.Holds story := by
  have bounds := write.sameBounds
  refine ⟨write.reset_eq.symm ▸ holds.loaded, bounds.size.trans holds.size, fun i above => ?_⟩
  rw [bounds.staticBase] at above
  rw [write.getElem?_eq fun permitted => Nat.not_lt.mpr above (below i permitted)]
  exact holds.static i above

theorem Holds.advertised_lt (holds : m.Holds story) {addr : Nat} (own : Advertised addr) :
    addr < m.staticBase := by
  have := holds.header_le
  simp only [Advertised, headerSize] at own this
  omega

/-- Starting over brings back an image that holds the story. -/
theorem Holds.reset (holds : m.Holds story) : m.reset.Holds story :=
  holds_of_load holds.loaded

theorem reset_of_writes (written : ReflTransGen (Writes allowed) m t) : t.reset = m.reset := by
  induction written with
  | refl => rfl
  | tail _ write ih => exact write.reset_eq.trans ih

theorem Holds.of_advertised (holds : m.Holds story)
    (written : ReflTransGen (Writes fun _ => Advertised) m t) : t.Holds story := by
  induction written with
  | refl => exact holds
  | tail _ write ih => exact write.holds (fun _ own => ih.advertised_lt own) ih

/-- Behind data put over the front of an array, the array is as it was. -/
theorem getElem?_overlay {data bytes : Array Byte} {i : Nat} (behind : data.size ≤ i) :
    (data ++ bytes.extract data.size bytes.size)[i]? = bytes[i]? := by
  rw [Array.getElem?_append_right behind, Array.getElem?_extract, Nat.min_self,
    Nat.add_sub_cancel' behind]
  split
  · rfl
  · exact (Array.getElem?_eq_none (by omega)).symm

theorem run_restoreDynamic (data : Array Byte) (m : Memory) :
    (restoreDynamic data).run m =
      if data.size = m.staticBase then
        (.ok (), { m with bytes := data ++ m.bytes.extract m.staticBase m.bytes.size })
      else (.error (.dynamicSize m.staticBase data.size), m) := rfl

theorem restoreDynamic_error {data : Array Byte} {fault : Fault}
    (refused : ((restoreDynamic data).run m).1 = .error fault) :
    ((restoreDynamic data).run m).2 = m := by
  rw [run_restoreDynamic] at refused ⊢
  split at refused
  · cases refused
  · rw [if_neg ‹_›]

theorem restoreDynamic_ok {data : Array Byte} {u : Unit}
    (replaced : ((restoreDynamic data).run m).1 = .ok u) : data.size = m.staticBase := by
  rw [run_restoreDynamic] at replaced
  split at replaced
  · assumption
  · cases replaced

theorem restoreDynamic_reset (data : Array Byte) (m : Memory) :
    ((restoreDynamic data).run m).2.reset = m.reset := by
  rw [run_restoreDynamic]
  split <;> rfl

/-- Replacing dynamic memory leaves the story held. -/
theorem Holds.restoreDynamic (holds : m.Holds story) (data : Array Byte) :
    ((Memory.restoreDynamic data).run m).2.Holds story := by
  rw [run_restoreDynamic]
  split
  · rename_i fits
    have inside := holds.staticBase_le
    refine ⟨holds.loaded, ?_, fun i above => ?_⟩
    · rw [Array.size_append, Array.size_extract, fits, ← holds.size]
      omega
    · rw [← holds.static i above]
      simp only [← fits] at above ⊢
      exact getElem?_overlay above
  · exact holds

/-- Dynamic memory of an image, put into another that holds the same story, makes it
the first. -/
theorem Holds.restored (holds : m.Holds story) (holds' : t.Holds story) :
    (Memory.restoreDynamic m.dynamic).run t = (.ok (), m) := by
  have bounds := holds.sameBounds holds'
  have inside := holds.staticBase_le
  have size : m.dynamic.size = t.staticBase := by
    rw [dynamic, Array.size_extract, bounds.staticBase]
    omega
  have bytes : m.dynamic ++ t.bytes.extract m.dynamic.size t.bytes.size = m.bytes := by
    refine Array.ext_getElem? fun i => ?_
    by_cases below : i < m.dynamic.size
    · have below' : i < m.staticBase := by
        rwa [size, bounds.staticBase] at below
      rw [Array.getElem?_append_left below, dynamic, Array.getElem?_extract, if_pos (by omega),
        Nat.zero_add]
    · have above : m.staticBase ≤ i := by
        rw [size, bounds.staticBase] at below
        exact Nat.not_lt.mp below
      rw [getElem?_overlay (Nat.not_lt.mp below), holds.static i above,
        holds'.static i (bounds.staticBase ▸ above)]
  rw [size] at bytes
  rw [run_restoreDynamic, if_pos size, bytes]
  exact congrArg (Prod.mk _) (congrArg (fun image => { image with bytes := m.bytes })
    (holds.reset_eq holds'))

end Memory

/-! ## Snapshots -/

/-- The snapshot belongs to the story of that name, and was saved by the instruction that
stands at its address. -/
structure Snapshot.SavedBy (snapshot : Snapshot) (memory : Memory) (version : Nat) (name : String)
    (saving : Instruction) : Prop where
  named : snapshot.sourceName = name
  decoded : Instruction.decode memory snapshot.pc version = .ok saving
  saves : saving.name version = "save"

/-- The snapshot was saved by an instruction of the story, has the size of its dynamic memory
and an acceptable stack. -/
structure Snapshot.Fits (snapshot : Snapshot) (memory : Memory) (version : Nat) (name : String)
    (saving : Instruction) : Prop extends Snapshot.SavedBy snapshot memory version name saving where
  size : snapshot.memory.size = memory.staticBase
  stack : ∃ stack, CallStack.ofParts snapshot.stack snapshot.frame = .ok stack

/-- The frame pointer of the snapshot lies past its cells, and so close to the last size that
no size tells where the frame would end. -/
structure Snapshot.BreaksOff (snapshot : Snapshot) : Prop where
  past : snapshot.stack.size < snapshot.frame + CallStack.frameHeader
  beyond : sizeLimit ≤ snapshot.frame + CallStack.frameHeader

/-! ## Machines -/

namespace Machine

/-- The machine plays a story: its memory holds the story, and its header is the
story's. -/
structure Plays (story : Array Byte) (m : Machine) : Prop where
  holds : m.memory.Holds story
  header : Header.read m.memory.reset = .ok m.header

variable {story : Array Byte} {m t : Machine} {offered : Snapshot → Prop}

/-- Machines that play one story have the same header. -/
theorem Plays.header_eq (plays : m.Plays story) (plays' : t.Plays story) : t.header = m.header := by
  have read := plays'.header
  rw [plays.holds.reset_eq plays'.holds, plays.header] at read
  exact (Except.ok.inj read).symm

/-- Where starting over leads: to the pristine image, in which the interpreter goes
on to describe itself, and from there to the story's beginning. -/
inductive StartsOver (m : Machine) : Machine → Prop where
  | stopped {memory : Memory}
      (described : ReflTransGen (Memory.Writes fun _ => Memory.Advertised) m.memory.reset memory) :
      StartsOver m { m with memory }
  | begun {memory : Memory} {header : Header}
      (described : ReflTransGen (Memory.Writes fun _ => Memory.Advertised) m.memory.reset memory)
      (read : Header.read memory = .ok header) :
      StartsOver m
        { m with memory, header, pc := header.initialPc, stack := .empty, alphabet := .a0 }

theorem startOver_cases {transcript fixed : Bool} {ended : Except Fault Unit}
    (run : (startOver transcript fixed).run m = (ended, t)) : m.StartsOver t := by
  have began : ∀ {memory : Memory},
      ReflTransGen (Memory.Writes fun _ => Memory.Advertised) m.memory.reset memory →
      Op.run (do
        let header ← Op.query fun m : Machine => Header.read m.memory
        Op.update fun m =>
          { m with header, pc := header.initialPc, stack := .empty, alphabet := .a0 })
        { m with memory } = (ended, t) → m.StartsOver t := by
    intro memory described run
    obtain ⟨_, _, _, rfl⟩ | ⟨header, read, run⟩ := Op.bind_cases run
    · exact .stopped described
    · obtain ⟨_, rfl⟩ := Prod.mk.inj run
      exact .begun described read
  simp only [startOver, Op.run_update_bind, Op.run_view_bind] at run
  have described := Memory.advertise_madeOf { m.settings with transcript } m.memory.reset
  obtain ⟨_, _, _, rfl⟩ | ⟨_, _, run⟩ := Op.bind_cases run
  · exact .stopped described
  split at run
  · have pitched := Memory.setFlag_madeOf (f := .fixedPitch) true (by decide)
      ((Memory.advertise { m.settings with transcript }).run m.memory.reset).2
    obtain ⟨_, _, _, rfl⟩ | ⟨_, _, run⟩ := Op.bind_cases run
    · exact .stopped (described.trans pitched)
    · exact began (described.trans pitched) run
  · exact began described run

/-- The story is started over unless its flags cannot be read. -/
theorem restart_cases {ended : Except Fault Unit} (run : restart.run m = (ended, t)) :
    t = m ∨ m.StartsOver t := by
  obtain ⟨_, _, _, same⟩ | ⟨transcript, _, run⟩ := Op.bind_cases run
  · exact .inl same
  rw [Op.run_view_bind] at run
  split at run
  · obtain ⟨_, _, _, same⟩ | ⟨fixed, _, run⟩ := Op.bind_cases run
    · exact .inl same
    · exact .inr (startOver_cases run)
  · exact .inr (startOver_cases run)

/-- The header is read again only where the interpreter's own writes are the only
ones. -/
theorem StartsOver.plays (again : m.StartsOver t) (plays : m.Plays story) : t.Plays story := by
  cases again with
  | stopped described =>
      refine ⟨plays.holds.reset.of_advertised described, ?_⟩
      rw [Memory.reset_of_writes described]
      exact plays.header
  | begun described read =>
      refine ⟨plays.holds.reset.of_advertised described, ?_⟩
      rw [Memory.reset_of_writes described]
      exact (Memory.read_of_advertised described).symm.trans read

/-- What taking back a snapshot does: nothing, or all that the snapshot says. -/
theorem apply_cases {snapshot : Snapshot} {ended : Except Fault Unit}
    (run : snapshot.apply.run m = (ended, t)) :
    (∃ fault, ended = .error fault) ∧ t = m ∨
      ∃ stack, CallStack.ofParts snapshot.stack snapshot.frame = .ok stack ∧
        snapshot.memory.size = m.memory.staticBase ∧ ended = .ok () ∧ t = { m with
          memory := ((Memory.restoreDynamic snapshot.memory).run m.memory).2
          stack, pc := snapshot.pc, alphabet := snapshot.alphabet } := by
  obtain ⟨fault, _, stopped, same⟩ | ⟨stack, accepted, run⟩ := Op.bind_cases run
  · exact .inl ⟨⟨fault, stopped⟩, same⟩
  rw [Op.run_view_bind] at run
  split at run
  · obtain ⟨stopped, same⟩ := Prod.mk.inj run
    exact .inl ⟨⟨_, stopped.symm⟩, same.symm⟩
  · obtain ⟨fault, refused, stopped, same⟩ | ⟨_, replaced, run⟩ := Op.bind_cases run
    · have kept := Memory.restoreDynamic_error refused
      exact .inl ⟨⟨fault, stopped⟩, same.trans (congrArg (fun memory => { m with memory }) kept)⟩
    · obtain ⟨ended, after⟩ := Prod.mk.inj run
      exact .inr ⟨stack, accepted, Memory.restoreDynamic_ok replaced, ended.symm, after.symm⟩

/-- A snapshot that fits is taken back. -/
theorem run_apply {snapshot : Snapshot} {stack : CallStack} {memory : Memory}
    (accepted : CallStack.ofParts snapshot.stack snapshot.frame = .ok stack)
    (inside : snapshot.pc < m.memory.size)
    (fits : (Memory.restoreDynamic snapshot.memory).run m.memory = (.ok (), memory)) :
    snapshot.apply.run m = (.ok (),
      { m with memory, stack, pc := snapshot.pc, alphabet := snapshot.alphabet }) := by
  have given : Op.run (Op.ofExcept (CallStack.ofParts snapshot.stack snapshot.frame)) m =
      (.ok stack, m) := congrArg (Prod.mk · m) accepted
  have replaced : (onMemory (Memory.restoreDynamic snapshot.memory)).run m =
      (.ok (), { m with memory }) :=
    congrArg (fun ended => (ended.1, { m with memory := ended.2 })) fits
  rw [Snapshot.apply, Op.run_bind_ok given]
  simp only [Op.run_bind, Op.run_view, if_neg (Nat.not_le.mpr inside), replaced, Op.run_update]

/-- Taking a snapshot back breaks off exactly at such a frame pointer; all else that does not
fit is refused. -/
theorem apply_overflow_iff {snapshot : Snapshot} :
    (snapshot.apply.run m).1 = .error .sizeOverflow ↔ snapshot.BreaksOff := by
  have stack : CallStack.ofParts snapshot.stack snapshot.frame = .error .sizeOverflow ↔
      snapshot.BreaksOff :=
    CallStack.ofParts_overflow_iff.trans ⟨fun both => ⟨both.1, both.2⟩, fun breaks =>
      ⟨breaks.past, breaks.beyond⟩⟩
  constructor
  · intro stopped
    rcases run : snapshot.apply.run m with ⟨ended, t⟩
    obtain rfl : ended = .error .sizeOverflow := (congrArg Prod.fst run).symm.trans stopped
    obtain ⟨fault, refused, same, _⟩ | ⟨_, _, run⟩ := Op.bind_cases run
    · cases same
      exact stack.mp refused
    rw [Op.run_view_bind] at run
    split at run
    · cases run
    · obtain ⟨fault, refused, same, _⟩ | ⟨_, _, run⟩ := Op.bind_cases run
      · cases same
        have refused : ((Memory.restoreDynamic snapshot.memory).run m.memory).1 =
          .error .sizeOverflow := refused
        rw [Memory.run_restoreDynamic] at refused
        split at refused <;> cases refused
      · cases run
  · intro breaks
    have refused : Op.run (Op.ofExcept (CallStack.ofParts snapshot.stack snapshot.frame)) m =
        (.error .sizeOverflow, m) := congrArg (Prod.mk · m) (stack.mpr breaks)
    rw [Snapshot.apply, Op.run_bind_error refused]

/-- **One change.** A machine that plays a story goes on playing it. -/
theorem Change.plays (change : m.Change offered t) (plays : m.Plays story) : t.Plays story := by
  cases change with
  | wrote write =>
      refine ⟨write.holds (fun _ below => below) plays.holds, ?_⟩
      exact write.reset_eq.symm ▸ plays.header
  | advertised write =>
      refine ⟨write.holds (fun _ own => plays.holds.advertised_lt own) plays.holds, ?_⟩
      exact write.reset_eq.symm ▸ plays.header
  | stacked op => exact ⟨plays.holds, plays.header⟩
  | moved pc => exact ⟨plays.holds, plays.header⟩
  | locked alphabet => exact ⟨plays.holds, plays.header⟩
  | drew random => exact ⟨plays.holds, plays.header⟩
  | restarted =>
      rcases run : restart.run m with ⟨ended, t⟩
      obtain rfl | again := restart_cases run
      · exact plays
      · exact again.plays plays
  | @took snapshot allowed =>
      rcases run : snapshot.apply.run m with ⟨ended, t⟩
      obtain ⟨_, rfl⟩ | ⟨stack, _, _, _, rfl⟩ := apply_cases run
      · exact plays
      · refine ⟨plays.holds.restoreDynamic snapshot.memory, ?_⟩
        rw [Memory.restoreDynamic_reset]
        exact plays.header

theorem plays_of_changes (changes : ReflTransGen (Change offered) m t) (plays : m.Plays story) :
    t.Plays story := by
  induction changes with
  | refl => exact plays
  | tail _ change ih => exact change.plays ih

/-! ## Loading -/

/-- A story that was loaded is played from its beginning, with an empty stack. -/
theorem load_plays {settings : Settings} {entropy : UInt64} {generator : Random.Generator}
    (loaded : load story settings entropy generator = .ok m) :
    m.Plays story ∧ m.stack = .empty := by
  obtain ⟨memory, image, loaded⟩ := bind_eq_ok loaded
  have described := Memory.advertise_madeOf settings memory
  split at loaded
  · cases loaded
  simp only [ofMemory] at loaded
  rcases run : (Memory.advertise settings).run memory with ⟨advertised, memory'⟩
  simp only [run] at loaded described
  obtain ⟨_, _, loaded⟩ := bind_eq_ok loaded
  obtain ⟨header, read, loaded⟩ := bind_eq_ok loaded
  obtain ⟨codec, _, loaded⟩ := bind_eq_ok loaded
  obtain ⟨dictionary, _, loaded⟩ := bind_eq_ok loaded
  cases loaded
  refine ⟨⟨(Memory.holds_of_load image).of_advertised described, ?_⟩, rfl⟩
  rw [Memory.reset_of_writes described, Memory.reset_of_load image,
    ← Memory.read_of_advertised described]
  exact read

/-! ## The dictionary -/

/-- The machine's dictionary was read with its codec. -/
def ReadsWords (m : Machine) : Prop :=
  ∃ memory addr, Dictionary.read memory m.codec addr = .ok m.dictionary

/-- No change touches the dictionary or the codec. -/
theorem Change.dictionary_eq (change : m.Change offered t) :
    t.dictionary = m.dictionary ∧ t.codec = m.codec := by
  cases change with
  | restarted =>
      rcases run : restart.run m with ⟨ended, t⟩
      obtain rfl | again := restart_cases run
      · exact ⟨rfl, rfl⟩
      · cases again <;> exact ⟨rfl, rfl⟩
  | @took snapshot allowed =>
      rcases run : snapshot.apply.run m with ⟨ended, t⟩
      obtain ⟨_, rfl⟩ | ⟨stack, _, _, _, rfl⟩ := apply_cases run
      · exact ⟨rfl, rfl⟩
      · exact ⟨rfl, rfl⟩
  | _ => exact ⟨rfl, rfl⟩

theorem readsWords_of_changes (changes : ReflTransGen (Change offered) m t) (reads : m.ReadsWords) :
    t.ReadsWords := by
  induction changes with
  | refl => exact reads
  | tail _ change ih =>
      obtain ⟨dictionary, codec⟩ := change.dictionary_eq
      rw [ReadsWords, dictionary, codec]
      exact ih

/-- The machine on which a story is played with the usual settings, if it can be loaded. -/
@[irreducible] def ofStory (story : Array Byte) : Machine :=
  match load story {} 0 with
  | .ok machine => machine
  | .error _ => default

theorem load_ofStory (loads : (load story {} 0).isOk = true) :
    load story {} 0 = .ok (ofStory story) := by
  unfold ofStory
  cases loaded : load story {} 0 with
  | error fault =>
      rw [loaded] at loads
      cases loads
  | ok machine => rfl

theorem load_readsWords {settings : Settings} {entropy : UInt64} {generator : Random.Generator}
    (loaded : load story settings entropy generator = .ok m) : m.ReadsWords := by
  obtain ⟨memory, _, loaded⟩ := bind_eq_ok loaded
  split at loaded
  · cases loaded
  simp only [ofMemory] at loaded
  obtain ⟨_, _, loaded⟩ := bind_eq_ok loaded
  obtain ⟨header, _, loaded⟩ := bind_eq_ok loaded
  obtain ⟨codec, _, loaded⟩ := bind_eq_ok loaded
  obtain ⟨dictionary, read, loaded⟩ := bind_eq_ok loaded
  cases loaded
  exact ⟨_, _, read⟩

end Machine

end ZMachine
