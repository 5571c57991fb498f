import ZMachine.Proofs.Session.ParseBuffer

/-!
# Splitting a line again

The story can have the text of a buffer split into words again. Each code of the buffer is
then taken as the number of a character (`reread`). It is one for the visible characters of
ASCII (`Zscii.ofNat_ofChar`), but not for the letters and signs beyond them. If the text is
read back as it was typed, the parse buffer is filled with what it holds already. In
general it is filled with the description of the text that is read back, and kept only if
that is the description of the text that was typed (`tokenise_keeps_parse_buffer`).
-/

set_option autoImplicit false

namespace ZMachine

/-! ## Reading codes back -/

/-- The text of codes that are each taken as the number of a character. -/
def textOfCodes (codes : List Byte) : String :=
  String.ofList (codes.map fun b => Char.ofNat b.toNat)

/-- A text as it is read back from its codes. -/
def reread (text : String) : String :=
  textOfCodes (Zscii.ofString text)

/-- The codes of the characters from the space to the tilde, of the return, of the backspace
and of the escape are their numbers. -/
theorem Zscii.ofNat_ofChar {c : Char}
    (plain : (' ' ≤ c ∧ c ≤ '~') ∨ c ∈ ['\r', '\x08', '\x1b']) :
    Char.ofNat (ofChar c).toNat = c := by
  rcases plain with plain | control
  · have high : c.toNat ≤ 126 := plain.2
    rw [ofChar, if_pos plain, UInt8.toNat_ofNat_of_lt' (by rw [UInt8.size]; omega),
      Char.ofNat_toNat]
  · simp only [List.mem_cons, List.not_mem_nil, or_false] at control
    rcases control with rfl | rfl | rfl <;> rfl

theorem reread_eq {text : String}
    (plain : ∀ c ∈ text.toList, (' ' ≤ c ∧ c ≤ '~') ∨ c ∈ ['\r', '\x08', '\x1b']) :
    reread text = text := by
  have same : text.toList.map (fun c => Char.ofNat (Zscii.ofChar c).toNat) = text.toList := by
    refine (List.map_congr_left fun c member => ?_).trans (List.map_id _)
    exact Zscii.ofNat_ofChar (plain c member)
  rw [reread, textOfCodes, Zscii.ofString, List.map_map]
  exact (congrArg String.ofList same).trans String.ofList_toList

namespace Session

variable {ω : Type} {h h' : Host ω} {s s' u v : Session ω} {m t : Machine} {i : Instruction}
  {operands : List Word} {addr textAddr parseAddr : Nat} {textMax room : Byte}
  {target : Option Byte} {text typed : String} {echo : Bool} {described : List Byte}

/-! ## The operation -/

/-- The operands name a text buffer and a parse buffer, no dictionary, and no wish to leave
words out. -/
structure NamesBuffers (operands : List Word) (textAddr parseAddr : Nat) : Prop where
  text : operands[0]?.map UInt16.toNat = some textAddr
  parse : operands[1]?.map UInt16.toNat = some parseAddr
  standard : operands.getD 2 0 = 0
  whole : operands.getD 3 0 = 0

/-- The next step of the session splits the text of a buffer into words again. -/
def SplitsAgain (h : Host ω) (s : Session ω) (textAddr parseAddr : Nat) : Prop :=
  ∃ i, s.Executes i ∧ i.opcode.form ≠ .extended ∧ i.opcode.count = .var ∧
    i.opcode.number = 0x1B ∧ ∃ operands u,
      (resolveAll i.operands).run (s.enter h i) = (.ok operands, u) ∧
      NamesBuffers operands textAddr parseAddr

/-- Splitting a stored text again fills the parse buffer with the words that its codes
are read back as. -/
theorem run_tokenise (late : 5 ≤ s.machine.version)
    (names : NamesBuffers operands textAddr parseAddr) {codes : List Byte}
    (short : codes.length < 256)
    (stand : s.machine.memory.Stand (textAddr + 1) (storedText s.machine.version codes)) :
    (tokenise i operands).run s =
      (onMachine (fillParseBuffer (textOfCodes codes) parseAddr false) >>= fun _ =>
        pure Outcome.advanced).run s := by
  obtain ⟨T, first, rfl⟩ := Option.map_eq_some_iff.mp names.text
  obtain ⟨P, second, rfl⟩ := Option.map_eq_some_iff.mp names.parse
  have early : ¬ s.machine.version < 5 := Nat.not_lt.mpr late
  rw [storedText, if_neg early] at stand
  have inside := stand.inside (List.cons_ne_nil _ _)
  rw [List.length_append, List.length_singleton] at inside
  obtain ⟨count, rest⟩ := Memory.stand_append.mp stand
  have length : (UInt8.ofNat codes.length).toNat = codes.length := UInt8.toNat_ofNat_of_lt' short
  have counted : (queryMachine (·.memory.getByte (T.toNat + 1))).run s =
      (.ok (UInt8.ofNat codes.length), s) := Prod.ext count.getByte rfl
  have taken : (queryMachine (·.memory.readBytes (T.toNat + 2)
      (UInt8.ofNat codes.length).toNat)).run s = (.ok codes.toArray, s) := by
    rw [length]
    exact Prod.ext (Memory.Stand.readBytes rest (by omega)) rfl
  have allowed : (requireVersion i 5).run s = (.ok (), s) := by
    rw [requireVersion, viewMachine, Op.run_view_bind, if_neg early]
    rfl
  have text : (operand operands 0 : Op (Session ω) Word) = pure T := by
    rw [operand, first]
  have parse : (operand operands 1 : Op (Session ω) Word) = pure P := by
    rw [operand, second]
  rw [tokenise, Op.run_bind_ok allowed]
  simp only [text, parse, names.standard, names.whole]
  refine (Op.run_bind_ok counted).trans ((Op.run_bind_ok taken).trans ?_)
  rfl

/-- The step of an instruction that splits a buffer again. -/
theorem step_tokenise (runs : s.Executes i) (plain : i.opcode.form ≠ .extended)
    (count : i.opcode.count = .var) (number : i.opcode.number = 0x1B)
    (resolved : (resolveAll i.operands).run (s.enter h i) = (.ok operands, u)) :
    s.step h = conclude i s.machine.version ((tokenise i operands).run u) := by
  have family : ∀ version, Family.of? version i.opcode.count i.opcode.number.toNat =
      some .input := by
    intro version
    rw [count, number]
    rfl
  rw [runs.step_eq h]
  obtain ⟨_, family', found, run⟩ | ⟨extended | none, _⟩ := run_execute h i resolved
  · rw [family] at found
    cases found
    rw [run, executeAs, dispatch, count, number]
    rfl
  · exact absurd extended plain
  · rw [family] at none
    cases none

/-- The step that splits a stored line again fills the parse buffer, which it finds as the
line left it. -/
theorem SplitsAgain.step_eq (splits : SplitsAgain h s textAddr parseAddr)
    (holds : HoldsLine m typed textAddr parseAddr room described s.machine)
    (late : 5 ≤ m.version) (short : typed.length < 256) :
    ∃ i u pc stack, u.machine = { s.machine with pc, stack } ∧
      s.step h = conclude i s.machine.version
        ((onMachine (fillParseBuffer (reread typed) parseAddr false) >>= fun _ =>
          pure Outcome.advanced).run u) := by
  obtain ⟨i, runs, plain, count, number, operands, u, resolved, names⟩ := splits
  obtain ⟨stack, kept⟩ := run_resolveAll i.operands (s.enter h i)
  rw [resolved] at kept
  have machine : u.machine = { s.machine with pc := i.next, stack } := congrArg (·.machine) kept
  have version : u.machine.version = m.version := by
    rw [machine]
    exact congrArg (·.version) holds.tables.header
  have text := holds.text
  rw [← version] at late text
  refine ⟨i, u, i.next, stack, machine, ?_⟩
  rw [step_tokenise runs plain count number resolved]
  refine congrArg (conclude i _) (run_tokenise late names ?_ ?_)
  · rw [Zscii.length_ofString]
    exact short
  · rw [machine] at text ⊢
    exact text

/-- Splitting a stored line again describes the words of the text that is read back. -/
theorem SplitsAgain.running_iff (splits : SplitsAgain h s textAddr parseAddr)
    (holds : HoldsLine m typed textAddr parseAddr room described s.machine)
    (late : 5 ≤ m.version) (short : typed.length < 256) {memory : Memory} :
    ((s.step h).1 = .running ∧ (s.step h).2.machine.memory = memory) ↔
      ∃ again, m.descriptionOf (reread typed) room = .ok again ∧
        s.machine.memory.Writable (parseAddr + 1) again.length ∧
        memory = s.machine.memory.lay (parseAddr + 1) again := by
  obtain ⟨i, u, pc, stack, machine, step⟩ := splits.step_eq holds late short
  have read : u.machine.memory.getByte parseAddr = .ok room := by
    rw [machine]
    exact (Memory.stand_append.mp holds.parse).1.getByte
  have same : u.machine.descriptionOf (reread typed) room =
      m.descriptionOf (reread typed) room := by
    refine Machine.descriptionOf_congr ?_ ?_ ?_ _ _ <;> rw [machine]
    exacts [holds.tables.header, holds.tables.dictionary, holds.tables.codec]
  rw [step]
  constructor
  · rintro ⟨running, rfl⟩
    rcases run : (onMachine (fillParseBuffer (reread typed) parseAddr false)).run u with
      ⟨fault | _, v⟩
    · rw [Op.run_bind_error run] at running
      cases running
    · obtain ⟨t, filled, rfl⟩ := onMachine_eq_ok.mp run
      obtain ⟨room', again, read', _, given, writable, rfl⟩ := fillParseBuffer_eq_ok.mp filled
      obtain rfl : room = room' := Except.ok.inj (read.symm.trans read')
      rw [Op.run_bind_ok run]
      rw [machine] at writable
      refine ⟨again, same.symm.trans given, writable, ?_⟩
      rw [machine]
      rfl
  · rintro ⟨again, given, writable, rfl⟩
    have filled : (fillParseBuffer (reread typed) parseAddr false).run u.machine = (.ok (),
        { u.machine with memory := u.machine.memory.lay (parseAddr + 1) again }) := by
      refine fillParseBuffer_eq_ok.mpr ⟨room, again, read, holds.roomy, same.trans given, ?_, rfl⟩
      rw [machine]
      exact writable
    rw [Op.run_bind_ok (onMachine_eq_ok.mpr ⟨_, filled, rfl⟩), machine]
    exact ⟨rfl, rfl⟩

/-- A place of memory holds the description of one text at most, since it begins with the
number of the words. -/
theorem description_unique {memory : Memory} {place : Nat} {other : String} {again : List Byte}
    (given : m.descriptionOf typed room = .ok described)
    (given' : m.descriptionOf other room = .ok again) (stand : memory.Stand place described)
    (stand' : memory.Stand place again) : again = described := by
  have number : (m.describedWords other room).length = (m.describedWords typed room).length := by
    obtain ⟨_, _, rfl⟩ := Machine.descriptionOf_eq_ok.mp given
    obtain ⟨_, _, rfl⟩ := Machine.descriptionOf_eq_ok.mp given'
    have first := (Memory.stand_append.mp stand).1.getByte
    rw [(Memory.stand_append.mp stand').1.getByte] at first
    have few := Machine.describedWords_le m typed room
    have few' := Machine.describedWords_le m other room
    rw [maxWords] at few few'
    have same := congrArg UInt8.toNat (Except.ok.inj first)
    rwa [UInt8.toNat_ofNat_of_lt' (by rw [UInt8.size]; omega),
      UInt8.toNat_ofNat_of_lt' (by rw [UInt8.size]; omega)] at same
  refine Memory.Stand.unique stand' stand ?_
  rw [Machine.length_description given, Machine.length_description given', number]

/-- Describing a stored line again would change nothing. -/
theorem HoldsLine.lay_eq (holds : HoldsLine m typed textAddr parseAddr room described t) :
    t.memory.lay (parseAddr + 1) described = t.memory := by
  refine Memory.Stand.lay_eq (Memory.stand_append.mp holds.parse).2 (holds.writable.room ?_)
  rw [Machine.length_description holds.given]
  omega

/-- A buffer that holds the description of a line is not changed by the description of a
text just if that is the same. -/
theorem HoldsLine.keeps_iff (holds : HoldsLine m typed textAddr parseAddr room described t)
    {other : String} {again : List Byte} (given : m.descriptionOf other room = .ok again)
    (writable : t.memory.Writable (parseAddr + 1) again.length) :
    (∀ i, parseAddr ≤ i → i < parseAddr + parseExtent room →
      (t.memory.lay (parseAddr + 1) again).bytes[i]? = t.memory.bytes[i]?) ↔
    again = described := by
  constructor
  · intro kept
    have few := Machine.describedWords_le m other room
    have length := Machine.length_description given
    refine description_unique holds.given given (Memory.stand_append.mp holds.parse).2 ?_
    refine writable.stand_lay.congr fun i low high => (kept i (Nat.le_of_succ_le low) ?_).symm
    rw [parseExtent]
    omega
  · rintro rfl i _ _
    rw [holds.lay_eq]

/-- **Splitting a line again.** Take any read of version 5 or later that waits for a line,
with buffers that lie apart from each other and from the variable it stores in, and no
table open. When a line is taken and the next step splits the text of the buffer again,
the parse buffer is kept, with all of memory, if the stored text consists of the
characters from the space to the tilde, returns, backspaces and escapes.

The exception are characters whose codes are not their numbers. A text with one of them is
not read back as it was typed, and a step that runs keeps the parse buffer if and only if
both texts are described in the same way. -/
theorem tokenise_keeps_parse_buffer (late : 5 ≤ s.machine.version)
    (pending : s.pending = some (.line addr textAddr textMax parseAddr target))
    (closed : s.streams.tables = []) (parses : parseAddr ≠ 0)
    (apart : BuffersApart s.machine textAddr textMax parseAddr target)
    (taken : s.provideLine h text echo = (.ok (), s'))
    (splits : SplitsAgain h' s' textAddr parseAddr) :
    let typed := typedText s.machine.version textMax (stripped text)
    ((∀ c ∈ typed.toList, (' ' ≤ c ∧ c ≤ '~') ∨ c ∈ ['\r', '\x08', '\x1b']) →
      (s'.step h').1 = .running ∧ (s'.step h').2.machine.memory = s'.machine.memory) ∧
    ((s'.step h').1 = .running → ∃ room, s.machine.memory.getByte parseAddr = .ok room ∧
      ((∀ i, parseAddr ≤ i → i < parseAddr + parseExtent room →
          (s'.step h').2.machine.memory.bytes[i]? = s'.machine.memory.bytes[i]?) ↔
        s.machine.descriptionOf (reread typed) room = s.machine.descriptionOf typed room)) := by
  intro typed
  obtain ⟨room, described, read, holds⟩ := provideLine_holdsLine pending closed parses apart taken
  have fits := length_typedText_le s.machine.version textMax (stripped text)
  have short : typed.length < 256 := by
    have largest := textMax.toNat_lt
    rw [textRoom, if_neg (Nat.not_lt.mpr late)] at fits
    exact Nat.lt_of_le_of_lt fits largest
  refine ⟨fun plain => ?_, fun running => ⟨room, read, ?_⟩⟩
  · refine (splits.running_iff holds late short).mpr ⟨described, ?_, holds.writable, ?_⟩
    · rw [reread_eq plain]
      exact holds.given
    · exact holds.lay_eq.symm
  · obtain ⟨again, given, writable, memory⟩ :=
      (splits.running_iff holds late short).mp ⟨running, rfl⟩
    rw [memory, given, holds.given, holds.keeps_iff given writable]
    exact ⟨congrArg Except.ok, Except.ok.inj⟩

/-! ## A line that is split again -/

/-- A story with a dictionary of one word, "ä", that reads a line, splits it again and
ends. -/
def splittingStory : Array Byte :=
  (([5, 0, 0, 0, 0, 0x6A, 0, 0x6A, 0, 0x60, 0, 0x40, 0, 0x40, 0, 0x60] : List Byte) ++
    List.replicate 48 0 ++ [10] ++ List.replicate 15 0 ++ [2] ++ List.replicate 15 0 ++
    [0, 6, 0, 1, 0x14, 0xC4, 0x6C, 0xA5, 0x94, 0xA5, 0xE4, 0x0F, 0, 0x40, 0, 0x50, 0,
      0xFB, 0x0F, 0, 0x40, 0, 0x50, 0xBA] ++ List.replicate 8 0).toArray

/-- The machine on which the story that splits is played. -/
def splittingMachine : Machine :=
  Machine.ofStory splittingStory

theorem splittingMachine_loaded : Machine.load splittingStory {} 0 = .ok splittingMachine :=
  Machine.load_ofStory (by decide +kernel)

/-- The story that splits, waiting for its line. -/
@[irreducible] def splittingSession : Session Unit :=
  performAll Host.null [.step] (start splittingMachine "tale" ())

theorem splittingSession_pending :
    splittingSession.pending = some (.line 0x6A 0x40 10 0x50 (some 0)) := by
  decide +kernel

theorem splittingSession_version : splittingSession.machine.version = 5 := by
  decide +kernel

theorem splittingSession_words : splittingSession.machine.ReadsWords := by
  unfold splittingSession
  exact performAll_readsWords _ _ (Machine.load_readsWords splittingMachine_loaded)

/-- The story that splits takes any line. -/
theorem splittingSession_takes : TakesLines splittingSession 0x40 10 0x50 2 :=
  takesLines_of_layout splittingSession_words (by decide +kernel)

/-- The story that splits, with a line in its buffers. -/
def splittingNext (typed : String) (described : List Byte) : Session Unit :=
  { splittingSession with
    machine := withLine splittingSession.machine 0x40 0x50 typed described
    pending := none }

/-- The instruction that splits. -/
def splittingInstruction : Instruction where
  addr := 0x71
  opcode := ⟨.variable, .var, 0x1B, none⟩
  operands := [.large 0x40, .large 0x50]
  store := none
  branch := none
  text := none
  size := 6

theorem splittingSession_taken (line : String) {described : List Byte}
    (given : splittingSession.machine.descriptionOf
      (typedText splittingSession.machine.version 10 (stripped line)) 2 = .ok described) :
    splittingSession.provideLine Host.null line false = (.ok (), splittingNext
      (typedText splittingSession.machine.version 10 (stripped line)) described) := by
  obtain ⟨_, taken⟩ :=
    splittingSession_takes.provideLine_eq splittingSession_pending given Host.null
  exact taken

theorem splittingNext_splits {typed : String} {described : List Byte}
    (next : (nextInstruction (splittingNext typed described).machine).toOption =
      some splittingInstruction) :
    SplitsAgain Host.null (splittingNext typed described) 0x40 0x50 := by
  have going : splittingSession.halted = false := by decide +kernel
  exact ⟨splittingInstruction, ⟨going, rfl, eq_ok_of_toOption next⟩, nofun, rfl, rfl,
    [0x40, 0x50], _, rfl, rfl, rfl, rfl, rfl⟩

/-- The story that splits knows the word "ä", but neither "a" nor what "ä" is read back as. -/
theorem splittingSession_descriptions :
    splittingSession.machine.descriptionOf "a" 2 = .ok [1, 0, 0, 1, 2] ∧
    splittingSession.machine.descriptionOf "ä" 2 = .ok [1, 0, 0x64, 1, 2] ∧
    splittingSession.machine.descriptionOf (reread "ä") 2 = .ok [1, 0, 0, 1, 2] := by
  have describe := splittingSession_words.descriptionOf_eq splittingSession_takes.plain
    splittingSession_takes.latin
  simp only [describe, Except.ok.injEq]
  decide +kernel

/-- The parse buffer keeps the line "a" when it is split again. -/
theorem a_kept_when_split :
    (splittingSession.machine.version = 5 ∧
      splittingSession.pending = some (.line 0x6A 0x40 10 0x50 (some 0)) ∧
      splittingSession.streams.tables = [] ∧
      BuffersApart splittingSession.machine 0x40 10 0x50 (some 0)) ∧
    ∃ s', splittingSession.provideLine Host.null "a" false = (.ok (), s') ∧
      SplitsAgain Host.null s' 0x40 0x50 ∧
      (s'.step Host.null).1 = .running ∧
      (s'.step Host.null).2.machine.memory = s'.machine.memory := by
  have ready := splittingSession_takes
  have line : typedText splittingSession.machine.version 10 (stripped "a") = "a" := by
    rw [splittingSession_version, stripped_eq (by decide)]
    decide +kernel
  obtain ⟨given, _⟩ := splittingSession_descriptions
  have taken := splittingSession_taken "a" (by rw [line]; exact given)
  rw [line] at taken
  have splits : SplitsAgain Host.null (splittingNext "a" [1, 0, 0, 1, 2]) 0x40 0x50 :=
    splittingNext_splits (by decide +kernel)
  obtain ⟨kept, _⟩ := tokenise_keeps_parse_buffer ready.late splittingSession_pending ready.closed
    ready.parses ready.apart taken splits
  rw [line] at kept
  exact ⟨⟨splittingSession_version, splittingSession_pending, ready.closed, ready.apart⟩, _, taken,
    splits, kept (forall_mem_of_all (by decide))⟩

/-- The parse buffer loses the word of the line "ä" when it is split again. -/
theorem umlaut_lost_when_split :
    Machine.load splittingStory {} 0 = .ok splittingMachine ∧
    splittingSession = performAll Host.null [.step] (start splittingMachine "tale" ()) ∧
    splittingSession.machine.version = 5 ∧
    splittingSession.pending = some (.line 0x6A 0x40 10 0x50 (some 0)) ∧
    splittingSession.streams.tables = [] ∧
    BuffersApart splittingSession.machine 0x40 10 0x50 (some 0) ∧
    ∃ s', splittingSession.provideLine Host.null "ä" false = (.ok (), s') ∧
      SplitsAgain Host.null s' 0x40 0x50 ∧
      s'.machine.memory.getWord 0x52 = .ok 0x64 ∧
      (s'.step Host.null).1 = .running ∧
      (s'.step Host.null).2.machine.memory.getWord 0x52 = .ok 0 := by
  have ready := splittingSession_takes
  have line : typedText splittingSession.machine.version 10 (stripped "ä") = "ä" := by
    rw [splittingSession_version, stripped_eq (by decide)]
    decide +kernel
  obtain ⟨_, given, again⟩ := splittingSession_descriptions
  have taken := splittingSession_taken "ä" (by rw [line]; exact given)
  rw [line] at taken
  have splits : SplitsAgain Host.null (splittingNext "ä" [1, 0, 0x64, 1, 2]) 0x40 0x50 :=
    splittingNext_splits (by decide +kernel)
  obtain ⟨room, described, read, holds⟩ := provideLine_holdsLine splittingSession_pending
    ready.closed ready.parses ready.apart taken
  rw [line] at holds
  obtain rfl : 2 = room := Except.ok.inj (ready.read.symm.trans read)
  obtain rfl : [1, 0, 0x64, 1, 2] = described := Except.ok.inj (given.symm.trans holds.given)
  have writable : (splittingNext "ä" [1, 0, 0x64, 1, 2]).machine.memory.Writable 0x51
      [1, 0, 0, 1, 2].length := holds.writable
  obtain ⟨running, memory⟩ := (splits.running_iff holds ready.late (by decide)).mpr
    ⟨_, again, writable, rfl⟩
  have address : ∀ {memory : Memory} {w : Word},
      memory.Stand 0x51 ([1] ++ ([highByte w, lowByte w] ++ [1, 2])) →
      memory.getWord 0x52 = .ok w := fun stand =>
    (Memory.stand_append.mp (Memory.stand_append.mp stand).2).1.getWord
  refine ⟨splittingMachine_loaded, by rw [splittingSession], splittingSession_version,
    splittingSession_pending, ready.closed, ready.apart, _, taken, splits,
    address (Memory.stand_append.mp holds.parse).2, running, ?_⟩
  rw [memory]
  exact address writable.stand_lay

end Session

end ZMachine
