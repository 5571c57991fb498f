import Mathlib.Order.Interval.Set.Basic
import ZMachine.Proofs.Session.Entries
import ZMachine.Proofs.Session.Waiting

/-!
# What a line may change

The player's line can be of any length, and the instruction that reads it names the buffers
it goes to. Whether or not the answer succeeds, it writes to three regions of memory at
most: the text buffer behind its size, as much of the parse buffer as its words can take,
and the variable that the read stores in, if that is a global.

The regions are told by what is known when they are written. The size of the text buffer is
the one that the read began with, which is 3 at least (`performAll_begun`). The room of the
parse buffer is the one that is found once the line is stored, for the line may have been
stored over it.

When the regions lie apart, what was written to one of them is not lost to another, and a
line that was taken is found in its buffers (`line_fills_own_buffers`).
-/

set_option autoImplicit false

namespace ZMachine

/-! ## Differences within a region -/

namespace Machine

open Relation (ReflTransGen)

variable {m t u : Machine} {region wider : Set Nat}

/-- The machines look words up in the same way, and no byte of memory outside the region
differs. -/
structure DiffersIn (region : Set Nat) (m t : Machine) : Prop where
  tables : m.SameTables t
  kept : ∀ i ∉ region, t.memory.bytes[i]? = m.memory.bytes[i]?

namespace DiffersIn

theorem refl (m : Machine) : DiffersIn region m m :=
  ⟨⟨rfl, rfl, rfl, .refl _⟩, fun _ _ => rfl⟩

theorem trans (first : DiffersIn region m t) (second : DiffersIn region t u) :
    DiffersIn region m u :=
  ⟨first.tables.trans second.tables,
    fun i outside => (second.kept i outside).trans (first.kept i outside)⟩

theorem mono (differs : DiffersIn region m t) (larger : region ⊆ wider) : DiffersIn wider m t :=
  ⟨differs.tables, fun i outside => differs.kept i fun inside => outside (larger inside)⟩

/-- Two changes in a row, each within its own region. -/
theorem append {region' : Set Nat} (first : DiffersIn region m t)
    (second : DiffersIn region' t u) : DiffersIn (region ∪ region') m u :=
  (first.mono Set.subset_union_left).trans (second.mono Set.subset_union_right)

theorem of_reaches (reached : ReflTransGen (DiffersIn region) m t) : DiffersIn region m t := by
  induction reached with
  | refl => exact refl m
  | tail _ last ih => exact ih.trans last

end DiffersIn

/-- An operation on memory that writes a region. -/
theorem onMemory_differs {x : Op Memory Unit}
    (made : x.MadeOf (Memory.Writes fun _ => (· ∈ region))) :
    (onMemory x).MadeOf (DiffersIn region) :=
  fun m => .single ⟨⟨rfl, rfl, rfl, Memory.sameBounds_of_writes (made m.memory)⟩,
    fun _ outside => Memory.getElem?_of_writes (made m.memory) outside⟩

end Machine

namespace Session

open Machine (DiffersIn)

variable {m t : Machine} {textAddr parseAddr : Nat} {textMax : Byte} {target : Option Byte}

/-! ## The regions of an answer -/

/-- The bytes of a text buffer behind its size. -/
def textRegion (version textAddr : Nat) (textMax : Byte) : Set Nat :=
  Set.Icc (textAddr + 1)
    (if version < 5 then textAddr + textMax.toNat else textAddr + 1 + textMax.toNat)

/-- The bytes of a parse buffer behind its room, for as many words as it can describe. -/
def parseRegion (memory : Memory) (parseAddr : Nat) : Set Nat :=
  { i | parseAddr ≠ 0 ∧ ∃ room, memory.getByte parseAddr = .ok room ∧
    i ∈ Set.Ico (parseAddr + 1) (parseAddr + 2 + 4 * min maxWords room.toNat) }

/-- The bytes of the variable that tells the ending of a line, if it is a global. -/
def targetRegion (m : Machine) (target : Option Byte) : Set Nat :=
  { i | 5 ≤ m.version ∧ ∃ number ∈ target, ∃ place, m.globalAddr number = .ok place ∧
    (i = place ∨ i = place + 1) }

theorem parseRegion_eq {memory : Memory} {room : Byte} (parses : parseAddr ≠ 0)
    (read : memory.getByte parseAddr = .ok room) :
    parseRegion memory parseAddr =
      Set.Ico (parseAddr + 1) (parseAddr + 2 + 4 * min maxWords room.toNat) := by
  ext i
  constructor
  · rintro ⟨_, found, read', inside⟩
    cases read.symm.trans read'
    exact inside
  · intro inside
    exact ⟨parses, room, read, inside⟩

/-- What is stored on the stack takes no byte of memory. -/
theorem targetRegion_stack (m : Machine) : targetRegion m (some 0) = ∅ := by
  refine Set.eq_empty_of_forall_notMem ?_
  rintro i ⟨_, number, member, place, found, _⟩
  cases member
  cases found

theorem targetRegion_congr (header : t.header = m.header) (target : Option Byte) :
    targetRegion t target = targetRegion m target := by
  simp only [targetRegion, Machine.version, Machine.globalAddr, header]

/-! ## Storing the line -/

/-- A text that fits takes bytes behind the size of its buffer. -/
theorem mem_textRegion {version length i : Nat} (some : 0 < textMax.toNat)
    (fits : length ≤ textRoom version textMax) (low : textAddr + 1 ≤ i)
    (high : i ≤ textAddr + 1 + length) : i ∈ textRegion version textAddr textMax := by
  rw [textRegion, Set.mem_Icc]
  rw [textRoom] at fits
  split at fits
  · rw [if_pos ‹_›]
    omega
  · rw [if_neg ‹_›]
    omega

theorem storeText_writes {version : Nat} {codes : List Byte} (some : 0 < textMax.toNat)
    (fits : codes.length ≤ textRoom version textMax) :
    (storeText version textAddr codes).MadeOf
      (Memory.Writes fun _ => (· ∈ textRegion version textAddr textMax)) := by
  have inside : ∀ i, textAddr + 1 ≤ i → i ≤ textAddr + 1 + codes.length →
      i ∈ textRegion version textAddr textMax :=
    fun i => mem_textRegion some fits
  rw [storeText]
  refine .ite ?_ ?_
  · refine .bind (Memory.writeBytes_writes fun i low high _ _ => ?_) fun _ => ?_
    · exact inside i low (by omega)
    · exact Memory.writeByte_writes 0 fun _ _ => inside _ (by omega) (by omega)
  · refine .bind (Memory.writeByte_writes _ fun _ _ => ?_) fun _ => ?_
    · exact inside _ (by omega) (by omega)
    · exact Memory.writeBytes_writes fun i low high _ _ => inside i (by omega) (by omega)

/-! ## Describing its words -/

/-- Words are described in the entries that they take. -/
theorem describeWords_differs {region : Set Nat} (skip : Bool) (offset : Nat) {entry : Nat}
    {tokens : List Token}
    (inside : ∀ i, entry ≤ i → i < entry + 4 * tokens.length → i ∈ region) :
    (describeWords skip offset entry tokens).MadeOf (DiffersIn region) := by
  induction tokens generalizing entry with
  | nil => exact .pure ()
  | cons token rest ih =>
      rw [List.length_cons] at inside
      have here : ∀ i, entry ≤ i → i < entry + 4 → i ∈ region :=
        fun i low high => inside i low (by omega)
      have others : (describeWords skip offset (entry + 4) rest).MadeOf (DiffersIn region) :=
        ih fun i low high => inside i (by omega) (by omega)
      refine .bind (.query _) fun address => ?_
      refine .sometimes (Machine.onMemory_differs ?_) fun _ => others
      refine .bind (Memory.writeWord_writes address (fun _ _ => ?_) fun _ _ => ?_) fun _ => ?_
      · exact here entry (by omega) (by omega)
      · exact here (entry + 1) (by omega) (by omega)
      refine .bind (Memory.writeByte_writes _ fun _ _ => ?_) fun _ => ?_
      · exact here (entry + 2) (by omega) (by omega)
      · exact Memory.writeByte_writes _ fun _ _ => here (entry + 3) (by omega) (by omega)

/-- A parse buffer is filled behind the room that is found in it. -/
theorem fillParseBuffer_differs (text : String) (parses : parseAddr ≠ 0) (skip : Bool)
    (m : Machine) :
    DiffersIn (parseRegion m.memory parseAddr) m
      ((fillParseBuffer text parseAddr skip).run m).2 := by
  rw [fillParseBuffer]
  rcases read : m.memory.getByte parseAddr with fault | room
  · have queried : (Op.query (·.memory.getByte parseAddr)).run m = (.error fault, m) :=
      Prod.ext read rfl
    rw [Op.run_bind_error queried]
    exact .refl m
  · have queried : (Op.query (·.memory.getByte parseAddr)).run m = (.ok room, m) :=
      Prod.ext read rfl
    rw [Op.run_bind_ok queried, parseRegion_eq parses read]
    refine .of_reaches (Op.MadeOf.guard ?_ m)
    refine .bind (.view _) fun offset => .bind (.view _) fun tokens => ?_
    refine .bind (Machine.onMemory_differs (Memory.writeByte_writes _ fun _ _ => ?_)) fun _ => ?_
    · rw [Set.mem_Ico]
      omega
    · refine describeWords_differs skip offset fun i low high => ?_
      rw [List.length_take] at high
      rw [Set.mem_Ico]
      omega

/-- Tell how a line was ended, from version 5 on. -/
def tellEnding (version : Nat) (target : Option Byte) : Op Machine Unit := do
  if 5 ≤ version then
    if let some number := target then Machine.writeVariable number 13

/-- The ending is told when the words are described. -/
theorem describeLine_eq (version : Nat) (typed : String) (parseAddr : Nat) (target : Option Byte) :
    describeLine version typed parseAddr target =
      if parseAddr ≠ 0 then fillParseBuffer typed parseAddr false >>= fun _ =>
        tellEnding version target
      else tellEnding version target :=
  rfl

theorem tellEnding_differs {ended : Except Fault Unit}
    (run : (tellEnding m.version target).run m = (ended, t)) :
    DiffersIn (targetRegion m target) m t := by
  by_cases late : 5 ≤ m.version
  · simp only [tellEnding, if_pos late] at run
    rcases target with _ | number
    · cases run
      exact .refl m
    · obtain ⟨tables, kept⟩ := writeVariable_frame run
      refine ⟨tables, fun i outside => kept i fun place found => ?_⟩
      by_contra inside
      exact outside ⟨late, number, rfl, place, found, by omega⟩
  · simp only [tellEnding, if_neg late] at run
    cases run
    exact .refl m

/-- Describing a line fills the parse buffer, and then the variable. -/
theorem describeLine_differs {typed : String} {ended : Except Fault Unit}
    (run : (describeLine m.version typed parseAddr target).run m = (ended, t)) :
    DiffersIn (parseRegion m.memory parseAddr ∪ targetRegion m target) m t := by
  rw [describeLine_eq] at run
  by_cases parses : parseAddr ≠ 0
  · have filled := fillParseBuffer_differs typed parses false m
    rw [if_pos parses] at run
    obtain ⟨_, _, _, rfl⟩ | ⟨_, _, told⟩ := Op.bind_cases run
    · exact filled.mono Set.subset_union_left
    · have header := filled.tables.header
      rw [← targetRegion_congr header]
      rw [Machine.version, ← header] at told
      exact filled.append (tellEnding_differs told)
  · rw [if_neg parses] at run
    exact (tellEnding_differs run).mono Set.subset_union_right

/-! ## Answers -/

variable {ω : Type} {s : Session ω} {addr : Nat}

/-- Memory when the line has been stored, as far as it could be. -/
def storedLine (m : Machine) (textAddr : Nat) (textMax : Byte) (line : String) : Memory :=
  ((storeText m.version textAddr
    (Zscii.ofString (typedText m.version textMax (stripped line)))).run m.memory).2

/-- However an answer ends, its line was stored first. Then it has failed, or the words were
described. -/
theorem provideLine_machine
    (pending : s.pending = some (.line addr textAddr textMax parseAddr target))
    (closed : s.streams.tables = []) (h : Host ω) (line : String) (echo : Bool) :
    (s.provideLine h line echo).2.machine =
        { s.machine with memory := storedLine s.machine textAddr textMax line } ∨
      (s.provideLine h line echo).2.machine =
        ((describeLine s.machine.version (typedText s.machine.version textMax (stripped line))
          parseAddr target).run
            { s.machine with memory := storedLine s.machine textAddr textMax line }).2 := by
  rcases finished : (finishRead h (stripped line) echo textAddr textMax parseAddr target).run
    { s with pending := none } with ⟨ended, t⟩
  have same : (s.provideLine h line echo).2.machine = t.machine := by
    rw [provideLine_pending pending, finished]
    cases ended <;> rfl
  rw [same]
  rw [finishRead_eq, viewMachine, Op.run_view_bind] at finished
  obtain ⟨_, _, _, rfl⟩ | ⟨_, _, copied⟩ := Op.bind_cases finished
  · exact .inl rfl
  · rcases run : (copyLine h (stripped line) echo).run
      { s with
        machine := { s.machine with memory := storedLine s.machine textAddr textMax line }
        pending := none } with ⟨fault | _, u⟩
    · obtain ⟨world, rfl⟩ := copyLine_sends run closed
      cases (Op.run_bind_error run).symm.trans copied
      exact .inl rfl
    · obtain ⟨world, rfl⟩ := copyLine_sends run closed
      cases (Op.run_bind_ok run).symm.trans copied
      exact .inr rfl

/-- The codes of the first characters of a line, in small letters and without its line
end. -/
def lineCodes (count : Nat) (line : String) : List Byte :=
  ((Text.lowercase (stripped line)).toList.take count).map Zscii.ofChar

theorem ofString_typedText (version : Nat) (textMax : Byte) (line : String) :
    Zscii.ofString (typedText version textMax (stripped line)) =
      lineCodes (textRoom version textMax) line := by
  rw [Zscii.ofString, typedText, String.toList_ofList]
  rfl

theorem length_lineCodes_le (count : Nat) (line : String) :
    (lineCodes count line).length ≤ count := by
  rw [lineCodes, List.length_map]
  exact List.length_take_le _ _

theorem zero_notMem_lineCodes (count : Nat) (line : String) : 0 ∉ lineCodes count line := by
  intro member
  obtain ⟨c, _, code⟩ := List.mem_map.mp member
  have bounds := Zscii.toNat_ofChar_bounds c
  rw [code] at bounds
  exact absurd bounds.1 (by decide)

/-- Storing a line changes its text buffer. -/
theorem storedLine_differs (m : Machine) (textAddr : Nat) (some : 0 < textMax.toNat)
    (line : String) :
    DiffersIn (textRegion m.version textAddr textMax) m
      { m with memory := storedLine m textAddr textMax line } := by
  have fits : (Zscii.ofString (typedText m.version textMax (stripped line))).length ≤
      textRoom m.version textMax := by
    rw [ofString_typedText]
    exact length_lineCodes_le _ _
  exact .of_reaches (Machine.onMemory_differs (storeText_writes some fits) m)

/-- **An answer.** Whether or not it succeeds, it changes memory in its own regions. -/
theorem provideLine_differs
    (pending : s.pending = some (.line addr textAddr textMax parseAddr target))
    (closed : s.streams.tables = []) (some : 0 < textMax.toNat) (h : Host ω) (line : String)
    (echo : Bool) :
    DiffersIn (textRegion s.machine.version textAddr textMax ∪
        (parseRegion (storedLine s.machine textAddr textMax line) parseAddr ∪
          targetRegion s.machine target))
      s.machine (s.provideLine h line echo).2.machine := by
  have stored := storedLine_differs s.machine textAddr some line
  obtain same | same := provideLine_machine pending closed h line echo
  · rw [same]
    exact stored.mono Set.subset_union_left
  · rw [same]
    exact stored.append (describeLine_differs
      (m := { s.machine with memory := storedLine s.machine textAddr textMax line }) rfl)

/-- The text buffer, the parse buffer and the variable have no byte in common. -/
structure RegionsApart (m : Machine) (textAddr : Nat) (textMax : Byte) (parseAddr : Nat)
    (target : Option Byte) (line : String) : Prop where
  buffers : ∀ i ∈ textRegion m.version textAddr textMax,
    i ∉ parseRegion (storedLine m textAddr textMax line) parseAddr
  text : ∀ i ∈ textRegion m.version textAddr textMax, i ∉ targetRegion m target
  parse : ∀ i ∈ parseRegion (storedLine m textAddr textMax line) parseAddr,
    i ∉ targetRegion m target

section Taken

variable {h : Host ω} {line : String} {echo : Bool} {t : Session ω}
  (pending : s.pending = some (.line addr textAddr textMax parseAddr target))
  (closed : s.streams.tables = [])
  (apart : RegionsApart s.machine textAddr textMax parseAddr target line)
  (taken : s.provideLine h line echo = (.ok (), t))
include pending closed apart taken

/-- A line that was taken is found in its text buffer. -/
theorem text_of_taken (some : 0 < textMax.toNat) :
    t.machine.memory.Stand (textAddr + 1)
      (storedText s.machine.version (lineCodes (textRoom s.machine.version textMax) line)) := by
  obtain ⟨memory, machine, world, stored, described, rfl⟩ := provideLine_eq_ok pending closed taken
  obtain rfl : storedLine s.machine textAddr textMax line = memory := congrArg Prod.snd stored
  obtain ⟨writable, laid⟩ := (storeText_lays _ _ _ _ _).mp stored
  have differs := describeLine_differs
    (m := { s.machine with memory := storedLine s.machine textAddr textMax line }) described
  have stand := writable.stand_lay
  rw [← laid, ofString_typedText] at stand
  refine stand.congr fun i low high => differs.kept i fun inside => ?_
  rw [length_storedText] at high
  have own : i ∈ textRegion s.machine.version textAddr textMax :=
    mem_textRegion some (length_lineCodes_le _ line) low (by omega)
  rcases inside with inside | inside
  · exact apart.buffers i own inside
  · exact apart.text i own inside

/-- The words of a line that was taken are counted in its parse buffer. -/
theorem count_of_taken (parses : parseAddr ≠ 0) :
    ∃ room count, (storedLine s.machine textAddr textMax line).getByte parseAddr = .ok room ∧
      t.machine.memory.getByte (parseAddr + 1) = .ok count ∧
      count.toNat = min (min (s.machine.dictionary.tokenize
        (typedText s.machine.version textMax (stripped line))).length room.toNat) maxWords := by
  obtain ⟨memory, machine, world, stored, described, rfl⟩ := provideLine_eq_ok pending closed taken
  obtain rfl : storedLine s.machine textAddr textMax line = memory := congrArg Prod.snd stored
  rw [describeLine_eq, if_pos parses] at described
  obtain ⟨_, u, filled, told⟩ := Op.run_bind_eq_ok_iff.mp described
  obtain ⟨room, description, read, _, given, writable, rfl⟩ := fillParseBuffer_eq_ok.mp filled
  obtain ⟨entries, _, rfl⟩ := Machine.descriptionOf_eq_ok.mp given
  have counted := (Memory.stand_append.mp writable.stand_lay).1.head
  have length := length_describedWords { s.machine with
    memory := storedLine s.machine textAddr textMax line }
    (typedText s.machine.version textMax (stripped line)) room
  have differs := tellEnding_differs (m := { s.machine with
    memory := (storedLine s.machine textAddr textMax line).lay (parseAddr + 1) _ }) told
  have kept := differs.kept (parseAddr + 1) fun inside => ?_
  · refine ⟨room, _, read, Memory.getByte_eq_ok.mpr (kept.trans counted), ?_⟩
    rw [length, UInt8.toNat_ofNat_of_lt' (by rw [maxWords, UInt8.size]; omega)]
  · refine apart.parse _ ?_ inside
    rw [parseRegion_eq parses read, Set.mem_Ico]
    omega

end Taken

/-! ## Reads that were begun -/

/-- A read that is pending is as it was begun. -/
def Begun (s : Session ω) : Prop :=
  ∀ read ∈ s.pending, read.Begun

theorem begun_of_free (free : s.pending = none) : s.Begun := by
  intro read member
  rw [free] at member
  cases member

/-- An instruction that ends with a read pending has begun it. -/
theorem Ends.begun {results : Word → Prop} {t : Session ω}
    {ended : Except Fault Outcome × Session ω} (ends : Ends results t ended)
    (free : t.pending = none) : ended.2.Begun := by
  cases ends with
  | stopped fault => exact begun_of_free free
  | goesOn awake => exact begun_of_free free
  | waits begun =>
      rintro _ ⟨⟩
      exact begun
  | leaves _ =>
      rw [run_leave]
      exact begun_of_free free

theorem conclude_begun (i : Instruction) (version : Nat)
    {ended : Except Fault Outcome × Session ω} (begun : ended.2.Begun) :
    (conclude i version ended).2.Begun := by
  rcases ended with ⟨_ | outcome, t⟩
  · exact begun
  · cases outcome <;> exact begun

/-- **One step.** A read that is pending after it is as it was begun. -/
theorem step_begun (h : Host ω) (begun : s.Begun) : (s.step h).2.Begun := by
  cases halted : s.halted with
  | true => rwa [step_halted h halted]
  | false =>
      cases free : s.pending with
      | some read => rwa [step_pending h halted free]
      | none =>
          rcases next : nextInstruction s.machine with fault | i
          · simp only [step, halted, free, advance, next, halt, Bool.false_eq_true, if_false]
            exact begun_of_free rfl
          · have runs : s.Executes i := ⟨halted, free, next⟩
            obtain ⟨t, _, free, ends⟩ := runs.ends h
            rw [runs.step_eq h]
            exact conclude_begun i _ (ends.begun free)

theorem performAll_begun (h : Host ω) (actions : List Action) (begun : s.Begun) :
    (performAll h actions s).Begun :=
  performAll_keeps (fun _ => step_begun h) (fun _ => begun_of_free) actions begun

/-! ## Lines -/

/-- **Lines fill their own buffers.** Take any session that can be reached from the start of
any machine, with any host, and waits for a line while no table is open; and any line.

Whether or not the line is taken, no byte of memory changes outside the text buffer, the
parse buffer and the variable. If it is taken and these lie apart, the text buffer holds the
codes of as many of its characters as there is room for, in small letters: ended by the
first zero before version 5, and behind their number from then on. If there is a parse
buffer, the number of words in it is that of the words stored, but no more than there is
room for, and 59 at most. -/
theorem line_fills_own_buffers (h : Host ω) (machine : Machine) (name : String) (world : ω)
    (actions : List Action) (reached : performAll h actions (start machine name world) = s)
    (pending : s.pending = some (.line addr textAddr textMax parseAddr target))
    (closed : s.streams.tables = []) (line : String) (echo : Bool) :
    ((s.provideLine h line echo).2.machine.memory.size = s.machine.memory.size ∧
      ∀ i, i ∉ textRegion s.machine.version textAddr textMax →
        i ∉ parseRegion (storedLine s.machine textAddr textMax line) parseAddr →
        i ∉ targetRegion s.machine target →
        (s.provideLine h line echo).2.machine.memory.bytes[i]? = s.machine.memory.bytes[i]?) ∧
    ∀ t, s.provideLine h line echo = (.ok (), t) →
      RegionsApart s.machine textAddr textMax parseAddr target line →
      (s.machine.version < 5 →
        0 ∉ lineCodes (textMax.toNat - 1) line ∧
        t.machine.memory.Stand (textAddr + 1) (lineCodes (textMax.toNat - 1) line ++ [0])) ∧
      (5 ≤ s.machine.version → ∃ count : Byte,
        count.toNat = (lineCodes textMax.toNat line).length ∧
        t.machine.memory.Stand (textAddr + 1) (count :: lineCodes textMax.toNat line)) ∧
      (parseAddr ≠ 0 → ∃ room count,
        (storedLine s.machine textAddr textMax line).getByte parseAddr = .ok room ∧
        t.machine.memory.getByte (parseAddr + 1) = .ok count ∧
        count.toNat = min (min (s.machine.dictionary.tokenize
          (typedText s.machine.version textMax (stripped line))).length room.toNat) 59) := by
  have begun : s.Begun := by
    rw [← reached]
    exact performAll_begun h actions (begun_of_free rfl)
  have some : 0 < textMax.toNat := by
    have roomy : (3 : Byte) ≤ textMax := begun _ pending
    have : 3 ≤ textMax.toNat := roomy
    omega
  have differs := provideLine_differs pending closed some h line echo
  refine ⟨⟨differs.tables.bounds.size, fun i text parse target => ?_⟩, fun t taken apart => ?_⟩
  · exact differs.kept i fun inside => inside.elim text fun inside => inside.elim parse target
  have stand := text_of_taken pending closed apart taken some
  refine ⟨fun early => ?_, fun late => ?_, count_of_taken pending closed apart taken⟩
  · rw [storedText, textRoom, if_pos early, if_pos early] at stand
    exact ⟨zero_notMem_lineCodes _ _, stand⟩
  · have early : ¬ s.machine.version < 5 := Nat.not_lt.mpr late
    rw [storedText, textRoom, if_neg early, if_neg early] at stand
    refine ⟨_, UInt8.toNat_ofNat_of_lt' ?_, stand⟩
    exact Nat.lt_of_le_of_lt (length_lineCodes_le _ _) textMax.toNat_lt

/-! ## A line in the large buffer -/

theorem longLineSession_version : longLineSession.machine.version = 5 := by
  decide +kernel

theorem longLineSession_textRegion :
    textRegion longLineSession.machine.version 64 255 = Set.Icc 65 320 := by
  rw [longLineSession_version]
  rfl

/-- Storing a line in the large buffer leaves the room of the parse buffer as it is. -/
theorem longLineSession_room (line : String) :
    (storedLine longLineSession.machine 64 255 line).getByte 324 = .ok 1 := by
  have differs : DiffersIn (textRegion _ 64 255) _ _ :=
    storedLine_differs longLineSession.machine 64 (by decide) line
  rw [Memory.getByte_eq_ok, ← Memory.getByte_eq_ok.mp longLineSession_takes.read]
  refine differs.kept 324 ?_
  rw [longLineSession_textRegion, Set.mem_Icc]
  omega

theorem longLineSession_parseRegion (line : String) :
    parseRegion (storedLine longLineSession.machine 64 255 line) 324 = Set.Ico 325 330 :=
  parseRegion_eq (by decide) (longLineSession_room line)

theorem longLineSession_regionsApart (line : String) :
    RegionsApart longLineSession.machine 64 255 324 (some 0) line := by
  refine ⟨?_, ?_, ?_⟩
  · intro i inside
    rw [longLineSession_textRegion, Set.mem_Icc] at inside
    rw [longLineSession_parseRegion, Set.mem_Ico]
    omega
  · intro i _
    rw [targetRegion_stack]
    exact Set.notMem_empty i
  · intro i _
    rw [targetRegion_stack]
    exact Set.notMem_empty i

/-- What the line "Look" leaves in the large buffer and in the parse buffer behind it.
Nothing else behind the large buffer changes. -/
theorem look_fills_own_buffers :
    performAll Host.null [.step] (start longLineMachine "tale" ()) = longLineSession ∧
    longLineSession.pending = some (.line 340 64 255 324 (some 0)) ∧
    longLineSession.streams.tables = [] ∧
    RegionsApart longLineSession.machine 64 255 324 (some 0) "Look" ∧
    ∃ t, longLineSession.provideLine Host.null "Look" false = (.ok (), t) ∧
      t.machine.memory.Stand 65 [4, 108, 111, 111, 107] ∧
      t.machine.memory.getByte 325 = .ok 1 ∧
      ∀ i, 330 ≤ i → t.machine.memory.bytes[i]? = longLineSession.machine.memory.bytes[i]? := by
  have ready := longLineSession_takes
  have apart := longLineSession_regionsApart "Look"
  have reached : performAll Host.null [.step] (start longLineMachine "tale" ()) =
      longLineSession := by rw [longLineSession]
  obtain ⟨t, taken⟩ := ready.taken longLineSession_pending Host.null "Look"
  obtain ⟨⟨_, kept⟩, filled⟩ := line_fills_own_buffers Host.null longLineMachine "tale" () [.step]
    reached longLineSession_pending ready.closed "Look" false
  obtain ⟨_, late, parsed⟩ := filled t taken apart
  refine ⟨reached, longLineSession_pending, ready.closed, apart, t, taken, ?_, ?_, ?_⟩
  · obtain ⟨count, number, stand⟩ := late ready.late
    have codes : lineCodes 255 "Look" = [108, 111, 111, 107] := by
      rw [lineCodes, stripped_eq (by decide)]
      decide +kernel
    change count.toNat = (lineCodes 255 "Look").length at number
    change t.machine.memory.Stand 65 (count :: lineCodes 255 "Look") at stand
    rw [codes] at number stand
    obtain rfl : count = 4 := UInt8.toNat.inj number
    exact stand
  · obtain ⟨room, count, read, counted, number⟩ := parsed ready.parses
    cases (longLineSession_room "Look").symm.trans read
    have words : (Dictionary.split [] 0 ((Text.lowercase "Look").toList.take 255)).length = 1 := by
      decide +kernel
    rw [longLineSession_words, stripped_eq (by decide), words] at number
    obtain rfl : count = 1 := UInt8.toNat.inj number
    exact counted
  · intro i behind
    rw [taken] at kept
    refine kept i ?_ ?_ ?_
    · rw [longLineSession_textRegion, Set.mem_Icc]
      omega
    · rw [longLineSession_parseRegion, Set.mem_Ico]
      omega
    · rw [targetRegion_stack]
      exact Set.notMem_empty i

end Session

end ZMachine
