import ZMachine.Proofs.Session.ParseBuffer

/-!
# What the entries of a parse buffer tell

Every word of a line that was taken can be found through its entry: the dictionary has it
at the address of the entry, and the text buffer holds its codes at the place of the entry
(`entries_point_at_words`). A place is told in a byte, which is too small for just one
word: the one that begins with the last character of the largest text buffer.
-/

set_option autoImplicit false

namespace ZMachine.Session

variable {ω : Type} {h : Host ω} {s s' : Session ω} {m t : Machine} {token : Token}
  {addr textAddr parseAddr : Nat} {textMax : Byte} {target : Option Byte} {text : String}
  {echo : Bool}

/-! ## Entries in a row -/

/-- Entries in a row stand four bytes apart. -/
theorem stand_entry {memory : Memory} {place : Nat} {entries : List WordEntry}
    (stand : memory.Stand place (entries.flatMap WordEntry.bytes)) {i : Nat} {e : WordEntry}
    (found : entries[i]? = some e) : memory.Stand (place + 4 * i) e.bytes := by
  induction entries generalizing place i with
  | nil => cases found
  | cons first rest ih =>
      rw [List.flatMap_cons, Memory.stand_append] at stand
      rcases i with _ | i
      · cases found
        exact stand.1
      · have later := ih stand.2 found
        have place' : place + first.bytes.length + 4 * i = place + 4 * (i + 1) := by
          rw [WordEntry.bytes]
          simp only [List.length_cons, List.length_nil]
          omega
        rwa [place'] at later

/-- An entry is read byte by byte. -/
theorem read_entry {memory : Memory} {place : Nat} {e : WordEntry}
    (stand : memory.Stand place e.bytes) :
    memory.getWord place = .ok e.address ∧ memory.getByte (place + 2) = .ok e.length ∧
      memory.getByte (place + 3) = .ok e.place := by
  have parts : e.bytes = [highByte e.address, lowByte e.address] ++ ([e.length] ++ [e.place]) := rfl
  rw [parts, Memory.stand_append, Memory.stand_append] at stand
  exact ⟨stand.1.getWord, stand.2.1.getByte, stand.2.2.getByte⟩

/-- The entry points at a word: so many bytes of memory as its length tells, from its place
in the text buffer on, are the codes of the word. -/
def PointsAt (memory : Memory) (textAddr entry : Nat) (word : String) : Prop :=
  ∃ length place, memory.getByte (entry + 2) = .ok length ∧ memory.getByte (entry + 3) = .ok place ∧
    memory.readBytes (textAddr + place.toNat) length.toNat = .ok (Zscii.ofString word).toArray

section HoldsLine

variable {typed : String} {room : Byte} {described : List Byte}

/-- The number of words that are described. -/
theorem HoldsLine.count (holds : HoldsLine m typed textAddr parseAddr room described t) :
    ∃ count, t.memory.getByte (parseAddr + 1) = .ok count ∧
      count.toNat = (m.describedWords typed room).length := by
  obtain ⟨entries, _, rfl⟩ := Machine.descriptionOf_eq_ok.mp holds.given
  have stand := (Memory.stand_append.mp (Memory.stand_append.mp holds.parse).2).1
  refine ⟨_, stand.getByte, UInt8.toNat_ofNat_of_lt' ?_⟩
  have few := Machine.describedWords_le m typed room
  rw [maxWords] at few
  rw [UInt8.size]
  omega

/-- Each word that is described has its entry. -/
theorem HoldsLine.entryAt (holds : HoldsLine m typed textAddr parseAddr room described t) {i : Nat}
    (found : (m.describedWords typed room)[i]? = some token) :
    ∃ e, m.entryOf token = .ok e ∧ t.memory.Stand (parseAddr + 2 + 4 * i) e.bytes := by
  obtain ⟨entries, listed, rfl⟩ := Machine.descriptionOf_eq_ok.mp holds.given
  have stand := (Memory.stand_append.mp (Memory.stand_append.mp holds.parse).2).2
  obtain ⟨e, placed, given⟩ := Machine.getElem?_entriesOf listed found
  exact ⟨e, given, stand_entry stand placed⟩

/-- Each word of the text has its codes in the text buffer. -/
theorem HoldsLine.codes (holds : HoldsLine m typed textAddr parseAddr room described t)
    (member : token ∈ m.dictionary.tokenize typed) :
    t.memory.readBytes (textAddr + (token.start + m.textOffset)) token.text.length =
      .ok (Zscii.ofString token.text).toArray := by
  obtain ⟨before, after, parts, start, some⟩ := Dictionary.tokenize_stands member
  have stand := stand_codes holds.text
  rw [Zscii.ofString, parts, List.map_append, List.map_append, Memory.stand_append,
    Memory.stand_append, List.length_map] at stand
  have place : textAddr + m.textOffset + before.length =
      textAddr + (token.start + m.textOffset) := by
    omega
  have here := stand.1.2
  rw [place] at here
  have length := Zscii.length_ofString token.text
  have inside := here.inside fun none => some (List.map_eq_nil_iff.mp none)
  rw [← length]
  exact Memory.Stand.readBytes here inside

/-- An entry whose place can be told in a byte points at its word. -/
theorem HoldsLine.pointsAt (holds : HoldsLine m typed textAddr parseAddr room described t) {i : Nat}
    (found : (m.describedWords typed room)[i]? = some token) (short : token.text.length < 256)
    (near : token.start + m.textOffset < 256) :
    PointsAt t.memory textAddr (parseAddr + 2 + 4 * i) token.text := by
  obtain ⟨e, given, stand⟩ := holds.entryAt found
  obtain ⟨_, length, place⟩ := read_entry stand
  obtain ⟨_, length', place'⟩ := Machine.entryOf_eq_ok given
  have member := List.mem_of_mem_take (List.mem_of_getElem? found)
  refine ⟨e.length, e.place, length, place, ?_⟩
  rw [length', place', UInt8.toNat_ofNat_of_lt' short, UInt8.toNat_ofNat_of_lt' near]
  exact holds.codes member

/-- An entry whose place wraps to zero points at the size of the text buffer, which is no
character if it is the largest. -/
theorem HoldsLine.not_pointsAt (holds : HoldsLine m typed textAddr parseAddr room described t)
    {i : Nat} (found : (m.describedWords typed room)[i]? = some token)
    (single : token.text.length = 1) (far : token.start + m.textOffset = 256)
    (large : m.memory.getByte textAddr = .ok 255) :
    ¬ PointsAt t.memory textAddr (parseAddr + 2 + 4 * i) token.text := by
  rintro ⟨length, place, told, told', points⟩
  obtain ⟨e, given, stand⟩ := holds.entryAt found
  obtain ⟨_, length', place'⟩ := Machine.entryOf_eq_ok given
  obtain ⟨_, read, read'⟩ := read_entry stand
  obtain rfl : e.length = length := Except.ok.inj (read.symm.trans told)
  obtain rfl : e.place = place := Except.ok.inj (read'.symm.trans told')
  rw [length', place', single, far] at points
  have size : t.memory.Stand textAddr [255] :=
    Memory.stand_singleton.mpr (holds.size.trans (Memory.getByte_eq_ok.mp large))
  have codes : (Zscii.ofString token.text).toArray = #[255] :=
    Except.ok.inj (points.symm.trans (Memory.Stand.readBytes size (size.inside nofun)))
  have member : (255 : Byte) ∈ Zscii.ofString token.text := by
    rw [← List.mem_toArray, codes]
    exact Array.mem_singleton.mpr rfl
  obtain ⟨c, _, code⟩ := List.mem_map.mp member
  have bound := (Zscii.toNat_ofChar_bounds c).2
  rw [code] at bound
  exact absurd bound (by decide)

end HoldsLine

/-- Where a word of a stored line ends, and that it is not empty. -/
theorem word_fits {line : String} {version : Nat}
    (member : token ∈ m.dictionary.tokenize (typedText version textMax line)) :
    token.start + token.text.length ≤ textRoom version textMax ∧ 0 < token.text.length := by
  have stands := Dictionary.tokenize_stands member
  have short := length_typedText_le version textMax line
  have inside := stands.inside
  rw [String.length_toList] at inside
  exact ⟨by omega, stands.length_pos⟩

/-- **Entries point at their words.** Take any read that waits for a line, with buffers
that lie apart from each other and from the variable it stores in, and no table open. When
a line is taken, the parse buffer tells how many words of the stored text it describes: as
many as there are, as it has room for, or 59. Each of their entries holds the word's
address in the dictionary, and points at the word.

The exception is a word that begins with the 255th character of the text, which from
version 5 on stands 256 bytes behind the beginning of the text buffer. Its place wraps to
zero, and it points at the size of the text buffer instead. -/
theorem entries_point_at_words
    (pending : s.pending = some (.line addr textAddr textMax parseAddr target))
    (closed : s.streams.tables = []) (parses : parseAddr ≠ 0)
    (apart : BuffersApart s.machine textAddr textMax parseAddr target)
    (taken : s.provideLine h text echo = (.ok (), s')) :
    let tokens := s.machine.dictionary.tokenize
      (typedText s.machine.version textMax (stripped text))
    ∃ room count, s.machine.memory.getByte parseAddr = .ok room ∧
      s'.machine.memory.getByte (parseAddr + 1) = .ok count ∧
      count.toNat = min (min tokens.length room.toNat) 59 ∧
      ∀ i < count.toNat, ∃ token, tokens[i]? = some token ∧
        (∃ address, s'.machine.memory.getWord (parseAddr + 2 + 4 * i) = .ok address ∧
          s'.machine.dictionary.lookup s'.machine.memory s'.machine.codec token.text =
            .ok address) ∧
        (s.machine.version < 5 ∨ token.start ≠ 254 →
          PointsAt s'.machine.memory textAddr (parseAddr + 2 + 4 * i) token.text) ∧
        (5 ≤ s.machine.version → token.start = 254 →
          s.machine.memory.getByte textAddr = .ok textMax →
          ¬ PointsAt s'.machine.memory textAddr (parseAddr + 2 + 4 * i) token.text) := by
  intro tokens
  obtain ⟨room, described, read, holds⟩ := provideLine_holdsLine pending closed parses apart taken
  obtain ⟨count, counted, number⟩ := holds.count
  refine ⟨room, count, read, counted, number.trans (length_describedWords _ _ _), ?_⟩
  intro i below
  rw [number] at below
  have found := List.getElem?_eq_getElem below
  generalize (s.machine.describedWords _ room)[i] = token at found
  have listed : tokens[i]? = some token := by
    rw [Machine.describedWords, List.getElem?_take] at found
    split at found
    · exact found
    · cases found
  obtain ⟨e, given, stand⟩ := holds.entryAt found
  obtain ⟨looked, _⟩ := Machine.entryOf_eq_ok given
  obtain ⟨fits, some⟩ := word_fits (List.mem_of_getElem? listed)
  have largest := textMax.toNat_lt
  refine ⟨token, listed, ⟨e.address, (read_entry stand).1, ?_⟩, fun near => ?_, ?_⟩
  · rw [holds.tables.dictionary, holds.tables.codec, ← looked]
    exact Dictionary.lookup_memory _ _ _ _ _
  · rw [textRoom] at fits
    refine holds.pointsAt found (by split at fits <;> omega) ?_
    rw [Machine.textOffset]
    split <;> split at fits <;> omega
  · intro late start size
    have late' : ¬ s.machine.version < 5 := Nat.not_lt.mpr late
    rw [textRoom, if_neg late'] at fits
    have offset : s.machine.textOffset = 2 := if_neg late'
    have largest' : textMax = 255 := by
      refine UInt8.toNat_inj.mp (show textMax.toNat = 255 from ?_)
      omega
    exact holds.not_pointsAt found (by omega) (by omega) (largest' ▸ size)

/-! ## A word at the end of a long line -/

/-- A story with a text buffer for 255 characters that reads a line and ends. -/
def longLineStory : Array Byte :=
  (([5, 0, 0, 0, 1, 0x54, 1, 0x54, 1, 0x50, 0, 0x40, 0, 0x40, 1, 0x50] : List Byte) ++
    List.replicate 48 0 ++ [255] ++ List.replicate 259 0 ++ [1] ++ List.replicate 11 0 ++
    [0, 6, 0, 0, 0xE4, 0x0F, 0, 0x40, 1, 0x44, 0, 0xBA]).toArray

/-- The machine on which the story with the large buffer is played. -/
def longLineMachine : Machine :=
  Machine.ofStory longLineStory

theorem longLineMachine_loaded : Machine.load longLineStory {} 0 = .ok longLineMachine :=
  Machine.load_ofStory (by decide +kernel)

/-- The story with the large buffer, waiting for its line. -/
@[irreducible] def longLineSession : Session Unit :=
  performAll Host.null [.step] (start longLineMachine "tale" ())

theorem longLineSession_pending :
    longLineSession.pending = some (.line 340 64 255 324 (some 0)) := by
  decide +kernel

/-- The story with the large buffer takes any line. -/
theorem longLineSession_takes : TakesLines longLineSession 64 255 324 1 := by
  refine takesLines_of_layout ?_ (by decide +kernel)
  unfold longLineSession
  exact performAll_readsWords _ _ (Machine.load_readsWords longLineMachine_loaded)

/-- The story with the large buffer tells words apart by blanks only. -/
theorem longLineSession_words (line : String) :
    longLineSession.machine.dictionary.tokenize
      (typedText longLineSession.machine.version 255 (stripped line)) =
      Dictionary.split [] 0 ((Text.lowercase (stripped line)).toList.take 255) := by
  have told : longLineSession.machine.version = 5 ∧
      longLineSession.machine.dictionary.separators = [] := by
    decide +kernel
  rw [Dictionary.tokenize, told.1, told.2, typedText, String.toList_ofList]
  rfl

/-- The only word of the line "look" is pointed at. -/
theorem look_pointed_at :
    (longLineSession.pending = some (.line 340 64 255 324 (some 0)) ∧
      longLineSession.streams.tables = [] ∧
      BuffersApart longLineSession.machine 64 255 324 (some 0)) ∧
    ∃ s', longLineSession.provideLine Host.null "look" false = (.ok (), s') ∧
      PointsAt s'.machine.memory 64 326 "look" := by
  have ready := longLineSession_takes
  obtain ⟨s', taken⟩ := ready.taken longLineSession_pending Host.null "look"
  have words := longLineSession_words "look"
  rw [stripped_eq (by decide)] at words
  have split : Dictionary.split [] 0 ((Text.lowercase "look").toList.take 255) = [⟨"look", 0⟩] := by
    decide +kernel
  obtain ⟨room, count, read, _, number, entries⟩ :=
    entries_point_at_words longLineSession_pending ready.closed ready.parses ready.apart taken
  rw [stripped_eq (by decide), words, split] at number entries
  obtain rfl : 1 = room := Except.ok.inj (ready.read.symm.trans read)
  obtain ⟨token, found, _, points, _⟩ := entries 0 (by rw [number]; decide)
  cases found
  exact ⟨⟨longLineSession_pending, ready.closed, ready.apart⟩, s', taken, points (.inr nofun)⟩

/-- A line that ends with the 255th character, which is its only word. -/
def longLine : String :=
  String.ofList (List.replicate 254 ' ' ++ ['a'])

theorem toList_longLine : longLine.toList = List.replicate 254 ' ' ++ ['a'] :=
  String.toList_ofList

theorem stripped_longLine : stripped longLine = longLine := by
  refine stripped_eq ?_
  rw [toList_longLine, List.getLast?_concat]
  rfl

/-- The only word of the long line begins with its last character. -/
theorem longLine_words :
    longLineSession.machine.dictionary.tokenize
      (typedText longLineSession.machine.version 255 (stripped longLine)) = [⟨"a", 254⟩] := by
  have typed : (Text.lowercase longLine).toList.take 255 = List.replicate 254 ' ' ++ ['a'] := by
    rw [Text.lowercase, toList_longLine, String.toList_ofList]
    decide +kernel
  have blank : ∀ c ∈ List.replicate 254 ' ', Dictionary.isBlank c = true := by
    intro c member
    rw [List.eq_of_mem_replicate member]
    rfl
  have split : Dictionary.split [] 254 ['a'] = [⟨"a", 254⟩] := by decide +kernel
  rw [longLineSession_words, stripped_longLine, typed, Dictionary.split_blanks blank,
    List.length_replicate]
  exact split

/-- The only word of the long line is not pointed at. -/
theorem longLine_not_pointed_at :
    Machine.load longLineStory {} 0 = .ok longLineMachine ∧
    longLineSession = performAll Host.null [.step] (start longLineMachine "tale" ()) ∧
    longLineSession.pending = some (.line 340 64 255 324 (some 0)) ∧
    longLineSession.streams.tables = [] ∧
    BuffersApart longLineSession.machine 64 255 324 (some 0) ∧
    longLineSession.machine.dictionary.tokenize
      (typedText longLineSession.machine.version 255 (stripped longLine)) = [⟨"a", 254⟩] ∧
    ∃ s', longLineSession.provideLine Host.null longLine false = (.ok (), s') ∧
      (∃ count, s'.machine.memory.getByte 325 = .ok count ∧ count.toNat = 1) ∧
      ¬ PointsAt s'.machine.memory 64 326 "a" := by
  have ready := longLineSession_takes
  obtain ⟨s', taken⟩ := ready.taken longLineSession_pending Host.null longLine
  obtain ⟨room, described, read, holds⟩ := provideLine_holdsLine longLineSession_pending
    ready.closed ready.parses ready.apart taken
  obtain rfl : 1 = room := Except.ok.inj (ready.read.symm.trans read)
  have listed : longLineSession.machine.describedWords
      (typedText longLineSession.machine.version 255 (stripped longLine)) 1 = [⟨"a", 254⟩] := by
    rw [Machine.describedWords, longLine_words]
    rfl
  obtain ⟨offset, large⟩ : longLineSession.machine.textOffset = 2 ∧
      (longLineSession.machine.memory.getByte 64).toOption = some 255 := by
    decide +kernel
  refine ⟨longLineMachine_loaded, by rw [longLineSession], longLineSession_pending, ready.closed,
    ready.apart, longLine_words, s', taken, ?_, ?_⟩
  · obtain ⟨count, counted, number⟩ := holds.count
    rw [listed] at number
    exact ⟨count, counted, number⟩
  · have first := congrArg (·[0]?) listed
    exact holds.not_pointsAt first rfl (congrArg (254 + ·) offset) (eq_ok_of_toOption large)

end ZMachine.Session
