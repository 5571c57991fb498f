import ZMachine.Proofs.Dictionary.Lookup
import ZMachine.Proofs.Dictionary.Tokens
import ZMachine.Proofs.Session.Answers
import ZMachine.Proofs.Session.Story

/-!
# The parse buffer

A line that the player has typed is stored in a text buffer, and its words are described
in a parse buffer: each entry holds the word's dictionary address, its length and the
place of its first character in the text buffer.

`Machine.descriptionOf` says what a parse buffer is filled with, as a list of bytes, and
`fillParseBuffer_eq_ok` that filling it succeeds just when these bytes may be written and
lays them out. With buffers that lie apart, `provideLine_holdsLine` finds the line and the
description of its words in the buffers when it was taken.
-/

set_option autoImplicit false

namespace ZMachine

/-! ## Entries -/

/-- An entry of a parse buffer. -/
structure WordEntry where
  address : Word
  length : Byte
  place : Byte
  deriving DecidableEq, Repr, Inhabited

/-- The bytes of an entry. -/
def WordEntry.bytes (e : WordEntry) : List Byte :=
  [highByte e.address, lowByte e.address, e.length, e.place]

namespace Machine

/-- How many bytes of a text buffer stand before its characters. -/
def textOffset (m : Machine) : Nat :=
  if m.version < 5 then 1 else 2

/-- The entry that describes a word. -/
def entryOf (m : Machine) (token : Token) : Except Fault WordEntry := do
  let address ← m.dictionary.lookup m.memory m.codec token.text
  return ⟨address, UInt8.ofNat token.text.length, UInt8.ofNat (token.start + m.textOffset)⟩

/-- The entries that describe words. -/
def entriesOf (m : Machine) : List Token → Except Fault (List WordEntry)
  | [] => .ok []
  | token :: rest => do
      let entry ← m.entryOf token
      return entry :: (← m.entriesOf rest)

/-- The words of a text that a parse buffer has room for. -/
def describedWords (m : Machine) (text : String) (room : Byte) : List Token :=
  let tokens := m.dictionary.tokenize text
  tokens.take (min (min tokens.length room.toNat) Session.maxWords)

/-- What a parse buffer holds behind its room: how many words of a text it describes, and
their entries. -/
def descriptionOf (m : Machine) (text : String) (room : Byte) : Except Fault (List Byte) := do
  let entries ← m.entriesOf (m.describedWords text room)
  return UInt8.ofNat (m.describedWords text room).length :: entries.flatMap WordEntry.bytes

variable {m t : Machine} {token : Token} {tokens : List Token} {entry : Nat}

/-- How words are described depends on the header, the dictionary and the codec. -/
theorem entriesOf_congr (header : t.header = m.header) (dictionary : t.dictionary = m.dictionary)
    (codec : t.codec = m.codec) (tokens : List Token) :
    t.entriesOf tokens = m.entriesOf tokens := by
  induction tokens with
  | nil => rfl
  | cons token rest ih =>
      have first : t.entryOf token = m.entryOf token := by
        rw [entryOf, entryOf, dictionary, codec, Dictionary.lookup_memory _ t.memory m.memory,
          textOffset, textOffset, version, version, header]
      rw [entriesOf, entriesOf, first, ih]

theorem entriesOf_memory (m : Machine) (memory : Memory) (tokens : List Token) :
    { m with memory }.entriesOf tokens = m.entriesOf tokens :=
  entriesOf_congr (t := { m with memory }) (m := m) rfl rfl rfl tokens

theorem describedWords_le (m : Machine) (text : String) (room : Byte) :
    (m.describedWords text room).length ≤ min room.toNat Session.maxWords := by
  rw [describedWords, List.length_take]
  omega

theorem entriesOf_cons {rest : List Token} {entries : List WordEntry} :
    m.entriesOf (token :: rest) = .ok entries ↔
      ∃ e es, m.entryOf token = .ok e ∧ m.entriesOf rest = .ok es ∧ entries = e :: es := by
  rw [entriesOf]
  constructor
  · intro listed
    obtain ⟨e, first, listed⟩ := bind_eq_ok listed
    obtain ⟨es, others, listed⟩ := bind_eq_ok listed
    cases listed
    exact ⟨e, es, first, others, rfl⟩
  · rintro ⟨e, es, first, others, rfl⟩
    rw [first, others]
    rfl

theorem length_entriesOf {entries : List WordEntry} (listed : m.entriesOf tokens = .ok entries) :
    entries.length = tokens.length := by
  induction tokens generalizing entries with
  | nil =>
      cases listed
      rfl
  | cons token rest ih =>
      obtain ⟨e, es, _, others, rfl⟩ := entriesOf_cons.mp listed
      rw [List.length_cons, List.length_cons, ih others]

theorem getElem?_entriesOf {entries : List WordEntry} (listed : m.entriesOf tokens = .ok entries)
    {i : Nat} (found : tokens[i]? = some token) :
    ∃ e, entries[i]? = some e ∧ m.entryOf token = .ok e := by
  induction tokens generalizing entries i with
  | nil => cases found
  | cons first rest ih =>
      obtain ⟨e, es, given, others, rfl⟩ := entriesOf_cons.mp listed
      rcases i with _ | i
      · cases found
        exact ⟨e, rfl, given⟩
      · exact ih others found

theorem length_flatMap_bytes (entries : List WordEntry) :
    (entries.flatMap WordEntry.bytes).length = 4 * entries.length := by
  induction entries with
  | nil => rfl
  | cons e rest ih =>
      rw [List.flatMap_cons, List.length_append, ih, List.length_cons, WordEntry.bytes]
      simp only [List.length_cons, List.length_nil]
      omega

theorem entryOf_eq_ok {e : WordEntry} (given : m.entryOf token = .ok e) :
    m.dictionary.lookup m.memory m.codec token.text = .ok e.address ∧
      e.length = UInt8.ofNat token.text.length ∧
      e.place = UInt8.ofNat (token.start + m.textOffset) := by
  obtain ⟨address, found, given⟩ := bind_eq_ok given
  cases given
  exact ⟨found, rfl, rfl⟩

/-- The machines look words up in the same way and have memory of the same bounds. -/
structure SameTables (m t : Machine) : Prop where
  header : t.header = m.header
  dictionary : t.dictionary = m.dictionary
  codec : t.codec = m.codec
  bounds : m.memory.SameBounds t.memory

theorem SameTables.trans {u : Machine} (first : m.SameTables t) (second : t.SameTables u) :
    m.SameTables u :=
  ⟨second.header.trans first.header, second.dictionary.trans first.dictionary,
    second.codec.trans first.codec, first.bounds.trans second.bounds⟩

theorem descriptionOf_eq_ok {text : String} {room : Byte} {described : List Byte} :
    m.descriptionOf text room = .ok described ↔
      ∃ entries, m.entriesOf (m.describedWords text room) = .ok entries ∧
        described = [UInt8.ofNat (m.describedWords text room).length] ++
          entries.flatMap WordEntry.bytes := by
  rw [descriptionOf]
  constructor
  · intro listed
    obtain ⟨entries, found, listed⟩ := bind_eq_ok listed
    cases listed
    exact ⟨entries, found, rfl⟩
  · rintro ⟨entries, found, rfl⟩
    rw [found]
    rfl

theorem descriptionOf_congr (header : t.header = m.header)
    (dictionary : t.dictionary = m.dictionary) (codec : t.codec = m.codec) (text : String)
    (room : Byte) : t.descriptionOf text room = m.descriptionOf text room := by
  have words : t.describedWords text room = m.describedWords text room := by
    rw [describedWords, describedWords, dictionary]
  rw [descriptionOf, descriptionOf, words, entriesOf_congr header dictionary codec]

theorem descriptionOf_memory (m : Machine) (memory : Memory) (text : String) (room : Byte) :
    { m with memory }.descriptionOf text room = m.descriptionOf text room :=
  descriptionOf_congr (t := { m with memory }) (m := m) rfl rfl rfl text room

/-- A description has a byte for the number of words and four for each of them. -/
theorem length_description {text : String} {room : Byte} {described : List Byte}
    (given : m.descriptionOf text room = .ok described) :
    described.length = 1 + 4 * (m.describedWords text room).length := by
  obtain ⟨entries, listed, rfl⟩ := descriptionOf_eq_ok.mp given
  rw [List.length_append, length_flatMap_bytes, length_entriesOf listed]
  rfl

/-- Words are looked up in the entries of the dictionary that was read. -/
theorem ReadsWords.lookup_eq (reads : m.ReadsWords) (plain : m.codec.alphabetTable = 0)
    (latin : m.codec.unicodeTable = 0) (memory : Memory) (word : String) :
    m.dictionary.lookup memory m.codec word = .ok (Dictionary.addressOf
      (m.dictionary.entries.find? (·.text = m.codec.cut word m.dictionary.wordLength))) := by
  obtain ⟨image, addr, read⟩ := reads
  rw [Dictionary.lookup_memory _ memory image]
  exact Dictionary.lookup_eq_find plain latin read word

/-- The entry that describes a word, found among the entries of the dictionary. -/
def foundEntry (m : Machine) (token : Token) : WordEntry where
  address := Dictionary.addressOf
    (m.dictionary.entries.find? (·.text = m.codec.cut token.text m.dictionary.wordLength))
  length := UInt8.ofNat token.text.length
  place := UInt8.ofNat (token.start + m.textOffset)

/-- With the alphabets of the standard every text can be described. -/
theorem ReadsWords.descriptionOf_eq (reads : m.ReadsWords) (plain : m.codec.alphabetTable = 0)
    (latin : m.codec.unicodeTable = 0) (text : String) (room : Byte) :
    m.descriptionOf text room = .ok ([UInt8.ofNat (m.describedWords text room).length] ++
      ((m.describedWords text room).map m.foundEntry).flatMap WordEntry.bytes) := by
  have listed : ∀ tokens, m.entriesOf tokens = .ok (tokens.map m.foundEntry) := by
    intro tokens
    induction tokens with
    | nil => rfl
    | cons token rest ih =>
        have first : m.entryOf token = .ok (m.foundEntry token) := by
          rw [entryOf, reads.lookup_eq plain latin]
          rfl
        exact entriesOf_cons.mpr ⟨_, _, first, ih, rfl⟩
  exact descriptionOf_eq_ok.mpr ⟨_, listed _, rfl⟩

end Machine

namespace Session

variable {m t : Machine} {token : Token} {tokens : List Token} {entry : Nat}

open Memory (Lays)

theorem writeWordEntry_lays (entry : Nat) (address : Word) (token : Token) (offset : Nat) :
    Lays (writeWordEntry entry address token offset) entry
      (WordEntry.bytes ⟨address, UInt8.ofNat token.text.length,
        UInt8.ofNat (token.start + offset)⟩) :=
  (Memory.writeWord_lays entry address).append
    ((Memory.writeByte_lays (entry + 2) _).append (Memory.writeByte_lays (entry + 3) _))

/-- A word is described by its entry before the others are. -/
theorem describeWords_cons_eq_ok {rest : List Token} :
    (describeWords false m.textOffset entry (token :: rest)).run m = (.ok (), t) ↔
      ∃ e, m.entryOf token = .ok e ∧ m.memory.Writable entry e.bytes.length ∧
        (describeWords false m.textOffset (entry + 4) rest).run
          { m with memory := m.memory.lay entry e.bytes } = (.ok (), t) := by
  rw [describeWords, Op.run_bind_eq_ok_iff]
  constructor
  · rintro ⟨address, _, looked, run⟩
    obtain ⟨found, rfl⟩ := Prod.mk.inj looked
    obtain ⟨_, _, written, described⟩ := Op.run_bind_eq_ok_iff.mp run
    obtain ⟨memory, stored, rfl⟩ := Op.run_zoom_eq_ok.mp written
    obtain ⟨writable, rfl⟩ := (writeWordEntry_lays _ _ _ _ _ _).mp stored
    refine ⟨_, ?_, writable, described⟩
    rw [Machine.entryOf, show m.dictionary.lookup m.memory m.codec token.text = _ from found]
    rfl
  · rintro ⟨e, described, writable, run⟩
    obtain ⟨address, found, described⟩ := bind_eq_ok described
    cases described
    refine ⟨address, m, Prod.ext found rfl, Op.run_bind_eq_ok_iff.mpr ⟨(), _, ?_, run⟩⟩
    exact Op.run_zoom_eq_ok.mpr ⟨_, (writeWordEntry_lays _ _ _ _ _ _).mpr ⟨writable, rfl⟩, rfl⟩

/-- Words are described by their entries in a row. -/
theorem describeWords_eq_ok :
    (describeWords false m.textOffset entry tokens).run m = (.ok (), t) ↔
      ∃ entries, m.entriesOf tokens = .ok entries ∧
        m.memory.Writable entry (entries.flatMap WordEntry.bytes).length ∧
        t = { m with memory := m.memory.lay entry (entries.flatMap WordEntry.bytes) } := by
  induction tokens generalizing m entry with
  | nil =>
      have none : m.memory.lay entry [] = m.memory := Memory.lay_nil _ _
      constructor
      · intro run
        obtain ⟨_, rfl⟩ := Prod.mk.inj run
        refine ⟨[], rfl, fun i low high => absurd high (Nat.not_lt.mpr low), ?_⟩
        rw [List.flatMap_nil, none]
      · rintro ⟨entries, listed, _, rfl⟩
        cases listed
        rw [List.flatMap_nil, none]
        rfl
  | cons token rest ih =>
      rw [describeWords_cons_eq_ok]
      constructor
      · rintro ⟨e, first, writable, run⟩
        obtain ⟨es, others, writable', rfl⟩ :=
          (ih (m := { m with memory := m.memory.lay entry e.bytes })).mp run
        rw [Machine.entriesOf_memory] at others
        have both := Memory.writable_add.mpr
          ⟨writable, writable'.congr writable.sameBounds.symm⟩
        refine ⟨e :: es, Machine.entriesOf_cons.mpr ⟨e, es, first, others, rfl⟩, ?_, ?_⟩
        · rwa [List.flatMap_cons, List.length_append]
        · rw [List.flatMap_cons, ← both.lay_append]
          rfl
      · rintro ⟨entries, listed, writable, rfl⟩
        obtain ⟨e, es, first, others, rfl⟩ := Machine.entriesOf_cons.mp listed
        rw [List.flatMap_cons, List.length_append] at writable
        obtain ⟨here, behind⟩ := Memory.writable_add.mp writable
        refine ⟨e, first, here, (ih (m := { m with memory := m.memory.lay entry e.bytes })).mpr
          ⟨es, ?_, behind.congr here.sameBounds, ?_⟩⟩
        · rw [Machine.entriesOf_memory, others]
        · rw [List.flatMap_cons, ← writable.lay_append]
          rfl

theorem length_describedWords (m : Machine) (text : String) (room : Byte) :
    (m.describedWords text room).length =
      min (min (m.dictionary.tokenize text).length room.toNat) maxWords := by
  rw [Machine.describedWords, List.length_take]
  omega

/-- A parse buffer with room is filled with the number of the words that are described,
and with their entries. -/
theorem run_fillParseBuffer {text : String} {parseAddr : Nat} {room : Byte}
    (read : m.memory.getByte parseAddr = .ok room) (some : room ≠ 0) :
    (fillParseBuffer text parseAddr false).run m =
      (Machine.onMemory (Memory.writeByte (parseAddr + 1)
        (UInt8.ofNat (m.describedWords text room).length)) >>= fun _ =>
          describeWords false m.textOffset (parseAddr + 2) (m.describedWords text room)).run m := by
  have queried : (Op.query (·.memory.getByte parseAddr)).run m = (.ok room, m) :=
    Prod.ext read rfl
  have roomy : ¬ room.toNat = 0 := fun none => some (UInt8.toNat_inj.mp none)
  rw [fillParseBuffer, Op.run_bind_ok queried]
  simp only [if_neg roomy]
  rw [Op.run_view_bind, Op.run_view_bind, length_describedWords, Machine.describedWords]
  rfl

/-- A parse buffer that cannot be read or has no room is not filled. -/
theorem fillParseBuffer_fails {text : String} {parseAddr : Nat}
    (full : ∀ room, m.memory.getByte parseAddr = .ok room → room = 0) :
    (fillParseBuffer text parseAddr false).run m ≠ (.ok (), t) := by
  intro run
  rw [fillParseBuffer] at run
  obtain ⟨room, _, queried, run⟩ := Op.run_bind_eq_ok_iff.mp run
  obtain ⟨read, rfl⟩ := Prod.mk.inj queried
  have none : room.toNat = 0 := by
    rw [full room read]
    rfl
  simp only [if_pos none] at run
  obtain ⟨_, _, failed, _⟩ := Op.run_bind_eq_ok_iff.mp run
  cases (Prod.mk.inj failed).1

/-- **Filling a parse buffer.** The words that it has room for are described behind their
number. -/
theorem fillParseBuffer_eq_ok {text : String} {parseAddr : Nat} :
    (fillParseBuffer text parseAddr false).run m = (.ok (), t) ↔
      ∃ room described, m.memory.getByte parseAddr = .ok room ∧ room ≠ 0 ∧
        m.descriptionOf text room = .ok described ∧
        m.memory.Writable (parseAddr + 1) described.length ∧
        t = { m with memory := m.memory.lay (parseAddr + 1) described } := by
  constructor
  · intro run
    obtain ⟨room, read, some⟩ : ∃ room, m.memory.getByte parseAddr = .ok room ∧ room ≠ 0 := by
      by_contra none
      refine fillParseBuffer_fails (fun room read => ?_) run
      by_contra some
      exact none ⟨room, read, some⟩
    rw [run_fillParseBuffer read some] at run
    obtain ⟨_, _, counted, run⟩ := Op.run_bind_eq_ok_iff.mp run
    obtain ⟨memory, stored, rfl⟩ := Op.run_zoom_eq_ok.mp counted
    obtain ⟨first, rfl⟩ := (Memory.writeByte_lays _ _ _ _).mp stored
    obtain ⟨entries, found, rest, rfl⟩ :=
      (describeWords_eq_ok (m := { m with memory := m.memory.lay (parseAddr + 1) _ })).mp run
    rw [Machine.entriesOf_memory] at found
    have both := Memory.writable_add.mpr ⟨first, rest.congr first.sameBounds.symm⟩
    refine ⟨room, _, read, some, Machine.descriptionOf_eq_ok.mpr ⟨entries, found, rfl⟩, ?_, ?_⟩
    · rwa [List.length_append]
    · rw [← both.lay_append]
      rfl
  · rintro ⟨room, described, read, some, listed, writable, rfl⟩
    obtain ⟨entries, found, rfl⟩ := Machine.descriptionOf_eq_ok.mp listed
    rw [List.length_append] at writable
    obtain ⟨first, rest⟩ := Memory.writable_add.mp writable
    rw [run_fillParseBuffer read some, Op.run_bind_eq_ok_iff]
    refine ⟨(), _, Op.run_zoom_eq_ok.mpr
      ⟨_, (Memory.writeByte_lays _ _ _ _).mpr ⟨first, rfl⟩, rfl⟩, ?_⟩
    refine (describeWords_eq_ok (m := { m with memory := m.memory.lay (parseAddr + 1) _ })).mpr
      ⟨entries, ?_, rest.congr first.sameBounds, ?_⟩
    · rw [Machine.entriesOf_memory, found]
    · rw [← writable.lay_append]
      rfl

/-! ## The text buffer -/

/-- What a text buffer holds behind its size: the codes and a zero before version 5, their
number and the codes from then on. -/
def storedText (version : Nat) (codes : List Byte) : List Byte :=
  if version < 5 then codes ++ [0] else [UInt8.ofNat codes.length] ++ codes

theorem storeText_lays (version textAddr : Nat) (codes : List Byte) :
    Lays (storeText version textAddr codes) (textAddr + 1) (storedText version codes) := by
  rw [storeText, storedText]
  split
  · exact (Memory.writeBytes_lays _ codes).append (Memory.writeByte_lays _ 0)
  · exact (Memory.writeByte_lays _ _).append (Memory.writeBytes_lays _ codes)

theorem length_storedText (version : Nat) (codes : List Byte) :
    (storedText version codes).length = 1 + codes.length := by
  rw [storedText]
  split
  · rw [List.length_append, Nat.add_comm]
    rfl
  · rw [List.length_append]
    rfl

/-- How many characters a text buffer has room for. -/
def textRoom (version : Nat) (textMax : Byte) : Nat :=
  if version < 5 then textMax.toNat - 1 else textMax.toNat

theorem length_typedText_le (version : Nat) (textMax : Byte) (line : String) :
    (typedText version textMax line).length ≤ textRoom version textMax := by
  rw [typedText, ← String.length_toList, String.toList_ofList]
  exact List.length_take_le _ _

/-- The codes of a text stand behind what comes before them. -/
theorem stand_codes {memory : Memory} {textAddr : Nat} {codes : List Byte}
    (stand : memory.Stand (textAddr + 1) (storedText m.version codes)) :
    memory.Stand (textAddr + m.textOffset) codes := by
  rw [storedText] at stand
  rw [Machine.textOffset]
  by_cases early : m.version < 5
  · rw [if_pos early] at stand ⊢
    exact (Memory.stand_append.mp stand).1
  · rw [if_neg early] at stand ⊢
    exact (Memory.stand_append.mp stand).2

/-! ## Buffers that lie apart -/

/-- Two stretches of memory have no byte in common. -/
def StretchesApart (addr size addr' size' : Nat) : Prop :=
  addr + size ≤ addr' ∨ addr' + size' ≤ addr

/-- How many bytes a text buffer takes. -/
def textExtent (version : Nat) (textMax : Byte) : Nat :=
  2 + textRoom version textMax

/-- How many bytes a parse buffer takes, for as many words as it can describe. -/
def parseExtent (room : Byte) : Nat :=
  2 + 4 * min room.toNat maxWords

/-- The text buffer, the parse buffer and the variable that a read stores in, if it is a
global, lie apart. -/
structure BuffersApart (m : Machine) (textAddr : Nat) (textMax : Byte) (parseAddr : Nat)
    (target : Option Byte) : Prop where
  buffers : ∀ room, m.memory.getByte parseAddr = .ok room →
    StretchesApart textAddr (textExtent m.version textMax) parseAddr (parseExtent room)
  text : ∀ number ∈ target, ∀ place, m.globalAddr number = .ok place →
    StretchesApart place 2 textAddr (textExtent m.version textMax)
  parse : ∀ number ∈ target, ∀ place, m.globalAddr number = .ok place →
    ∀ room, m.memory.getByte parseAddr = .ok room →
      StretchesApart place 2 parseAddr (parseExtent room)

/-- What is stored on the stack lies apart from any buffers. -/
theorem buffersApart_of_stack {textAddr parseAddr : Nat} {textMax room : Byte}
    (read : m.memory.getByte parseAddr = .ok room)
    (apart : StretchesApart textAddr (textExtent m.version textMax) parseAddr (parseExtent room)) :
    BuffersApart m textAddr textMax parseAddr (some 0) := by
  have noGlobal : ∀ number ∈ some (0 : Byte), ∀ place, m.globalAddr number ≠ .ok place := by
    intro number member place found
    cases member
    cases found
  refine ⟨fun room' read' => ?_, fun number member place found => ?_,
    fun number member place found => ?_⟩
  · obtain rfl : room = room' := Except.ok.inj (read.symm.trans read')
    exact apart
  · exact absurd found (noGlobal number member place)
  · exact absurd found (noGlobal number member place)

/-- Writing a variable changes the bytes of a global at most, also when it fails. -/
theorem writeVariable_frame {number : Byte} {value : Word} {ended : Except Fault Unit}
    (run : (Machine.writeVariable number value).run m = (ended, t)) :
    m.SameTables t ∧
    ∀ i : Nat, (∀ place, m.globalAddr number = .ok place → i < place ∨ place + 2 ≤ i) →
      t.memory.bytes[i]? = m.memory.bytes[i]? := by
  rw [Machine.writeVariable] at run
  split at run
  · obtain ⟨_, rfl⟩ := Prod.mk.inj run
    exact ⟨⟨rfl, rfl, rfl, .refl _⟩, fun _ _ => rfl⟩
  · split at run
    · obtain ⟨_, rfl⟩ := Prod.mk.inj run
      exact ⟨⟨rfl, rfl, rfl, .refl _⟩, fun _ _ => rfl⟩
    · obtain ⟨_, _, _, rfl⟩ | ⟨place, found, written⟩ := Op.bind_cases run
      · exact ⟨⟨rfl, rfl, rfl, .refl _⟩, fun _ _ => rfl⟩
      · obtain ⟨_, rfl⟩ := Prod.mk.inj written
        have writes : (Memory.writeWord place value).MadeOf
            (Memory.Writes fun _ i => i = place ∨ i = place + 1) :=
          Memory.writeWord_writes value (fun _ _ => .inl rfl) fun _ _ => .inr rfl
        refine ⟨⟨rfl, rfl, rfl, Memory.sameBounds_of_writes (writes m.memory)⟩, fun i outside => ?_⟩
        refine Memory.getElem?_of_writes (writes m.memory) ?_
        have := outside place found
        omega

/-! ## A line that was taken -/

variable {ω : Type} {h : Host ω} {s s' : Session ω} {addr textAddr parseAddr : Nat} {textMax : Byte}
  {target : Option Byte} {text : String} {echo : Bool}

/-- A line whose words are to be described has them described, and then its ending told. -/
theorem describeLine_eq_ok {version : Nat} {typed : String} (parses : parseAddr ≠ 0)
    (run : (describeLine version typed parseAddr target).run m = (.ok (), t)) :
    ∃ u, (fillParseBuffer typed parseAddr false).run m = (.ok (), u) ∧
      (t = u ∨ ∃ number ∈ target, (Machine.writeVariable number 13).run u = (.ok (), t)) := by
  simp only [describeLine, if_pos parses] at run
  obtain ⟨_, u, filled, run⟩ := Op.run_bind_eq_ok_iff.mp run
  refine ⟨u, filled, ?_⟩
  split at run
  · rcases target with _ | number
    · exact .inl (Prod.mk.inj run).2.symm
    · exact .inr ⟨number, rfl, run⟩
  · exact .inl (Prod.mk.inj run).2.symm

/-- Telling the ending changes the bytes of the variable at most. -/
theorem ending_frame
    (last : t = m ∨ ∃ number ∈ target, (Machine.writeVariable number 13).run m = (.ok (), t)) :
    m.SameTables t ∧
    ∀ i : Nat, (∀ number ∈ target, ∀ place, m.globalAddr number = .ok place →
      i < place ∨ place + 2 ≤ i) → t.memory.bytes[i]? = m.memory.bytes[i]? := by
  rcases last with rfl | ⟨number, member, written⟩
  · exact ⟨⟨rfl, rfl, rfl, .refl _⟩, fun _ _ => rfl⟩
  · obtain ⟨tables, same⟩ := writeVariable_frame written
    exact ⟨tables, fun i outside => same i (outside number member)⟩

/-- The buffers of the second machine hold a typed text and the description of its words
by the first. -/
structure HoldsLine (m : Machine) (typed : String) (textAddr parseAddr : Nat) (room : Byte)
    (described : List Byte) (t : Machine) : Prop where
  tables : m.SameTables t
  size : t.memory.bytes[textAddr]? = m.memory.bytes[textAddr]?
  text : t.memory.Stand (textAddr + 1) (storedText m.version (Zscii.ofString typed))
  roomy : room ≠ 0
  given : m.descriptionOf typed room = .ok described
  parse : t.memory.Stand parseAddr ([room] ++ described)
  writable : t.memory.Writable (parseAddr + 1) described.length

/-- Storing a line leaves the room of a parse buffer that lies apart as it is. -/
theorem room_kept {typed : String} {room : Byte}
    (short : typed.length ≤ textRoom m.version textMax)
    (apart : StretchesApart textAddr (textExtent m.version textMax) parseAddr (parseExtent room))
    (writable : m.memory.Writable (textAddr + 1)
      (storedText m.version (Zscii.ofString typed)).length) :
    (m.memory.lay (textAddr + 1) (storedText m.version (Zscii.ofString typed))).bytes[parseAddr]? =
      m.memory.bytes[parseAddr]? := by
  refine writable.getElem?_lay ?_
  rw [length_storedText, Zscii.length_ofString]
  rw [StretchesApart, textExtent, parseExtent] at apart
  omega

/-- Storing a line and describing its words leaves both in buffers that lie apart. -/
theorem holdsLine_of_lay {typed : String} {room : Byte} {described : List Byte}
    (short : typed.length ≤ textRoom m.version textMax)
    (apart : StretchesApart textAddr (textExtent m.version textMax) parseAddr (parseExtent room))
    (writable : m.memory.Writable (textAddr + 1)
      (storedText m.version (Zscii.ofString typed)).length)
    (read : m.memory.getByte parseAddr = .ok room) (roomy : room ≠ 0)
    (given : m.descriptionOf typed room = .ok described)
    (writable' : m.memory.Writable (parseAddr + 1) described.length) :
    HoldsLine m typed textAddr parseAddr room described { m with
      memory := (m.memory.lay (textAddr + 1) (storedText m.version (Zscii.ofString typed))).lay
        (parseAddr + 1) described } := by
  have kept := room_kept short apart writable
  have length := length_storedText m.version (Zscii.ofString typed)
  have length' := Machine.length_description given
  have few := Machine.describedWords_le m typed room
  rw [Zscii.length_ofString] at length
  rw [StretchesApart, textExtent, parseExtent] at apart
  have later := writable'.congr writable.sameBounds
  have bounds := writable.sameBounds.trans later.sameBounds
  refine ⟨⟨rfl, rfl, rfl, bounds⟩, ?_, ?_, roomy, given, ?_, writable'.congr bounds⟩
  · rw [later.getElem?_lay (by omega), writable.getElem?_lay (.inl (Nat.lt_succ_self _))]
  · exact writable.stand_lay.congr fun i low high => later.getElem?_lay (by omega)
  · refine Memory.stand_append.mpr ⟨Memory.stand_singleton.mpr ?_, later.stand_lay⟩
    rw [later.getElem?_lay (.inl (Nat.lt_succ_self _)), kept, Memory.getByte_eq_ok.mp read]

/-- What leaves the buffers alone leaves the line in them. -/
theorem HoldsLine.congr {u : Machine} {typed : String} {room : Byte} {described : List Byte}
    (holds : HoldsLine m typed textAddr parseAddr room described t)
    (short : typed.length ≤ textRoom m.version textMax) (tables : t.SameTables u)
    (text : ∀ i, textAddr ≤ i → i < textAddr + textExtent m.version textMax →
      u.memory.bytes[i]? = t.memory.bytes[i]?)
    (parse : ∀ i, parseAddr ≤ i → i < parseAddr + parseExtent room →
      u.memory.bytes[i]? = t.memory.bytes[i]?) :
    HoldsLine m typed textAddr parseAddr room described u := by
  have length := length_storedText m.version (Zscii.ofString typed)
  have length' := Machine.length_description holds.given
  have few := Machine.describedWords_le m typed room
  rw [Zscii.length_ofString] at length
  rw [textExtent] at text
  rw [parseExtent] at parse
  refine ⟨holds.tables.trans tables, ?_, ?_, holds.roomy, holds.given, ?_,
    holds.writable.congr tables.bounds⟩
  · exact (text textAddr (Nat.le_refl _) (by omega)).trans holds.size
  · exact holds.text.congr fun i low high => text i (by omega) (by omega)
  · refine holds.parse.congr fun i low high => parse i low ?_
    rw [List.length_append, List.length_singleton] at high
    omega

/-- **Taking a line.** With buffers that lie apart, a line that was taken and its words are
found in them. -/
theorem provideLine_holdsLine
    (pending : s.pending = some (.line addr textAddr textMax parseAddr target))
    (closed : s.streams.tables = []) (parses : parseAddr ≠ 0)
    (apart : BuffersApart s.machine textAddr textMax parseAddr target)
    (taken : s.provideLine h text echo = (.ok (), s')) :
    ∃ room described, s.machine.memory.getByte parseAddr = .ok room ∧
      HoldsLine s.machine (typedText s.machine.version textMax (stripped text)) textAddr parseAddr
        room described s'.machine := by
  obtain ⟨memory, machine, world, stored, described, rfl⟩ := provideLine_eq_ok pending closed taken
  have short := length_typedText_le s.machine.version textMax (stripped text)
  generalize typedText s.machine.version textMax (stripped text) = typed at *
  obtain ⟨writable, rfl⟩ := (storeText_lays _ _ _ _ _).mp stored
  obtain ⟨u, filled, last⟩ := describeLine_eq_ok parses described
  obtain ⟨room, description, read, roomy, given, writable', rfl⟩ := fillParseBuffer_eq_ok.mp filled
  obtain ⟨tables, ending⟩ := ending_frame last
  rw [Machine.descriptionOf_memory] at given
  -- The parse buffer has the room that it had before the line was stored.
  obtain ⟨original, before⟩ : ∃ b, s.machine.memory.getByte parseAddr = .ok b := by
    have inside := (Array.getElem?_eq_some_iff.mp (Memory.getByte_eq_ok.mp read)).1
    rw [writable.sameBounds.size] at inside
    exact ⟨_, Memory.getByte_eq_ok.mpr (Array.getElem?_eq_getElem inside)⟩
  have buffers := apart.buffers original before
  have same : original = room := by
    rw [Memory.getByte_eq_ok, room_kept short buffers writable,
      Memory.getByte_eq_ok.mp before] at read
    exact Option.some.inj read
  subst same
  have holds := holdsLine_of_lay short buffers writable before roomy given
    (writable'.congr writable.sameBounds.symm)
  refine ⟨original, description, before, holds.congr short tables (fun i low high => ?_)
    fun i low high => ?_⟩
  · refine ending i fun number member place found => ?_
    have away := apart.text number member place found
    rw [StretchesApart] at away
    omega
  · refine ending i fun number member place found => ?_
    have away := apart.parse number member place found original before
    rw [StretchesApart] at away
    omega

/-! ## Reads that take any line -/

/-- A read of version 5 or later that tells its ending on the stack, with buffers that lie
apart behind the header and may be written, and words that can be looked up, while no
stream wants a copy of the line. -/
structure TakesLines (s : Session ω) (textAddr : Nat) (textMax : Byte) (parseAddr : Nat)
    (room : Byte) : Prop where
  late : 5 ≤ s.machine.version
  closed : s.streams.tables = []
  parses : parseAddr ≠ 0
  commands : s.streams.commands = false
  transcript : s.machine.memory.flag .transcripting = .ok false
  behind : Flag.transcripting.byte < textAddr
  text : s.machine.memory.Writable textAddr (textExtent s.machine.version textMax)
  read : s.machine.memory.getByte parseAddr = .ok room
  roomy : room ≠ 0
  parse : s.machine.memory.Writable parseAddr (parseExtent room)
  apart : BuffersApart s.machine textAddr textMax parseAddr (some 0)
  words : s.machine.ReadsWords
  plain : s.machine.codec.alphabetTable = 0
  latin : s.machine.codec.unicodeTable = 0
  stack : s.machine.stack.cells.size < CallStack.capacity

/-- A read is ready for any line if its parse buffer comes behind its text buffer and both
between the header and static memory. -/
theorem takesLines_of_layout {room : Byte} (words : s.machine.ReadsWords)
    (layout : (5 ≤ s.machine.version ∧ s.streams.tables = [] ∧ s.streams.commands = false ∧
        (s.machine.memory.flag .transcripting).toOption = some false) ∧
      (s.machine.memory.getByte parseAddr).toOption = some room ∧ room ≠ 0 ∧
      (Flag.transcripting.byte < textAddr ∧
        textAddr + textExtent s.machine.version textMax ≤ parseAddr ∧
        parseAddr + parseExtent room ≤ s.machine.memory.staticBase ∧
        s.machine.memory.staticBase ≤ s.machine.memory.size) ∧
      s.machine.codec.alphabetTable = 0 ∧ s.machine.codec.unicodeTable = 0 ∧
      s.machine.stack.cells.size < CallStack.capacity) :
    TakesLines s textAddr textMax parseAddr room := by
  obtain ⟨⟨late, closed, commands, transcript⟩, read, roomy, ⟨behind, apart, below, base⟩, plain,
    latin, stack⟩ := layout
  have read := eq_ok_of_toOption read
  refine ⟨late, closed, by omega, commands, eq_ok_of_toOption transcript, behind, ?_, read, roomy,
    ?_, buffersApart_of_stack read (.inl apart), words, plain, latin, stack⟩
  · intro i _ high
    omega
  · intro i _ high
    omega

/-- The machine with a line in its buffers and its ending on the stack. -/
def withLine (m : Machine) (textAddr parseAddr : Nat) (typed : String) (described : List Byte) :
    Machine :=
  { m with
    memory := (m.memory.lay (textAddr + 1) (storedText m.version (Zscii.ofString typed))).lay
      (parseAddr + 1) described
    stack := { m.stack with cells := m.stack.cells.push 13 } }

/-- A line whose words were described has its ending told on a stack with room. -/
theorem describeLine_ok {version : Nat} {typed : String} (late : 5 ≤ version)
    (parses : parseAddr ≠ 0) (filled : (fillParseBuffer typed parseAddr false).run m = (.ok (), t))
    (stack : t.stack.cells.size < CallStack.capacity) :
    (describeLine version typed parseAddr (some 0)).run m =
      (.ok (), { t with stack := { t.stack with cells := t.stack.cells.push 13 } }) := by
  have pushed : (CallStack.push 13).run t.stack =
      (.ok (), { t.stack with cells := t.stack.cells.push 13 }) := if_neg (Nat.not_le.mpr stack)
  simp only [describeLine, if_pos parses, if_pos late]
  rw [Op.run_bind_ok filled, Machine.writeVariable, if_pos rfl]
  exact Op.run_zoom_eq_ok.mpr ⟨_, pushed, rfl⟩

/-- A line that nothing is told of is copied without a change. -/
theorem copyLine_quiet (line : String) (commands : s.streams.commands = false)
    (transcript : s.machine.memory.flag .transcripting = .ok false) :
    (copyLine h line false).run s = (.ok (), s) := by
  rw [run_copyLine transcript, if_neg Bool.false_ne_true, echoCommand, Op.run_view_bind, commands]
  rfl

/-- Such a read takes a line, which is then in its buffers. -/
theorem TakesLines.provideLine_eq {room : Byte} {described : List Byte}
    (ready : TakesLines s textAddr textMax parseAddr room)
    (pending : s.pending = some (.line addr textAddr textMax parseAddr (some 0)))
    (given : s.machine.descriptionOf (typedText s.machine.version textMax (stripped text)) room =
      .ok described) (h : Host ω) :
    ∃ world, s.provideLine h text false = (.ok (), { s with
      machine := withLine s.machine textAddr parseAddr
        (typedText s.machine.version textMax (stripped text)) described
      pending := none
      world }) := by
  have short := length_typedText_le s.machine.version textMax (stripped text)
  generalize typed_eq : typedText s.machine.version textMax (stripped text) = typed at *
  have length := length_storedText s.machine.version (Zscii.ofString typed)
  have length' := Machine.length_description given
  have few := Machine.describedWords_le s.machine typed room
  rw [Zscii.length_ofString] at length
  have writable : s.machine.memory.Writable (textAddr + 1)
      (storedText s.machine.version (Zscii.ofString typed)).length := by
    refine ready.text.part (Nat.le_succ _) ?_
    rw [textExtent]
    omega
  have writable' : s.machine.memory.Writable (parseAddr + 1) described.length := by
    refine ready.parse.part (Nat.le_succ _) ?_
    rw [parseExtent]
    omega
  have read := (room_kept short (ready.apart.buffers room ready.read) writable).trans
    (Memory.getByte_eq_ok.mp ready.read)
  have transcript := writable.flag_lay (Nat.lt_succ_of_lt ready.behind) ready.transcript
  have later := writable'.congr writable.sameBounds
  have stored := (storeText_lays s.machine.version textAddr _ s.machine.memory _).mpr
    ⟨writable, rfl⟩
  rw [withLine]
  generalize s.machine.memory.lay (textAddr + 1) _ = memory at *
  have filled := (fillParseBuffer_eq_ok (m := { s.machine with memory })).mpr
    ⟨room, described, Memory.getByte_eq_ok.mpr read, ready.roomy,
      (Machine.descriptionOf_memory _ _ _ _).trans given, later, rfl⟩
  have copied := copyLine_quiet (h := h)
    (s := { s with machine := { s.machine with memory }, pending := none }) (stripped text)
    ready.commands transcript
  subst typed_eq
  exact provideLine_taken pending ready.closed stored (congrArg Prod.fst copied)
    (describeLine_ok ready.late ready.parses filled ready.stack)

/-- Such a read takes any line. -/
theorem TakesLines.taken {room : Byte} (ready : TakesLines s textAddr textMax parseAddr room)
    (pending : s.pending = some (.line addr textAddr textMax parseAddr (some 0)))
    (h : Host ω) (text : String) : ∃ s', s.provideLine h text false = (.ok (), s') := by
  have given := ready.words.descriptionOf_eq ready.plain ready.latin
    (typedText s.machine.version textMax (stripped text)) room
  obtain ⟨world, taken⟩ := ready.provideLine_eq pending given h
  exact ⟨_, taken⟩

end Session

end ZMachine
