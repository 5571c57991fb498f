import ZMachine.Proofs.Toml.RoundTrip
import ZMachine.Snapshot.Document

/-!
# Saved games read back

A snapshot and a saved game are written as documents with one line for each field: an
address as a decimal number, bytes and words as an array of such, the alphabet and the name
of the story between double quotes. What is read from such a document is what was written,
if the addresses are ones that a document can hold and the name is plain. Of the library that
writes and reads the documents no more is used than that it keeps to this layout
(`documents_read_back`).

The two kinds of document have most fields in common, and each field is read from its value
alone. So the fields are shown to read back one by one, and the documents field by field.
-/

set_option autoImplicit false

namespace ZMachine

open Toml (Denotes IsPlain Lines keyLine numbers numbersText quotedText)

/-! ## Fields -/

namespace Toml

theorem natUpTo?_number {n last : Nat} (fit : n ≤ last) :
    (Value.integer n).natUpTo? last = some n := by
  simp [Value.natUpTo?, fit]

theorem nats?_numbers {ns : List Nat} {last : Nat} (fit : ∀ n ∈ ns, n ≤ last) :
    (Value.array (numbers ns)).nats? last = some ns := by
  rw [Value.nats?]
  induction ns with
  | nil => rfl
  | cons n ns ih =>
      obtain ⟨first, others⟩ := List.forall_mem_cons.mp fit
      rw [numbers, List.map_cons, List.mapM_cons, natUpTo?_number first]
      simp only [numbers] at ih
      rw [ih others]
      rfl

theorem string?_text (s : String) : (Value.string s).string? = some s := rfl

/-- The value of a field that is there and of the right kind. -/
theorem required_eq_ok {α : Type} {entries : Entries} {key : String} {kind : Value → Option α}
    {v : Value} {a : α} (found : find entries key = some v) (given : kind v = some a) :
    required entries key kind = .ok a := by
  simp only [required, optional, found, given]
  rfl

end Toml

theorem bytesValue_eq (bytes : Array Byte) :
    bytesValue bytes = .array (numbers (bytes.toList.map (·.toNat))) := by
  rw [bytesValue, numbers, List.map_map]
  rfl

theorem wordsValue_eq (words : Array Word) :
    wordsValue words = .array (numbers (words.toList.map (·.toNat))) := by
  rw [wordsValue, numbers, List.map_map]
  rfl

theorem byte_bound {bytes : Array Byte} : ∀ n ∈ bytes.toList.map (·.toNat), n ≤ 255 := by
  intro n within
  obtain ⟨b, _, rfl⟩ := List.mem_map.mp within
  exact Nat.le_of_lt_succ b.toNat_lt

theorem word_bound {words : Array Word} : ∀ n ∈ words.toList.map (·.toNat), n ≤ 65535 := by
  intro n within
  obtain ⟨w, _, rfl⟩ := List.mem_map.mp within
  exact Nat.le_of_lt_succ w.toNat_lt

theorem bytes?_bytesValue (bytes : Array Byte) : bytes? (bytesValue bytes) = some bytes := by
  rw [bytesValue_eq, bytes?, Toml.nats?_numbers byte_bound]
  simp [Function.comp_def]

theorem words?_wordsValue (words : Array Word) : words? (wordsValue words) = some words := by
  rw [wordsValue_eq, words?, Toml.nats?_numbers word_bound]
  simp [Function.comp_def]

theorem alphabet?_label (alphabet : Alphabet) :
    alphabet? (.string alphabet.label) = some alphabet := by
  cases alphabet <;> rfl

/-- Bytes are laid out as an array of numbers. -/
theorem bytesValue_denotes (bytes : Array Byte) :
    Denotes (numbersText (bytes.toList.map (·.toNat))) (bytesValue bytes) := by
  rw [bytesValue_eq]
  exact .numbers fun n within => Nat.le_trans (byte_bound n within) (by decide)

/-- Words are laid out as an array of numbers. -/
theorem wordsValue_denotes (words : Array Word) :
    Denotes (numbersText (words.toList.map (·.toNat))) (wordsValue words) := by
  rw [wordsValue_eq]
  exact .numbers fun n within => Nat.le_trans (word_bound n within) (by decide)

theorem label_plain (alphabet : Alphabet) : ∀ c ∈ alphabet.label.toList, IsPlain c := by
  cases alphabet <;> simp [Alphabet.label, IsPlain]

theorem address?_number {n : Nat} (fit : n ≤ Toml.maxInteger) :
    address? (.integer n) = some n :=
  Toml.natUpTo?_number fit

/-! ## Documents -/

/-- What a document can hold as it is: addresses that fit in sixty-three bits, and a plain
name. -/
structure IsWritable (pc frame : Nat) (name : String) : Prop where
  pc : pc < 0x8000000000000000
  frame : frame < 0x8000000000000000
  name : ∀ c ∈ name.toList, IsPlain c

theorem fit_of_lt {n : Nat} (small : n < 0x8000000000000000) : n ≤ Toml.maxInteger :=
  Nat.le_of_lt_succ small

namespace Snapshot

/-- A snapshot in print, one line for each field. -/
def layout (s : Snapshot) : String :=
  keyLine "pc" (toString s.pc) ++
  keyLine "fp" (toString s.frame) ++
  keyLine "memory" (numbersText (s.memory.toList.map (·.toNat))) ++
  keyLine "stack" (numbersText (s.stack.toList.map (·.toNat))) ++
  keyLine "alphabet" (quotedText s.alphabet.label) ++
  keyLine "source_name" (quotedText s.sourceName)

variable {s : Snapshot} (writable : IsWritable s.pc s.frame s.sourceName)

include writable

/-- The layout of a snapshot has one line for each field. -/
theorem lines : Lines s.layout s.entries := by
  simp only [layout, String.append_assoc]
  rw [← String.append_empty (s := keyLine "source_name" _)]
  refine .cons (by decide) (.number (fit_of_lt writable.pc)) (by simp) ?_
  refine .cons (by decide) (.number (fit_of_lt writable.frame)) (by simp) ?_
  refine .cons (by decide) (bytesValue_denotes _) (by simp) ?_
  refine .cons (by decide) (wordsValue_denotes _) (by simp) ?_
  refine .cons (by decide) (.text (label_plain _)) (by simp) ?_
  exact .cons (by decide) (.text writable.name) (by simp) .nil

theorem ofEntries_entries : ofEntries s.entries = .ok s := by
  rw [ofEntries, Toml.required_eq_ok rfl (address?_number (fit_of_lt writable.pc)),
    Toml.required_eq_ok rfl (address?_number (fit_of_lt writable.frame)),
    Toml.required_eq_ok rfl (bytes?_bytesValue _), Toml.required_eq_ok rfl (words?_wordsValue _),
    Toml.required_eq_ok rfl (alphabet?_label _), Toml.required_eq_ok rfl (Toml.string?_text _)]
  rfl

end Snapshot

namespace SavedGame

/-- A saved game in print, one line for each field. -/
def layout (g : SavedGame) : String :=
  keyLine "source_name" (quotedText g.sourceName) ++
  keyLine "pc" (toString g.pc) ++
  keyLine "fp" (toString g.frame) ++
  keyLine "alphabet" (quotedText g.alphabet.label) ++
  keyLine "stack" (numbersText (g.stack.toList.map (·.toNat))) ++
  keyLine "cmem" (numbersText (g.compressed.toList.map (·.toNat)))

variable {g : SavedGame} (writable : IsWritable g.pc g.frame g.sourceName)

include writable

/-- The layout of a saved game has one line for each field. -/
theorem lines : Lines g.layout g.entries := by
  simp only [layout, String.append_assoc]
  rw [← String.append_empty (s := keyLine "cmem" _)]
  refine .cons (by decide) (.text writable.name) (by simp) ?_
  refine .cons (by decide) (.number (fit_of_lt writable.pc)) (by simp) ?_
  refine .cons (by decide) (.number (fit_of_lt writable.frame)) (by simp) ?_
  refine .cons (by decide) (.text (label_plain _)) (by simp) ?_
  refine .cons (by decide) (wordsValue_denotes _) (by simp) ?_
  exact .cons (by decide) (bytesValue_denotes _) (by simp) .nil

theorem ofEntries_entries : ofEntries g.entries = .ok g := by
  rw [ofEntries, Toml.required_eq_ok rfl (Toml.string?_text _),
    Toml.required_eq_ok rfl (address?_number (fit_of_lt writable.pc)),
    Toml.required_eq_ok rfl (address?_number (fit_of_lt writable.frame)),
    Toml.required_eq_ok rfl (alphabet?_label _), Toml.required_eq_ok rfl (words?_wordsValue _),
    Toml.required_eq_ok rfl (bytes?_bytesValue _)]
  rfl

end SavedGame

/-- **Round trip.** A snapshot and a saved game, whatever they hold, are written one line
for each field, if their addresses fit in sixty-three bits and the name of the story needs no
escapes, and what is read from that text is what was written. This holds with every library
that keeps to the layout of documents. -/
theorem documents_read_back {toml : Toml.Library} (documented : toml.Documented) :
    (∀ s : Snapshot, IsWritable s.pc s.frame s.sourceName →
      s.write toml = .ok s.layout ∧ Snapshot.read s.layout toml = .ok s) ∧
    (∀ g : SavedGame, IsWritable g.pc g.frame g.sourceName →
      g.write toml = .ok g.layout ∧ SavedGame.read g.layout toml = .ok g) := by
  refine ⟨?_, ?_⟩
  · intro s writable
    have lines := Snapshot.lines writable
    exact ⟨documented.writeAs_eq_ok lines _,
      documented.readAs_eq_ok lines _ (Snapshot.ofEntries_entries writable)⟩
  · intro g writable
    have lines := SavedGame.lines writable
    exact ⟨documented.writeAs_eq_ok lines _,
      documented.readAs_eq_ok lines _ (SavedGame.ofEntries_entries writable)⟩

/-- A saved game with the largest address, both ends of the words and no bytes. -/
def sampleGame : SavedGame :=
  ⟨"zork1.z3", 0x7FFFFFFFFFFFFFFF, 0, .a1, #[0, 0xFFFF], #[]⟩

/-- The library at hand writes the sample in six lines and reads it back from them. -/
theorem sampleGame_reads_back :
    Toml.Library.standard.Documented ∧
      IsWritable sampleGame.pc sampleGame.frame sampleGame.sourceName ∧
      sampleGame.write .standard = .ok sampleGame.layout ∧
      SavedGame.read ("source_name = \"zork1.z3\"\npc = 9223372036854775807\nfp = 0\n" ++
        "alphabet = \"A1\"\nstack = [0, 65535]\ncmem = []\n") .standard = .ok sampleGame := by
  have writable : IsWritable sampleGame.pc sampleGame.frame sampleGame.sourceName :=
    ⟨by decide, by decide, by simp [sampleGame, IsPlain]⟩
  obtain ⟨written, back⟩ :=
    (documents_read_back Toml.standard_documented).2 sampleGame writable
  have text : sampleGame.layout =
      "source_name = \"zork1.z3\"\npc = 9223372036854775807\nfp = 0\n" ++
        "alphabet = \"A1\"\nstack = [0, 65535]\ncmem = []\n" := by
    decide
  rw [text] at back
  exact ⟨Toml.standard_documented, writable, written, back⟩

end ZMachine
