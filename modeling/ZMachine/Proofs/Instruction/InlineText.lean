import ZMachine.Proofs.Instruction.Extent
import ZMachine.Proofs.Text.Translation

/-!
# Strings inside instructions

An instruction that prints has its string behind it. Decoding the instruction passes over
the string by looking at the first byte of each word for the end mark; reading the string
collects z-characters word by word and then takes them through shifts, abbreviations and
codes.

Collecting stops where passing over stops, and the one runs out of memory where the other
does (`textEnd_eq_gather`). What z-characters stand for has no part in it: an abbreviation
is expanded elsewhere in memory and moves no place in the string. So the instruction behind
begins where the string ends (`text_ends_at_next`).
-/

set_option autoImplicit false

namespace ZMachine.Instruction

open Text (gather endsString)

/-- A word carries the end mark if its first byte does. -/
theorem endsString_wordOfBytes (high low : Byte) :
    endsString (wordOfBytes high low) = true ↔ 0x80 ≤ high.toNat := by
  have bound := low.toNat_lt
  rw [endsString, decide_eq_true_iff, toNat_wordOfBytes]
  omega

/-- **Where a string ends.** From any word on, passing over a string and collecting its
z-characters end at the same place, or both find no end. -/
theorem textEnd_eq_gather (m : Memory) (origin start offset : Nat) (found : Array Byte) :
    textEnd m origin (start + offset) =
      if (gather m.bytes none start offset found).complete then
        .ok (start + (gather m.bytes none start offset found).length)
      else .error (.instructionPastEnd origin) := by
  fun_induction gather m.bytes none start offset found with
  | case1 offset found bounded => cases bounded
  | case2 offset found _ inside word found' last =>
      have marked := (endsString_wordOfBytes _ _).mp last
      rw [textEnd, dif_pos inside, if_pos marked, if_pos rfl]
      rfl
  | case3 offset found _ inside word found' more ih =>
      have unmarked := (endsString_wordOfBytes _ _).not.mp more
      rw [textEnd, dif_pos inside, if_neg unmarked]
      exact ih
  | case4 offset found _ outside =>
      rw [textEnd, dif_neg outside, if_neg Bool.false_ne_true]

/-- A string that is read without a bound was collected up to its end mark, and takes the
bytes that were collected. -/
theorem gathered_of_decodeFrom {c : Codec} {m : Memory} {addr : Nat} {lock after : Alphabet}
    {s : ZString} (read : c.decodeFrom m addr none lock = .ok (s, after)) :
    (gather m.bytes none addr 0 #[]).complete = true ∧
      s.length = (gather m.bytes none addr 0 #[]).length := by
  obtain ⟨glyphs, length, rfl, glyphsRead⟩ := Codec.decodeFrom_ok read
  obtain ⟨complete, same, _⟩ := Text.readGlyphs_ok glyphsRead
  exact ⟨complete, same⟩

variable {m : Memory} {addr version a : Nat} {i : Instruction}

/-- The string of an instruction is the last part of it. -/
theorem textEnd_of_decode (decoded : decode m addr version = .ok i) (text : i.text = some a) :
    textEnd m addr a = .ok i.next := by
  obtain ⟨stop, whole⟩ := decode_eq_ok.mp decoded
  have upward := fetch_upward whole
  obtain ⟨size, _⟩ := fetch_ok whole
  have origin := (decode_ok decoded).addr
  have next : i.next = stop := by
    rw [Instruction.next]
    omega
  rw [next]
  obtain ⟨first, place₁, _, rest⟩ := fetch_bind_ok whole
  obtain ⟨opcode, place₂, _, rest⟩ := fetch_bind_ok rest
  obtain ⟨types, place₃, _, rest⟩ := fetch_bind_ok rest
  obtain ⟨operands, place₄, _, rest⟩ := fetch_bind_ok rest
  obtain ⟨store, place₅, _, rest⟩ := fetch_bind_ok rest
  obtain ⟨branch, place₆, _, rest⟩ := fetch_bind_ok rest
  obtain ⟨passed, place₇, read, rest⟩ := fetch_bind_ok rest
  obtain ⟨place, place₈, got, rest⟩ := fetch_bind_ok rest
  cases got
  cases rest
  obtain rfl : passed = some a := text
  rcases there : opcode.hasText with _ | _
  · rw [there] at read
    cases read
  · rw [there] at read
    obtain ⟨begins, place₉, read, same⟩ := fetch_bind_ok (f := fun addr => pure (some addr)) read
    cases same
    obtain ⟨ends, ended, read⟩ := bind_eq_ok read
    cases read
    exact ended

/-- **Inline text ends with its instruction.** A string that follows an instruction and can
be read ends where the next instruction begins, whatever the string contains and whatever
alphabet was locked before it. -/
theorem text_ends_at_next (decoded : decode m addr version = .ok i) (text : i.text = some a)
    {c : Codec} {lock after : Alphabet} {s : ZString}
    (read : c.decodeFrom m a none lock = .ok (s, after)) : a + s.length = i.next := by
  have passed := textEnd_of_decode decoded text
  obtain ⟨complete, length⟩ := gathered_of_decodeFrom read
  have same := textEnd_eq_gather m addr a 0 #[]
  rw [Nat.add_zero, passed, if_pos complete, ← length] at same
  exact (Except.ok.inj same).symm

/-- A story of version 3 with the abbreviation "the" at 66. At 70 it prints a string that
refers to it, writes a letter in full and shifts to a capital; at 77 it quits. -/
def printingImage : Memory :=
  let bytes := Array.replicate 64 0 ++
    #[0, 0x21, 0xE5, 0xAA, 0, 0, 0xB2, 0x04, 0x00, 0x14, 0xC4, 0xEC, 0x8D, 0xBA]
  { bytes, pristine := bytes, version := 3, staticBase := 0x40, highBase := 0x40 }

def printingCodec : Codec :=
  { version := 3, abbreviations := 0x40, alphabetTable := 0, unicodeTable := 0 }

def printingInstruction : Instruction where
  addr := 70
  opcode := ⟨.short, .zero, 0x02, none⟩
  operands := []
  store := none
  branch := none
  text := some 71
  size := 7

/-- The string of six characters takes six bytes, as many as were passed over. -/
theorem printing_ends_at_quit :
    decode printingImage 70 3 = .ok printingInstruction ∧ printingInstruction.text = some 71 ∧
    printingCodec.decodeFrom printingImage 71 none .a2 =
      .ok (⟨"the äH", 6, [116, 104, 101, 32, 155, 72]⟩, .a0) ∧
    71 + 6 = printingInstruction.next := by
  have decoded : decode printingImage 70 3 = .ok printingInstruction :=
    eq_ok_of_toOption (by decide +kernel)
  have read : printingCodec.decodeFrom printingImage 71 none .a2 =
      .ok (⟨"the äH", 6, [116, 104, 101, 32, 155, 72]⟩, .a0) :=
    eq_ok_of_toOption (by decide +kernel)
  exact ⟨decoded, rfl, read, text_ends_at_next decoded rfl read⟩

end ZMachine.Instruction
