import ZMachine.Proofs.Text.Packing
import ZMachine.Proofs.Text.Spelling

/-!
# Writing a text and reading it back

A text that is written with a number of z-characters is cut where they run out,
which may be inside a character. What is read back is the longest beginning of the
text whose characters fit (`decodeBytes_encode`): a character that was cut makes no
glyph, and neither does the padding, although it shifts, and in the first two
versions even locks, the alphabet.
-/

set_option autoImplicit false

namespace ZMachine

namespace Text

/-! ## Characters that fit -/

/-- How many z-characters a character takes: one for a space, a small letter and the
newline of version 1, two in the other alphabets, and four for a code in full. -/
def expansion (version : Nat) (c : Char) : Nat :=
  if c = ' ' ∨ ('a' ≤ c ∧ c ≤ 'z') ∨ (c = '\n' ∧ version = 1) then 1
  else if ('A' ≤ c ∧ c ≤ 'Z') ∨ c ∈ (Alphabet.a2.rowIn version).drop 1 then 2
  else 4

/-- How many z-characters a text takes. -/
def totalExpansion (version : Nat) : List Char → Nat
  | [] => 0
  | c :: rest => expansion version c + totalExpansion version rest

/-- The longest beginning of a text that takes at most `room` z-characters. -/
def fitting (version : Nat) : (room : Nat) → List Char → List Char
  | _, [] => []
  | room, c :: rest =>
      if expansion version c ≤ room then c :: fitting version (room - expansion version c) rest
      else []

variable {version : Nat}

theorem length_zcharsOfChar (version : Nat) (c : Char) :
    (zcharsOfChar version c).length = expansion version c := by
  by_cases space : c = ' '
  · rw [zcharsOfChar, if_pos space, expansion, if_pos (.inl space)]
    rfl
  by_cases newline : c = '\n' ∧ version = 1
  · rw [zcharsOfChar, if_neg space, if_pos newline, expansion, if_pos (.inr (.inr newline))]
    rfl
  by_cases small : 'a' ≤ c ∧ c ≤ 'z'
  · rw [zcharsOfChar, if_neg space, if_neg newline, if_pos small, expansion,
      if_pos (.inr (.inl small))]
    rfl
  have several : ¬ (c = ' ' ∨ ('a' ≤ c ∧ c ≤ 'z') ∨ (c = '\n' ∧ version = 1)) := by
    rintro (is | is | is)
    · exact space is
    · exact small is
    · exact newline is
  by_cases capital : 'A' ≤ c ∧ c ≤ 'Z'
  · rw [zcharsOfChar, if_neg space, if_neg newline, if_neg small, if_pos capital, expansion,
      if_neg several, if_pos (.inl capital)]
    rfl
  rw [zcharsOfChar, if_neg space, if_neg newline, if_neg small, if_neg capital, expansion,
    if_neg several]
  rcases found : placeIn (Alphabet.a2.rowIn version) c with _ | i
  · have absent : c ∉ (Alphabet.a2.rowIn version).drop 1 :=
      List.idxOf?_eq_none_iff.mp (Option.map_eq_none_iff.mp found)
    rw [if_neg fun is => is.elim capital absent]
    rfl
  · obtain ⟨_, _, _, member⟩ := placeIn_some found
    rw [if_pos (.inr member)]
    rfl

theorem length_zcharsOfChars (version : Nat) (chars : List Char) :
    (chars.flatMap (zcharsOfChar version)).length = totalExpansion version chars := by
  induction chars with
  | nil => rfl
  | cons c rest ih =>
      rw [List.flatMap_cons, List.length_append, length_zcharsOfChar, ih, totalExpansion]

theorem fitting_begins (version room : Nat) (chars : List Char) :
    fitting version room chars <+: chars := by
  induction chars generalizing room with
  | nil => exact List.prefix_rfl
  | cons c rest ih =>
      rw [fitting]
      split
      · exact List.cons_prefix_cons.mpr ⟨rfl, ih _⟩
      · exact List.nil_prefix

theorem fitting_fits (version room : Nat) (chars : List Char) :
    totalExpansion version (fitting version room chars) ≤ room := by
  induction chars generalizing room with
  | nil => exact Nat.zero_le _
  | cons c rest ih =>
      rw [fitting]
      split
      · have := ih (room - expansion version c)
        simp only [totalExpansion]
        omega
      · exact Nat.zero_le _

/-- No longer beginning fits. -/
theorem fitting_longest {room : Nat} {chars kept : List Char} (begins : kept <+: chars)
    (fits : totalExpansion version kept ≤ room) : kept <+: fitting version room chars := by
  induction chars generalizing room kept with
  | nil => rwa [fitting]
  | cons c rest ih =>
      rcases kept with _ | ⟨d, kept⟩
      · exact List.nil_prefix
      · obtain ⟨rfl, begins'⟩ := List.cons_prefix_cons.mp begins
        simp only [totalExpansion] at fits
        rw [fitting, if_pos (by omega)]
        exact List.cons_prefix_cons.mpr ⟨rfl, ih begins' (by omega)⟩

/-- A text that fits is kept whole. -/
theorem fitting_eq_self {room : Nat} {chars : List Char}
    (fits : totalExpansion version chars ≤ room) : fitting version room chars = chars :=
  (fitting_begins version room chars).eq_of_length_le
    (fitting_longest List.prefix_rfl fits).length_le

/-- A character without a code of its own takes as many z-characters as any. -/
theorem expansion_le_of_not_writable {c : Char} (foreign : ¬ Zscii.Writable c) (d : Char) :
    expansion version d ≤ expansion version c := by
  have four : expansion version c = 4 := by
    have outside : ¬ ((' ' ≤ c ∧ c ≤ '~') ∨ c = '\n') := by
      intro plain
      exact foreign (plain.elim .inl (.inr ∘ .inl))
    have letters : ∀ {first last : Char}, ' ' ≤ first → last ≤ '~' → ¬ (first ≤ c ∧ c ≤ last) := by
      intro first last low high inside
      exact outside (.inl ⟨Nat.le_trans low inside.1, Nat.le_trans inside.2 high⟩)
    rw [expansion, if_neg, if_neg]
    · rintro (capital | sign)
      · exact letters (by decide) (by decide) capital
      · exact outside (signs_plain version (List.mem_of_mem_drop sign))
    · rintro (rfl | small | newline)
      · exact outside (by decide)
      · exact letters (by decide) (by decide) small
      · exact outside (.inr newline.1)
  rw [four, expansion]
  split
  · decide
  · split <;> decide

/-- What characters are read as takes no more z-characters than they do. -/
theorem totalExpansion_settled (version : Nat) (chars : List Char) :
    totalExpansion version (chars.map Zscii.settled) ≤ totalExpansion version chars := by
  induction chars with
  | nil => exact Nat.le_refl _
  | cons c rest ih =>
      have first : expansion version (Zscii.settled c) ≤ expansion version c := by
        by_cases writable : Zscii.Writable c
        · exact Nat.le_of_eq (congrArg _ (Zscii.settled_of_writable writable))
        · exact expansion_le_of_not_writable writable _
      simp only [totalExpansion, List.map_cons]
      omega

/-! ## Reading what was written -/

section Reading

variable {c : Codec} {expander : Option Expander}

/-- The padding moves the alphabet about, but makes no glyph. -/
theorem steps_padding (count : Nat) {r : Reader} (plain : r.mode = .plain) :
    ∃ r', r.steps c expander (List.replicate count padding) = .ok r' ∧ r'.glyphs = r.glyphs := by
  induction count generalizing r with
  | zero => exact ⟨r, rfl, rfl⟩
  | succ count ih =>
      obtain ⟨r', step, plain', glyphs⟩ : ∃ r', r.step c expander padding = .ok r' ∧
          r'.mode = .plain ∧ r'.glyphs = r.glyphs := by
        rw [step_plain plain]
        by_cases late : 3 ≤ c.version
        · exact ⟨{ r with current := .a2 }, by simp [Reader.plainStep, padding, late], plain, rfl⟩
        · exact ⟨{ r with lock := r.lock.rotate 2, current := r.lock.rotate 2 },
            by simp [Reader.plainStep, padding, late], plain, rfl⟩
      obtain ⟨r'', rest, glyphs'⟩ := ih plain'
      exact ⟨r'', by rw [List.replicate_succ, steps_cons step, rest], glyphs'.trans glyphs⟩

/-- What fits whole stands in front of the rest, which is cut off or padded to the
room that is left. -/
theorem cut_append {zs : List Byte} {room : Nat} (fits : zs.length ≤ room) (more : List Byte) :
    ((zs ++ more).take room).rightpad room padding =
      zs ++ (more.take (room - zs.length)).rightpad (room - zs.length) padding := by
  rw [List.take_append, List.take_of_length_le fits, List.rightpad, List.rightpad,
    List.append_assoc, List.length_append]
  congr 3
  omega

/-- What does not fit is cut, and nothing stands behind it. -/
theorem cut_append_of_lt {zs : List Byte} {room : Nat} (large : room < zs.length)
    (more : List Byte) : ((zs ++ more).take room).rightpad room padding = zs.take room := by
  rw [List.take_append_of_le_length (Nat.le_of_lt large), List.rightpad, List.length_take,
    Nat.min_eq_left (Nat.le_of_lt large), Nat.sub_self]
  exact List.append_nil _

/-- **Reading a text.** From the z-characters of a text, cut off or padded to a
number, a reader that is at home reads the characters that fit. -/
theorem steps_text (latin : c.unicodeTable = 0) (chars : List Char) (room : Nat) {r : Reader}
    (home : r.AtHome) :
    ∃ r', r.steps c expander
        (((chars.flatMap (zcharsOfChar c.version)).take room).rightpad room padding) = .ok r' ∧
      r'.glyphs.toList = r.glyphs.toList ++ (fitting c.version room chars).map glyphOf := by
  induction chars generalizing room r with
  | nil =>
      obtain ⟨r', read, glyphs⟩ := steps_padding room home.plain
      exact ⟨r', by simpa [List.rightpad] using read, by simp [glyphs, fitting]⟩
  | cons character rest ih =>
      have length := length_zcharsOfChar c.version character
      rw [List.flatMap_cons, fitting]
      by_cases fits : expansion c.version character ≤ room
      · -- The character is read whole, and the rest in the room that it leaves.
        obtain ⟨r', read, glyphs⟩ :=
          ih (room - expansion c.version character) (home.add (glyphOf character))
        refine ⟨r', ?_, ?_⟩
        · rw [cut_append (length ▸ fits), length, steps_append, steps_char latin home]
          exact read
        · rw [glyphs, if_pos fits]
          simp [Reader.add]
      · -- The character is cut: nothing of it is read, and no room is left.
        have large : room < (zcharsOfChar c.version character).length := by omega
        obtain ⟨r', read, glyphs⟩ := steps_part home character large
        exact ⟨r', by rw [cut_append_of_lt large, read], by simp [glyphs, fits]⟩

/-- A text that was written names no abbreviations: what is read of it is the same with
any. -/
theorem steps_text_unabbreviated (other : Option Expander) (chars : List Char) (room : Nat)
    {r : Reader} (home : r.AtHome) :
    (r.steps c expander
        (((chars.flatMap (zcharsOfChar c.version)).take room).rightpad room padding)).map
          (·.glyphs) =
      (r.steps c other
        (((chars.flatMap (zcharsOfChar c.version)).take room).rightpad room padding)).map
          (·.glyphs) := by
  induction chars generalizing room r with
  | nil =>
      have padded : ((([] : List Char).flatMap (zcharsOfChar c.version)).take room).rightpad room
          padding = List.replicate room padding := by
        simp [List.rightpad]
      obtain ⟨r₁, read₁, glyphs₁⟩ : ∃ r₁, r.steps c expander _ = .ok r₁ ∧ r₁.glyphs = r.glyphs :=
        steps_padding room home.plain
      obtain ⟨r₂, read₂, glyphs₂⟩ : ∃ r₂, r.steps c other _ = .ok r₂ ∧ r₂.glyphs = r.glyphs :=
        steps_padding room home.plain
      rw [padded, read₁, read₂]
      exact congrArg Except.ok (glyphs₁.trans glyphs₂.symm)
  | cons character rest ih =>
      have length := length_zcharsOfChar c.version character
      rw [List.flatMap_cons]
      by_cases fits : expansion c.version character ≤ room
      · rw [cut_append (length ▸ fits), length, steps_append, steps_append, steps_char_reads home,
          steps_char_reads home, Reader.reads]
        cases c.charOfCode (Zscii.ofChar character).toUInt16 with
        | error fault => rfl
        | ok printed => exact ih (room - expansion c.version character) (home.add _)
      · have large : room < (zcharsOfChar c.version character).length := by omega
        obtain ⟨r₁, read₁, glyphs₁⟩ : ∃ r₁, r.steps c expander _ = .ok r₁ ∧
            r₁.glyphs = r.glyphs := steps_part home character large
        obtain ⟨r₂, read₂, glyphs₂⟩ : ∃ r₂, r.steps c other _ = .ok r₂ ∧
            r₂.glyphs = r.glyphs := steps_part home character large
        rw [cut_append_of_lt large, read₁, read₂]
        exact congrArg Except.ok (glyphs₁.trans glyphs₂.symm)

end Reading

end Text

/-! ## Whole texts -/

namespace Codec

open Text

variable {c : Codec}

theorem length_zcharsOfText (version : Nat) (text : String) (count : Nat) :
    (zcharsOfText version text count).length = count := by
  rw [zcharsOfText, List.rightpad, List.length_append, List.length_replicate, List.length_take]
  omega

theorem narrow_zcharsOfText (version : Nat) (text : String) (count : Nat) :
    Narrow (zcharsOfText version text count) := by
  intro z member
  rw [zcharsOfText, List.rightpad] at member
  rcases List.mem_append.mp member with member | member
  · obtain ⟨character, _, member⟩ := List.mem_flatMap.mp (List.mem_of_mem_take member)
    exact (zcharsOfChar_spelled version character).narrow z member
  · rw [List.eq_of_mem_replicate member]
    decide

/-- The words that a text is written in. -/
theorem encode_words (c : Codec) (text : String) (count : Nat) :
    ∃ words, c.encode text (3 * count) = bytesOfWords words ∧ words.length = count ∧
      words.flatMap zcharsOfWord = zcharsOfText c.version text (3 * count) ∧ EndMarked words := by
  obtain ⟨length, held, marked⟩ := packWords_whole (narrow_zcharsOfText c.version text (3 * count))
    (length_zcharsOfText c.version text (3 * count))
  exact ⟨_, rfl, length, held, marked⟩

theorem length_encode (c : Codec) (text : String) (count : Nat) :
    (c.encode text (3 * count)).length = 2 * count := by
  obtain ⟨words, written, length, _⟩ := c.encode_words text count
  rw [written, length_bytesOfWords, length]

/-- The end mark of an encoded text is in its last word and in no other. -/
theorem encode_marked (c : Codec) (text : String) {count k : Nat} (inside : k < count) :
    ∃ high low, (c.encode text (3 * count))[2 * k]? = some high ∧
      (c.encode text (3 * count))[2 * k + 1]? = some low ∧
      endsString (wordOfBytes high low) = decide (k + 1 = count) := by
  obtain ⟨words, written, rfl, _, marked⟩ := c.encode_words text count
  have found : words[k]? = some words[k] := List.getElem?_eq_getElem inside
  obtain ⟨high, low⟩ := standAt_bytesOfWords words k _ found
  simp only [List.getElem?_toArray, Nat.zero_add] at high low
  refine ⟨_, _, by rw [written, high], by rw [written, low], ?_⟩
  rw [wordOfBytes_bytes, marked k _ found]

/-- Whole words of z-characters that were packed are read as these z-characters. -/
theorem decodeBytes_packed (plain : c.alphabetTable = 0) (m : Memory) {zs : List Byte}
    (narrow : Narrow zs) {count : Nat} (whole : zs.length = 3 * count) :
    c.decodeBytes m (bytesOfWords (packWords zs)).toArray =
      ((Reader.start .a0).steps c (some (expandAbbreviation c m)) zs).map fun r =>
        spell r.glyphs.toList (2 * count) := by
  obtain ⟨length, held, marked⟩ := packWords_whole narrow whole
  generalize packWords zs = words at length held marked
  subst length
  have gathered : gather (bytesOfWords words).toArray (some (0 + 2 * words.length)) 0 0 #[] = _ :=
    gather_words (standAt_bytesOfWords words) marked #[]
  have size : (bytesOfWords words).toArray.size = 0 + 2 * words.length := by
    rw [List.size_toArray, length_bytesOfWords, Nat.zero_add]
  rw [decodeBytes, readGlyphs, if_neg (not_not_intro plain), size, gathered]
  simp only [ite_self, Array.empty_append, held]
  cases (Reader.start .a0).steps c (some (expandAbbreviation c m)) zs with
  | error fault => rfl
  | ok r =>
      change Except.ok (spell r.glyphs.toList (0 + 2 * words.length)) = _
      rw [Nat.zero_add]
      rfl

/-- A text that was written is read from its z-characters. -/
theorem decodeBytes_encode_steps (plain : c.alphabetTable = 0) (m : Memory) (text : String)
    (count : Nat) :
    c.decodeBytes m (c.encode text (3 * count)).toArray =
      ((Reader.start .a0).steps c (some (expandAbbreviation c m))
        (zcharsOfText c.version text (3 * count))).map fun r =>
          spell r.glyphs.toList (2 * count) :=
  decodeBytes_packed plain m (narrow_zcharsOfText c.version text (3 * count))
    (length_zcharsOfText c.version text (3 * count))

/-- **Reading back.** Any text that was written is read as the characters that fit,
each as what its code stands for. -/
theorem decodeBytes_encode (plain : c.alphabetTable = 0) (latin : c.unicodeTable = 0) (m : Memory)
    (text : String) (count : Nat) :
    c.decodeBytes m (c.encode text (3 * count)).toArray =
      .ok (spell ((fitting c.version (3 * count) text.toList).map glyphOf) (2 * count)) := by
  obtain ⟨r, read, glyphs⟩ : ∃ r, (Reader.start .a0).steps c (some (expandAbbreviation c m))
      (zcharsOfText c.version text (3 * count)) = .ok r ∧ r.glyphs.toList = _ :=
    steps_text latin text.toList (3 * count) ⟨rfl, rfl, rfl⟩
  rw [decodeBytes_encode_steps plain, read]
  change Except.ok (spell r.glyphs.toList (2 * count)) = _
  rw [glyphs]
  rfl

/-- Cutting off or padding to less is cutting. -/
theorem take_zcharsOfText (version : Nat) (text : String) {less count : Nat}
    (fewer : less ≤ count) :
    (zcharsOfText version text count).take less = zcharsOfText version text less := by
  rw [zcharsOfText, zcharsOfText]
  generalize text.toList.flatMap (zcharsOfChar version) = zs
  rw [List.rightpad, List.rightpad, List.take_append, List.take_take, Nat.min_eq_left fewer,
    List.take_replicate, List.length_take, List.length_take]
  congr 2
  omega

/-- A text is written in whole words. -/
theorem encode_whole (c : Codec) (text : String) (count : Nat) :
    c.encode text (3 * (count / 3)) = c.encode text count := by
  have length := length_zcharsOfText c.version text count
  have fewer : 3 * (count / 3) ≤ count := Nat.mul_div_le count 3
  rw [encode, encode, ← take_zcharsOfText c.version text fewer,
    ← packWords_take (zcharsOfText c.version text count), length]

/-- What is read of a text that was written depends on no memory. -/
theorem decodeBytes_encode_memory (c : Codec) (m t : Memory) (text : String) (count : Nat) :
    c.decodeBytes m (c.encode text count).toArray =
      c.decodeBytes t (c.encode text count).toArray := by
  by_cases plain : c.alphabetTable = 0
  · have home : (Reader.start .a0).AtHome := ⟨rfl, rfl, rfl⟩
    have glyphs : ((Reader.start .a0).steps c (some (expandAbbreviation c m))
          (zcharsOfText c.version text (3 * (count / 3)))).map (·.glyphs) =
        ((Reader.start .a0).steps c (some (expandAbbreviation c t))
          (zcharsOfText c.version text (3 * (count / 3)))).map (·.glyphs) :=
      steps_text_unabbreviated _ text.toList _ home
    rw [← encode_whole, decodeBytes_encode_steps plain, decodeBytes_encode_steps plain]
    generalize (Reader.start .a0).steps c (some (expandAbbreviation c m)) _ = read,
      (Reader.start .a0).steps c (some (expandAbbreviation c t)) _ = read' at glyphs ⊢
    rcases read with fault | r
    · rcases read' with fault' | r'
      · cases glyphs
        rfl
      · cases glyphs
    · rcases read' with fault' | r'
      · cases glyphs
      · have same : r.glyphs = r'.glyphs := Except.ok.inj glyphs
        simp only [Except.map, same]
  · simp only [decodeBytes, readGlyphs, if_pos plain]

/-- Characters are read as what their codes stand for. -/
theorem spell_glyphOf (chars : List Char) (length : Nat) :
    spell (chars.map glyphOf) length =
      ⟨String.ofList (chars.map Zscii.settled), length,
        chars.map fun c => (Zscii.ofChar c).toUInt16⟩ := by
  simp [spell, glyphOf, List.filterMap_map, Function.comp_def]

theorem map_settled {chars : List Char} (writable : ∀ c ∈ chars, Zscii.Writable c) :
    chars.map Zscii.settled = chars :=
  (List.map_congr_left fun c member => Zscii.settled_of_writable (writable c member)).trans
    (List.map_id chars)

/-- What a text is read as once it was written with a number of z-characters. -/
def cut (c : Codec) (text : String) (count : Nat) : String :=
  String.ofList ((fitting c.version count text.toList).map Zscii.settled)

theorem decodeBytes_encode_text (plain : c.alphabetTable = 0) (latin : c.unicodeTable = 0)
    (m : Memory) (text : String) (count : Nat) :
    ∃ string, c.decodeBytes m (c.encode text (3 * count)).toArray = .ok string ∧
      string.text = c.cut text (3 * count) := by
  refine ⟨_, decodeBytes_encode plain latin m text count, ?_⟩
  rw [spell_glyphOf]
  rfl

/-- Text that was read back fits, and is read back unchanged from then on. -/
theorem cut_cut (c : Codec) (text : String) (count : Nat) :
    c.cut (c.cut text count) count = c.cut text count := by
  have fits := fitting_fits c.version count text.toList
  have settled := totalExpansion_settled c.version (fitting c.version count text.toList)
  rw [cut, cut, String.toList_ofList, fitting_eq_self (Nat.le_trans settled fits), map_settled]
  intro character member
  obtain ⟨original, _, rfl⟩ := List.mem_map.mp member
  exact Zscii.settled_writable original

/-- A text that fits, or that is cut between two characters, has the bytes of its
cut. -/
theorem encode_cut {text : String} {count : Nat}
    (writable : ∀ character ∈ text.toList, Zscii.Writable character)
    (whole : totalExpansion c.version text.toList ≤ count ∨
      totalExpansion c.version (fitting c.version count text.toList) = count) :
    c.encode (c.cut text count) count = c.encode text count := by
  have begins := fitting_begins c.version count text.toList
  have settled := map_settled fun character member => writable character (begins.subset member)
  rw [cut, settled]
  rcases whole with fits | full
  · rw [fitting_eq_self fits, String.ofList_toList]
  · obtain ⟨rest, parts⟩ := begins
    have length := length_zcharsOfChars c.version (fitting c.version count text.toList)
    have taken : (text.toList.flatMap (zcharsOfChar c.version)).take count =
        ((fitting c.version count text.toList).flatMap (zcharsOfChar c.version)).take count := by
      generalize fitting c.version count text.toList = kept at full parts length
      rw [← parts, List.flatMap_append, List.take_append_of_le_length (by omega)]
    rw [encode, encode, zcharsOfText, zcharsOfText, String.toList_ofList, taken]

/-- **Round trip.** A text of characters that have codes, written with a whole number
of words, takes that many words, of which only the last is marked, and is read back
as the longest of its beginnings that fits: whole, if it fits whole. -/
theorem reads_back_longest_fitting (plain : c.alphabetTable = 0) (latin : c.unicodeTable = 0)
    (m : Memory) {text : String} (writable : ∀ character ∈ text.toList, Zscii.Writable character)
    {n : Nat} (whole : 3 ∣ n) :
    (c.encode text n).length = 2 * n / 3 ∧
    (∀ k < n / 3, ∃ high low, (c.encode text n)[2 * k]? = some high ∧
      (c.encode text n)[2 * k + 1]? = some low ∧
      endsString (wordOfBytes high low) = decide (k + 1 = n / 3)) ∧
    ∃ kept, kept <+: text.toList ∧ totalExpansion c.version kept ≤ n ∧
      (∀ other, other <+: text.toList → totalExpansion c.version other ≤ n →
        other.length ≤ kept.length) ∧
      (totalExpansion c.version text.toList ≤ n → String.ofList kept = text) ∧
      c.decodeBytes m (c.encode text n).toArray =
        .ok ⟨String.ofList kept, 2 * n / 3, kept.map fun c => (Zscii.ofChar c).toUInt16⟩ := by
  obtain ⟨count, rfl⟩ := whole
  have bytes : 2 * (3 * count) / 3 = 2 * count := by omega
  have words : 3 * count / 3 = count := by omega
  have begins := fitting_begins c.version (3 * count) text.toList
  rw [bytes, words]
  refine ⟨c.length_encode text count, fun k inside => c.encode_marked text inside,
    fitting c.version (3 * count) text.toList, begins, fitting_fits _ _ _,
    fun other begins' fits => (fitting_longest begins' fits).length_le, fun fits => ?_, ?_⟩
  · rw [fitting_eq_self fits, String.ofList_toList]
  · rw [decodeBytes_encode plain latin, spell_glyphOf, map_settled]
    exact fun character member => writable character (begins.subset member)

/-- In version 3 the six z-characters of a dictionary word end inside the last letter
of "café", whose code would take four of them. -/
theorem cafe_reads_back :
    ((∀ character ∈ "café".toList, Zscii.Writable character) ∧ 3 ∣ 6) ∧
    (encode ⟨3, 0, 0, 0⟩ "café" 6).length = 4 ∧
    ∃ kept, kept <+: "café".toList ∧ kept.length = 3 ∧
      decodeBytes ⟨3, 0, 0, 0⟩ default (encode ⟨3, 0, 0, 0⟩ "café" 6).toArray =
        .ok ⟨String.ofList kept, 4, kept.map fun c => (Zscii.ofChar c).toUInt16⟩ := by
  have writable : ∀ character ∈ "café".toList, Zscii.Writable character :=
    forall_mem_of_all (by decide)
  have whole : 3 ∣ 6 := by decide
  have plain : (⟨3, 0, 0, 0⟩ : Codec).alphabetTable = 0 := rfl
  have latin : (⟨3, 0, 0, 0⟩ : Codec).unicodeTable = 0 := rfl
  obtain ⟨length, _, kept, begins, fits, longest, _, read⟩ :=
    reads_back_longest_fitting plain latin default writable whole
  refine ⟨⟨writable, whole⟩, length, kept, begins, ?_, read⟩
  have three : 3 ≤ kept.length := longest ['c', 'a', 'f'] (by decide) (by decide)
  have four : kept.length ≤ 4 := begins.length_le
  have whole' : kept.length ≠ 4 := by
    intro all
    have all : kept = "café".toList := begins.eq_of_length all
    rw [all] at fits
    revert fits
    decide
  omega

end Codec

end ZMachine
