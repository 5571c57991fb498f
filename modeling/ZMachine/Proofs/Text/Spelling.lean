import ZMachine.Proofs.Number
import ZMachine.Text.Decode
import ZMachine.Text.Encode

/-!
# Spelling single characters

A character is written in one of four ways: as a space or a newline with a
z-character of its own, as a letter of the first alphabet, behind a shift to one of
the others, or by its code in full (`zcharsOfChar_spelled`). Everything else about
the z-characters of a character follows from this one list of cases: how many they
are, that each takes five bits, and what a reader makes of them.

A reader that stands in the first alphabet reads the z-characters of a character as
that character (`steps_char_reads`), and makes nothing of a part of them
(`steps_part`). It needs no abbreviations for this. A character that the story's code
does not have is read as another one (`Zscii.settled`).
-/

set_option autoImplicit false

namespace ZMachine

/-- What a test finds of all members of a list holds of each. -/
theorem forall_mem_of_all {α : Type} {p : α → Prop} [DecidablePred p] {list : List α}
    (all : list.all (fun a => decide (p a)) = true) : ∀ a ∈ list, p a :=
  fun a member => of_decide_eq_true (List.all_eq_true.mp all a member)

/-! ## Codes -/

namespace Zscii

/-- A character with a code of its own: a printing character of ASCII, a newline,
or one of the extra characters. -/
def Writable (c : Char) : Prop :=
  (' ' ≤ c ∧ c ≤ '~') ∨ c = '\n' ∨ c ∈ extras

instance (c : Char) : Decidable (Writable c) :=
  inferInstanceAs (Decidable ((' ' ≤ c ∧ c ≤ '~') ∨ c = '\n' ∨ c ∈ extras))

/-- The character that the code of a character stands for. -/
def settled (c : Char) : Char :=
  if Writable c then c
  else if c = '\r' then '\n'
  else if c = '\x7f' ∨ c = '\x08' ∨ c = '\x1b' then '?'
  else ' '

theorem settled_of_writable {c : Char} (writable : Writable c) : settled c = c :=
  if_pos writable

/-- Whatever a character is read as has a code of its own. -/
theorem settled_writable (c : Char) : Writable (settled c) := by
  rw [settled]
  split
  · assumption
  · split
    · decide
    · split <;> decide

/-- A text has a code for each of its characters. -/
theorem length_ofString (text : String) : (ofString text).length = text.length := by
  rw [ofString, List.length_map, String.length_toList]

/-- No character has the code 0, or one beyond those of the extra characters. -/
theorem toNat_ofChar_bounds (c : Char) :
    0 < (ofChar c).toNat ∧ (ofChar c).toNat ≤ lastExtra := by
  rw [ofChar]
  split
  · rename_i plain
    have low : 32 ≤ c.toNat := plain.1
    have high : c.toNat ≤ 126 := plain.2
    rw [UInt8.toNat_ofNat_of_lt' (by rw [UInt8.size]; omega), lastExtra]
    omega
  · split
    · decide
    · split
      · decide
      · split
        · decide
        · split
          · rename_i i found
            have inside : i < 69 := (List.idxOf?_eq_some_iff.mp found).1
            rw [firstExtra, lastExtra, UInt8.toNat_ofNat_of_lt' (by rw [UInt8.size]; omega)]
            omega
          · decide

theorem charOfCode_ascii (codec : Codec) {c : Char} (low : ' ' ≤ c) (high : c ≤ '~') :
    codec.charOfCode (UInt8.ofNat c.toNat).toUInt16 = .ok (some c) := by
  have low : 32 ≤ c.toNat := low
  have high : c.toNat ≤ 126 := high
  have value : (UInt8.ofNat c.toNat).toUInt16.toNat = c.toNat := by
    simp
    omega
  simp only [Codec.charOfCode, value]
  rw [if_neg (by omega), if_neg (by omega), if_neg (by omega), if_neg (by omega),
    if_pos ⟨low, high⟩, Char.ofNat_toNat]

theorem charOfCode_extra {codec : Codec} (latin : codec.unicodeTable = 0) {c : Char} {i : Nat}
    (found : extras.idxOf? c = some i) :
    codec.charOfCode (UInt8.ofNat (firstExtra + i)).toUInt16 = .ok (some c) := by
  obtain ⟨inside, stands, _⟩ := List.idxOf?_eq_some_iff.mp found
  have bound : i < 69 := inside
  have first : firstExtra = 155 := rfl
  have last : lastExtra = 223 := rfl
  have value : (UInt8.ofNat (firstExtra + i)).toUInt16.toNat = firstExtra + i := by
    simp
    omega
  have extra : isExtra (UInt8.ofNat (firstExtra + i)).toUInt16 = true := by
    rw [isExtra, value]
    simp
    omega
  simp only [Codec.charOfCode, extra, value, latin, if_true, Nat.add_sub_cancel_left]
  rw [if_neg (by omega), if_neg (by omega), if_neg (by omega), if_neg (by omega),
    if_neg (by omega), List.getD_eq_getElem?_getD, List.getElem?_eq_getElem inside, stands]
  rfl

/-- The code of a character prints as what the character is read as. -/
theorem charOfCode_ofChar {codec : Codec} (latin : codec.unicodeTable = 0) (c : Char) :
    codec.charOfCode (ofChar c).toUInt16 = .ok (some (settled c)) := by
  by_cases ascii : ' ' ≤ c ∧ c ≤ '~'
  · rw [ofChar, if_pos ascii, settled_of_writable (.inl ascii),
      charOfCode_ascii codec ascii.1 ascii.2]
  by_cases newline : c = '\n' ∨ c = '\r'
  · rcases newline with rfl | rfl <;> rfl
  by_cases deleting : c = '\x7f' ∨ c = '\x08'
  · rcases deleting with rfl | rfl <;> rfl
  by_cases escape : c = '\x1b'
  · subst escape
    rfl
  rw [ofChar, if_neg ascii, if_neg newline, if_neg deleting, if_neg escape]
  rcases found : extras.idxOf? c with _ | i
  · have absent : c ∉ extras := List.idxOf?_eq_none_iff.mp found
    obtain ⟨notNewline, notReturn⟩ := not_or.mp newline
    have unwritable : ¬ Writable c := by
      rintro (printing | newline | member)
      · exact ascii printing
      · exact notNewline newline
      · exact absent member
    have remaining : ¬ (c = '\x7f' ∨ c = '\x08' ∨ c = '\x1b') := by
      rintro (delete | back | escaped)
      · exact deleting (.inl delete)
      · exact deleting (.inr back)
      · exact escape escaped
    rw [settled, if_neg unwritable, if_neg notReturn, if_neg remaining]
    rfl
  · obtain ⟨inside, stands, _⟩ := List.idxOf?_eq_some_iff.mp found
    have member : c ∈ extras := stands ▸ List.getElem_mem inside
    rw [settled_of_writable (.inr (.inr member))]
    exact charOfCode_extra latin found

end Zscii

namespace Text

/-- The glyph that a reader makes of the z-characters of a character. -/
def glyphOf (c : Char) : Glyph :=
  ⟨(Zscii.ofChar c).toUInt16, some (Zscii.settled c)⟩

/-- A character of an alphabet is read as itself. -/
theorem glyphOfChar_eq {c : Char} (plain : (' ' ≤ c ∧ c ≤ '~') ∨ c = '\n') :
    glyphOfChar c = glyphOf c := by
  rcases plain with ascii | rfl
  · have high : c.toNat ≤ 126 := ascii.2
    have notNewline : c ≠ '\n' := by
      rintro rfl
      exact absurd ascii.1 (by decide)
    have code : UInt16.ofNat c.toNat = (UInt8.ofNat c.toNat).toUInt16 := by
      apply UInt16.toNat_inj.mp
      simp
      omega
    rw [glyphOfChar, glyphOf, Zscii.settled_of_writable (.inl ascii), Zscii.ofChar, if_pos ascii,
      if_neg notNewline, code]
  · rfl

/-! ## The ways of writing a character -/

/-- A z-character that shifts a reader from the first alphabet for one character. -/
inductive Shift (version : Nat) : Byte → Alphabet → Prop where
  | upper : Shift version (shiftUpper version) .a1
  | signs : Shift version (shiftSigns version) .a2

/-- The ways of writing a character. -/
inductive Spelled (version : Nat) (c : Char) : List Byte → Prop where
  | space (is : c = ' ') : Spelled version c [0]
  | newline (is : c = '\n') (first : version = 1) : Spelled version c [1]
  | small {z : Byte} (above : 6 ≤ z.toNat) (narrow : z.toNat < 32)
      (stands : Alphabet.a0.charAt version z = c) (plain : ' ' ≤ c ∧ c ≤ '~') :
      Spelled version c [z]
  | shifted {shift z : Byte} {alphabet : Alphabet} (leads : Shift version shift alphabet)
      (above : 6 ≤ z.toNat) (narrow : z.toNat < 32) (letter : alphabet = .a2 → z.toNat ≠ 6)
      (stands : alphabet.charAt version z = c) (plain : (' ' ≤ c ∧ c ≤ '~') ∨ c = '\n') :
      Spelled version c [shift, z]
  | code : Spelled version c
      [shiftSigns version, 6, Zscii.ofChar c >>> 5, Zscii.ofChar c &&& 0x1F]

/-- A letter stands in its row as many places behind the first as in the code. -/
theorem getD_letters {row : List Char} {first c : Char}
    (letters : ∀ i < 26, row.getD i ' ' = Char.ofNat (first.toNat + i)) (low : first ≤ c)
    (high : c.toNat < first.toNat + 26) : row.getD (c.toNat - first.toNat) ' ' = c := by
  have low : first.toNat ≤ c.toNat := low
  rw [letters _ (by omega), Nat.add_sub_cancel' low, Char.ofNat_toNat]

/-- The signs are printing characters and the newline. -/
theorem signs_plain (version : Nat) {c : Char} (member : c ∈ Alphabet.a2.rowIn version) :
    (' ' ≤ c ∧ c ≤ '~') ∨ c = '\n' := by
  have first : ∀ c ∈ Alphabet.firstRow, (' ' ≤ c ∧ c ≤ '~') ∨ c = '\n' :=
    forall_mem_of_all (by decide)
  have later : ∀ c ∈ Alphabet.a2.row, (' ' ≤ c ∧ c ≤ '~') ∨ c = '\n' :=
    forall_mem_of_all (by decide)
  rw [Alphabet.rowIn] at member
  split at member
  · exact first c member
  · exact later c member

theorem length_signs (version : Nat) : (Alphabet.a2.rowIn version).length = 26 := by
  rw [Alphabet.rowIn]
  split <;> decide

/-- The place of a sign is behind the first, and the sign stands there. -/
theorem placeIn_some {version : Nat} {c : Char} {i : Nat}
    (found : placeIn (Alphabet.a2.rowIn version) c = some i) :
    0 < i ∧ i < 26 ∧ (Alphabet.a2.rowIn version).getD i ' ' = c ∧
      c ∈ (Alphabet.a2.rowIn version).drop 1 := by
  obtain ⟨j, place, rfl⟩ := Option.map_eq_some_iff.mp found
  obtain ⟨inside, stands, _⟩ := List.idxOf?_eq_some_iff.mp place
  have member : c ∈ (Alphabet.a2.rowIn version).drop 1 := stands ▸ List.getElem_mem inside
  have bound : j + 1 < (Alphabet.a2.rowIn version).length := by
    rw [List.length_drop] at inside
    omega
  refine ⟨by omega, length_signs version ▸ bound, ?_, member⟩
  rw [List.getElem_drop] at stands
  simp only [Nat.add_comm 1 j] at stands
  rw [List.getD_eq_getElem?_getD, List.getElem?_eq_getElem bound, stands]
  rfl

/-- Only the third alphabet depends on the version. -/
theorem rowIn_of_ne (version : Nat) {alphabet : Alphabet} (letters : alphabet ≠ .a2) :
    alphabet.rowIn version = alphabet.row :=
  if_neg fun first => letters first.1

/-- **Spelling.** The z-characters of a character are one of the ways of writing
it. -/
theorem zcharsOfChar_spelled (version : Nat) (c : Char) :
    Spelled version c (zcharsOfChar version c) := by
  have toByte : ∀ n, n < 26 → (UInt8.ofNat (n + 6)).toNat = n + 6 := by
    intro n bound
    simp
    omega
  by_cases space : c = ' '
  · rw [zcharsOfChar, if_pos space]
    exact .space space
  by_cases newline : c = '\n' ∧ version = 1
  · rw [zcharsOfChar, if_neg space, if_pos newline]
    exact .newline newline.1 newline.2
  by_cases small : 'a' ≤ c ∧ c ≤ 'z'
  · rw [zcharsOfChar, if_neg space, if_neg newline, if_pos small]
    have low : 'a'.toNat ≤ c.toNat := small.1
    have high : c.toNat < 'a'.toNat + 26 := Nat.lt_succ_of_le small.2
    have value := toByte (c.toNat - 'a'.toNat) (by omega)
    refine .small (by omega) (by omega) ?_
      ⟨Nat.le_trans (by decide) small.1, Nat.le_trans small.2 (by decide)⟩
    rw [Alphabet.charAt, value, Nat.add_sub_cancel, rowIn_of_ne version (by decide)]
    exact getD_letters (by decide) small.1 high
  by_cases capital : 'A' ≤ c ∧ c ≤ 'Z'
  · rw [zcharsOfChar, if_neg space, if_neg newline, if_neg small, if_pos capital]
    have low : 'A'.toNat ≤ c.toNat := capital.1
    have high : c.toNat < 'A'.toNat + 26 := Nat.lt_succ_of_le capital.2
    have value := toByte (c.toNat - 'A'.toNat) (by omega)
    refine .shifted .upper (by omega) (by omega) (fun other => by cases other) ?_
      (.inl ⟨Nat.le_trans (by decide) capital.1, Nat.le_trans capital.2 (by decide)⟩)
    rw [Alphabet.charAt, value, Nat.add_sub_cancel, rowIn_of_ne version (by decide)]
    exact getD_letters (by decide) capital.1 high
  rw [zcharsOfChar, if_neg space, if_neg newline, if_neg small, if_neg capital]
  rcases found : placeIn (Alphabet.a2.rowIn version) c with _ | i
  · exact .code
  · obtain ⟨behind, bound, stands, member⟩ := placeIn_some found
    have value := toByte i bound
    refine .shifted .signs (by omega) (by omega) (fun _ => by omega) ?_
      (signs_plain version (List.mem_of_mem_drop member))
    rw [Alphabet.charAt, value, Nat.add_sub_cancel]
    exact stands

/-- The halves of a code take five bits each and give the code back. -/
theorem toNat_halves (code : Byte) :
    (code >>> 5).toNat = code.toNat / 32 ∧ (code &&& 0x1F).toNat = code.toNat % 32 := by
  constructor
  · simp [Nat.shiftRight_eq_div_pow]
  · exact (UInt8.toNat_and code 0x1F).trans (Nat.and_two_pow_sub_one_eq_mod code.toNat 5)

theorem join_halves (code : Byte) :
    ((code >>> 5).toUInt16 <<< 5) ||| (code &&& 0x1F).toUInt16 = code.toUInt16 := by
  obtain ⟨high, low⟩ := toNat_halves code
  have bound := code.toNat_lt
  apply UInt16.toNat_inj.mp
  rw [toNat_shiftLeft_or (by decide)]
  · simp only [UInt8.toNat_toUInt16, high, low]
    exact Nat.div_add_mod' code.toNat 32
  · simp only [UInt8.toNat_toUInt16, high]
    change code.toNat / 32 * 32 < 65536
    omega
  · simp only [UInt8.toNat_toUInt16, low]
    exact Nat.mod_lt _ (by decide)

/-- Every z-character of a character takes five bits. -/
theorem Spelled.narrow {version : Nat} {c : Char} {zs : List Byte}
    (spelled : Spelled version c zs) : ∀ z ∈ zs, z.toNat < 32 := by
  have shifts : ∀ {shift : Byte} {alphabet : Alphabet}, Shift version shift alphabet →
      shift.toNat < 32 := by
    rintro _ _ (_ | _)
    · rw [shiftUpper]
      split <;> decide
    · rw [shiftSigns]
      split <;> decide
  cases spelled with
  | space _ => simp
  | newline _ _ => simp
  | small _ narrow _ _ => simpa using narrow
  | shifted leads _ narrow _ _ _ =>
      intro z member
      simp only [List.mem_cons, List.not_mem_nil, or_false] at member
      rcases member with rfl | rfl
      · exact shifts leads
      · exact narrow
  | code =>
      obtain ⟨high, low⟩ := toNat_halves (Zscii.ofChar c)
      have bound := (Zscii.ofChar c).toNat_lt
      have signs : (shiftSigns version).toNat < 32 := shifts .signs
      intro z member
      simp only [List.mem_cons, List.not_mem_nil, or_false] at member
      rcases member with rfl | rfl | rfl | rfl
      · exact signs
      · decide
      · omega
      · omega

/-! ## Reading a character -/

section Reading

variable {c : Codec} {expander : Option Expander} {r : Reader}

theorem steps_nil : r.steps c expander [] = .ok r := rfl

/-- The rest is read from where the first z-character leads. -/
theorem steps_cons {r' : Reader} {z : Byte} (first : r.step c expander z = .ok r')
    (zs : List Byte) : r.steps c expander (z :: zs) = r'.steps c expander zs := by
  rw [Reader.steps, List.foldlM_cons, first]
  rfl

theorem steps_append (xs ys : List Byte) :
    r.steps c expander (xs ++ ys) =
      r.steps c expander xs >>= fun r => r.steps c expander ys :=
  List.foldlM_append

/-- The reader expects a character of the first alphabet. -/
structure Reader.AtHome (r : Reader) : Prop where
  plain : r.mode = .plain
  lock : r.lock = .a0
  current : r.current = .a0

theorem Reader.AtHome.add (home : r.AtHome) (g : Glyph) : (r.add g).AtHome :=
  ⟨rfl, home.lock, home.lock⟩

theorem step_plain (plain : r.mode = .plain) (z : Byte) :
    r.step c expander z = r.plainStep c expander z := by
  simp only [Reader.step, plain]

theorem step_shift (plain : r.mode = .plain) (lock : r.lock = .a0) {shift : Byte}
    {alphabet : Alphabet} (leads : Shift c.version shift alphabet) :
    r.step c expander shift = .ok { r with current := alphabet } := by
  rw [step_plain plain]
  cases leads with
  | upper =>
      by_cases late : 3 ≤ c.version
      · simp [shiftUpper, late, Reader.plainStep]
      · simp [shiftUpper, late, Reader.plainStep, lock, Alphabet.rotate, Alphabet.index,
          Alphabet.ofIndex]
  | signs =>
      by_cases late : 3 ≤ c.version
      · simp [shiftSigns, late, Reader.plainStep]
      · simp [shiftSigns, late, Reader.plainStep, lock, Alphabet.rotate, Alphabet.index,
          Alphabet.ofIndex]

theorem step_letter (plain : r.mode = .plain) {z : Byte} (above : 6 ≤ z.toNat)
    (letter : r.current = .a2 → z.toNat ≠ 6) :
    r.step c expander z = .ok (r.add (glyphOfChar (r.current.charAt c.version z))) := by
  have notEscape : ¬ (z = 6 ∧ r.current = .a2) := by
    rintro ⟨rfl, signs⟩
    exact letter signs rfl
  have large : ∀ n : Byte, n.toNat < 6 → z ≠ n ∧ ¬ z ≤ n := by
    intro n small
    refine ⟨?_, fun le => ?_⟩
    · rintro rfl
      omega
    · have := UInt8.le_iff_toNat_le.mp le
      omega
  rw [step_plain plain]
  simp only [Reader.plainStep, (large 0 (by decide)).1,
    (large 1 (by decide)).1, (large 3 (by decide)).2, (large 5 (by decide)).2, notEscape,
    if_false, false_and, or_self]

/-- The first place of the signs announces a code. -/
theorem step_announce (plain : r.mode = .plain) (signs : r.current = .a2) :
    r.step c expander 6 = .ok { r with mode := .codeHigh } := by
  rw [step_plain plain]
  simp [Reader.plainStep, signs]

/-- The reader with the glyph of a character added, if the story's code prints it. -/
def Reader.reads (r : Reader) (c : Codec) (character : Char) : Except Fault Reader :=
  (c.charOfCode (Zscii.ofChar character).toUInt16).map fun printed =>
    r.add ⟨(Zscii.ofChar character).toUInt16, printed⟩

/-- Characters of the alphabets are printed by every story. -/
theorem Reader.reads_plain {character : Char}
    (plain : (' ' ≤ character ∧ character ≤ '~') ∨ character = '\n') :
    r.reads c character = .ok (r.add (glyphOf character)) := by
  rcases plain with ascii | rfl
  · rw [reads, glyphOf, Zscii.settled_of_writable (.inl ascii), Zscii.ofChar, if_pos ascii,
      Zscii.charOfCode_ascii c ascii.1 ascii.2]
    rfl
  · rfl

/-- Behind the shift to the signs, the announcement of a code and its two halves
are read as what the code stands for. -/
theorem steps_code (plain : r.mode = .plain) (signs : r.current = .a2) (character : Char) :
    r.steps c expander [6, Zscii.ofChar character >>> 5, Zscii.ofChar character &&& 0x1F] =
      r.reads c character := by
  have begun : Reader.step c expander { r with mode := .codeHigh } (Zscii.ofChar character >>> 5) =
      .ok { r with mode := .codeLow (Zscii.ofChar character >>> 5) } := rfl
  have ended : Reader.step c expander { r with mode := .codeLow (Zscii.ofChar character >>> 5) }
      (Zscii.ofChar character &&& 0x1F) = r.reads c character := by
    simp only [Reader.step, join_halves, Reader.reads]
    cases c.charOfCode (Zscii.ofChar character).toUInt16 <;> rfl
  rw [steps_cons (step_announce plain signs), steps_cons begun, Reader.steps, List.foldlM_cons,
    ended]
  cases r.reads c character <;> rfl

/-- **Reading a character.** A reader that is at home reads the z-characters of a
character as its glyph, and asks for no abbreviation. -/
theorem steps_char_reads (home : r.AtHome) (character : Char) :
    r.steps c expander (zcharsOfChar c.version character) = r.reads c character := by
  have spelled := zcharsOfChar_spelled c.version character
  generalize zcharsOfChar c.version character = zs at spelled
  cases spelled with
  | space is =>
      subst is
      have read : r.step c expander 0 = .ok (r.add (glyphOf ' ')) := step_plain home.plain 0
      rw [steps_cons read, steps_nil, Reader.reads_plain (by decide)]
  | newline is first =>
      subst is
      have read : r.step c expander 1 = .ok (r.add (glyphOf '\n')) := by
        rw [step_plain home.plain]
        simp only [Reader.plainStep, first]
        rfl
      rw [steps_cons read, steps_nil, Reader.reads_plain (.inr rfl)]
  | @small z above narrow stands plain =>
      have read : r.step c expander z = .ok (r.add (glyphOf character)) := by
        rw [step_letter home.plain above (by simp [home.current]), home.current, stands,
          glyphOfChar_eq (.inl plain)]
      rw [steps_cons read, steps_nil, Reader.reads_plain (.inl plain)]
  | @shifted shift z alphabet leads above narrow letter stands plain =>
      have moved : Reader.step c expander { r with current := alphabet } z =
          .ok (r.add (glyphOf character)) := by
        rw [step_letter (r := { r with current := alphabet }) home.plain above letter, stands,
          glyphOfChar_eq plain]
        rfl
      rw [steps_cons (step_shift home.plain home.lock leads), steps_cons moved, steps_nil,
        Reader.reads_plain plain]
  | code =>
      rw [steps_cons (step_shift home.plain home.lock .signs)]
      exact steps_code (r := { r with current := .a2 }) home.plain rfl character

theorem steps_char (latin : c.unicodeTable = 0) (home : r.AtHome) (character : Char) :
    r.steps c expander (zcharsOfChar c.version character) = .ok (r.add (glyphOf character)) := by
  rw [steps_char_reads home, Reader.reads, Zscii.charOfCode_ofChar latin]
  rfl

/-- Before the last z-character of a character nothing is read. -/
theorem steps_part (home : r.AtHome) (character : Char) {k : Nat}
    (part : k < (zcharsOfChar c.version character).length) :
    ∃ r', r.steps c expander ((zcharsOfChar c.version character).take k) = .ok r' ∧
      r'.glyphs = r.glyphs := by
  have spelled := zcharsOfChar_spelled c.version character
  generalize zcharsOfChar c.version character = zs at spelled part
  rcases k with _ | k
  · exact ⟨r, rfl, rfl⟩
  cases spelled with
  | space _ => simp at part
  | newline _ _ => simp at part
  | small _ _ _ _ => simp at part
  | @shifted shift z alphabet leads above narrow letter stands plain =>
      obtain rfl : k = 0 := Nat.lt_one_iff.mp (Nat.lt_of_succ_lt_succ part)
      exact ⟨_, steps_cons (step_shift home.plain home.lock leads) [], rfl⟩
  | code =>
      have shifted : r.step c expander (shiftSigns c.version) = .ok { r with current := .a2 } :=
        step_shift home.plain home.lock .signs
      have announced : Reader.step c expander { r with current := .a2 } 6 =
          .ok { r with current := .a2, mode := .codeHigh } := step_announce home.plain rfl
      rcases k with _ | _ | _ | k
      · exact ⟨_, steps_cons shifted [], rfl⟩
      · exact ⟨_, (steps_cons shifted _).trans (steps_cons announced []), rfl⟩
      · exact ⟨_, (steps_cons shifted _).trans (steps_cons announced _), rfl⟩
      · simp only [List.length_cons, List.length_nil] at part
        omega

end Reading

end Text

end ZMachine
