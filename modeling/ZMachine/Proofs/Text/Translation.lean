import ZMachine.Proofs.Operation
import ZMachine.Proofs.Text.Spelling

/-!
# The text of a string and its codes

Reading a string gives a text and the codes of its characters. The two are kept side by
side, and where they come from differs: a space and a newline have z-characters of their
own, a letter is found in an alphabet and its code from the letter, a code written out in
full comes before its character, and an abbreviation brings along what it was read as.

In each case the character is the one that its code prints as (`Glyph.Translated`). This
holds of what one z-character adds (`Reader.Translated.step`), so of a whole string and of
an abbreviation (`translated_of_readGlyphs`), and therefore of a string with abbreviations
in it. A code that prints nothing leaves no mark in the text.

From version 3 on a string starts and ends with the first alphabet, whatever alphabet was
locked before it.
-/

set_option autoImplicit false

namespace ZMachine

/-! ## Glyphs -/

/-- The glyph prints as what its code stands for. -/
def Glyph.Translated (c : Codec) (g : Glyph) : Prop :=
  c.charOfCode g.code = .ok g.char

namespace Text

variable {c : Codec}

/-- Every character of an alphabet is a printing one or the newline. -/
theorem charAt_plain (version : Nat) (a : Alphabet) (z : Byte) :
    (' ' ≤ a.charAt version z ∧ a.charAt version z ≤ '~') ∨ a.charAt version z = '\n' := by
  have small : ∀ char ∈ Alphabet.a0.row, (' ' ≤ char ∧ char ≤ '~') ∨ char = '\n' :=
    forall_mem_of_all (by decide)
  have capital : ∀ char ∈ Alphabet.a1.row, (' ' ≤ char ∧ char ≤ '~') ∨ char = '\n' :=
    forall_mem_of_all (by decide)
  have members : ∀ char ∈ a.rowIn version, (' ' ≤ char ∧ char ≤ '~') ∨ char = '\n' := by
    intro char member
    cases a with
    | a0 =>
        have letters : Alphabet.a0 ≠ .a2 := by decide
        exact small char (rowIn_of_ne version letters ▸ member)
    | a1 =>
        have letters : Alphabet.a1 ≠ .a2 := by decide
        exact capital char (rowIn_of_ne version letters ▸ member)
    | a2 => exact signs_plain version member
  rw [Alphabet.charAt, List.getD_eq_getElem?_getD]
  rcases found : (a.rowIn version)[z.toNat - 6]? with _ | char
  · exact .inl (by decide)
  · exact members char (List.mem_of_getElem? found)

theorem translated_space : Glyph.Translated c ⟨32, some ' '⟩ := rfl

theorem translated_newline : Glyph.Translated c ⟨13, some '\n'⟩ := rfl

/-- A character of an alphabet is what its code prints as. -/
theorem translated_letter {char : Char} (plain : (' ' ≤ char ∧ char ≤ '~') ∨ char = '\n') :
    (glyphOfChar char).Translated c := by
  rcases plain with ⟨low, high⟩ | rfl
  · rw [glyphOfChar_eq (.inl ⟨low, high⟩), glyphOf, Zscii.settled_of_writable (.inl ⟨low, high⟩),
      Zscii.ofChar, if_pos ⟨low, high⟩]
    exact Zscii.charOfCode_ascii c low high
  · exact translated_newline

/-- Translated glyphs have codes that can all be translated, into their characters. -/
theorem mapM_charOfCode {glyphs : List Glyph} (all : ∀ g ∈ glyphs, g.Translated c) :
    (glyphs.map (·.code)).mapM c.charOfCode = .ok (glyphs.map (·.char)) := by
  induction glyphs with
  | nil => rfl
  | cons g rest ih =>
      have first : c.charOfCode g.code = .ok g.char := all g List.mem_cons_self
      have others := ih fun g' member => all g' (List.mem_cons_of_mem g member)
      rw [List.map_cons, List.mapM_cons, first, others]
      rfl

/-! ## Reading -/

/-- All glyphs read so far are translated. -/
def Reader.Translated (c : Codec) (r : Reader) : Prop :=
  ∀ g ∈ r.glyphs, g.Translated c

/-- What an abbreviation is expanded to is translated. -/
def Expander.Translated (c : Codec) (expand : Expander) : Prop :=
  ∀ bank z glyphs, expand bank z = .ok glyphs → ∀ g ∈ glyphs, g.Translated c

section Reading

variable {expander : Option Expander} {r r' : Reader}

theorem Reader.Translated.start (lock : Alphabet) : (Reader.start lock).Translated c := by
  intro g member
  exact absurd member (Array.not_mem_empty g)

theorem Reader.Translated.add (all : r.Translated c) {g : Glyph} (last : g.Translated c) :
    (r.add g).Translated c := by
  intro g' member
  rcases Array.mem_push.mp member with before | rfl
  · exact all g' before
  · exact last

/-- A z-character in plain mode adds a space, a newline, a letter or nothing. -/
theorem Reader.Translated.plainStep (all : r.Translated c) {z : Byte}
    (taken : r.plainStep c expander z = .ok r') : r'.Translated c := by
  unfold Reader.plainStep at taken
  by_cases space : z = 0
  · rw [if_pos space] at taken
    cases taken
    exact all.add translated_space
  by_cases newline : z = 1 ∧ c.version = 1
  · rw [if_neg space, if_pos newline] at taken
    cases taken
    exact all.add translated_newline
  rw [if_neg space, if_neg newline] at taken
  by_cases bank : z = 1 ∨ z ≤ 3 ∧ 3 ≤ c.version
  · rw [if_pos bank] at taken
    cases expander with
    | none => cases taken
    | some expand =>
        cases taken
        exact all
  by_cases early : z ≤ 3
  · rw [if_neg bank, if_pos early] at taken
    cases taken
    exact all
  rw [if_neg bank, if_neg early] at taken
  by_cases shift : z ≤ 5
  · rw [if_pos shift] at taken
    split at taken <;> cases taken <;> exact all
  by_cases announced : z = 6 ∧ r.current = .a2
  · rw [if_neg shift, if_pos announced] at taken
    cases taken
    exact all
  · rw [if_neg shift, if_neg announced] at taken
    cases taken
    exact all.add (translated_letter (charAt_plain c.version r.current z))

/-- **One z-character** adds only glyphs that are translated, if abbreviations do. -/
theorem Reader.Translated.step (all : r.Translated c)
    (abbreviations : ∀ expand ∈ expander, expand.Translated c) {z : Byte}
    (taken : r.step c expander z = .ok r') : r'.Translated c := by
  rw [Reader.step] at taken
  split at taken
  · exact all.plainStep taken
  · cases expander with
    | none => cases taken
    | some expand =>
        obtain ⟨glyphs, expanded, taken⟩ := bind_eq_ok taken
        cases taken
        intro g member
        rw [← Array.mem_toList_iff, Array.toList_appendList] at member
        rcases List.mem_append.mp member with before | added
        · exact all g (Array.mem_toList_iff.mp before)
        · exact abbreviations expand rfl _ _ glyphs expanded g added
  · cases taken
    exact all
  · obtain ⟨char, printed, taken⟩ := bind_eq_ok taken
    cases taken
    exact all.add printed

/-- Any number of z-characters adds only glyphs that are translated. -/
theorem Reader.Translated.steps (all : r.Translated c)
    (abbreviations : ∀ expand ∈ expander, expand.Translated c) {zs : List Byte}
    (taken : r.steps c expander zs = .ok r') : r'.Translated c := by
  induction zs generalizing r with
  | nil =>
      cases taken
      exact all
  | cons z zs ih =>
      rw [Reader.steps, List.foldlM_cons] at taken
      obtain ⟨next, first, taken⟩ := bind_eq_ok taken
      exact ih (all.step abbreviations first) taken

end Reading

/-! ## Strings -/

section Strings

variable {bytes : Array Byte} {limit : Option Nat} {start : Nat} {lock after : Alphabet}
  {glyphs : List Glyph} {length : Nat}

/-- A string that is read was collected to its end, and the reader took what was collected. -/
theorem readGlyphs_ok {expander : Option Expander}
    (read : readGlyphs c expander bytes limit start lock = .ok (glyphs, length, after)) :
    (gather bytes limit start 0 #[]).complete = true ∧
      length = (gather bytes limit start 0 #[]).length ∧
      ∃ r : Reader, (Reader.start (if 3 ≤ c.version then .a0 else lock)).steps c expander
          (gather bytes limit start 0 #[]).zchars.toList = .ok r ∧
        glyphs = r.glyphs.toList ∧ after = if 3 ≤ c.version then .a0 else r.lock := by
  rw [readGlyphs] at read
  split at read
  · cases read
  · obtain ⟨r, taken, read⟩ := bind_eq_ok read
    split at read
    · rename_i complete
      cases read
      exact ⟨complete, rfl, r, taken, rfl, rfl⟩
    · cases read

/-- A string is read into glyphs that are translated, if abbreviations are. -/
theorem translated_of_readGlyphs {expander : Option Expander}
    (abbreviations : ∀ expand ∈ expander, expand.Translated c)
    (read : readGlyphs c expander bytes limit start lock = .ok (glyphs, length, after)) :
    ∀ g ∈ glyphs, g.Translated c := by
  obtain ⟨_, _, r, taken, rfl, _⟩ := readGlyphs_ok read
  intro g member
  exact (Reader.Translated.start _).steps abbreviations taken g (Array.mem_toList_iff.mp member)

/-- An abbreviation is a string without abbreviations. -/
theorem expandAbbreviation_translated (c : Codec) (m : Memory) :
    (expandAbbreviation c m).Translated c := by
  intro bank z glyphs expanded
  obtain ⟨word, _, expanded⟩ := bind_eq_ok expanded
  dsimp only at expanded
  split at expanded
  · cases expanded
  · obtain ⟨⟨_, length, after⟩, read, expanded⟩ := bind_eq_ok expanded
    cases expanded
    have none : ∀ expand ∈ (none : Option Expander), expand.Translated c := by
      intro expand member
      cases member
    exact translated_of_readGlyphs none read

/-- From version 3 on the first alphabet is locked after a string. -/
theorem after_of_readGlyphs (late : 3 ≤ c.version) {expander : Option Expander}
    (read : readGlyphs c expander bytes limit start lock = .ok (glyphs, length, after)) :
    after = .a0 := by
  obtain ⟨_, _, r, _, _, locked⟩ := readGlyphs_ok read
  exact locked.trans (if_pos late)

/-- From version 3 on the alphabet locked before a string does not matter. -/
theorem readGlyphs_congr (late : 3 ≤ c.version) (expander : Option Expander)
    (lock other : Alphabet) :
    readGlyphs c expander bytes limit start other =
      readGlyphs c expander bytes limit start lock := by
  simp only [readGlyphs, if_pos late]

end Strings

end Text

namespace Codec

open Text

/-- The text and the codes of a string are those of the glyphs that were read. -/
theorem decodeFrom_ok {c : Codec} {m : Memory} {addr : Nat} {limit : Option Nat}
    {lock after : Alphabet} {s : ZString}
    (read : c.decodeFrom m addr limit lock = .ok (s, after)) :
    ∃ glyphs length, s = spell glyphs length ∧
      readGlyphs c (some (expandAbbreviation c m)) m.bytes limit addr lock =
        .ok (glyphs, length, after) := by
  rw [decodeFrom] at read
  split at read
  · cases read
  split at read
  · rename_i glyphs length lock' glyphsRead
    cases read
    exact ⟨glyphs, length, rfl, glyphsRead⟩
  · cases read

/-- **Text and codes agree.** The text of a string that was read is what its codes print as,
one after another, each of which can be translated; those that print nothing are left out.
From version 3 on the first alphabet is locked after the string, and the same is read
whatever alphabet was locked before it. -/
theorem text_translates_codes {c : Codec} {m : Memory} {addr : Nat} {limit : Option Nat}
    {lock after : Alphabet} {s : ZString}
    (read : c.decodeFrom m addr limit lock = .ok (s, after)) :
    (∃ chars, s.codes.mapM c.charOfCode = .ok chars ∧
      s.text = String.ofList (chars.filterMap id)) ∧
    (3 ≤ c.version → after = .a0 ∧ ∀ other, c.decodeFrom m addr limit other = .ok (s, after)) := by
  have abbreviations : ∀ expand ∈ some (expandAbbreviation c m), expand.Translated c := by
    rintro expand ⟨⟩
    exact expandAbbreviation_translated c m
  obtain ⟨glyphs, length, rfl, glyphsRead⟩ := decodeFrom_ok read
  have all := translated_of_readGlyphs abbreviations glyphsRead
  refine ⟨⟨_, mapM_charOfCode all, ?_⟩, fun late => ?_⟩
  · rw [spell, List.filterMap_map]
    rfl
  · refine ⟨after_of_readGlyphs late glyphsRead, fun other => ?_⟩
    rw [← read, decodeFrom, decodeFrom, readGlyphs_congr late _ lock other]

/-- A story of version 3 with the abbreviation "the" at 66. The string at 70 has a reference
to it, a space, a letter and a zero that are written in full, and a capital. -/
def mixedStory : Memory :=
  let bytes := Array.replicate 64 0 ++
    #[0, 0x21, 0xE5, 0xAA, 0, 0, 0x04, 0x00, 0x14, 0xC4, 0x6C, 0xA6, 0x00, 0x04, 0xB4, 0xA5]
  { bytes, pristine := bytes, version := 3, staticBase := 0x40, highBase := 0x40 }

def mixedCodec : Codec :=
  { version := 3, abbreviations := 0x40, alphabetTable := 0, unicodeTable := 0 }

/-- Seven codes make six characters, whichever alphabet is locked before them. -/
theorem mixedStory_translated :
    mixedCodec.decodeFrom mixedStory 70 none .a0 =
      .ok (⟨"the äH", 10, [116, 104, 101, 32, 155, 0, 72]⟩, .a0) ∧
    (∃ chars, ([116, 104, 101, 32, 155, 0, 72] : List Word).mapM mixedCodec.charOfCode = .ok chars ∧
      "the äH" = String.ofList (chars.filterMap id)) ∧
    ∀ other, mixedCodec.decodeFrom mixedStory 70 none other =
      .ok (⟨"the äH", 10, [116, 104, 101, 32, 155, 0, 72]⟩, .a0) := by
  have read : mixedCodec.decodeFrom mixedStory 70 none .a0 =
      .ok (⟨"the äH", 10, [116, 104, 101, 32, 155, 0, 72]⟩, .a0) :=
    eq_ok_of_toOption (by decide +kernel)
  obtain ⟨translated, late⟩ := text_translates_codes read
  exact ⟨read, translated, (late (by decide)).2⟩

end Codec

end ZMachine
