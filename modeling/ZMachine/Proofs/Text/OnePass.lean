import ZMachine.Proofs.Text.Spelling

/-!
# Reading a string in one pass

A string can be read in one pass over its words. The z-characters of each word are taken as
soon as the word has been read, and what they stand for goes into two buffers, one for the
text and one for the codes. An abbreviation is read in a pass of its own, and its buffers are
put behind those of the string.

Reading as it is defined collects the z-characters first and the glyphs next, and spells the
text and the codes in the end. The two come to the same string, or to the same fault
(`decodeFrom_eq_pass`). The buffers of the pass are at every time those that the glyphs read
so far spell (`Reader.pass`): this holds of each z-character (`Reader.pass_step`), so of the
words taken so far (`passWords_eq`).
-/

set_option autoImplicit false

namespace ZMachine.Text

/-! ## The pass -/

/-- A text and the codes of its characters, each in a buffer of its own. -/
structure Buffers where
  text : String := ""
  codes : Array Word := #[]

/-- The state of a pass. -/
structure Pass where
  mode : Mode
  /-- The alphabet that is returned to. -/
  lock : Alphabet
  /-- The alphabet of the next character. -/
  current : Alphabet
  out : Buffers

/-- Add a code, and its character if it prints, and return to the locked alphabet. -/
def Pass.put (p : Pass) (code : Word) (char : Option Char) : Pass :=
  { p with
    mode := .plain
    current := p.lock
    out :=
      { text := match char with
          | some char => p.out.text.push char
          | none => p.out.text
        codes := p.out.codes.push code } }

/-- The buffers of an abbreviation, by its bank and number. -/
abbrev BufferExpander := Byte → Byte → Except Fault Buffers

/-- Take a z-character that does not complete an abbreviation or a code. -/
def Pass.plainStep (c : Codec) (expander : Option BufferExpander) (p : Pass) (z : Byte) :
    Except Fault Pass :=
  if z = 0 then .ok (p.put 32 (some ' '))
  else if z = 1 ∧ c.version = 1 then .ok (p.put 13 (some '\n'))
  else if (z = 1 ∨ z = 2 ∨ z = 3) ∧ (3 ≤ c.version ∨ z = 1) then
    if expander.isNone then .error .nestedAbbreviation else .ok { p with mode := .abbreviation z }
  else if z = 2 ∨ z = 3 then .ok { p with current := p.lock.rotate (z.toNat - 1) }
  else if (z = 4 ∨ z = 5) ∧ 3 ≤ c.version then
    .ok { p with current := if z = 4 then .a1 else .a2 }
  else if z = 4 ∨ z = 5 then
    .ok { p with lock := p.lock.rotate (z.toNat - 3), current := p.lock.rotate (z.toNat - 3) }
  else if z = 6 ∧ p.current = .a2 then .ok { p with mode := .codeHigh }
  else
    let char := p.current.charAt c.version z
    .ok (p.put (if char = '\n' then 13 else UInt16.ofNat char.toNat) (some char))

/-- Take one z-character. -/
def Pass.step (c : Codec) (expander : Option BufferExpander) (p : Pass) (z : Byte) :
    Except Fault Pass :=
  match p.mode with
  | .plain => p.plainStep c expander z
  | .abbreviation bank =>
      match expander with
      | none => .error .nestedAbbreviation
      | some expand => do
          let more ← expand bank z
          return { p with
            mode := .plain
            out := ⟨p.out.text ++ more.text, p.out.codes ++ more.codes⟩ }
  | .codeHigh => .ok { p with mode := .codeLow z }
  | .codeLow high => do
      let code := (high.toUInt16 <<< 5) ||| z.toUInt16
      return p.put code (← c.charOfCode code)

/-- Pass over the words from `start + offset` on, up to the end mark or until `limit` bytes
have been taken. Gives the number of bytes taken, too. -/
def passWords (c : Codec) (expander : Option BufferExpander) (bytes : Array Byte)
    (limit : Option Nat) (start offset : Nat) (p : Pass) : Except Fault (Pass × Nat) :=
  if limit.any (· ≤ offset) then .ok (p, offset)
  else if h : start + offset + 1 < bytes.size then
    let word := wordOfBytes bytes[start + offset] bytes[start + offset + 1]
    match (zcharsOfWord word).foldlM (Pass.step c expander) p with
    | .error e => .error e
    | .ok p =>
        if endsString word then .ok (p, offset + 2)
        else passWords c expander bytes limit start (offset + 2) p
  else .error .unterminatedString
termination_by bytes.size - (start + offset)

/-- Read the string whose words begin at a place of some bytes. -/
def readPass (c : Codec) (expander : Option BufferExpander) (bytes : Array Byte)
    (limit : Option Nat) (start : Nat) (lock : Alphabet) :
    Except Fault (ZString × Alphabet) :=
  if c.alphabetTable ≠ 0 then .error (.customAlphabet c.alphabetTable)
  else do
    let lock := if 3 ≤ c.version then .a0 else lock
    let (p, length) ← passWords c expander bytes limit start 0 ⟨.plain, lock, lock, {}⟩
    return (⟨p.out.text, length, p.out.codes.toList⟩, if 3 ≤ c.version then .a0 else p.lock)

/-- The buffers of an abbreviation. -/
def expandPass (c : Codec) (m : Memory) : BufferExpander :=
  fun bank z => do
    let entry := 32 * (bank.toNat - 1) + z.toNat
    let addr := 2 * (← m.getWord (c.abbreviations + entry * 2)).toNat
    if m.size < addr then throw (.abbreviationOutside entry)
    let (s, _) ← readPass c none m.bytes none addr .a0
    return ⟨s.text, s.codes.toArray⟩

/-! ## What the glyphs spell -/

/-- The text and the codes of some glyphs. -/
def Buffers.ofGlyphs (glyphs : List Glyph) : Buffers :=
  ⟨String.ofList (glyphs.filterMap (·.char)), (glyphs.map (·.code)).toArray⟩

theorem Buffers.ofGlyphs_append (first more : List Glyph) :
    ofGlyphs (first ++ more) =
      ⟨(ofGlyphs first).text ++ (ofGlyphs more).text,
        (ofGlyphs first).codes ++ (ofGlyphs more).codes⟩ := by
  simp [ofGlyphs]

/-- The state of a pass that has come as far as a reader. -/
def Reader.pass (r : Reader) : Pass :=
  ⟨r.mode, r.lock, r.current, .ofGlyphs r.glyphs.toList⟩

/-- An expander that gives buffers. -/
def Expander.buffers (expand : Expander) : BufferExpander :=
  fun bank z => (expand bank z).map .ofGlyphs

theorem Reader.pass_add (r : Reader) (code : Word) (char : Option Char) :
    (r.add ⟨code, char⟩).pass = r.pass.put code char := by
  cases char <;> simp [Reader.pass, Reader.add, Pass.put, Buffers.ofGlyphs]

/-! ## One z-character -/

/-- The z-characters from 1 to 3 are those up to 3 but for 0. -/
theorem le_three_iff {z : Byte} (some : z ≠ 0) : z ≤ 3 ↔ z = 1 ∨ z = 2 ∨ z = 3 := by
  simp only [ne_eq, UInt8.le_iff_toNat_le, ← UInt8.toNat_inj, UInt8.reduceToNat] at some ⊢
  omega

/-- Between 3 and 6 there are two z-characters. -/
theorem le_five_iff {z : Byte} (more : ¬ z ≤ 3) : z ≤ 5 ↔ z = 4 ∨ z = 5 := by
  simp only [UInt8.le_iff_toNat_le, ← UInt8.toNat_inj, UInt8.reduceToNat] at more ⊢
  omega

section Step

variable (c : Codec) (expander : Option Expander) (r : Reader) (z : Byte)

theorem Reader.pass_plainStep :
    r.pass.plainStep c (expander.map Expander.buffers) z =
      (r.plainStep c expander z).map Reader.pass := by
  unfold Pass.plainStep Reader.plainStep
  by_cases space : z = 0
  · rw [if_pos space, if_pos space, ← pass_add]
    rfl
  rw [if_neg space, if_neg space]
  by_cases newline : z = 1 ∧ c.version = 1
  · rw [if_pos newline, if_pos newline, ← pass_add]
    rfl
  rw [if_neg newline, if_neg newline]
  have banks : (z = 1 ∨ z = 2 ∨ z = 3) ∧ (3 ≤ c.version ∨ z = 1) ↔
      z = 1 ∨ z ≤ 3 ∧ 3 ≤ c.version := by
    rw [le_three_iff space]
    tauto
  by_cases bank : z = 1 ∨ z ≤ 3 ∧ 3 ≤ c.version
  · rw [if_pos (banks.mpr bank), if_pos bank]
    cases expander <;> rfl
  rw [if_neg (banks.not.mpr bank), if_neg bank]
  have singles : z = 2 ∨ z = 3 ↔ z ≤ 3 := by
    rw [le_three_iff space]
    tauto
  by_cases single : z ≤ 3
  · rw [if_pos (singles.mpr single), if_pos single]
    rfl
  rw [if_neg (singles.not.mpr single), if_neg single]
  by_cases shift : z ≤ 5
  · have either := (le_five_iff single).mp shift
    rw [if_pos shift]
    by_cases late : 3 ≤ c.version
    · rw [if_pos ⟨either, late⟩, if_pos late]
      rfl
    · rw [if_neg (late ·.2), if_pos either, if_neg late]
      rfl
  · have neither := (le_five_iff single).not.mp shift
    rw [if_neg (neither ·.1), if_neg neither, if_neg shift]
    by_cases escape : z = 6 ∧ r.current = .a2
    · rw [if_pos escape, if_pos (show z = 6 ∧ r.pass.current = .a2 from escape)]
      rfl
    · rw [if_neg escape, if_neg (show ¬ (z = 6 ∧ r.pass.current = .a2) from escape)]
      exact congrArg Except.ok (pass_add r _ _).symm

/-- **One z-character.** The pass does with its buffers what the reader does with its
glyphs. -/
theorem Reader.pass_step :
    r.pass.step c (expander.map Expander.buffers) z =
      (r.step c expander z).map Reader.pass := by
  rcases r with ⟨mode | bank | _ | high, lock, current, glyphs⟩
  · exact pass_plainStep c expander _ z
  · cases expander with
    | none => rfl
    | some expand =>
        simp only [Pass.step, Reader.step, pass, Option.map_some, Expander.buffers]
        rcases expand bank z with e | more
        · rfl
        · simp only [Except.map, bind, Except.bind, pure, Except.pure, pass,
            Array.toList_appendList, Buffers.ofGlyphs_append]
  · rfl
  · simp only [Pass.step, Reader.step, pass]
    rcases c.charOfCode ((high.toUInt16 <<< 5) ||| z.toUInt16) with e | char
    · rfl
    · exact congrArg Except.ok (pass_add ⟨.codeLow high, lock, current, glyphs⟩ _ char).symm

theorem Reader.pass_steps (zs : List Byte) :
    zs.foldlM (Pass.step c (expander.map Expander.buffers)) r.pass =
      (r.steps c expander zs).map Reader.pass := by
  induction zs generalizing r with
  | nil => rfl
  | cons z zs ih =>
      rw [List.foldlM_cons, pass_step]
      cases taken : r.step c expander z with
      | error e =>
          rw [steps, List.foldlM_cons, taken]
          rfl
      | ok r' =>
          rw [steps_cons taken]
          exact ih r'

end Step

/-! ## All words -/

/-- What has been collected stays in front. -/
theorem prefix_gather (bytes : Array Byte) (limit : Option Nat) (start offset : Nat)
    (found : Array Byte) :
    found.toList <+: (gather bytes limit start offset found).zchars.toList := by
  fun_induction gather bytes limit start offset found with
  | case1 => exact List.prefix_rfl
  | case2 offset found _ _ word found' last =>
      show found.toList <+: (found ++ zcharsOfWord word).toList
      rw [Array.toList_appendList]
      exact List.prefix_append _ _
  | case3 offset found _ _ word found' more ih =>
      have here : found.toList <+: (found ++ zcharsOfWord word).toList := by
        rw [Array.toList_appendList]
        exact List.prefix_append _ _
      exact here.trans ih
  | case4 => exact List.prefix_rfl

/-- A fault stops the reading, whatever follows. -/
theorem steps_error_of_front {c : Codec} {expander : Option Expander} {r : Reader} {e : Fault}
    {zs more : List Byte} (fails : r.steps c expander zs = .error e) (front : zs <+: more) :
    r.steps c expander more = .error e := by
  obtain ⟨rest, rfl⟩ := front
  rw [steps_append, fails]
  rfl

/-- The z-characters of one more word are taken from where those before it lead. -/
theorem steps_word {c : Codec} {expander : Option Expander} {first r : Reader}
    {found : Array Byte} (taken : first.steps c expander found.toList = .ok r) (word : Word) :
    first.steps c expander (found ++ zcharsOfWord word).toList =
      r.steps c expander (zcharsOfWord word) := by
  rw [Array.toList_appendList, steps_append, taken]
  rfl

/-- **The words.** From any word on, a pass that has come as far as a reader comes to what the
reader comes to with all z-characters that are collected. -/
theorem passWords_eq (c : Codec) (expander : Option Expander) (bytes : Array Byte)
    (limit : Option Nat) (start offset : Nat) (found : Array Byte) (first : Reader) :
    ∀ r, first.steps c expander found.toList = .ok r →
      passWords c (expander.map Expander.buffers) bytes limit start offset r.pass = (do
        let packed := gather bytes limit start offset found
        let r ← first.steps c expander packed.zchars.toList
        if packed.complete then return (r.pass, packed.length)
        else throw .unterminatedString) := by
  fun_induction gather bytes limit start offset found with
  | case1 offset found bounded =>
      intro r taken
      rw [passWords, if_pos bounded]
      simp only [taken]
      rfl
  | case2 offset found unbounded inside word found' last =>
      intro r taken
      have steps : first.steps c expander found'.toList = _ := steps_word taken word
      rw [passWords, if_neg unbounded, dif_pos inside]
      simp only [Reader.pass_steps, steps]
      rcases r.steps c expander (zcharsOfWord word) with e | r'
      · rfl
      · simp only [Except.map]
        rw [if_pos last]
        rfl
  | case3 offset found unbounded inside word found' more ih =>
      intro r taken
      have steps : first.steps c expander found'.toList = _ := steps_word taken word
      rw [passWords, if_neg unbounded, dif_pos inside]
      simp only [Reader.pass_steps]
      rcases next : r.steps c expander (zcharsOfWord word) with e | r'
      · rw [steps_error_of_front (steps.trans next) (prefix_gather bytes limit start _ found')]
        rfl
      · simp only [Except.map]
        rw [if_neg more]
        exact ih r' (steps.trans next)
  | case4 offset found unbounded outside =>
      intro r taken
      rw [passWords, if_neg unbounded, dif_neg outside]
      simp only [taken]
      rfl

/-! ## Whole strings -/

/-- A pass reads what is read by collecting first. -/
theorem readPass_eq (c : Codec) (expander : Option Expander) (bytes : Array Byte)
    (limit : Option Nat) (start : Nat) (lock : Alphabet) :
    readPass c (expander.map Expander.buffers) bytes limit start lock =
      (readGlyphs c expander bytes limit start lock).map
        fun (glyphs, length, lock) => (spell glyphs length, lock) := by
  rw [readPass, readGlyphs]
  by_cases custom : c.alphabetTable ≠ 0
  · rw [if_pos custom, if_pos custom]
    rfl
  rw [if_neg custom, if_neg custom]
  have words := passWords_eq c expander bytes limit start 0 #[]
    (Reader.start (if 3 ≤ c.version then .a0 else lock)) _ steps_nil
  have begun : (Reader.start (if 3 ≤ c.version then .a0 else lock)).pass =
      ⟨.plain, if 3 ≤ c.version then .a0 else lock, if 3 ≤ c.version then .a0 else lock, {}⟩ := rfl
  rw [begun] at words
  simp only [words]
  rcases Reader.steps c expander _ (gather bytes limit start 0 #[]).zchars.toList with e | r
  · rfl
  · cases (gather bytes limit start 0 #[]).complete <;> rfl

/-- An abbreviation is read alike. -/
theorem expandPass_eq (c : Codec) (m : Memory) :
    expandPass c m = (expandAbbreviation c m).buffers := by
  funext bank z
  rw [expandPass, Expander.buffers, expandAbbreviation]
  rcases m.getWord (c.abbreviations + (32 * (bank.toNat - 1) + z.toNat) * 2) with e | word
  · rfl
  · have pass := readPass_eq c none m.bytes none (2 * word.toNat) .a0
    rw [Option.map_none] at pass
    simp only [bind, Except.bind, pass]
    by_cases outside : m.size < 2 * word.toNat
    · rw [if_pos outside, if_pos outside]
      rfl
    · rw [if_neg outside, if_neg outside]
      rcases readGlyphs c none m.bytes none (2 * word.toNat) .a0 with _ | ⟨_, _, _⟩ <;> rfl

end ZMachine.Text

namespace ZMachine.Codec

open Text (expandPass readPass)

/-- **One pass.** The string at an address is the one that a single pass over its words
reads. -/
theorem decodeFrom_eq_pass (c : Codec) (m : Memory) (addr : Nat) (limit : Option Nat)
    (lock : Alphabet) :
    c.decodeFrom m addr limit lock =
      if m.size < addr then .error (.stringOutside addr)
      else
        match readPass c (some (expandPass c m)) m.bytes limit addr lock with
        | .ok read => .ok read
        | .error e => .error (.stringAt addr e) := by
  have pass := Text.readPass_eq c (some (Text.expandAbbreviation c m)) m.bytes limit addr lock
  rw [Option.map_some, ← Text.expandPass_eq] at pass
  rw [decodeFrom, pass]
  rcases Text.readGlyphs c (some (Text.expandAbbreviation c m)) m.bytes limit addr lock with
    _ | ⟨_, _, _⟩ <;> rfl

/-- The same for a string that is held outside story memory. -/
theorem decodeBytes_eq_pass (c : Codec) (m : Memory) (bytes : Array Byte) :
    c.decodeBytes m bytes =
      (readPass c (some (expandPass c m)) bytes (some bytes.size) 0 .a0).map (·.1) := by
  rw [Text.expandPass_eq, ← Option.map_some, Text.readPass_eq, decodeBytes]
  rcases Text.readGlyphs c (some (Text.expandAbbreviation c m)) bytes (some bytes.size) 0 .a0 with
    _ | ⟨_, _, _⟩ <;> rfl

end ZMachine.Codec
