import Mathlib.Data.List.Induction
import ZMachine.Proofs.Operation
import ZMachine.Proofs.Text.RoundTrip

/-!
# Reading one sequence of z-characters after another

From version 3 on there are no locks, and a shift is meant for the z-character behind
it. Then what is read of two sequences, of which the first ends with a whole item, is
what is read of the first and what is read of the second.

One item does not end a shift: a reference to an abbreviation gives the glyphs of the
abbreviation and leaves the alphabet as it is. So a sequence that ends in a shift and
references leaves the alphabet shifted, and a letter at the front of the second
sequence is read as another one. `decode_append_iff` says exactly when two sequences
can be read apart.
-/

set_option autoImplicit false

namespace ZMachine

namespace Text

/-! ## One z-character -/

/-- The code whose halves are two z-characters. -/
def codeOfHalves (high low : Byte) : Word :=
  (high.toUInt16 <<< 5) ||| low.toUInt16

/-- A z-character that begins a reference to an abbreviation from version 3 on. -/
def IsBank (z : Byte) : Prop :=
  1 ≤ z.toNat ∧ z.toNat ≤ 3

instance (z : Byte) : Decidable (IsBank z) :=
  inferInstanceAs (Decidable (1 ≤ z.toNat ∧ z.toNat ≤ 3))

/-- The letter "a" has one code in full. -/
theorem codeOfHalves_eq_a {high low : Byte} (narrow : high.toNat < 32) (narrow' : low.toNat < 32)
    (same : codeOfHalves high low = codeOfHalves 3 1) : high = 3 ∧ low = 1 := by
  have joined : (codeOfHalves high low).toNat = high.toNat * 32 + low.toNat := by
    rw [codeOfHalves, toNat_shiftLeft_or (by decide)]
    · simp
    · simp
      omega
    · simpa using narrow'
  have letter : (codeOfHalves 3 1).toNat = 97 := by decide
  rw [same, letter] at joined
  simp only [← UInt8.toNat_inj, UInt8.reduceToNat]
  omega

/-- The first letter of the first alphabet is the character of that code. -/
theorem glyph_a (version : Nat) :
    glyphOfChar (Alphabet.a0.charAt version 6) = ⟨codeOfHalves 3 1, some 'a'⟩ := by
  rw [Alphabet.charAt, rowIn_of_ne version (by decide)]
  decide

/-- What a z-character does from version 3 on: in a mode and an alphabet it leads to a
mode and an alphabet and gives glyphs. -/
inductive Takes (c : Codec) (expand : Expander) :
    Mode → Alphabet → Byte → Mode → Alphabet → List Glyph → Prop where
  | space {a : Alphabet} {z : Byte} (is : z = 0) :
      Takes c expand .plain a z .plain .a0 [⟨32, some ' '⟩]
  | bank {a : Alphabet} {z : Byte} (is : IsBank z) :
      Takes c expand .plain a z (.abbreviation z) a []
  | shift {a b : Alphabet} {z : Byte} (leads : Shift c.version z b) :
      Takes c expand .plain a z .plain b []
  | announce {z : Byte} (is : z = 6) : Takes c expand .plain .a2 z .codeHigh .a2 []
  | letter {a : Alphabet} {z : Byte} (above : 6 ≤ z.toNat) (letter : a = .a2 → z.toNat ≠ 6) :
      Takes c expand .plain a z .plain .a0 [glyphOfChar (a.charAt c.version z)]
  | abbreviation {a : Alphabet} {bank z : Byte} {glyphs : List Glyph}
      (given : expand bank z = .ok glyphs) :
      Takes c expand (.abbreviation bank) a z .plain a glyphs
  | high {a : Alphabet} (z : Byte) : Takes c expand .codeHigh a z (.codeLow z) a []
  | low {a : Alphabet} {high z : Byte} {char : Option Char}
      (printed : c.charOfCode (codeOfHalves high z) = .ok char) :
      Takes c expand (.codeLow high) a z .plain .a0 [⟨codeOfHalves high z, char⟩]

section Late

variable {c : Codec} {expand : Expander} (late : 3 ≤ c.version) {a : Alphabet}
  {found : Array Glyph}

include late

theorem shift_iff {z : Byte} {a : Alphabet} :
    Shift c.version z a ↔ z = 4 ∧ a = .a1 ∨ z = 5 ∧ a = .a2 := by
  have four : shiftUpper c.version = 4 := if_pos late
  have five : shiftSigns c.version = 5 := if_pos late
  constructor
  · intro leads
    cases leads with
    | upper => exact .inl ⟨four, rfl⟩
    | signs => exact .inr ⟨five, rfl⟩
  · rintro (⟨rfl, rfl⟩ | ⟨rfl, rfl⟩)
    · exact four ▸ .upper
    · exact five ▸ .signs

/-- What a z-character does in plain mode. -/
theorem takes_of_plainStep {z : Byte} {r : Reader}
    (given : Reader.plainStep c (some expand) ⟨.plain, .a0, a, found⟩ z = .ok r) :
    ∃ mode b glyphs, Takes c expand .plain a z mode b glyphs ∧
      r = ⟨mode, .a0, b, found ++ glyphs⟩ := by
  have modern : ¬ (z = 1 ∧ c.version = 1) := by omega
  have few : ∀ n : Byte, z ≤ n ↔ z.toNat ≤ n.toNat := fun _ => UInt8.le_iff_toNat_le
  have same : ∀ n : Byte, z = n ↔ z.toNat = n.toNat := fun _ => UInt8.toNat_inj.symm
  rw [Reader.plainStep, if_neg modern] at given
  by_cases space : z = 0
  · rw [if_pos space] at given
    cases given
    exact ⟨_, _, _, .space space, by simp [Reader.add]⟩
  by_cases bank : z = 1 ∨ z ≤ 3 ∧ 3 ≤ c.version
  · rw [if_neg space, if_pos bank] at given
    cases given
    have is : IsBank z := by
      simp only [same, few, UInt8.reduceToNat] at space bank
      rw [IsBank]
      omega
    exact ⟨_, _, _, .bank is, by simp⟩
  rw [if_neg space, if_neg bank, if_neg fun small => bank (.inr ⟨small, late⟩)] at given
  by_cases shift : z ≤ 5
  · rw [if_pos shift, if_pos late] at given
    cases given
    have which : z = 4 ∨ z = 5 := by
      simp only [same, few, UInt8.reduceToNat] at bank shift ⊢
      omega
    refine ⟨_, _, _, .shift ((shift_iff late).mpr ?_), (by simp; rfl)⟩
    rcases which with rfl | rfl
    · exact .inl ⟨rfl, rfl⟩
    · exact .inr ⟨rfl, rfl⟩
  rw [if_neg shift] at given
  by_cases announce : z = 6 ∧ a = .a2
  · obtain ⟨is, rfl⟩ := announce
    rw [if_pos ⟨is, rfl⟩] at given
    cases given
    exact ⟨_, _, _, .announce is, by simp⟩
  · rw [if_neg announce] at given
    cases given
    have above : 6 ≤ z.toNat := by
      simp only [few, UInt8.reduceToNat] at shift
      omega
    have letter : a = .a2 → z.toNat ≠ 6 :=
      fun signs six => announce ⟨UInt8.toNat_inj.mp six, signs⟩
    exact ⟨_, _, _, .letter above letter, by simp [Reader.add]⟩

/-- **One z-character.** What taking a z-character does is one of the cases of `Takes`. -/
theorem takes_of_step {mode : Mode} {z : Byte} {r : Reader}
    (given : Reader.step c (some expand) ⟨mode, .a0, a, found⟩ z = .ok r) :
    ∃ mode' b glyphs, Takes c expand mode a z mode' b glyphs ∧
      r = ⟨mode', .a0, b, found ++ glyphs⟩ := by
  cases mode with
  | plain => exact takes_of_plainStep late given
  | abbreviation bank =>
      obtain ⟨glyphs, expanded, given⟩ := bind_eq_ok given
      cases given
      exact ⟨_, _, _, .abbreviation expanded, rfl⟩
  | codeHigh =>
      cases given
      exact ⟨_, _, _, .high z, by simp⟩
  | codeLow high =>
      obtain ⟨char, printed, given⟩ := bind_eq_ok given
      cases given
      exact ⟨_, _, _, .low printed, by simp [Reader.add, codeOfHalves]⟩

/-- What a case of `Takes` says is done. -/
theorem step_of_takes {mode mode' : Mode} {z : Byte} {b : Alphabet} {glyphs : List Glyph}
    (takes : Takes c expand mode a z mode' b glyphs) :
    Reader.step c (some expand) ⟨mode, .a0, a, found⟩ z =
      .ok ⟨mode', .a0, b, found ++ glyphs⟩ := by
  have modern : c.version ≠ 1 := by omega
  cases takes with
  | space is =>
      subst is
      exact congrArg Except.ok (by simp [Reader.add])
  | bank is =>
      have which : z = 1 ∨ z = 2 ∨ z = 3 := by
        rw [IsBank] at is
        simp only [← UInt8.toNat_inj, UInt8.reduceToNat]
        omega
      rw [step_plain rfl]
      rcases which with rfl | rfl | rfl <;> simp [Reader.plainStep, late, modern]
  | shift leads =>
      rw [step_shift rfl rfl leads]
      simp
  | announce is =>
      subst is
      rw [step_announce rfl rfl]
      simp
  | letter above letter =>
      rw [step_letter rfl above letter]
      simp [Reader.add]
  | abbreviation given => simp [Reader.step, given]
  | high z => simp [Reader.step]
  | low printed =>
      rw [codeOfHalves] at printed
      simp [Reader.step, printed, codeOfHalves, Reader.add]

end Late

/-! ## Sequences -/

/-- What z-characters in a row do from version 3 on. -/
inductive Reads (c : Codec) (expand : Expander) :
    Mode → Alphabet → List Byte → Mode → Alphabet → List Glyph → Prop where
  | nil {mode : Mode} {a : Alphabet} : Reads c expand mode a [] mode a []
  | cons {mode₁ mode₂ mode₃ : Mode} {a₁ a₂ a₃ : Alphabet} {z : Byte} {zs : List Byte}
      {gs hs : List Glyph} (first : Takes c expand mode₁ a₁ z mode₂ a₂ gs)
      (rest : Reads c expand mode₂ a₂ zs mode₃ a₃ hs) :
      Reads c expand mode₁ a₁ (z :: zs) mode₃ a₃ (gs ++ hs)

/-- References to abbreviations, one after another. -/
inductive References : List Byte → Prop where
  | nil : References []
  | cons {bank : Byte} (n : Byte) {rest : List Byte} (is : IsBank bank)
      (more : References rest) : References (bank :: n :: rest)

theorem References.concat {refs : List Byte} (all : References refs) {bank : Byte}
    (is : IsBank bank) (n : Byte) : References (refs ++ [bank, n]) := by
  induction all with
  | nil => exact .cons n is .nil
  | cons k is' _ ih => exact .cons k is' ih

/-- The z-characters end in a shift with only references behind it, and what is begun
of another one. -/
def ShiftLeft (c : Codec) (expand : Expander) (xs : List Byte) (a : Alphabet)
    (begun : List Byte) : Prop :=
  ∃ front shift refs b glyphs, xs = front ++ shift :: (refs ++ begun) ∧
    Reads c expand .plain .a0 front .plain b glyphs ∧ Shift c.version shift a ∧ References refs

/-- What is left behind the references at the front. -/
def afterReferences : List Byte → List Byte
  | bank :: n :: rest => if IsBank bank then afterReferences rest else bank :: n :: rest
  | zs => zs

/-- What is left begins with no whole reference. -/
theorem afterReferences_parts (ys : List Byte) :
    ∃ refs, ys = refs ++ afterReferences ys ∧ References refs ∧
      ∀ z rest, afterReferences ys = z :: rest → IsBank z → rest = [] := by
  fun_induction afterReferences ys with
  | case1 bank n rest is ih =>
      obtain ⟨refs, parts, all, alone⟩ := ih
      exact ⟨bank :: n :: refs, congrArg (bank :: n :: ·) parts, .cons n is all, alone⟩
  | case2 bank n rest other =>
      refine ⟨[], rfl, .nil, fun z more parts is => ?_⟩
      cases parts
      exact absurd is other
  | case3 zs short =>
      refine ⟨[], rfl, .nil, fun z more parts _ => ?_⟩
      cases more with
      | nil => rfl
      | cons n more => exact absurd parts (short z n more)

/-- What is read of z-characters is the same in an alphabet as in the first: no letter
stands behind the references at their front. The one exception is an announcement in
the signs whose code is that of the letter it stands for in the first alphabet, while
the two halves are there a reference to an abbreviation without glyphs. -/
def Unmoved (expand : Expander) (a : Alphabet) (ys : List Byte) : Prop :=
  (∀ z ∈ (afterReferences ys).head?, z.toNat < 6) ∨
    a = .a2 ∧ ∃ more, afterReferences ys = 6 :: 3 :: 1 :: more ∧ expand 3 1 = .ok []

section Sequences

variable {c : Codec} {expand : Expander} {mode mode₁ mode₂ mode₃ : Mode}
  {a a₁ a₂ a₃ : Alphabet} {xs ys zs : List Byte} {gs hs ks : List Glyph}

theorem Reads.append (first : Reads c expand mode₁ a₁ xs mode₂ a₂ gs)
    (second : Reads c expand mode₂ a₂ ys mode₃ a₃ hs) :
    Reads c expand mode₁ a₁ (xs ++ ys) mode₃ a₃ (gs ++ hs) := by
  induction first with
  | nil => exact second
  | cons first _ ih =>
      rw [List.append_assoc]
      exact .cons first (ih second)

theorem Reads.split (read : Reads c expand mode₁ a₁ (xs ++ ys) mode₃ a₃ ks) :
    ∃ mode₂ a₂ gs hs, Reads c expand mode₁ a₁ xs mode₂ a₂ gs ∧
      Reads c expand mode₂ a₂ ys mode₃ a₃ hs ∧ ks = gs ++ hs := by
  induction xs generalizing mode₁ a₁ ks with
  | nil => exact ⟨mode₁, a₁, [], ks, .nil, read, rfl⟩
  | cons x xs ih =>
      cases read with
      | @cons _ _ _ _ _ _ _ _ gs _ first rest =>
          obtain ⟨mode₂, a₂, gs', hs, before, behind, rfl⟩ := ih rest
          exact ⟨mode₂, a₂, gs ++ gs', hs, .cons first before, behind,
            (List.append_assoc gs gs' hs).symm⟩

theorem Reads.single {z : Byte} (read : Reads c expand mode a [z] mode₁ a₁ gs) :
    Takes c expand mode a z mode₁ a₁ gs := by
  cases read with
  | cons first rest =>
      cases rest
      rwa [List.append_nil]

/-- What is read with a shifted alphabet left ends in the shift with only references
behind it, of which the last may be begun. -/
theorem Reads.shiftLeft (read : Reads c expand .plain .a0 xs mode a gs) :
    (mode = .plain → a ≠ .a0 → ShiftLeft c expand xs a []) ∧
    ∀ bank, mode = .abbreviation bank →
      IsBank bank ∧ (a ≠ .a0 → ShiftLeft c expand xs a [bank]) := by
  induction xs using List.reverseRecOn generalizing mode a gs with
  | nil =>
      cases read
      exact ⟨fun _ shifted => absurd rfl shifted, nofun⟩
  | append_singleton front z ih =>
      obtain ⟨_, _, _, _, before, last, rfl⟩ := read.split
      cases last.single with
      | space _ => exact ⟨fun _ shifted => absurd rfl shifted, nofun⟩
      | letter _ _ => exact ⟨fun _ shifted => absurd rfl shifted, nofun⟩
      | low _ => exact ⟨fun _ shifted => absurd rfl shifted, nofun⟩
      | announce _ => exact ⟨nofun, nofun⟩
      | high _ => exact ⟨nofun, nofun⟩
      | shift leads => exact ⟨fun _ _ => ⟨front, z, [], _, _, rfl, before, leads, .nil⟩, nofun⟩
      | bank is =>
          refine ⟨nofun, fun bank same => ?_⟩
          cases same
          refine ⟨is, fun shifted => ?_⟩
          obtain ⟨front', shift, refs, b, hs, rfl, parts⟩ := (ih before).1 rfl shifted
          exact ⟨front', shift, refs, b, hs, by simp, parts⟩
      | abbreviation _ =>
          refine ⟨fun _ shifted => ?_, nofun⟩
          obtain ⟨is, left⟩ := (ih before).2 _ rfl
          obtain ⟨front', shift, refs, b, hs, rfl, read, leads, all⟩ := left shifted
          exact ⟨front', shift, _, b, hs, by simp, read, leads, all.concat is z⟩

/-- A z-character that is no letter is read in any alphabet as in the first. -/
theorem reads_of_small {z : Byte} (small : z.toNat < 6) (alone : IsBank z → zs = [])
    (read : Reads c expand .plain .a0 (z :: zs) mode a₁ gs) :
    ∃ mode' b, Reads c expand .plain a (z :: zs) mode' b gs := by
  cases read with
  | cons first rest =>
      cases first with
      | space is => exact ⟨_, _, .cons (.space is) rest⟩
      | shift leads => exact ⟨_, _, .cons (.shift leads) rest⟩
      | letter above _ => omega
      | bank is =>
          obtain rfl := alone is
          cases rest
          exact ⟨_, _, .cons (.bank is) .nil⟩

/-- Behind its announcement a code is read, if its two halves are there. -/
theorem Reads.code (read : Reads c expand .codeHigh a zs mode a₁ ks) :
    ks = [] ∨ ∃ high low char more hs, zs = high :: low :: more ∧
      Reads c expand .plain .a0 more mode a₁ hs ∧ ks = ⟨codeOfHalves high low, char⟩ :: hs := by
  cases read with
  | nil => exact .inl rfl
  | cons first rest =>
      cases first with
      | high high =>
          cases rest with
          | nil => exact .inl rfl
          | cons second rest =>
              cases second with
              | low _ => exact .inr ⟨_, _, _, _, _, rfl, rest, rfl⟩

theorem append_lists (found : Array Glyph) (gs hs : List Glyph) :
    found ++ gs ++ hs = found ++ (gs ++ hs) :=
  Array.ext' (by simp)

section Late

variable (late : 3 ≤ c.version) {found : Array Glyph}

include late

theorem reads_of_steps {r : Reader}
    (given : Reader.steps c (some expand) ⟨mode, .a0, a, found⟩ zs = .ok r) :
    ∃ mode' b glyphs, Reads c expand mode a zs mode' b glyphs ∧
      r = ⟨mode', .a0, b, found ++ glyphs⟩ := by
  induction zs generalizing mode a found with
  | nil =>
      cases given
      exact ⟨mode, a, [], .nil, by simp⟩
  | cons z zs ih =>
      rw [Reader.steps, List.foldlM_cons] at given
      obtain ⟨_, first, given⟩ := bind_eq_ok given
      obtain ⟨mode₂, a₂, gs, takes, rfl⟩ := takes_of_step late first
      obtain ⟨mode₃, a₃, hs, read, rfl⟩ := ih given
      exact ⟨mode₃, a₃, gs ++ hs, .cons takes read, by rw [append_lists]⟩

theorem steps_of_reads (read : Reads c expand mode a zs mode₁ a₁ gs) :
    Reader.steps c (some expand) ⟨mode, .a0, a, found⟩ zs = .ok ⟨mode₁, .a0, a₁, found ++ gs⟩ := by
  induction read generalizing found with
  | nil => simp [steps_nil]
  | cons first _ ih => rw [steps_cons (step_of_takes late first), ih, append_lists]

/-- Reading leads to one end and gives one list of glyphs. -/
theorem Reads.unique (read : Reads c expand mode a zs mode₁ a₁ gs)
    (read' : Reads c expand mode a zs mode₂ a₂ hs) : mode₁ = mode₂ ∧ a₁ = a₂ ∧ gs = hs := by
  have steps : Reader.steps c (some expand) ⟨mode, .a0, a, #[]⟩ zs = .ok _ :=
    steps_of_reads late read
  have same := steps.symm.trans (steps_of_reads late read')
  simpa using same

theorem Takes.unique {z : Byte} (takes : Takes c expand mode a z mode₁ a₁ gs)
    (takes' : Takes c expand mode a z mode₂ a₂ hs) : mode₁ = mode₂ ∧ a₁ = a₂ ∧ gs = hs := by
  have step : Reader.step c (some expand) ⟨mode, .a0, a, #[]⟩ z = .ok _ :=
    step_of_takes late takes
  have same := step.symm.trans (step_of_takes late takes')
  simpa using same

/-- What a z-character is known to do it does. -/
theorem Reads.after {z : Byte} (read : Reads c expand mode a (z :: zs) mode₂ a₂ ks)
    (first : Takes c expand mode a z mode₁ a₁ gs) :
    ∃ hs, Reads c expand mode₁ a₁ zs mode₂ a₂ hs ∧ ks = gs ++ hs := by
  cases read with
  | cons first' rest =>
      obtain ⟨rfl, rfl, rfl⟩ := first'.unique late first
      exact ⟨_, rest, rfl⟩

/-- A reference gives the glyphs of its abbreviation and keeps the alphabet. -/
theorem reads_reference {bank n : Byte} (is : IsBank bank) :
    Reads c expand .plain a (bank :: n :: zs) mode a₁ ks ↔
      ∃ gs hs, expand bank n = .ok gs ∧ Reads c expand .plain a zs mode a₁ hs ∧ ks = gs ++ hs := by
  constructor
  · intro read
    obtain ⟨_, behind, rfl⟩ := read.after late (.bank is)
    cases behind with
    | cons second rest =>
        cases second with
        | abbreviation given => exact ⟨_, _, given, rest, rfl⟩
  · rintro ⟨gs, hs, given, read, rfl⟩
    change Reads c expand .plain a _ mode a₁ ([] ++ (gs ++ hs))
    exact .cons (.bank is) (.cons (.abbreviation given) read)

/-- References keep mode and alphabet. -/
theorem References.keeps {refs : List Byte} (all : References refs)
    (read : Reads c expand .plain a refs mode a₁ gs) : mode = .plain ∧ a₁ = a := by
  induction all generalizing gs with
  | nil =>
      cases read
      exact ⟨rfl, rfl⟩
  | cons n is _ ih =>
      obtain ⟨_, _, _, rest, _⟩ := (reads_reference late is).mp read
      exact ih rest

/-- A shift that was left is the alphabet in which reading goes on. -/
theorem ShiftLeft.current (left : ShiftLeft c expand xs a [])
    (read : Reads c expand .plain .a0 xs mode a₁ gs) : mode = .plain ∧ a₁ = a := by
  obtain ⟨front, shift, refs, b, hs, rfl, before, leads, all⟩ := left
  rw [List.append_nil] at read
  obtain ⟨_, _, _, _, before', behind, _⟩ := read.split
  obtain ⟨rfl, rfl, _⟩ := before'.unique late before
  obtain ⟨_, rest, _⟩ := behind.after late (.shift leads)
  exact all.keeps late rest

/-! ### The second sequence -/

/-- No letter stands at the same place of the first alphabet and of another one. -/
theorem letter_ne {z : Byte} (above : 6 ≤ z.toNat) (narrow : z.toNat < 32) (shifted : a ≠ .a0)
    (letter : a = .a2 → z.toNat ≠ 6) :
    (glyphOfChar (a.charAt c.version z)).code ≠
      (glyphOfChar (Alphabet.a0.charAt c.version z)).code := by
  have modern : c.version ≠ 1 := by omega
  have row : ∀ b : Alphabet, b.rowIn c.version = b.row := fun b => if_neg fun old => modern old.2
  obtain ⟨n, place⟩ : ∃ n, z.toNat - 6 = n := ⟨_, rfl⟩
  have small : n < 26 := by omega
  rw [Alphabet.charAt, Alphabet.charAt, row, row, place]
  cases a with
  | a0 => exact absurd rfl shifted
  | a1 =>
      clear place
      revert n
      decide
  | a2 =>
      have later : n ≠ 0 := by
        have := letter rfl
        omega
      clear place
      revert n
      decide

/-- References are read in any alphabet as in the first, and what follows them is read
in the alphabet that they were read in. -/
theorem References.reads_append {refs : List Byte} (all : References refs) :
    Reads c expand .plain a (refs ++ ys) mode a₁ ks ↔
      ∃ gs hs, Reads c expand .plain .a0 refs .plain .a0 gs ∧
        Reads c expand .plain a ys mode a₁ hs ∧ ks = gs ++ hs := by
  induction all generalizing ks with
  | nil =>
      constructor
      · intro read
        exact ⟨[], ks, .nil, read, rfl⟩
      · rintro ⟨gs, hs, none, read, rfl⟩
        cases none
        exact read
  | cons n is _ ih =>
      constructor
      · intro read
        obtain ⟨gs, _, given, rest, rfl⟩ := (reads_reference late is).mp read
        obtain ⟨gs', hs, before, behind, rfl⟩ := ih.mp rest
        exact ⟨gs ++ gs', hs, (reads_reference late is).mpr ⟨gs, gs', given, before, rfl⟩, behind,
          (List.append_assoc gs gs' hs).symm⟩
      · rintro ⟨_, hs, before, behind, rfl⟩
        obtain ⟨gs, gs', given, rest, rfl⟩ := (reads_reference late is).mp before
        exact (reads_reference late is).mpr ⟨gs, gs' ++ hs, given, ih.mpr ⟨gs', hs, rest, behind, rfl⟩,
          List.append_assoc gs gs' hs⟩

/-- The code of a letter is read as the letter and a reference without glyphs are. -/
theorem reads_code_a (empty : expand 3 1 = .ok [])
    (read : Reads c expand .plain .a0 (6 :: 3 :: 1 :: zs) mode a₁ gs) :
    Reads c expand .plain .a2 (6 :: 3 :: 1 :: zs) mode a₁ gs := by
  have letter : Takes c expand .plain .a0 6 .plain .a0 [⟨codeOfHalves 3 1, some 'a'⟩] :=
    glyph_a c.version ▸ .letter (Nat.le_refl 6) nofun
  have printed : c.charOfCode (codeOfHalves 3 1) = .ok (some 'a') := rfl
  obtain ⟨_, behind, rfl⟩ := read.after late letter
  obtain ⟨_, hs, given, rest, rfl⟩ := (reads_reference late (by decide)).mp behind
  cases empty.symm.trans given
  have code : Reads c expand .plain .a2 _ mode a₁
      ([] ++ ([] ++ ([⟨codeOfHalves 3 1, some 'a'⟩] ++ hs))) :=
    .cons (.announce rfl) (.cons (.high 3) (.cons (.low printed) rest))
  exact code

/-- Where nothing is moved, the same glyphs are read. -/
theorem Unmoved.reads (unmoved : Unmoved expand a ys)
    (read : Reads c expand .plain .a0 ys mode a₁ gs) :
    ∃ mode' b, Reads c expand .plain a ys mode' b gs := by
  obtain ⟨refs, parts, all, alone⟩ := afterReferences_parts ys
  rw [Unmoved] at unmoved
  rw [parts] at read ⊢
  generalize afterReferences ys = rest at alone unmoved read
  obtain ⟨gs, hs, before, behind, rfl⟩ := (all.reads_append late).mp read
  obtain ⟨mode', b, behind'⟩ : ∃ mode' b, Reads c expand .plain a rest mode' b hs := by
    rcases unmoved with small | ⟨rfl, more, rfl, empty⟩
    · cases rest with
      | nil =>
          cases behind
          exact ⟨_, _, .nil⟩
      | cons z rest => exact reads_of_small (small z rfl) (alone z rest rfl) behind
    · exact ⟨_, _, reads_code_a late empty behind⟩
  exact ⟨mode', b, (all.reads_append late).mpr ⟨gs, hs, before, behind', rfl⟩⟩

/-- A letter is read as another one in another alphabet, unless it announces the code
of that letter. -/
theorem code_a_of_reads {z : Byte} (narrow : Narrow (z :: zs)) (above : 6 ≤ z.toNat)
    (shifted : a ≠ .a0) (read : Reads c expand .plain .a0 (z :: zs) mode a₁ gs)
    (read' : Reads c expand .plain a (z :: zs) mode₂ a₂ ks)
    (same : ks.map (·.code) = gs.map (·.code)) :
    a = .a2 ∧ ∃ more, z :: zs = 6 :: 3 :: 1 :: more ∧ expand 3 1 = .ok [] := by
  obtain ⟨hs, behind, rfl⟩ := read.after late (.letter above nofun)
  by_cases announced : a = .a2 ∧ z = 6
  · obtain ⟨rfl, rfl⟩ := announced
    obtain ⟨ks, behind', rfl⟩ := read'.after late (.announce rfl)
    rcases behind'.code with rfl | ⟨high, low, char, more, ks, rfl, rest', rfl⟩
    · cases same
    · rw [glyph_a] at same
      obtain ⟨code, tails⟩ := List.cons.inj same
      obtain ⟨rfl, rfl⟩ := codeOfHalves_eq_a (narrow high (by simp)) (narrow low (by simp)) code
      obtain ⟨gs, hs, given, rest, rfl⟩ := (reads_reference late (by decide)).mp behind
      obtain ⟨_, _, rfl⟩ := rest.unique late rest'
      have none : gs = [] := by
        have lengths : (hs.map (·.code)).length = ((gs ++ hs).map (·.code)).length :=
          congrArg List.length tails
        simp only [List.length_map, List.length_append] at lengths
        exact List.length_eq_zero_iff.mp (by omega)
      exact ⟨rfl, more, rfl, none ▸ given⟩
  · have letter : a = .a2 → z.toNat ≠ 6 :=
      fun signs six => announced ⟨signs, UInt8.toNat_inj.mp six⟩
    obtain ⟨ks, behind', rfl⟩ := read'.after late (.letter above letter)
    have other := letter_ne late above (narrow z List.mem_cons_self) shifted letter
    exact absurd (List.cons.inj same).1 other

/-- Where a letter is moved, other codes are read. -/
theorem unmoved_of_reads (narrow : Narrow ys) (shifted : a ≠ .a0)
    (read : Reads c expand .plain .a0 ys mode a₁ gs)
    (read' : Reads c expand .plain a ys mode₂ a₂ ks)
    (same : ks.map (·.code) = gs.map (·.code)) : Unmoved expand a ys := by
  obtain ⟨refs, parts, all, alone⟩ := afterReferences_parts ys
  rw [parts] at read read' narrow
  rw [Unmoved]
  generalize afterReferences ys = rest at alone read read' narrow
  obtain ⟨gs, hs, before, behind, rfl⟩ := (all.reads_append late).mp read
  obtain ⟨gs', ks, before', behind', rfl⟩ := (all.reads_append late).mp read'
  obtain ⟨_, _, rfl⟩ := before.unique late before'
  rw [List.map_append, List.map_append] at same
  replace same := List.append_cancel_left same
  cases rest with
  | nil => exact .inl nofun
  | cons z rest =>
      by_cases small : z.toNat < 6
      · refine .inl fun y is => ?_
        cases is
        exact small
      · have narrow' : Narrow (z :: rest) := fun y member => narrow y (by simp [member])
        exact .inr (code_a_of_reads late narrow' (Nat.not_lt.mp small) shifted behind behind' same)

end Late

end Sequences

end Text

/-! ## Two sequences -/

namespace Codec

open Text

variable {c : Codec} {m : Memory} {xs ys zs : List Byte}

/-- The string that z-characters are read as. -/
def decodeZchars (c : Codec) (m : Memory) (zs : List Byte) : Except Fault ZString := do
  let r ← (Reader.start .a0).steps c (some (expandAbbreviation c m)) zs
  return spell r.glyphs.toList (2 * (zs.length / 3))

/-- The z-characters can be read, and no reference or code is begun at their end. -/
def ReadsWhole (c : Codec) (m : Memory) (zs : List Byte) : Prop :=
  ∃ r, (Reader.start .a0).steps c (some (expandAbbreviation c m)) zs = .ok r ∧ r.mode = .plain

/-- The z-characters end in a shift to an alphabet, or in such a shift and references
behind it. -/
def LeavesShift (c : Codec) (m : Memory) (zs : List Byte) (a : Alphabet) : Prop :=
  ∃ front shift refs, zs = front ++ shift :: refs ∧ c.ReadsWhole m front ∧
    Shift c.version shift a ∧ References refs

section Late

variable (late : 3 ≤ c.version)

include late

theorem decodeZchars_eq_ok {s : ZString} :
    c.decodeZchars m zs = .ok s ↔ ∃ mode a gs,
      Reads c (expandAbbreviation c m) .plain .a0 zs mode a gs ∧
        s = spell gs (2 * (zs.length / 3)) := by
  constructor
  · intro given
    obtain ⟨_, read, given⟩ := bind_eq_ok given
    obtain ⟨mode, a, gs, reads, rfl⟩ := reads_of_steps late read
    cases given
    exact ⟨mode, a, gs, reads, by simp⟩
  · rintro ⟨mode, a, gs, reads, rfl⟩
    rw [decodeZchars, Reader.start, steps_of_reads late reads]
    simp

theorem readsWhole_iff :
    c.ReadsWhole m zs ↔ ∃ a gs, Reads c (expandAbbreviation c m) .plain .a0 zs .plain a gs := by
  constructor
  · rintro ⟨_, read, plain⟩
    obtain ⟨mode, a, gs, reads, rfl⟩ := reads_of_steps late read
    obtain rfl : mode = .plain := plain
    exact ⟨a, gs, reads⟩
  · rintro ⟨a, gs, reads⟩
    exact ⟨_, steps_of_reads late reads, rfl⟩

theorem leavesShift_iff {a : Alphabet} :
    c.LeavesShift m zs a ↔ ShiftLeft c (expandAbbreviation c m) zs a [] := by
  constructor
  · rintro ⟨front, shift, refs, parts, whole, leads, all⟩
    obtain ⟨b, gs, read⟩ := (readsWhole_iff late).mp whole
    exact ⟨front, shift, refs, b, gs, by rw [parts, List.append_nil], read, leads, all⟩
  · rintro ⟨front, shift, refs, b, gs, parts, read, leads, all⟩
    exact ⟨front, shift, refs, by rw [parts, List.append_nil], (readsWhole_iff late).mpr ⟨b, gs, read⟩,
      leads, all⟩

/-- The shift that z-characters leave is the alphabet in which reading goes on. -/
theorem leavesShift_iff_of_reads {a b : Alphabet} {gs : List Glyph}
    (read : Reads c (expandAbbreviation c m) .plain .a0 zs .plain a gs) :
    c.LeavesShift m zs b ↔ a = b ∧ b ≠ .a0 := by
  rw [leavesShift_iff late]
  constructor
  · intro left
    refine ⟨(left.current late read).2, ?_⟩
    obtain ⟨_, _, _, _, _, _, _, leads, _⟩ := left
    cases leads <;> decide
  · rintro ⟨rfl, shifted⟩
    exact read.shiftLeft.1 rfl shifted

omit late in
/-- Packed words are read as their z-characters. -/
theorem decodeBytes_eq_decodeZchars (standard : c.alphabetTable = 0) (narrow : Narrow zs)
    (whole : 3 ∣ zs.length) :
    c.decodeBytes m (bytesOfWords (packWords zs)).toArray = c.decodeZchars m zs := by
  obtain ⟨count, length⟩ := whole
  rw [decodeBytes_packed standard m narrow length, decodeZchars, length,
    Nat.mul_div_cancel_left count (by decide)]
  cases (Reader.start .a0).steps c (some (expandAbbreviation c m)) zs <;> rfl

/-- **Reading apart.** Let z-characters of a version from 3 on end with a whole item. What
is read of them and of others behind them is what is read of the two apart, exactly if
no letter of the second is moved by a shift that the first leave. Where z-characters
fill whole words, their string is the one that the packed words are read as. -/
theorem decode_append_iff (standard : c.alphabetTable = 0)
    (narrow : Narrow ys) (whole : c.ReadsWhole m xs) {s t : ZString}
    (read : c.decodeZchars m xs = .ok s) (read' : c.decodeZchars m ys = .ok t) :
    ((∃ u, c.decodeZchars m (xs ++ ys) = .ok u ∧ u.text = s.text ++ t.text ∧
        u.codes = s.codes ++ t.codes) ↔
      ∀ a, c.LeavesShift m xs a → Unmoved (expandAbbreviation c m) a ys) ∧
    ∀ zs, Narrow zs → 3 ∣ zs.length →
      c.decodeBytes m (bytesOfWords (packWords zs)).toArray = c.decodeZchars m zs := by
  refine ⟨?_, fun zs narrow whole => decodeBytes_eq_decodeZchars standard narrow whole⟩
  obtain ⟨a, gs, first⟩ := (readsWhole_iff late).mp whole
  obtain ⟨_, _, _, first', rfl⟩ := (decodeZchars_eq_ok late).mp read
  obtain ⟨_, _, rfl⟩ := first.unique late first'
  obtain ⟨mode, b, hs, second, rfl⟩ := (decodeZchars_eq_ok late).mp read'
  constructor
  · rintro ⟨u, joined, _, codes⟩ a' left
    obtain ⟨rfl, shifted⟩ := (leavesShift_iff_of_reads late first).mp left
    obtain ⟨_, _, _, all, rfl⟩ := (decodeZchars_eq_ok late).mp joined
    obtain ⟨_, _, gs', ks, before, behind, rfl⟩ := all.split
    obtain ⟨rfl, rfl, rfl⟩ := first.unique late before
    refine unmoved_of_reads late narrow shifted second behind ?_
    simp only [spell, List.map_append] at codes
    exact List.append_cancel_left codes
  · intro unmoved
    obtain ⟨mode', b', behind⟩ : ∃ mode' b', Reads c (expandAbbreviation c m) .plain a ys mode' b' hs := by
      by_cases shifted : a = .a0
      · exact ⟨mode, b, shifted ▸ second⟩
      · exact (unmoved a ((leavesShift_iff_of_reads late first).mpr ⟨rfl, shifted⟩)).reads late second
    refine ⟨_, (decodeZchars_eq_ok late).mpr ⟨mode', b', _, first.append behind, rfl⟩, ?_, ?_⟩
    · simp [spell]
    · simp [spell]

end Late

/-- A story of version 3 whose first abbreviation is "the". -/
def theBytes : Array Byte :=
  #[3, 0, 0, 0, 0, 0x40, 0, 0x40, 0, 0, 0, 0, 0, 0, 0, 0x40, 0, 0, 0, 0, 0, 0, 0, 0, 0, 0x40] ++
    Array.replicate 38 0 ++ #[0, 0x21, 0xE5, 0xAA, 0, 0]

def theStory : Memory :=
  { bytes := theBytes, pristine := theBytes, version := 3, staticBase := 0x40, highBase := 0x40 }

def theCodec : Codec :=
  { version := 3, abbreviations := 0x40, alphabetTable := 0, unicodeTable := 0 }

theorem theCodec_readsWhole : theCodec.ReadsWhole theStory [4, 1, 0] :=
  ⟨⟨.plain, .a0, .a1, #[⟨116, some 't'⟩, ⟨104, some 'h'⟩, ⟨101, some 'e'⟩]⟩,
    eq_ok_of_toOption (by decide +kernel), rfl⟩

/-- A space behind a shift and a reference is read as a space, and what follows it as if
nothing stood before. -/
theorem the_reads_apart :
    3 ≤ theCodec.version ∧ theCodec.alphabetTable = 0 ∧ Narrow [0, 8, 26] ∧
    theCodec.ReadsWhole theStory [4, 1, 0] ∧
    theCodec.decodeZchars theStory [4, 1, 0] = .ok ⟨"the", 2, [116, 104, 101]⟩ ∧
    theCodec.decodeZchars theStory [0, 8, 26] = .ok ⟨" cu", 2, [32, 99, 117]⟩ ∧
    ∃ u, theCodec.decodeZchars theStory ([4, 1, 0] ++ [0, 8, 26]) = .ok u ∧
      u.text = "the" ++ " cu" ∧ u.codes = [116, 104, 101] ++ [32, 99, 117] := by
  have late : 3 ≤ theCodec.version := by decide
  have narrow : Narrow [0, 8, 26] := by simp [Narrow]
  have the : theCodec.decodeZchars theStory [4, 1, 0] = .ok ⟨"the", 2, [116, 104, 101]⟩ :=
    eq_ok_of_toOption (by decide +kernel)
  have space : theCodec.decodeZchars theStory [0, 8, 26] = .ok ⟨" cu", 2, [32, 99, 117]⟩ :=
    eq_ok_of_toOption (by decide +kernel)
  refine ⟨late, rfl, narrow, theCodec_readsWhole, the, space, ?_⟩
  refine (decode_append_iff late rfl narrow theCodec_readsWhole the space).1.mpr ?_
  have front : afterReferences [0, 8, 26] = [0, 8, 26] := rfl
  intro a _
  refine .inl fun z first => ?_
  rw [front] at first
  obtain rfl : 0 = z := Option.some.inj first
  decide

/-- The shift in front of the reference to "the" reaches the letter behind it: read
apart, "the" and "a" are small, and read together they are "theA". -/
theorem shift_outlives_reference :
    (Memory.load theBytes = .ok theStory ∧ Codec.read theStory = .ok theCodec ∧
      3 ≤ theCodec.version ∧ theCodec.alphabetTable = 0 ∧
      theCodec.ReadsWhole theStory [4, 1, 0]) ∧
    theCodec.decodeBytes theStory (bytesOfWords (packWords [4, 1, 0])).toArray =
      .ok ⟨"the", 2, [116, 104, 101]⟩ ∧
    theCodec.decodeBytes theStory (bytesOfWords (packWords [6, 5, 5])).toArray =
      .ok ⟨"a", 2, [97]⟩ ∧
    theCodec.decodeBytes theStory (bytesOfWords (packWords ([4, 1, 0] ++ [6, 5, 5]))).toArray =
      .ok ⟨"theA", 4, [116, 104, 101, 65]⟩ := by
  refine ⟨⟨eq_ok_of_toOption ?_, eq_ok_of_toOption ?_, by decide, rfl, theCodec_readsWhole⟩,
    eq_ok_of_toOption ?_, eq_ok_of_toOption ?_, eq_ok_of_toOption ?_⟩ <;> decide +kernel

end Codec

end ZMachine
