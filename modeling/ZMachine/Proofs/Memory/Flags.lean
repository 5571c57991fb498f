import ZMachine.Proofs.Memory.Writes

/-!
# Flags of the header

A flag is one bit of memory. Asking for it gives that bit, and setting it changes that
bit and no other (`HasFlag.flag_eq`, `HasFlag.setFlag_agrees`).

What the interpreter advertises are flags and fields of its own. In every version that a
story can have, advertising succeeds, leaves the transcript selected or not as the
settings say, and leaves the flag of the fixed pitch, which stands beside that of the
transcript, as it was (`Shaped.advertise_ensures`).
-/

set_option autoImplicit false

namespace ZMachine

/-! ## Bits of a byte -/

theorem toNat_bitMask {k : Nat} (narrow : k < 8) :
    ((1 : Byte) <<< UInt8.ofNat k).toNat = 2 ^ k := by
  have each : ∀ k < 8, ((1 : Byte) <<< UInt8.ofNat k).toNat = 2 ^ k := by decide
  exact each k narrow

/-- A byte under the mask of a bit is not zero just when the bit is set. -/
theorem and_bitMask_bne_zero (b : Byte) {k : Nat} (narrow : k < 8) :
    (b &&& ((1 : Byte) <<< UInt8.ofNat k) != 0) = b.toNat.testBit k := by
  have clear := and_bit_eq_zero b k (toNat_bitMask narrow)
  rw [Nat.testBit_eq_decide_div_mod_eq]
  by_cases zero : b.toNat / 2 ^ k % 2 = 0
  · simp [clear.mpr zero, zero]
  · have one : b.toNat / 2 ^ k % 2 = 1 := by omega
    simp [mt clear.mp zero, one]

/-- The byte with one bit set or cleared. -/
def withBit (on : Bool) (k : Nat) (b : Byte) : Byte :=
  if on then b ||| ((1 : Byte) <<< UInt8.ofNat k) else b &&& ~~~((1 : Byte) <<< UInt8.ofNat k)

/-- Setting a bit changes that bit only. -/
theorem testBit_withBit (on : Bool) {k : Nat} (narrow : k < 8) (b : Byte) (n : Nat) :
    (withBit on k b).toNat.testBit n = if n = k then on else b.toNat.testBit n := by
  have bound : b.toNat < 2 ^ 8 := b.toNat_lt
  have mask := toNat_bitMask narrow
  cases on with
  | true =>
      simp only [withBit, if_true, UInt8.toNat_or, mask, Nat.testBit_or, Nat.testBit_two_pow]
      by_cases same : n = k
      · simp [same]
      · simp [same, Ne.symm same]
  | false =>
      have low : 2 ^ k < 2 ^ 8 := Nat.pow_lt_pow_right (by decide) narrow
      have others : (~~~((1 : Byte) <<< UInt8.ofNat k)).toNat = 2 ^ 8 - (2 ^ k + 1) := by
        rw [UInt8.toNat_not, mask]
        simp [UInt8.size]
      simp only [withBit, Bool.false_eq_true, if_false, UInt8.toNat_and, others, Nat.testBit_and,
        Nat.testBit_two_pow_sub_succ low, Nat.testBit_two_pow]
      by_cases same : n = k
      · simp [same]
      · by_cases high : n < 8
        · simp [same, Ne.symm same, high]
        · have none : b.toNat.testBit n = false :=
            Nat.testBit_lt_two_pow (Nat.lt_of_lt_of_le bound (Nat.pow_le_pow_right (by decide)
              (Nat.not_lt.mp high)))
          simp [none]

/-- A byte is known by its bits. -/
theorem byte_ext {b c : Byte} (same : ∀ n, b.toNat.testBit n = c.toNat.testBit n) : b = c :=
  UInt8.toNat_inj.mp (Nat.eq_of_testBit_eq same)

/-- Different bits of a byte are set in any order. -/
theorem withBit_comm (on off : Bool) {k l : Nat} (narrow : k < 8) (narrow' : l < 8)
    (other : k ≠ l) (b : Byte) : withBit on k (withBit off l b) = withBit off l (withBit on k b) := by
  refine byte_ext fun n => ?_
  simp only [testBit_withBit _ narrow, testBit_withBit _ narrow']
  by_cases same : n = k
  · rw [if_pos same, if_neg (same ▸ other), if_pos same]
  · rw [if_neg same, if_neg same]

/-- Setting a bit back to what it was restores the byte. -/
theorem withBit_restore (on : Bool) {k : Nat} (narrow : k < 8) (b : Byte) :
    withBit (b.toNat.testBit k) k (withBit on k b) = b := by
  refine byte_ext fun n => ?_
  rw [testBit_withBit _ narrow, testBit_withBit _ narrow]
  by_cases same : n = k
  · rw [if_pos same, same]
  · rw [if_neg same, if_neg same]

namespace Memory

/-! ## Bits of memory -/

/-- A bit of the byte at an address. -/
def bit (m : Memory) (addr n : Nat) : Bool :=
  (m.bytes.getD addr 0).toNat.testBit n

variable {m t : Memory} {f : Flag}

theorem getByte_getD {addr : Nat} (inside : addr < m.size) :
    m.getByte addr = .ok (m.bytes.getD addr 0) := by
  have inside' : addr < m.bytes.size := inside
  simp [getByte, inside']

theorem bit_set {addr : Nat} (inside : addr < m.size) (value : Byte) (i n : Nat) :
    ({ m with bytes := m.bytes.setIfInBounds addr value } : Memory).bit i n =
      if i = addr then value.toNat.testBit n else m.bit i n := by
  have inside' : addr < m.bytes.size := inside
  by_cases same : i = addr
  · subst same
    simp [bit, inside']
  · simp [bit, same, Ne.symm same]

/-- The image with one bit set or cleared. -/
def changeBit (m : Memory) (addr k : Nat) (on : Bool) : Memory :=
  { m with bytes := m.bytes.modify addr (withBit on k) }

theorem getElem?_changeBit (m : Memory) (addr k : Nat) (on : Bool) (i : Nat) :
    (m.changeBit addr k on).bytes[i]? =
      if addr = i then m.bytes[i]?.map (withBit on k) else m.bytes[i]? := by
  rw [changeBit, Array.getElem?_modify]

theorem changeBit_sameBounds (m : Memory) (addr k : Nat) (on : Bool) :
    m.SameBounds (m.changeBit addr k on) :=
  ⟨rfl, rfl, rfl, rfl, Array.size_modify⟩

/-- Changing a bit of memory changes that bit only. -/
theorem bit_changeBit {addr k : Nat} (inside : addr < m.size) (narrow : k < 8) (on : Bool)
    (i n : Nat) : (m.changeBit addr k on).bit i n = if i = addr ∧ n = k then on else m.bit i n := by
  rw [bit, bit, Array.getD_eq_getD_getElem?, Array.getD_eq_getD_getElem?, getElem?_changeBit]
  by_cases same : addr = i
  · subst same
    obtain ⟨b, here⟩ : ∃ b, m.bytes[addr]? = some b := ⟨_, Array.getElem?_eq_getElem inside⟩
    rw [if_pos rfl, here]
    simp [testBit_withBit on narrow]
  · rw [if_neg same, if_neg fun both => same both.1.symm]

/-- Different bits of memory are changed in any order. -/
theorem changeBit_comm (m : Memory) {addr addr' k l : Nat} (narrow : k < 8) (narrow' : l < 8)
    (other : addr ≠ addr' ∨ k ≠ l) (on off : Bool) :
    (m.changeBit addr k on).changeBit addr' l off =
      (m.changeBit addr' l off).changeBit addr k on := by
  have bytes : ∀ i : Nat, ((m.changeBit addr k on).changeBit addr' l off).bytes[i]? =
      ((m.changeBit addr' l off).changeBit addr k on).bytes[i]? := by
    intro i
    simp only [getElem?_changeBit]
    by_cases here : addr = i <;> by_cases there : addr' = i <;> simp only [here, there, if_true,
      if_false]
    rw [Option.map_map, Option.map_map]
    refine congrArg (Option.map · m.bytes[i]?) (funext fun b => ?_)
    refine withBit_comm off on narrow' narrow (fun same => ?_) b
    exact other.elim (fun ne => ne (here.trans there.symm)) fun ne => ne same.symm
  exact congrArg (fun bytes => ({ m with bytes } : Memory)) (Array.ext_getElem? bytes)

/-- Changing a bit back to what it was restores the image. -/
theorem changeBit_restore (m : Memory) (addr : Nat) {k : Nat} (narrow : k < 8) (on : Bool) :
    (m.changeBit addr k on).changeBit addr k (m.bit addr k) = m := by
  have bytes : ∀ i : Nat,
      ((m.changeBit addr k on).changeBit addr k (m.bit addr k)).bytes[i]? = m.bytes[i]? := by
    intro i
    simp only [getElem?_changeBit]
    split
    · rename_i here
      subst here
      rw [Option.map_map, bit, Array.getD_eq_getD_getElem?]
      cases m.bytes[addr]? with
      | none => rfl
      | some b => exact congrArg some (withBit_restore on narrow b)
    · rfl
  exact congrArg (fun bytes => ({ m with bytes } : Memory)) (Array.ext_getElem? bytes)

/-- The flag stands in the header, and stories of the version have it. -/
structure HasFlag (m : Memory) (f : Flag) : Prop where
  covers : f.era.covers m.version = true
  inside : f.byte < m.size
  narrow : f.bit < 8

/-- Asking for a flag gives its bit. -/
theorem HasFlag.flag_eq (has : m.HasFlag f) : m.flag f = .ok (m.bit f.byte f.bit) := by
  simp only [flag, requireEra, has.covers, if_true, getByte_getD has.inside]
  exact congrArg Except.ok (and_bitMask_bne_zero _ has.narrow)

/-- Setting a flag writes the byte with that bit. -/
theorem HasFlag.run_setFlag (has : m.HasFlag f) (on : Bool) :
    (setFlag f on).run m = (.ok (), { m with
      bytes := m.bytes.setIfInBounds f.byte (withBit on f.bit (m.bytes.getD f.byte 0)) }) := by
  have read : (Op.query (·.getByte f.byte)).run m = (.ok (m.bytes.getD f.byte 0), m) :=
    congrArg (Prod.mk · m) (getByte_getD has.inside)
  have required : (Op.query (·.requireEra f.era f.name)).run m = (.ok (), m) := by
    simp [requireEra, has.covers]
  rw [setFlag, Op.run_bind_ok required, Op.run_bind_ok read]
  exact if_pos has.inside

/-- The images agree in every bit but that of a flag. -/
structure AgreesBut (f : Flag) (m t : Memory) : Prop where
  bounds : m.SameBounds t
  elsewhere : ∀ i, i ≠ f.byte → t.bytes[i]? = m.bytes[i]?
  within : ∀ n, n ≠ f.bit → t.bit f.byte n = m.bit f.byte n

theorem AgreesBut.refl (f : Flag) (m : Memory) : AgreesBut f m m :=
  ⟨.refl m, fun _ _ => rfl, fun _ _ => rfl⟩

/-- Setting a flag succeeds, leaves the flag as it was set, and changes no other bit. -/
theorem HasFlag.setFlag_agrees (has : m.HasFlag f) (on : Bool) :
    ∃ t, (setFlag f on).run m = (.ok (), t) ∧ AgreesBut f m t ∧ t.bit f.byte f.bit = on := by
  refine ⟨_, has.run_setFlag on, ⟨⟨rfl, rfl, rfl, rfl, Array.size_setIfInBounds⟩, ?_, ?_⟩, ?_⟩
  · intro i other
    exact Array.getElem?_setIfInBounds_ne (Ne.symm other)
  · intro n other
    rw [bit_set has.inside, if_pos rfl, testBit_withBit on has.narrow, if_neg other, bit]
  · rw [bit_set has.inside, if_pos rfl, testBit_withBit on has.narrow, if_pos rfl]

/-- A flag stands in an image as it does in another with the same bounds. -/
theorem HasFlag.congr (has : m.HasFlag f) (bounds : m.SameBounds t) : t.HasFlag f := by
  refine ⟨?_, ?_, has.narrow⟩
  · rw [bounds.version]
    exact has.covers
  · rw [size, bounds.size]
    exact has.inside

/-! ## What the interpreter advertises -/

/-- The second image has the bounds of the first, and the pitch is fixed in both or in
neither. -/
structure KeepsPitch (m t : Memory) : Prop where
  bounds : m.SameBounds t
  pitch : t.bit 0x11 1 = m.bit 0x11 1

theorem KeepsPitch.refl (m : Memory) : m.KeepsPitch m :=
  ⟨.refl m, rfl⟩

/-- A flag other than the fixed pitch can be set. -/
theorem HasFlag.setFlag_ensures (has : m.HasFlag f) (on : Bool)
    (other : f.byte ≠ 0x11 ∨ f.bit ≠ 1) :
    (setFlag f on).Ensures m.KeepsPitch fun t => m.KeepsPitch t ∧ t.bit f.byte f.bit = on := by
  intro t keeps
  obtain ⟨u, run, agrees, set⟩ := (has.congr keeps.bounds).setFlag_agrees on
  refine ⟨(), u, run, ⟨keeps.bounds.trans agrees.bounds, ?_⟩, set⟩
  rw [← keeps.pitch]
  by_cases same : 0x11 = f.byte
  · rw [same]
    exact agrees.within 1 (Ne.symm (other.resolve_left (not_not.mpr same.symm)))
  · simp only [bit, Array.getD_eq_getD_getElem?, agrees.elsewhere 0x11 same]

theorem HasFlag.setFlag_keeps (has : m.HasFlag f) (on : Bool)
    (other : f.byte ≠ 0x11 ∨ f.bit ≠ 1) :
    (setFlag f on).Ensures m.KeepsPitch m.KeepsPitch :=
  (has.setFlag_ensures on other).mono fun _ => And.left

/-- A byte behind the flags can be written. -/
theorem setByte_keeps {addr : Nat} (inside : addr < m.size) (behind : 0x11 < addr)
    (value : Byte) : (setByte addr value).Ensures m.KeepsPitch m.KeepsPitch := by
  intro t keeps
  have inside' : addr < t.size := by
    rw [size, keeps.bounds.size]
    exact inside
  refine ⟨(), _, if_pos inside', ?_, ?_⟩
  · exact keeps.bounds.trans ⟨rfl, rfl, rfl, rfl, Array.size_setIfInBounds⟩
  · rw [bit_set inside', if_neg (Nat.ne_of_lt behind), keeps.pitch]

/-- A word is written as its two bytes. -/
theorem run_setWord {addr : Nat} (inside : addr + 1 < m.size) (value : Word) :
    (setWord addr value).run m =
      (do setByte addr (highByte value); setByte (addr + 1) (lowByte value)).run m := by
  have first : (setByte addr (highByte value)).run m =
      (.ok (), { m with bytes := m.bytes.setIfInBounds addr (highByte value) }) :=
    if_pos (Nat.lt_of_succ_lt inside)
  have inside' : addr + 1 < (m.bytes.setIfInBounds addr (highByte value)).size := by
    rw [Array.size_setIfInBounds]
    exact inside
  rw [Op.run_bind_ok first]
  exact (if_pos inside).trans (if_pos inside').symm

/-- Stories of the version have the field, so many bytes wide, behind the flags. -/
structure HasField (m : Memory) (f : Field) (width : Nat) : Prop where
  covers : f.era.covers m.version = true
  behind : 0x11 < f.address m.version
  inside : f.address m.version + width ≤ m.size

theorem HasField.setByteField_keeps {f : Field} (has : m.HasField f 1) (value : Byte) :
    (setByteField f value).Ensures m.KeepsPitch m.KeepsPitch := by
  intro t keeps
  have required : (Op.query (·.requireEra f.era f.name)).run t = (.ok (), t) := by
    simp [requireEra, keeps.bounds.version, has.covers]
  rw [setByteField, Op.run_bind_ok required, Op.run_view_bind, keeps.bounds.version]
  exact setByte_keeps has.inside has.behind value t keeps

theorem HasField.setWordField_keeps {f : Field} (has : m.HasField f 2) (value : Word) :
    (setWordField f value).Ensures m.KeepsPitch m.KeepsPitch := by
  intro t keeps
  have required : (Op.query (·.requireEra f.era f.name)).run t = (.ok (), t) := by
    simp [requireEra, keeps.bounds.version, has.covers]
  have inside : f.address m.version + 1 < t.size := by
    rw [size, keeps.bounds.size]
    exact has.inside
  rw [setWordField, Op.run_bind_ok required, Op.run_view_bind, keeps.bounds.version,
    run_setWord inside]
  refine (setByte_keeps (m := m) ?_ has.behind _).bind (fun _ => setByte_keeps ?_ ?_ _) t keeps
  · exact Nat.lt_of_succ_lt has.inside
  · exact has.inside
  · exact Nat.lt_succ_of_lt has.behind

/-- The image has room for a header and a version that stories can have. -/
structure Shaped (m : Memory) : Prop where
  room : headerSize ≤ m.size
  first : 1 ≤ m.version
  last : m.version ≤ 8

section Advertise

variable (shaped : m.Shaped)

include shaped

/-- A flag of the header that stories of the version have. -/
theorem Shaped.hasFlag (covers : f.era.covers m.version = true)
    (place : f.byte < headerSize ∧ f.bit < 8) : m.HasFlag f :=
  ⟨covers, Nat.lt_of_lt_of_le place.1 shaped.room, place.2⟩

/-- Every story has the flag of the transcript. -/
theorem Shaped.hasTranscript : m.HasFlag .transcripting := by
  have covers : (⟨1, none⟩ : Era).covers m.version = true := by
    simpa [Era.covers] using shaped.first
  exact shaped.hasFlag covers (by decide)

/-- Stories have the flag of the fixed pitch from version 3 on. -/
theorem Shaped.hasPitch (third : 3 ≤ m.version) : m.HasFlag .fixedPitch := by
  have covers : (⟨3, none⟩ : Era).covers m.version = true := by
    simpa [Era.covers] using third
  exact shaped.hasFlag covers (by decide)

/-- A field that stands at one address in all versions. -/
theorem Shaped.hasField {f : Field} {addr width : Nat} (fixed : f.address = fun _ => addr)
    (covers : f.era.covers m.version = true) (place : 0x11 < addr ∧ addr + width ≤ headerSize) :
    m.HasField f width := by
  refine ⟨covers, ?_, ?_⟩
  · rw [fixed]
    exact place.1
  · rw [fixed]
    exact Nat.le_trans place.2 shaped.room

/-- The two measures of the font, which trade places. -/
theorem Shaped.hasFont {f : Field} {modern other : Nat}
    (places : f.address = fun v => if v = 5 then modern else other)
    (covers : f.era.covers m.version = true)
    (place : (0x11 < modern ∧ modern < headerSize) ∧ 0x11 < other ∧ other < headerSize) :
    m.HasField f 1 := by
  have room := shaped.room
  refine ⟨covers, ?_, ?_⟩
  · simp only [places]
    split <;> omega
  · simp only [places]
    split <;> omega

/-- What the interpreter advertises at the end in every version. -/
theorem Shaped.advertise_ending_ensures (s : Settings) :
    Op.Ensures m.KeepsPitch (do
      setWordField .standardRevision 0x0100
      if 5 ≤ m.version then
        setWordField .widthUnits s.screenWidth.toUInt16
        setWordField .heightUnits s.screenHeight.toUInt16
        setByteField .background 5
        setByteField .foreground 2
        setByteField .fontWidth 1
        setByteField .fontHeight 1
      setFlag .transcripting s.transcript)
      fun t => m.KeepsPitch t ∧ t.bit 0x11 0 = s.transcript := by
  have always : (⟨1, none⟩ : Era).covers m.version = true := by
    simpa [Era.covers] using shaped.first
  have transcript := shaped.hasTranscript.setFlag_ensures s.transcript (by decide)
  refine .bind ((shaped.hasField rfl always (by decide)).setWordField_keeps _) fun _ => ?_
  refine .ite (fun fifth => ?_) fun _ => transcript
  have late : (⟨5, none⟩ : Era).covers m.version = true := by
    simpa [Era.covers] using fifth
  refine .bind ((shaped.hasField rfl late (by decide)).setWordField_keeps _) fun _ => ?_
  refine .bind ((shaped.hasField rfl late (by decide)).setWordField_keeps _) fun _ => ?_
  refine .bind ((shaped.hasField rfl late (by decide)).setByteField_keeps _) fun _ => ?_
  refine .bind ((shaped.hasField rfl late (by decide)).setByteField_keeps _) fun _ => ?_
  refine .bind ((shaped.hasFont rfl late (by decide)).setByteField_keeps _) fun _ => ?_
  exact .bind ((shaped.hasFont rfl late (by decide)).setByteField_keeps _) fun _ => transcript

/-- **Advertising.** In an image of a version that stories can have, the interpreter can
advertise what it can do. The transcript is then as the settings say, and the pitch is as
it was. -/
theorem Shaped.advertise_ensures (s : Settings) :
    (advertise s).Ensures m.KeepsPitch fun t => m.KeepsPitch t ∧ t.bit 0x11 0 = s.transcript := by
  have ending := shaped.advertise_ending_ensures s
  refine .look (fun t keeps => keeps.bounds.version) (.ite (fun early => ?_) fun later => ?_)
  · have covers : (⟨1, some 3⟩ : Era).covers m.version = true := by
      have first := shaped.first
      simp only [Era.covers, Option.all_some, Bool.and_eq_true, decide_eq_true_eq]
      omega
    refine .bind ((shaped.hasFlag covers (by decide)).setFlag_keeps _ (by decide)) fun _ => ?_
    refine .bind ((shaped.hasFlag covers (by decide)).setFlag_keeps _ (by decide)) fun _ => ?_
    exact .bind ((shaped.hasFlag covers (by decide)).setFlag_keeps _ (by decide)) fun _ => ending
  · have covers : (⟨4, none⟩ : Era).covers m.version = true := by
      simpa [Era.covers] using later
    have abilities :=
      ((shaped.hasFlag (f := .bold) covers (by decide)).setFlag_keeps true (by decide)).bind
        fun _ : Unit =>
      ((shaped.hasFlag (f := .italic) covers (by decide)).setFlag_keeps true (by decide)).bind
        fun _ : Unit =>
      ((shaped.hasFlag (f := .fixedSpace) covers (by decide)).setFlag_keeps true (by decide)).bind
        fun _ : Unit =>
      ((shaped.hasFlag (f := .timedInput) covers (by decide)).setFlag_keeps true (by decide)).bind
        fun _ : Unit =>
      ((shaped.hasField (f := .interpreterNumber) rfl covers (by decide)).setByteField_keeps
        s.interpreterNumber).bind fun _ : Unit =>
      ((shaped.hasField (f := .interpreterVersion) rfl covers (by decide)).setByteField_keeps
        s.interpreterVersion).bind fun _ : Unit =>
      ((shaped.hasField (f := .screenHeight) rfl covers (by decide)).setByteField_keeps
        s.screenHeight).bind fun _ : Unit =>
      ((shaped.hasField (f := .screenWidth) rfl covers (by decide)).setByteField_keeps
        s.screenWidth).bind fun _ : Unit => ending
    refine .ite (fun fifth => ?_) fun _ => abilities
    have covers : (⟨5, none⟩ : Era).covers m.version = true := by
      simpa [Era.covers] using fifth
    refine .bind ((shaped.hasFlag covers (by decide)).setFlag_keeps _ (by decide)) fun _ => ?_
    exact abilities

end Advertise

end Memory

end ZMachine
