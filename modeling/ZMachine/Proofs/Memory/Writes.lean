import ZMachine.Header
import ZMachine.Proofs.Number
import ZMachine.Proofs.Operation

/-!
# Writing to memory

Memory is written byte by byte, for one of two reasons: the story writes dynamic
memory, and the interpreter describes itself in a few bytes of the header. Every
operation on memory is made of such writes, and a word that the story writes is read back
(`run_writeWord`).

None of the bytes in which the interpreter describes itself is one that the fixed
part of the header is read from. So the header of an image is the same before and
after the interpreter has described itself (`read_of_advertised`).
-/

set_option autoImplicit false

namespace ZMachine.Memory

open Relation (ReflTransGen)

/-- A byte is written, at an address where that is allowed. -/
inductive Writes (allowed : Memory → Nat → Prop) (m : Memory) : Memory → Prop where
  | byte (addr : Nat) (value : Byte) (permitted : allowed m addr) :
      Writes allowed m { m with bytes := m.bytes.setIfInBounds addr value }

/-- An address that the story may write. -/
def Dynamic (m : Memory) (addr : Nat) : Prop :=
  addr < m.staticBase

/-- An address of the header where the interpreter describes itself: the two bytes
of flags, and what lies behind the checksum. -/
def Advertised (addr : Nat) : Prop :=
  addr = 0x01 ∨ addr = 0x11 ∨ 0x1E ≤ addr ∧ addr < headerSize

instance (addr : Nat) : Decidable (Advertised addr) :=
  inferInstanceAs (Decidable (addr = 0x01 ∨ addr = 0x11 ∨ 0x1E ≤ addr ∧ addr < headerSize))

variable {allowed : Memory → Nat → Prop} {m t : Memory}

/-! ## Operations of the story -/

theorem setByte_writes {addr : Nat} (value : Byte) (permitted : allowed m addr) :
    ReflTransGen (Writes allowed) m ((setByte addr value).run m).2 := by
  simp only [Op.run, setByte]
  split
  · exact .single (.byte addr value permitted)
  · exact .refl

theorem setWord_writes {addr : Nat} (value : Word) (high : allowed m addr)
    (low : ∀ bytes, allowed { m with bytes } (addr + 1)) :
    ReflTransGen (Writes allowed) m ((setWord addr value).run m).2 := by
  simp only [Op.run, setWord]
  split
  · exact .tail (.single (.byte addr (highByte value) high))
      (.byte (addr + 1) (lowByte value) (low _))
  · exact .refl

/-- A byte is written where it is allowed to write dynamic memory. -/
theorem writeByte_writes {addr : Nat} (value : Byte)
    (permitted : ∀ m, Dynamic m addr → allowed m addr) :
    (writeByte addr value).MadeOf (Writes allowed) := by
  intro m
  simp only [Op.run, writeByte]
  split
  · exact .refl
  · exact setByte_writes value (permitted m (Nat.not_le.mp ‹_›))

theorem writeWord_writes {addr : Nat} (value : Word)
    (high : ∀ m, Dynamic m addr → allowed m addr)
    (low : ∀ m, Dynamic m (addr + 1) → allowed m (addr + 1)) :
    (writeWord addr value).MadeOf (Writes allowed) := by
  intro m
  simp only [Op.run, writeWord]
  split
  · exact .refl
  · have below : addr + 1 < m.staticBase := Nat.not_le.mp ‹_›
    exact setWord_writes value (high m (Nat.lt_of_succ_lt below)) fun _ => low _ below

theorem writeBytes_writes {addr : Nat} {bytes : List Byte}
    (permitted : ∀ i, addr ≤ i → i < addr + bytes.length → ∀ m, Dynamic m i → allowed m i) :
    (writeBytes addr bytes).MadeOf (Writes allowed) := by
  induction bytes generalizing addr with
  | nil => exact .pure ()
  | cons b rest ih =>
      rw [List.length_cons] at permitted
      refine .bind (writeByte_writes b (permitted addr (Nat.le_refl _) (by omega))) fun _ => ?_
      exact ih fun i low high => permitted i (by omega) (by omega)

theorem writeByte_madeOf (addr : Nat) (value : Byte) :
    (writeByte addr value).MadeOf (Writes Dynamic) :=
  writeByte_writes value fun _ dynamic => dynamic

theorem writeWord_madeOf (addr : Nat) (value : Word) :
    (writeWord addr value).MadeOf (Writes Dynamic) :=
  writeWord_writes value (fun _ dynamic => dynamic) fun _ dynamic => dynamic

theorem writeBytes_madeOf (addr : Nat) (bytes : List Byte) :
    (writeBytes addr bytes).MadeOf (Writes Dynamic) :=
  writeBytes_writes fun _ _ _ _ dynamic => dynamic

/-! ## Operations of the interpreter -/

theorem setFlag_madeOf {f : Flag} (on : Bool) (own : Advertised f.byte) :
    (setFlag f on).MadeOf (Writes fun _ => Advertised) :=
  .bind (.query _) fun _ => .bind (.query _) fun _ _ => setByte_writes _ own

theorem setByteField_madeOf {f : Field} (value : Byte)
    (own : ∀ version, Advertised (f.address version)) :
    (setByteField f value).MadeOf (Writes fun _ => Advertised) :=
  .bind (.query _) fun _ => .bind (.view _) fun version _ => setByte_writes _ (own version)

theorem setWordField_madeOf {f : Field} (value : Word)
    (own : ∀ version, Advertised (f.address version) ∧ Advertised (f.address version + 1)) :
    (setWordField f value).MadeOf (Writes fun _ => Advertised) :=
  .bind (.query _) fun _ => .bind (.view _) fun version _ =>
    setWord_writes _ (own version).1 fun _ => (own version).2

/-- A byte field that stands at one address in all versions. -/
theorem fixedByte_madeOf {f : Field} {addr : Nat} (value : Byte)
    (fixed : f.address = fun _ => addr) (own : Advertised addr) :
    (setByteField f value).MadeOf (Writes fun _ => Advertised) :=
  setByteField_madeOf value fun _ => by rwa [fixed]

/-- A word field that stands at one address in all versions. -/
theorem fixedWord_madeOf {f : Field} {addr : Nat} (value : Word)
    (fixed : f.address = fun _ => addr) (own : Advertised addr ∧ Advertised (addr + 1)) :
    (setWordField f value).MadeOf (Writes fun _ => Advertised) :=
  setWordField_madeOf value fun _ => by rwa [fixed]

/-- The two measures of the font trade places, both inside the interpreter's part. -/
theorem fontField_madeOf {f : Field} (value : Byte) {modern other : Nat}
    (places : f.address = fun v => if v = 5 then modern else other)
    (own : Advertised modern ∧ Advertised other) :
    (setByteField f value).MadeOf (Writes fun _ => Advertised) := by
  refine setByteField_madeOf value fun version => ?_
  simp only [places]
  split
  · exact own.1
  · exact own.2

/-- What the interpreter advertises at the end in every version: the revision, the
screen from version 5 on, and whether there is a transcript. -/
theorem advertise_ending_madeOf (s : Settings) (version : Nat) :
    Op.MadeOf (Writes fun _ => Advertised) (do
      setWordField .standardRevision 0x0100
      if 5 ≤ version then
        setWordField .widthUnits s.screenWidth.toUInt16
        setWordField .heightUnits s.screenHeight.toUInt16
        setByteField .background 5
        setByteField .foreground 2
        setByteField .fontWidth 1
        setByteField .fontHeight 1
      setFlag .transcripting s.transcript) := by
  have transcript := setFlag_madeOf (f := .transcripting) s.transcript (by decide)
  refine .bind (fixedWord_madeOf _ rfl (by decide)) fun _ => .ite ?_ transcript
  refine .bind (fixedWord_madeOf _ rfl (by decide)) fun _ => ?_
  refine .bind (fixedWord_madeOf _ rfl (by decide)) fun _ => ?_
  refine .bind (fixedByte_madeOf _ rfl (by decide)) fun _ => ?_
  refine .bind (fixedByte_madeOf _ rfl (by decide)) fun _ => ?_
  refine .bind (fontField_madeOf _ rfl (by decide)) fun _ => ?_
  exact .bind (fontField_madeOf _ rfl (by decide)) fun _ => transcript

/-- What the interpreter advertises are flags and fields of its own. -/
theorem advertise_madeOf (s : Settings) : (advertise s).MadeOf (Writes fun _ => Advertised) := by
  refine .bind (.view _) fun version => .ite ?_ ?_
  · refine .bind (setFlag_madeOf _ (by decide)) fun _ => ?_
    refine .bind (setFlag_madeOf _ (by decide)) fun _ => ?_
    exact .bind (setFlag_madeOf _ (by decide)) fun _ => advertise_ending_madeOf s version
  · have later :=
      (setFlag_madeOf (f := .bold) true (by decide)).bind fun _ : Unit =>
      (setFlag_madeOf (f := .italic) true (by decide)).bind fun _ : Unit =>
      (setFlag_madeOf (f := .fixedSpace) true (by decide)).bind fun _ : Unit =>
      (setFlag_madeOf (f := .timedInput) true (by decide)).bind fun _ : Unit =>
      (fixedByte_madeOf (f := .interpreterNumber) s.interpreterNumber rfl (by decide)).bind
        fun _ : Unit =>
      (fixedByte_madeOf (f := .interpreterVersion) s.interpreterVersion rfl (by decide)).bind
        fun _ : Unit =>
      (fixedByte_madeOf (f := .screenHeight) s.screenHeight rfl (by decide)).bind fun _ : Unit =>
      (fixedByte_madeOf (f := .screenWidth) s.screenWidth rfl (by decide)).bind fun _ : Unit =>
        advertise_ending_madeOf s version
    exact .ite (.bind (setFlag_madeOf _ (by decide)) fun _ => later) later

/-! ## What writes keep -/

/-- The images have the same bounds and the same pristine copy. -/
structure SameBounds (m t : Memory) : Prop where
  pristine : t.pristine = m.pristine
  version : t.version = m.version
  staticBase : t.staticBase = m.staticBase
  highBase : t.highBase = m.highBase
  size : t.bytes.size = m.bytes.size

theorem SameBounds.refl (m : Memory) : m.SameBounds m :=
  ⟨rfl, rfl, rfl, rfl, rfl⟩

theorem SameBounds.trans {u : Memory} (first : m.SameBounds t) (second : t.SameBounds u) :
    m.SameBounds u :=
  ⟨second.pristine.trans first.pristine, second.version.trans first.version,
    second.staticBase.trans first.staticBase, second.highBase.trans first.highBase,
    second.size.trans first.size⟩

theorem SameBounds.symm (same : m.SameBounds t) : t.SameBounds m :=
  ⟨same.pristine.symm, same.version.symm, same.staticBase.symm, same.highBase.symm,
    same.size.symm⟩

theorem Writes.sameBounds (write : Writes allowed m t) : m.SameBounds t := by
  cases write with
  | byte addr value _ => exact ⟨rfl, rfl, rfl, rfl, Array.size_setIfInBounds⟩

theorem Writes.getElem?_eq (write : Writes allowed m t) {i : Nat} (kept : ¬ allowed m i) :
    t.bytes[i]? = m.bytes[i]? := by
  cases write with
  | byte addr value permitted =>
      refine Array.getElem?_setIfInBounds_ne fun same => ?_
      exact kept (same ▸ permitted)

theorem sameBounds_of_writes (written : ReflTransGen (Writes allowed) m t) : m.SameBounds t := by
  induction written with
  | refl => exact .refl m
  | tail _ write ih => exact ih.trans write.sameBounds

/-- Outside the region in which they are allowed, writes change nothing. -/
theorem getElem?_of_writes {region : Nat → Prop}
    (written : ReflTransGen (Writes fun _ => region) m t) {i : Nat} (kept : ¬ region i) :
    t.bytes[i]? = m.bytes[i]? := by
  induction written with
  | refl => rfl
  | tail _ write ih => exact (write.getElem?_eq kept).trans ih

/-! ## What a write to dynamic memory does -/

/-- A word written to dynamic memory is read back, and nothing else is changed. -/
theorem run_writeWord {addr : Nat} (dynamic : addr + 1 < m.staticBase) (inside : addr + 1 < m.size)
    (value : Word) :
    ∃ m', (writeWord addr value).run m = (.ok (), m') ∧ m.SameBounds m' ∧
      (∀ i, i ≠ addr → i ≠ addr + 1 → m'.bytes[i]? = m.bytes[i]?) ∧
      m'.getWord addr = .ok value := by
  refine ⟨{ m with
      bytes := (m.bytes.setIfInBounds addr (highByte value)).setIfInBounds (addr + 1)
        (lowByte value) },
    ?_, ⟨rfl, rfl, rfl, rfl, by simp⟩, ?_, ?_⟩
  · simp only [Op.run, writeWord, setWord, if_neg (Nat.not_le.mpr dynamic), if_pos inside]
  · intro i high low
    rw [Array.getElem?_setIfInBounds_ne low.symm, Array.getElem?_setIfInBounds_ne high.symm]
  · rw [size] at inside
    have first : addr < m.bytes.size := Nat.lt_of_succ_lt inside
    simp [getWord, inside, first, Array.getElem_setIfInBounds_ne]

/-- A word that was written is read back. -/
theorem getWord_of_writeWord {addr : Nat} {value : Word}
    (run : (writeWord addr value).run m = (.ok (), t)) : t.getWord addr = .ok value := by
  by_cases guarded : m.staticBase ≤ addr + 1
  · simp only [Op.run, writeWord, if_pos guarded] at run
    cases run
  · by_cases inside : addr + 1 < m.size
    · obtain ⟨t', run', _, _, read⟩ := run_writeWord (Nat.not_le.mp guarded) inside value
      cases run.symm.trans run'
      exact read
    · simp only [Op.run, writeWord, setWord, if_neg guarded, if_neg inside] at run
      cases run

/-! ## Reading what was kept -/

theorem getByte_congr {addr : Nat} (size : t.bytes.size = m.bytes.size)
    (same : t.bytes[addr]? = m.bytes[addr]?) : t.getByte addr = m.getByte addr := by
  by_cases inside : addr < m.bytes.size
  · have inside' : addr < t.bytes.size := size ▸ inside
    rw [Array.getElem?_eq_getElem inside, Array.getElem?_eq_getElem inside'] at same
    simp only [getByte, dif_pos inside, dif_pos inside', Option.some.inj same]
  · simp only [getByte, Memory.size, size, dif_neg inside]

theorem getWord_congr {addr : Nat} (size : t.bytes.size = m.bytes.size)
    (high : t.bytes[addr]? = m.bytes[addr]?) (low : t.bytes[addr + 1]? = m.bytes[addr + 1]?) :
    t.getWord addr = m.getWord addr := by
  by_cases inside : addr + 1 < m.bytes.size
  · have inside' : addr + 1 < t.bytes.size := size ▸ inside
    have first : addr < m.bytes.size := by omega
    have first' : addr < t.bytes.size := by omega
    rw [Array.getElem?_eq_getElem first, Array.getElem?_eq_getElem first'] at high
    rw [Array.getElem?_eq_getElem inside, Array.getElem?_eq_getElem inside'] at low
    simp only [getWord, dif_pos inside, dif_pos inside', Option.some.inj high, Option.some.inj low]
  · simp only [getWord, Memory.size, size, dif_neg inside]

theorem readBytes_congr {addr count : Nat} (size : t.bytes.size = m.bytes.size)
    (same : ∀ i, addr ≤ i → i < addr + count → t.bytes[i]? = m.bytes[i]?) :
    t.readBytes addr count = m.readBytes addr count := by
  have copy : t.bytes.extract addr (addr + count) = m.bytes.extract addr (addr + count) := by
    refine Array.ext_getElem? fun i => ?_
    rw [Array.getElem?_extract, Array.getElem?_extract, size]
    split
    · exact same _ (by omega) (by omega)
    · rfl
  have size' : t.size = m.size := size
  simp only [readBytes, size', copy]

/-- The fixed part of the header depends on no byte in which the interpreter
describes itself. -/
theorem read_congr (size : t.bytes.size = m.bytes.size)
    (same : ∀ i, ¬ Advertised i → t.bytes[i]? = m.bytes[i]?) : Header.read t = Header.read m := by
  have byte : ∀ addr, ¬ Advertised addr → t.getByte addr = m.getByte addr :=
    fun addr kept => getByte_congr size (same addr kept)
  have word : ∀ addr, ¬ Advertised addr → ¬ Advertised (addr + 1) →
      t.getWord addr = m.getWord addr :=
    fun addr high low => getWord_congr size (same addr high) (same (addr + 1) low)
  have serial : t.readBytes 0x12 6 = m.readBytes 0x12 6 := by
    refine readBytes_congr size fun i _ _ => same i ?_
    simp only [Advertised]
    omega
  have size' : t.size = m.size := size
  have inside : ∀ table addr,
      Header.requireInside t table addr = Header.requireInside m table addr := by
    intro table addr
    simp only [Header.requireInside, size']
  simp only [Header.read, byte 0x00 (by decide), word 0x1A (by decide) (by decide),
    word 0x02 (by decide) (by decide), serial, word 0x04 (by decide) (by decide),
    word 0x0E (by decide) (by decide), word 0x06 (by decide) (by decide),
    word 0x08 (by decide) (by decide), word 0x0A (by decide) (by decide),
    word 0x0C (by decide) (by decide), word 0x18 (by decide) (by decide),
    word 0x1C (by decide) (by decide), inside, size']

/-- **The header.** What the interpreter writes about itself does not change the
fixed part of the header. -/
theorem read_of_advertised (written : ReflTransGen (Writes fun _ => Advertised) m t) :
    Header.read t = Header.read m :=
  read_congr (sameBounds_of_writes written).size fun _ kept => getElem?_of_writes written kept

end ZMachine.Memory
