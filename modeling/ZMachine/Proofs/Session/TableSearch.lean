import ZMachine.Proofs.Memory.Flags
import ZMachine.Proofs.Session.Calls
import ZMachine.Proofs.Session.Results

/-!
# Searching a table

A table is searched field by field. A field is a word or a byte, and the next one stands a
given number of bytes behind it, which may be less than a field is long. The story can load
a field only if it lies in the image and in the first 64K.

A search passes the fields that it can load and that differ from the value. It ends at the
first field that it does not pass, where it finds the value or fails, or behind the last,
with nothing found (`findField_ends`). The address of a field that was found is a word, and
for a table that does not stand at 0 it is not 0, which is the answer for nothing found. So
the instruction stores the address of the first field with the value and branches on having
found it (`search_finds_first`). Where it neither fails to search nor to store, its result
stands in its variable and the story goes on where its branch leads (`Searches.ends`).
-/

set_option autoImplicit false

namespace ZMachine

/-! ## Fields -/

namespace Memory

variable {m : Memory} {words : Bool} {addr : Nat}

/-- The number of bytes of a field. -/
def fieldWidth (words : Bool) : Nat :=
  if words then 2 else 1

/-- The field at an address lies in the image and in the first 64K. -/
def FieldInside (m : Memory) (words : Bool) (addr : Nat) : Prop :=
  addr + fieldWidth words ≤ m.size ∧ addr + fieldWidth words ≤ 0x10000

instance (m : Memory) (words : Bool) (addr : Nat) : Decidable (m.FieldInside words addr) :=
  inferInstanceAs (Decidable (_ ∧ _))

/-- The value of the field at an address. -/
def fieldValue (m : Memory) (words : Bool) (addr : Nat) : Word :=
  if words then rawWord m.bytes addr else (m.bytes.getD addr 0).toUInt16

theorem getWord_rawWord (inside : addr + 1 < m.size) :
    m.getWord addr = .ok (rawWord m.bytes addr) := by
  have last : addr + 1 < m.bytes.size := inside
  have first : addr < m.bytes.size := Nat.lt_of_succ_lt last
  simp [getWord, rawWord, last, first]

/-- The story loads a field that lies inside. -/
theorem tableField_inside (inside : m.FieldInside words addr) :
    Session.tableField m words addr = .ok (m.fieldValue words addr) := by
  obtain ⟨image, low⟩ := inside
  cases words with
  | true =>
      have image : addr + 2 ≤ m.size := image
      have low : addr + 2 ≤ 0x10000 := low
      have near : ¬ lastLoad < addr + 1 := by
        rw [lastLoad]
        omega
      exact (if_neg near).trans (getWord_rawWord image)
  | false =>
      have low : addr + 1 ≤ 0x10000 := low
      have near : ¬ lastLoad < addr := by
        rw [lastLoad]
        omega
      have loaded : m.loadByte addr = .ok (m.bytes.getD addr 0) :=
        (if_neg near).trans (getByte_getD image)
      simp only [Session.tableField, loaded]
      rfl

/-- The story is refused a field that does not. -/
theorem tableField_outside (outside : ¬ m.FieldInside words addr) :
    ∃ e, Session.tableField m words addr = .error e := by
  cases words with
  | true =>
      have outside : ¬ (addr + 2 ≤ m.bytes.size ∧ addr + 2 ≤ 0x10000) := outside
      by_cases far : lastLoad < addr + 1
      · exact ⟨_, if_pos far⟩
      · have beyond : ¬ addr + 1 < m.bytes.size := by
          rw [lastLoad] at far
          omega
        exact ⟨_, (if_neg far).trans (dif_neg beyond)⟩
  | false =>
      have outside : ¬ (addr + 1 ≤ m.bytes.size ∧ addr + 1 ≤ 0x10000) := outside
      obtain ⟨e, refused⟩ : ∃ e, m.loadByte addr = .error e := by
        by_cases far : lastLoad < addr
        · exact ⟨_, if_pos far⟩
        · have beyond : ¬ addr < m.bytes.size := by
            rw [lastLoad] at far
            omega
          exact ⟨_, (if_neg far).trans (dif_neg beyond)⟩
      simp only [Session.tableField, refused]
      exact ⟨e, rfl⟩

/-- The story can load the field at an address, and it differs from a value. -/
def Passes (m : Memory) (words : Bool) (x : Word) (addr : Nat) : Prop :=
  m.FieldInside words addr ∧ m.fieldValue words addr ≠ x

end Memory

/-! ## The search -/

namespace Session

variable {ω : Type}

/-- How a search of some fields from an address on ends: at the first field that it does not
pass, or behind the last. -/
inductive SearchEnds (m : Memory) (x : Word) (words : Bool) (stride count addr : Nat) :
    Except Fault Word → Prop where
  | found {k : Nat} (among : k < count)
      (before : ∀ j < k, m.Passes words x (addr + j * stride))
      (inside : m.FieldInside words (addr + k * stride))
      (same : m.fieldValue words (addr + k * stride) = x) :
      SearchEnds m x words stride count addr (.ok (UInt16.ofNat (addr + k * stride)))
  | nothing (all : ∀ j < count, m.Passes words x (addr + j * stride)) :
      SearchEnds m x words stride count addr (.ok 0)
  | fails {k : Nat} (e : Fault) (among : k < count)
      (before : ∀ j < k, m.Passes words x (addr + j * stride))
      (outside : ¬ m.FieldInside words (addr + k * stride)) :
      SearchEnds m x words stride count addr (.error e)

section Search

variable {m : Memory} {x : Word} {words : Bool} {stride count addr : Nat}

/-- The fields in front of one, when the first is passed and so are the others from the
second on. -/
theorem passes_cons {k : Nat} (first : m.Passes words x addr)
    (rest : ∀ j < k, m.Passes words x (addr + stride + j * stride)) :
    ∀ j < k + 1, m.Passes words x (addr + j * stride) := by
  intro j less
  cases j with
  | zero => rwa [Nat.zero_mul, Nat.add_zero]
  | succ j =>
      have behind := rest j (Nat.lt_of_succ_lt_succ less)
      rwa [Nat.add_assoc, Nat.add_comm stride, ← Nat.succ_mul] at behind

/-- A field that is passed leaves the search to the fields behind it. -/
theorem SearchEnds.cons {ended : Except Fault Word} (first : m.Passes words x addr)
    (rest : SearchEnds m x words stride count (addr + stride) ended) :
    SearchEnds m x words stride (count + 1) addr ended := by
  have place : ∀ k, addr + stride + k * stride = addr + (k + 1) * stride := by
    intro k
    rw [Nat.add_assoc, Nat.add_comm stride, ← Nat.succ_mul]
  cases rest with
  | @found k among before inside same =>
      rw [place] at inside same ⊢
      exact .found (Nat.succ_lt_succ among) (passes_cons first before) inside same
  | nothing all => exact .nothing (passes_cons first all)
  | @fails k e among before outside =>
      rw [place] at outside
      exact .fails e (Nat.succ_lt_succ among) (passes_cons first before) outside

/-- **How a search ends**, by induction on the number of fields. -/
theorem findField_ends (m : Memory) (x : Word) (words : Bool) (stride count addr : Nat) :
    SearchEnds m x words stride count addr (findField m x words stride count addr) := by
  induction count generalizing addr with
  | zero => exact .nothing fun j less => absurd less (Nat.not_lt_zero j)
  | succ count ih =>
      have here : addr + 0 * stride = addr := by rw [Nat.zero_mul, Nat.add_zero]
      have none : ∀ j < 0, m.Passes words x (addr + j * stride) :=
        fun j less => absurd less (Nat.not_lt_zero j)
      by_cases inside : m.FieldInside words addr
      · have loaded := Memory.tableField_inside inside
        by_cases same : m.fieldValue words addr = x
        · have finds : findField m x words stride (count + 1) addr =
              .ok (UInt16.ofNat (addr + 0 * stride)) := by
            rw [here, findField, loaded]
            exact if_pos same
          rw [finds]
          exact .found (Nat.succ_pos count) none (here.symm ▸ inside) (here.symm ▸ same)
        · have goes : findField m x words stride (count + 1) addr =
              findField m x words stride count (addr + stride) := by
            rw [findField, loaded]
            exact if_neg same
          rw [goes]
          exact (ih (addr + stride)).cons ⟨inside, same⟩
      · obtain ⟨e, refused⟩ := Memory.tableField_outside inside
        have stops : findField m x words stride (count + 1) addr = .error e := by
          rw [findField, refused]
          rfl
        rw [stops]
        exact .fails e (Nat.succ_pos count) none (here.symm ▸ inside)

/-- The first field with the value is found, if all before it lie inside. -/
theorem findField_found {k : Nat} (among : k < count)
    (inside : m.FieldInside words (addr + k * stride))
    (same : m.fieldValue words (addr + k * stride) = x)
    (before : ∀ j < k, m.Passes words x (addr + j * stride)) :
    findField m x words stride count addr = .ok (UInt16.ofNat (addr + k * stride)) := by
  have ends := findField_ends m x words stride count addr
  generalize findField m x words stride count addr = ended at ends
  cases ends with
  | @found k' _ before' inside' same' =>
      rcases Nat.lt_trichotomy k k' with less | rfl | more
      · exact absurd same (before' k less).2
      · rfl
      · exact absurd same' (before k' more).2
  | nothing all => exact absurd same (all k among).2
  | @fails k' _ _ before' outside =>
      rcases Nat.lt_trichotomy k k' with less | rfl | more
      · exact absurd same (before' k less).2
      · exact absurd inside outside
      · exact absurd (before k' more).1 outside

/-- Nothing is found where all fields lie inside and differ from the value. -/
theorem findField_nothing (all : ∀ j < count, m.Passes words x (addr + j * stride)) :
    findField m x words stride count addr = .ok 0 := by
  have ends := findField_ends m x words stride count addr
  generalize findField m x words stride count addr = ended at ends
  cases ends with
  | found among _ _ same => exact absurd same (all _ among).2
  | nothing _ => rfl
  | fails _ among _ outside => exact absurd (all _ among).1 outside

/-- A search fails exactly if a field lies outside and none before it has the value. -/
theorem findField_fails_iff :
    (∃ e, findField m x words stride count addr = .error e) ↔
      ∃ k < count, ¬ m.FieldInside words (addr + k * stride) ∧
        ∀ j < k, m.FieldInside words (addr + j * stride) →
          m.fieldValue words (addr + j * stride) ≠ x := by
  have ends := findField_ends m x words stride count addr
  generalize findField m x words stride count addr = ended at ends
  constructor
  · rintro ⟨e, rfl⟩
    cases ends with
    | fails _ among before outside =>
        exact ⟨_, among, outside, fun j less _ => (before j less).2⟩
  · rintro ⟨k, among, outside, differ⟩
    cases ends with
    | @found k' _ before inside same =>
        rcases Nat.lt_trichotomy k k' with less | rfl | more
        · exact absurd (before k less).1 outside
        · exact absurd inside outside
        · exact absurd same (differ k' more inside)
    | nothing all => exact absurd (all k among).1 outside
    | fails e _ _ _ => exact ⟨e, rfl⟩

end Search

/-! ## The instruction -/

/-- What a search is asked for: a value, where the table is, how many fields it has, and
their form if it is given. -/
structure TableSearch where
  value : Word
  table : Word
  count : Word
  form : Option Word
  deriving DecidableEq, Repr, Inhabited

namespace TableSearch

/-- The operands that ask for a search. -/
def operands (q : TableSearch) : List Word :=
  q.value :: q.table :: q.count :: q.form.toList

/-- Whether the fields are words: so says the top bit of the form's low byte. -/
def words (q : TableSearch) : Bool :=
  q.form.getD 0x82 &&& 0x80 != 0

/-- How far apart the fields stand: so say the other bits of the low byte. -/
def stride (q : TableSearch) : Nat :=
  (q.form.getD 0x82 &&& 0x7F).toNat

/-- The address of a field, counted from 0. -/
def place (q : TableSearch) (k : Nat) : Nat :=
  q.table.toNat + k * q.stride

/-- The story can load a field of the table. -/
def Inside (q : TableSearch) (m : Memory) (k : Nat) : Prop :=
  m.FieldInside q.words (q.place k)

instance (q : TableSearch) (m : Memory) (k : Nat) : Decidable (q.Inside m k) :=
  inferInstanceAs (Decidable (m.FieldInside q.words (q.place k)))

/-- The value of a field of the table. -/
def valueAt (q : TableSearch) (m : Memory) (k : Nat) : Word :=
  m.fieldValue q.words (q.place k)

variable {q : TableSearch} {m : Memory} {k : Nat}

/-- The address of a field that the story can load is a word. -/
theorem toNat_place (inside : q.Inside m k) : (UInt16.ofNat (q.place k)).toNat = q.place k := by
  have width : 0 < Memory.fieldWidth q.words := by
    rw [Memory.fieldWidth]
    split <;> decide
  have low : q.place k + Memory.fieldWidth q.words ≤ 0x10000 := inside.2
  have fits : q.place k < 2 ^ 16 := by omega
  exact UInt16.toNat_ofNat_of_lt' fits

/-- That word is not the answer for nothing found, if the table does not stand at 0. -/
theorem place_ne_zero (placed : q.table ≠ 0) (inside : q.Inside m k) :
    UInt16.ofNat (q.place k) ≠ 0 := by
  intro zero
  have sum : q.table.toNat + k * q.stride = 0 := by
    rw [← place, ← toNat_place inside, zero, UInt16.toNat_zero]
  exact placed (UInt16.toNat_inj.mp (Nat.add_eq_zero_iff.mp sum).1)

end TableSearch

variable {q : TableSearch} {i : Instruction} {s t : Session ω} {h : Host ω}

/-- The instruction searches a table, and its operands are taken. -/
structure Searches (s : Session ω) (i : Instruction) (q : TableSearch) (t : Session ω) : Prop where
  op : StorageOp.of? i.opcode.count i.opcode.number.toNat = some .scanTable
  plain : i.opcode.form ≠ .extended
  late : 4 ≤ s.machine.version
  resolved : (resolveAll i.operands).run s = (.ok q.operands, t)

/-- The operands tell the search what to look for. -/
theorem run_scanTable (apart : q.stride ≠ 0) (t : Session ω) :
    (scanTable q.operands).run t =
      (findField t.machine.memory q.value q.words q.stride q.count.toNat q.table.toNat, t) := by
  have value : (operand q.operands 0).run t = (.ok q.value, t) := rfl
  have table : (operand q.operands 1).run t = (.ok q.table, t) := rfl
  have count : (operand q.operands 2).run t = (.ok q.count, t) := rfl
  have form : q.operands.getD 3 0x82 = q.form.getD 0x82 := by
    rcases q with ⟨_, _, _, _ | _⟩ <;> rfl
  have apart : ¬ (q.form.getD 0x82 &&& 0x7F).toNat = 0 := apart
  rw [scanTable, Op.run_bind_ok value, Op.run_bind_ok table, Op.run_bind_ok count]
  simp only [form, if_neg apart]
  rfl

/-- Taking operands leaves memory and header alone. -/
theorem Searches.machine (searches : s.Searches i q t) :
    t.machine.memory = s.machine.memory ∧ t.machine.version = s.machine.version := by
  obtain ⟨stack, same⟩ := run_resolveAll i.operands s
  rw [searches.resolved] at same
  subst same
  exact ⟨rfl, rfl⟩

/-- The instruction stores what was found and branches on having found something. -/
theorem Searches.run_execute (searches : s.Searches i q t) (h : Host ω) :
    (execute h i).run s = (scanTable q.operands >>= fun found => do
      store i found
      branch i (found != 0)).run t := by
  have early : ¬ t.machine.version < 4 := Nat.not_lt.mpr (searches.machine.2 ▸ searches.late)
  have allowed : (requireVersion i 4).run t = (.ok (), t) := by
    rw [requireVersion, viewMachine, Op.run_view_bind, if_neg early]
    rfl
  rw [run_execute_storage h searches.op searches.plain searches.resolved, storage]
  exact Op.run_bind_ok allowed

/-- **How a search ends.** The instruction fails and leaves everything as it was when its
operands had been taken, or its result is stored and the branch is one on a result other than
0. -/
theorem Searches.ends (searches : s.Searches i q t) (apart : q.stride ≠ 0)
    (inside : t.machine.stack.frameTop ≤ t.machine.stack.depth) (h : Host ω) :
    (∃ e, (execute h i).run s = (.error e, t)) ∨
      ∃ found u, (scanTable q.operands).run t = (.ok found, t) ∧ Stored i found t u ∧
        BranchEnds i (found != 0) u ((execute h i).run s) := by
  have search := run_scanTable apart t
  rw [searches.run_execute h]
  generalize findField t.machine.memory q.value q.words q.stride q.count.toNat q.table.toNat =
    result at search
  rcases result with e | found
  · exact .inl ⟨e, Op.run_bind_error search⟩
  · rw [Op.run_bind_ok search]
    obtain ⟨u, stored, ends⟩ | ⟨e, failed⟩ :=
      store_branch_ends inside i found (found != 0)
    · exact .inr ⟨found, u, search, stored, ends⟩
    · exact .inl ⟨e, failed⟩

/-- **Searching a table finds the first match.** If a field has the value, while those before
it lie inside and differ from it, its address fits in a word; it is stored, and the branch is
one on success. If all fields lie inside and differ, 0 is stored and the branch is one on
failure. The search fails exactly if a field lies outside that is not behind one with the
value, and then nothing is stored. -/
theorem search_finds_first (h : Host ω) (searches : s.Searches i q t) (placed : q.table ≠ 0)
    (apart : q.stride ≠ 0) :
    let m := s.machine.memory
    let storing (found : Word) (success : Bool) : Op (Session ω) Outcome := do
      store i found
      branch i success
    (∀ k < q.count.toNat, q.Inside m k → q.valueAt m k = q.value →
      (∀ j < k, q.Inside m j ∧ q.valueAt m j ≠ q.value) →
      ∃ found : Word, found.toNat = q.place k ∧
        (execute h i).run s = (storing found true).run t) ∧
    ((∀ j < q.count.toNat, q.Inside m j ∧ q.valueAt m j ≠ q.value) →
      (execute h i).run s = (storing 0 false).run t) ∧
    ((∃ e, (scanTable q.operands).run t = (.error e, t)) ↔
      ∃ k < q.count.toNat, ¬ q.Inside m k ∧
        ∀ j < k, q.Inside m j → q.valueAt m j ≠ q.value) ∧
    ∀ e, (scanTable q.operands).run t = (.error e, t) → (execute h i).run s = (.error e, t) := by
  intro m storing
  have memory : t.machine.memory = m := searches.machine.1
  have search := run_scanTable apart t
  rw [memory] at search
  have run := searches.run_execute h
  refine ⟨?_, ?_, ?_, fun e fails => run.trans (Op.run_bind_error fails)⟩
  · intro k among inside same before
    have finds := findField_found among inside same before
    rw [finds] at search
    have something : (UInt16.ofNat (q.place k) != 0) = true :=
      bne_iff_ne.mpr (TableSearch.place_ne_zero placed inside)
    refine ⟨UInt16.ofNat (q.place k), TableSearch.toNat_place inside,
      run.trans ((Op.run_bind_ok search).trans ?_)⟩
    change (store i (UInt16.ofNat (q.place k)) >>= fun _ =>
      branch i (UInt16.ofNat (q.place k) != 0)).run t = _
    rw [something]
  · intro all
    rw [findField_nothing all] at search
    exact run.trans (Op.run_bind_ok search)
  · rw [search]
    constructor
    · rintro ⟨e, fails⟩
      exact findField_fails_iff.mp ⟨e, congrArg Prod.fst fails⟩
    · intro fails
      obtain ⟨e, fails⟩ := findField_fails_iff.mpr fails
      exact ⟨e, congrArg (·, t) fails⟩

/-- A story of version 4 that looks for a word in a table at 64, whose fields stand one byte
apart and so overlap. -/
def scanningStory : Array Byte :=
  #[4, 0, 0, 0, 0, 0x40, 0, 0x46, 0, 0x58, 0, 0x40, 0, 0x40, 0, 0x40] ++ Array.replicate 48 0 ++
    #[0, 1, 0, 2, 0, 3, 0xF7, 5, 2, 0, 0, 0x40, 6, 0x81, 0, 0xC5] ++ Array.replicate 16 0

/-- The machine on which the story that searches is played. -/
def scanningMachine : Machine :=
  Machine.ofStory scanningStory

theorem scanningMachine_loaded : Machine.load scanningStory {} 0 = .ok scanningMachine :=
  Machine.load_ofStory (by decide +kernel)

/-- The search of the story, whose result is pushed. -/
def scanInstruction : Instruction where
  addr := 0x46
  opcode := ⟨.variable, .var, 0x17, none⟩
  operands := [.large 0x0200, .large 0x40, .small 6, .small 0x81]
  store := some 0
  branch := some ⟨true, 5⟩
  text := none
  size := 10

/-- The session of that story, on its way through the search. -/
def scanningSession : Session Unit :=
  (start scanningMachine "table" ()).enter Host.null scanInstruction

/-- What that search is for. -/
def scanningSearch : TableSearch :=
  { value := 0x0200, table := 0x40, count := 6, form := some 0x81 }

/-- The word 0x0200 stands first at 67, in the bytes of two others. So 67 is put on the stack,
and the story goes on at 0x53, three bytes behind the search. -/
theorem scanningStory_finds :
    Machine.load scanningStory {} 0 = .ok scanningMachine ∧
    (start scanningMachine "table" ()).Executes scanInstruction ∧
    scanningSession.Searches scanInstruction scanningSearch scanningSession ∧
    scanningSearch.table ≠ 0 ∧ scanningSearch.stride ≠ 0 ∧
    ∃ t, (execute Host.null scanInstruction).run scanningSession = (.ok .branched, t) ∧
      t.machine.stack.peek = .ok 67 ∧ t.machine.pc = 0x53 := by
  have executes : (start scanningMachine "table" ()).Executes scanInstruction := by
    refine ⟨rfl, rfl, eq_ok_of_toOption ?_⟩
    decide +kernel
  have searches : scanningSession.Searches scanInstruction scanningSearch scanningSession := by
    refine ⟨rfl, by decide, ?_, rfl⟩
    decide +kernel
  have placed : scanningSearch.table ≠ 0 := by decide
  have apart : scanningSearch.stride ≠ 0 := by decide
  have inside : scanningSearch.Inside scanningMachine.memory 3 := by decide +kernel
  have same : scanningSearch.valueAt scanningMachine.memory 3 = 0x0200 := by decide +kernel
  have before : ∀ j < 3, scanningSearch.Inside scanningMachine.memory j ∧
      scanningSearch.valueAt scanningMachine.memory j ≠ 0x0200 := by
    decide +kernel
  have finds := (search_finds_first Host.null searches placed apart).1
  obtain ⟨found, place, run⟩ := finds 3 (by decide) inside same before
  obtain rfl : found = 67 := UInt16.toNat_inj.mp place
  let ending := (store scanInstruction 67 >>= fun _ => branch scanInstruction true).run
    scanningSession
  have branched : ending.1 = .ok .branched := eq_ok_of_toOption (by decide +kernel)
  have top : ending.2.machine.stack.peek = .ok 67 := eq_ok_of_toOption (by decide +kernel)
  have onward : ending.2.machine.pc = 0x53 := by decide +kernel
  exact ⟨scanningMachine_loaded, executes, searches, placed, apart, ending.2,
    run.trans (Prod.ext branched rfl), top, onward⟩

end Session

end ZMachine
