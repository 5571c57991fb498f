import Mathlib.Data.List.Pairwise
import ZMachine.Proofs.Memory.Layout
import ZMachine.Proofs.Object.Links

/-!
# Views of an object's properties

The blocks of a property table stand one behind the other, each a header and its data,
up to a zero byte (`Laid`). The accessors look at them in different ways: by number, by
the place after another number, and backwards from the address of the data. Where the
numbers descend and no byte serves two purposes, the views agree, and changing the value
of a property changes its data and nothing that any view shows of the others
(`property_views_agree`).
-/

set_option autoImplicit false

namespace ZMachine

/-- The byte at an address belongs to the data of a block. -/
def PropertyBlock.Holds (b : PropertyBlock) (i : Nat) : Prop :=
  b.dataAddr ≤ i ∧ i < b.dataAddr + b.length

namespace ObjectTable

variable {t : ObjectTable} {m m' : Memory} {obj : Word} {addr : Nat} {b c : PropertyBlock}
  {blocks : List PropertyBlock}

/-! ## Headers -/

/-- A block as its header in an image states it. -/
inductive Headed (t : ObjectTable) (m : Memory) : PropertyBlock → Prop where
  | early {addr : Nat} {byte : Byte} (early : t.early = true) (read : m.getByte addr = .ok byte)
      (some : byte ≠ 0) : Headed t m ⟨byte.toNat % 32, byte.toNat / 32 + 1, addr + 1, addr⟩
  | short {addr : Nat} {byte : Byte} (late : t.early = false) (read : m.getByte addr = .ok byte)
      (some : byte ≠ 0) (single : byte.toNat < 0x80) :
      Headed t m ⟨byte.toNat % 64, if byte &&& 0x40 ≠ 0 then 2 else 1, addr + 1, addr⟩
  | long {addr : Nat} {byte second : Byte} (late : t.early = false)
      (read : m.getByte addr = .ok byte) (double : 0x80 ≤ byte.toNat)
      (size : m.getByte (addr + 1) = .ok second) :
      Headed t m ⟨byte.toNat % 64, longLength second, addr + 2, addr⟩

/-- A block is read as its header states it. -/
theorem readBlock_eq_some :
    t.readBlock m addr = .ok (some b) ↔ t.Headed m b ∧ b.headerAddr = addr := by
  constructor
  · intro given
    obtain ⟨byte, read, given⟩ := bind_eq_ok given
    split at given
    · cases given
    rename_i more
    cases early : t.early with
    | true =>
        rw [early] at given
        cases given
        exact ⟨.early early read more, rfl⟩
    | false =>
        rw [early] at given
        simp only [Bool.false_eq_true, if_false] at given
        split at given
        · rename_i double
          obtain ⟨second, size, given⟩ := bind_eq_ok given
          cases given
          exact ⟨.long early read double size, rfl⟩
        · rename_i single
          cases given
          exact ⟨.short early read more (Nat.not_le.mp single), rfl⟩
  · rintro ⟨headed, rfl⟩
    cases headed with
    | early early read some =>
        rw [readBlock, read]
        change (if _ then _ else if _ then _ else _) = _
        rw [if_neg some, if_pos early]
        rfl
    | short late read some single =>
        rw [readBlock, read]
        change (if _ then _ else if _ then _ else if _ then _ else _) = _
        rw [if_neg some, late, if_neg Bool.false_ne_true, if_neg (Nat.not_le.mpr single)]
        rfl
    | @long _ byte _ late read double size =>
        have some : byte ≠ 0 := by
          rintro rfl
          exact absurd double (by decide)
        rw [readBlock, read]
        change (if _ then _ else if _ then _ else if _ then _ else _) = _
        rw [if_neg some, late, if_neg Bool.false_ne_true, if_pos double, size]
        rfl

/-- A zero byte ends the table. -/
theorem readBlock_eq_none : t.readBlock m addr = .ok none ↔ m.getByte addr = .ok 0 := by
  constructor
  · intro given
    obtain ⟨byte, read, given⟩ := bind_eq_ok given
    by_cases zero : byte = 0
    · rw [read, zero]
    · rw [if_neg zero] at given
      split at given
      · cases given
      · split at given
        · obtain ⟨_, _, given⟩ := bind_eq_ok given
          cases given
        · cases given
  · intro read
    rw [readBlock, read]
    rfl

theorem Headed.data (headed : t.Headed m b) :
    b.headerAddr < b.dataAddr ∧ b.dataAddr ≤ b.headerAddr + 2 := by
  cases headed <;> simp

theorem Headed.id_le (headed : t.Headed m b) : b.id ≤ t.lastProperty := by
  cases headed with
  | early early _ _ =>
      simp only [lastProperty, early]
      simp
      omega
  | short late _ _ _ =>
      simp only [lastProperty, late]
      simp
      omega
  | long late _ _ _ =>
      simp only [lastProperty, late]
      simp
      omega

/-- A header is read from its own bytes. -/
theorem Headed.congr (headed : t.Headed m b) (size : m'.bytes.size = m.bytes.size)
    (same : ∀ i, b.headerAddr ≤ i → i < b.dataAddr → m'.bytes[i]? = m.bytes[i]?) :
    t.Headed m' b := by
  have kept : ∀ {i : Nat} {byte : Byte}, b.headerAddr ≤ i → i < b.dataAddr →
      m.getByte i = .ok byte → m'.getByte i = .ok byte := by
    intro i byte low high read
    rw [Memory.getByte_congr size (same i low high), read]
  cases headed with
  | early early read some =>
      exact .early early (kept (Nat.le_refl _) (Nat.lt_succ_self _) read) some
  | short late read some single =>
      exact .short late (kept (Nat.le_refl _) (Nat.lt_succ_self _) read) some single
  | long late read double second =>
      exact .long late (kept (Nat.le_refl _) (Nat.lt_add_of_pos_right Nat.two_pos) read) double
        (kept (Nat.le_succ _) (Nat.lt_succ_self _) second)

/-! ## Tables -/

/-- The blocks that stand from an address on, up to a zero byte. -/
inductive Laid (t : ObjectTable) (m : Memory) : Nat → List PropertyBlock → Prop where
  | nil {addr : Nat} (ends : m.getByte addr = .ok 0) : Laid t m addr []
  | cons {b : PropertyBlock} {rest : List PropertyBlock} (headed : t.Headed m b)
      (more : Laid t m (b.dataAddr + b.length) rest) : Laid t m b.headerAddr (b :: rest)

theorem laid_nil : t.Laid m addr [] ↔ t.readBlock m addr = .ok none := by
  rw [readBlock_eq_none]
  constructor
  · rintro ⟨ends⟩
    exact ends
  · exact .nil

theorem laid_cons {rest : List PropertyBlock} :
    t.Laid m addr (b :: rest) ↔
      t.readBlock m addr = .ok (some b) ∧ t.Laid m (b.dataAddr + b.length) rest := by
  rw [readBlock_eq_some]
  constructor
  · rintro ⟨⟩
    rename_i headed more
    exact ⟨⟨headed, rfl⟩, more⟩
  · rintro ⟨⟨headed, rfl⟩, more⟩
    exact .cons headed more

theorem readBlocks_eq_nil {room : Nat} :
    t.readBlocks m obj room addr = .ok [] ↔ t.readBlock m addr = .ok none := by
  rw [readBlocks]
  constructor
  · intro given
    obtain ⟨found, read, given⟩ := bind_eq_ok given
    cases found with
    | none => exact read
    | some b =>
        cases room with
        | zero => cases given
        | succ room =>
            obtain ⟨rest, _, given⟩ := bind_eq_ok given
            cases given
  · intro read
    rw [read]
    rfl

theorem readBlocks_eq_cons {room : Nat} {rest : List PropertyBlock} :
    t.readBlocks m obj room addr = .ok (b :: rest) ↔
      t.readBlock m addr = .ok (some b) ∧
        ∃ left, room = left + 1 ∧
          t.readBlocks m obj left (b.dataAddr + b.length) = .ok rest := by
  rw [readBlocks]
  constructor
  · intro given
    obtain ⟨found, read, given⟩ := bind_eq_ok given
    cases found with
    | none => cases given
    | some c =>
        cases room with
        | zero => cases given
        | succ left =>
            obtain ⟨more, walked, given⟩ := bind_eq_ok given
            cases given
            exact ⟨read, left, rfl, walked⟩
  · rintro ⟨read, left, rfl, walked⟩
    rw [read]
    change (t.readBlocks m obj left (b.dataAddr + b.length) >>= fun rest => pure (b :: rest)) = _
    rw [walked]
    rfl

/-- The blocks that are read are those that stand there, if they are not too many. -/
theorem readBlocks_eq_ok {room : Nat} :
    t.readBlocks m obj room addr = .ok blocks ↔ t.Laid m addr blocks ∧ blocks.length ≤ room := by
  induction blocks generalizing room addr with
  | nil => simp [readBlocks_eq_nil, laid_nil]
  | cons b rest ih =>
      rw [readBlocks_eq_cons, laid_cons, and_assoc]
      refine and_congr_right fun _ => ?_
      constructor
      · rintro ⟨left, rfl, walked⟩
        obtain ⟨laid, few⟩ := ih.mp walked
        exact ⟨laid, Nat.succ_le_succ few⟩
      · rintro ⟨laid, few⟩
        obtain ⟨left, rfl⟩ := Nat.exists_eq_add_of_le' (Nat.lt_of_lt_of_le (Nat.succ_pos _) few)
        exact ⟨left, rfl, ih.mpr ⟨laid, Nat.le_of_succ_le_succ few⟩⟩

/-- What is read of an object's properties: the address of the table, the length of the
name at its front, and the blocks behind the name. -/
theorem properties_eq_ok :
    t.properties m obj = .ok blocks ↔
      ∃ table name, t.propertiesAddr m obj = .ok table ∧ m.getByte table = .ok name ∧
        t.Laid m (table + 1 + name.toNat * 2) blocks ∧ blocks.length ≤ t.lastProperty + 1 := by
  constructor
  · intro given
    obtain ⟨table, found, given⟩ := bind_eq_ok given
    obtain ⟨name, named, given⟩ := bind_eq_ok given
    exact ⟨table, name, found, named, readBlocks_eq_ok.mp given⟩
  · rintro ⟨table, name, found, named, laid⟩
    rw [properties, found]
    change (m.getByte table >>= fun name => t.readBlocks m obj (t.lastProperty + 1)
      (table + 1 + name.toNat * 2)) = _
    rw [named]
    exact readBlocks_eq_ok.mpr laid

namespace Laid

theorem headed (laid : t.Laid m addr blocks) (member : b ∈ blocks) :
    t.Headed m b ∧ addr ≤ b.headerAddr := by
  induction laid with
  | nil _ => cases member
  | @cons first rest headed _ ih =>
      obtain ⟨above, _⟩ := headed.data
      rcases List.mem_cons.mp member with rfl | later
      · exact ⟨headed, Nat.le_refl _⟩
      · obtain ⟨headed', behind⟩ := ih later
        exact ⟨headed', by omega⟩

/-- Each block ends before the header of the next one. -/
theorem in_order (laid : t.Laid m addr blocks) :
    blocks.Pairwise fun b c => b.dataAddr + b.length ≤ c.headerAddr := by
  induction laid with
  | nil _ => exact .nil
  | cons _ more ih => exact .cons (fun c later => (more.headed later).2) ih

/-- Different blocks share no byte. -/
theorem apart (laid : t.Laid m addr blocks) (here : b ∈ blocks) (there : c ∈ blocks)
    (other : b ≠ c) :
    b.dataAddr + b.length ≤ c.headerAddr ∨ c.dataAddr + c.length ≤ b.headerAddr := by
  let Apart := fun b c : PropertyBlock =>
    b.dataAddr + b.length ≤ c.headerAddr ∨ c.dataAddr + c.length ≤ b.headerAddr
  have symmetric : Std.Symm Apart := ⟨fun _ _ => Or.symm⟩
  have either : blocks.Pairwise Apart := laid.in_order.imp fun order => .inl order
  exact either.forall here there other

/-- Blocks are read from their headers: the data does not matter. -/
theorem congr (laid : t.Laid m addr blocks) (size : m'.bytes.size = m.bytes.size)
    (same : ∀ i, addr ≤ i →
      (∀ b ∈ blocks, ¬ b.Holds i) → m'.bytes[i]? = m.bytes[i]?) :
    t.Laid m' addr blocks := by
  induction laid with
  | nil ends =>
      refine .nil ?_
      rw [Memory.getByte_congr size (same _ (Nat.le_refl _) (by simp)), ends]
  | @cons first rest headed more ih =>
      obtain ⟨above, _⟩ := headed.data
      refine .cons (headed.congr size fun i low high => same i low ?_) (ih fun i low free => ?_)
      · rintro b member ⟨beyond, _⟩
        rcases List.mem_cons.mp member with rfl | later
        · omega
        · obtain ⟨headed', behind⟩ := more.headed later
          obtain ⟨_, _⟩ := headed'.data
          omega
      · refine same i (by omega) fun b member => ?_
        rcases List.mem_cons.mp member with rfl | later
        · exact fun holds => Nat.not_lt.mpr low holds.2
        · exact free b later

end Laid

/-! ## Orderly tables -/

/-- The byte at an address belongs to the default values. -/
def InDefaults (t : ObjectTable) (i : Nat) : Prop :=
  t.addr ≤ i ∧ i < t.entriesAddr

/-- The byte at an address belongs to the entry of an object. -/
def InEntry (t : ObjectTable) (obj : Word) (i : Nat) : Prop :=
  t.entriesAddr + (obj.toNat - 1) * t.entrySize ≤ i ∧
    i < t.entriesAddr + (obj.toNat - 1) * t.entrySize + t.entrySize

/-- The properties of an object are those blocks, in descending order; a size byte has its
top bit set, addresses fit into a word, and no data lies in the defaults or in the entry of
the object. -/
structure Orderly (t : ObjectTable) (m : Memory) (obj : Word) (blocks : List PropertyBlock) :
    Prop where
  walked : t.properties m obj = .ok blocks
  descending : blocks.Pairwise fun b c => c.id < b.id
  numbered : ∀ b ∈ blocks, b.id ≠ 0
  marked : ∀ b ∈ blocks, b.dataAddr = b.headerAddr + 2 →
    ∃ size, m.getByte (b.headerAddr + 1) = .ok size ∧ 0x80 ≤ size.toNat
  low : ∀ b ∈ blocks, b.dataAddr + b.length < 0x10000
  apart : ∀ b ∈ blocks, ∀ i, b.Holds i → ¬ t.InDefaults i ∧ ¬ t.InEntry obj i

/-- A number belongs to one block at most. -/
theorem find?_id (descending : blocks.Pairwise fun b c => c.id < b.id) (member : b ∈ blocks) :
    blocks.find? (·.id = b.id) = some b := by
  induction descending with
  | nil => cases member
  | @cons first rest below _ ih =>
      rcases List.mem_cons.mp member with rfl | later
      · exact List.find?_cons_of_pos (by simp)
      · have other : first.id ≠ b.id := Nat.ne_of_gt (below b later)
        rw [List.find?_cons_of_neg (by simpa using other), ih later]

/-- Behind the block with a number stand the blocks that follow it. -/
theorem dropWhile_id (descending : blocks.Pairwise fun b c => c.id < b.id) {k : Nat}
    (inside : k < blocks.length) :
    blocks.dropWhile (·.id ≠ blocks[k].id) = blocks[k] :: blocks.drop (k + 1) := by
  have here := List.drop_eq_getElem_cons inside
  have above : ∀ c ∈ blocks.take k, blocks[k].id < c.id := by
    rw [← List.take_append_drop k blocks, here] at descending
    intro c before
    exact (List.pairwise_append.mp descending).2.2 c before _ List.mem_cons_self
  calc blocks.dropWhile (·.id ≠ blocks[k].id)
    _ = (blocks.take k ++ blocks.drop k).dropWhile (·.id ≠ blocks[k].id) := by
        rw [List.take_append_drop]
    _ = (blocks.drop k).dropWhile (·.id ≠ blocks[k].id) :=
        List.dropWhile_append_of_pos fun c before => by simpa using Nat.ne_of_gt (above c before)
    _ = blocks[k] :: blocks.drop (k + 1) := by
        rw [here, List.dropWhile_cons_of_neg (by simp)]

namespace Orderly

/-- The numbers of properties fit into a byte. -/
theorem headed (orderly : t.Orderly m obj blocks) (member : b ∈ blocks) : t.Headed m b := by
  obtain ⟨_, _, _, _, laid, _⟩ := properties_eq_ok.mp orderly.walked
  exact (laid.headed member).1

/-! ### Looking a property up -/

theorem findProperty_eq (orderly : t.Orderly m obj blocks) (p : Word) :
    t.findProperty m obj p = .ok (blocks.find? (·.id = p.toNat)) := by
  rw [findProperty, orderly.walked]
  rfl

theorem findProperty_member (orderly : t.Orderly m obj blocks) (member : b ∈ blocks) {p : Word}
    (named : p.toNat = b.id) : t.findProperty m obj p = .ok (some b) := by
  rw [orderly.findProperty_eq, named, find?_id orderly.descending member]

/-- The address of a property's data is where its block holds it. -/
theorem propertyAddress_member (orderly : t.Orderly m obj blocks) (member : b ∈ blocks) {p : Word}
    (named : p.toNat = b.id) :
    t.propertyAddress m obj p = .ok (UInt16.ofNat b.dataAddr) ∧
      (UInt16.ofNat b.dataAddr).toNat = b.dataAddr := by
  constructor
  · rw [propertyAddress, orderly.findProperty_member member named]
    rfl
  · have low := orderly.low b member
    exact UInt16.toNat_ofNat_of_lt' (by rw [UInt16.size]; omega)

theorem propertyAddress_absent (orderly : t.Orderly m obj blocks) {p : Word}
    (absent : ∀ b ∈ blocks, p.toNat ≠ b.id) : t.propertyAddress m obj p = .ok 0 := by
  have none : blocks.find? (·.id = p.toNat) = none :=
    List.find?_eq_none.mpr fun b member => by simpa using (absent b member).symm
  rw [propertyAddress, orderly.findProperty_eq, none]
  rfl

end Orderly

/-- The length is read back from the last byte of the header. -/
theorem Headed.propertyLength_eq (headed : t.Headed m b)
    (marked : b.dataAddr = b.headerAddr + 2 →
      ∃ size, m.getByte (b.headerAddr + 1) = .ok size ∧ 0x80 ≤ size.toNat) :
    t.propertyLength m b.dataAddr = .ok (UInt16.ofNat b.length) := by
  cases headed with
  | @early addr byte early read _ =>
      rw [propertyLength, if_neg (Nat.succ_ne_zero _), Nat.add_sub_cancel, read]
      change (if _ then _ else _) = _
      rw [if_pos early]
      rfl
  | @short addr byte late read _ single =>
      rw [propertyLength, if_neg (Nat.succ_ne_zero _), Nat.add_sub_cancel, read]
      change (if _ then _ else if _ then _ else _) = _
      rw [late, if_neg Bool.false_ne_true, if_neg (Nat.not_le.mpr single)]
      refine congrArg Except.ok ?_
      split <;> rfl
  | @long addr byte second late _ _ size =>
      obtain ⟨size', again, top⟩ := marked rfl
      cases size.symm.trans again
      rw [propertyLength, if_neg (Nat.succ_ne_zero _)]
      change (m.getByte (addr + 1) >>= _) = _
      rw [size]
      change (if _ then _ else if _ then _ else _) = _
      rw [late, if_neg Bool.false_ne_true, if_pos top]
      rfl

theorem Headed.length_le (headed : t.Headed m b) : 0 < b.length ∧ b.length ≤ 64 := by
  cases headed with
  | @early _ byte _ _ _ =>
      have := byte.toNat_lt
      simp only
      omega
  | short _ _ _ _ => simp only; split <;> simp
  | long _ _ _ _ => simp only [longLength]; split <;> omega

/-- A size field of zero stands for 64 bytes. -/
theorem Headed.length_of_zero (headed : t.Headed m b) (double : b.dataAddr = b.headerAddr + 2)
    {size : Byte} (read : m.getByte (b.headerAddr + 1) = .ok size) (zero : size.toNat % 64 = 0) :
    b.length = 64 := by
  cases headed with
  | early _ _ _ => exact absurd double (by simp)
  | short _ _ _ _ => exact absurd double (by simp)
  | long _ _ _ second =>
      cases second.symm.trans read
      exact if_pos zero

/-! ## From one property to the next -/

/-- The property after so many others, from the first one on. -/
def nthProperty (t : ObjectTable) (m : Memory) (obj : Word) : Nat → Except Fault Word
  | 0 => t.nextProperty m obj 0
  | k + 1 => do t.nextProperty m obj (← nthProperty t m obj k)

theorem Headed.toNat_id (headed : t.Headed m b) : (UInt16.ofNat b.id).toNat = b.id := by
  have bound : b.id ≤ 63 := by
    refine Nat.le_trans headed.id_le ?_
    rw [lastProperty]
    split <;> decide
  exact UInt16.toNat_ofNat_of_lt' (by rw [UInt16.size]; omega)

theorem Orderly.nextProperty_member (orderly : t.Orderly m obj blocks) {k : Nat}
    (inside : k < blocks.length) :
    t.nextProperty m obj (UInt16.ofNat blocks[k].id) = .ok (idOrZero blocks[k + 1]?) := by
  have member : blocks[k] ∈ blocks := List.getElem_mem inside
  have number := (orderly.headed member).toNat_id
  have some : UInt16.ofNat blocks[k].id ≠ 0 := by
    intro zero
    rw [zero] at number
    exact orderly.numbered _ member number.symm
  rw [nextProperty, orderly.walked]
  change (if _ then _ else _) = _
  rw [if_neg some, number, dropWhile_id orderly.descending inside]
  change Except.ok (idOrZero (blocks.drop (k + 1)).head?) = _
  rw [List.head?_drop]

/-- Going from property to property gives the numbers in order, and then 0. -/
theorem Orderly.nthProperty_eq (orderly : t.Orderly m obj blocks) {k : Nat}
    (inside : k ≤ blocks.length) : t.nthProperty m obj k = .ok (idOrZero blocks[k]?) := by
  induction k with
  | zero =>
      rw [nthProperty, nextProperty, orderly.walked]
      change Except.ok (idOrZero blocks.head?) = _
      rw [List.head?_eq_getElem?]
  | succ k ih =>
      have here : blocks[k]? = some blocks[k] := List.getElem?_eq_getElem inside
      rw [nthProperty, ih (Nat.le_of_succ_le inside), here]
      exact orderly.nextProperty_member inside

theorem Orderly.toNat_idOrZero (orderly : t.Orderly m obj blocks) (k : Nat) :
    (idOrZero blocks[k]?).toNat = (blocks[k]?.map (·.id)).getD 0 := by
  by_cases inside : k < blocks.length
  · rw [List.getElem?_eq_getElem inside]
    exact (orderly.headed (List.getElem_mem inside)).toNat_id
  · rw [List.getElem?_eq_none (Nat.not_lt.mp inside)]
    rfl

/-! ## Changing a value -/

/-- The bytes of a value in a property of one byte or of two. -/
def valueBytes (length : Nat) (value : Word) : List Byte :=
  if length = 1 then [lowByte value] else [highByte value, lowByte value]

/-- A value is put in place of the data of a block with one byte or two. -/
theorem putProperty_lays {prop value : Word}
    (run : (t.putProperty obj prop value).run m = (.ok (), m')) :
    ∃ b, t.findProperty m obj prop = .ok (some b) ∧ (b.length = 1 ∨ b.length = 2) ∧
      m.Writable b.dataAddr b.length ∧ m' = m.lay b.dataAddr (valueBytes b.length value) := by
  obtain ⟨found, read, run⟩ := Op.run_bind_eq_ok run
  rw [Op.run_query] at read run
  cases found with
  | none => cases run
  | some b =>
      refine ⟨b, read, ?_⟩
      change (if _ then _ else if _ then _ else _ : Op Memory Unit).run m = _ at run
      split at run
      · rename_i one
        obtain ⟨writable, laid⟩ := Memory.writeByte_eq_ok.mp run
        rw [one]
        exact ⟨.inl rfl, writable, laid⟩
      · split at run
        · rename_i two
          obtain ⟨writable, laid⟩ := Memory.writeWord_eq_ok.mp run
          rw [two]
          exact ⟨.inr rfl, writable, laid⟩
        · cases run

theorem length_valueBytes {length : Nat} (value : Word) (short : length = 1 ∨ length = 2) :
    (valueBytes length value).length = length := by
  rcases short with rfl | rfl <;> rfl

/-- The address of a property table is read from two bytes of the entry. -/
def InTableField (t : ObjectTable) (obj : Word) (i : Nat) : Prop :=
  let field := t.entriesAddr + (obj.toNat - 1) * t.entrySize + if t.early then 7 else 12
  i = field ∨ i = field + 1

theorem InTableField.inEntry {i : Nat} (inField : t.InTableField obj i) : t.InEntry obj i := by
  rw [InTableField] at inField
  rw [InEntry, entrySize]
  rw [entrySize] at inField
  split at inField <;> split <;> simp_all <;> omega

theorem propertiesAddr_congr (size : m'.bytes.size = m.bytes.size)
    (same : ∀ i, t.InTableField obj i → m'.bytes[i]? = m.bytes[i]?) :
    t.propertiesAddr m' obj = t.propertiesAddr m obj := by
  rw [propertiesAddr, propertiesAddr]
  cases found : t.entryAddr obj with
  | error fault => rfl
  | ok entry =>
      obtain ⟨_, rfl⟩ := eq_of_entryAddr found
      have read := Memory.getWord_congr size (same _ (.inl rfl)) (same _ (.inr rfl))
      exact congrArg (· >>= fun w => pure w.toNat) read

theorem requireProperty_eq_ok {p : Word} (required : t.requireProperty p = .ok ()) :
    p ≠ 0 ∧ p.toNat ≤ t.lastProperty := by
  rw [requireProperty] at required
  split at required
  · cases required
  · rename_i within
    exact ⟨fun zero => within (.inl zero), Nat.not_lt.mp fun beyond => within (.inr beyond)⟩

/-- A default value is read from the defaults. -/
theorem defaultProperty_congr {p : Word} (size : m'.bytes.size = m.bytes.size)
    (same : ∀ i, t.InDefaults i → m'.bytes[i]? = m.bytes[i]?) :
    t.defaultProperty m' p = t.defaultProperty m p := by
  rw [defaultProperty, defaultProperty]
  cases required : t.requireProperty p with
  | error fault => rfl
  | ok _ =>
      obtain ⟨nonzero, most⟩ := requireProperty_eq_ok required
      have pos : 0 < p.toNat := Nat.pos_of_ne_zero fun zero => nonzero (UInt16.toNat_inj.mp zero)
      refine Memory.getWord_congr size (same _ ?_) (same _ ?_) <;>
        rw [InDefaults, entriesAddr] <;> omega

namespace Orderly

/-- Where only the data of a block is changed, the blocks are as they were. -/
theorem properties_kept (orderly : t.Orderly m obj blocks) (member : b ∈ blocks)
    (size : m'.bytes.size = m.bytes.size)
    (same : ∀ i, ¬ b.Holds i → m'.bytes[i]? = m.bytes[i]?) :
    t.properties m' obj = .ok blocks := by
  obtain ⟨table, name, found, named, laid, few⟩ := properties_eq_ok.mp orderly.walked
  obtain ⟨headed, behind⟩ := laid.headed member
  obtain ⟨above, _⟩ := headed.data
  refine properties_eq_ok.mpr ⟨table, name, ?_, ?_, laid.congr size ?_, few⟩
  · rw [propertiesAddr_congr size fun i inField => same i fun holds => ?_, found]
    exact (orderly.apart b member i holds).2 inField.inEntry
  · rw [Memory.getByte_congr size (same table fun holds => ?_), named]
    have := holds.1
    omega
  · exact fun i _ free => same i (free b member)

/-- The data of one block is no part of the data of another. -/
theorem not_holds (orderly : t.Orderly m obj blocks) (here : b ∈ blocks) (there : c ∈ blocks)
    (other : b ≠ c) {i : Nat} (holds : c.Holds i) : ¬ b.Holds i := by
  obtain ⟨_, _, _, _, laid, _⟩ := properties_eq_ok.mp orderly.walked
  have := (laid.headed here).1.data
  have := (laid.headed there).1.data
  have apart := laid.apart here there other
  obtain ⟨low, high⟩ := holds
  rintro ⟨low', high'⟩
  omega

/-- Where only the data of a block is changed, the other properties have the values that
they had. -/
theorem getProperty_kept (orderly : t.Orderly m obj blocks) (member : b ∈ blocks)
    (size : m'.bytes.size = m.bytes.size)
    (same : ∀ i, ¬ b.Holds i → m'.bytes[i]? = m.bytes[i]?) {q : Word} (other : q.toNat ≠ b.id) :
    t.getProperty m' obj q = t.getProperty m obj q := by
  have found : t.findProperty m' obj q = .ok (blocks.find? (·.id = q.toNat)) := by
    rw [findProperty, orderly.properties_kept member size same]
    rfl
  rw [getProperty, getProperty, found, orderly.findProperty_eq]
  refine congrArg (t.requireProperty q >>= ·) (funext fun _ => ?_)
  rcases searched : blocks.find? (·.id = q.toNat) with _ | c <;> rw [searched]
  · refine defaultProperty_congr size fun i default => same i fun holds => ?_
    exact (orderly.apart b member i holds).1 default
  · have there : c ∈ blocks := List.mem_of_find?_eq_some searched
    have number : c.id = q.toNat := by simpa using List.find?_some searched
    have apart : ∀ {i}, c.Holds i → m'.bytes[i]? = m.bytes[i]? := by
      intro i holds
      refine same i (orderly.not_holds member there ?_ holds)
      rintro rfl
      exact other number.symm
    change (if _ then _ else if _ then _ else _) = (if _ then _ else if _ then _ else _)
    by_cases one : c.length = 1
    · rw [if_pos one, if_pos one, Memory.getByte_congr size (apart ⟨Nat.le_refl _, by omega⟩)]
    · by_cases two : c.length = 2
      · rw [if_neg one, if_pos two, if_neg one, if_pos two, Memory.getWord_congr size]
        · exact apart ⟨Nat.le_refl _, by omega⟩
        · exact apart ⟨Nat.le_succ _, by omega⟩
      · rw [if_neg one, if_neg two, if_neg one, if_neg two]

end Orderly

/-- The value that is read from the bytes of a value. -/
theorem getProperty_of_stand {p value : Word} (few : t.requireProperty p = .ok ())
    (found : t.findProperty m' obj p = .ok (some b)) (short : b.length = 1 ∨ b.length = 2)
    (stand : m'.Stand b.dataAddr (valueBytes b.length value)) :
    t.getProperty m' obj p = .ok (if b.length = 1 then value % 256 else value) := by
  rw [getProperty, few, found]
  change (if _ then _ else if _ then _ else _) = _
  rcases short with one | two
  · rw [one] at stand
    have read : m'.getByte b.dataAddr = .ok (lowByte value) := stand.getByte
    rw [if_pos one, read, if_pos one]
    refine congrArg Except.ok (UInt16.toNat_inj.mp ?_)
    rw [UInt8.toNat_toUInt16, toNat_lowByte, UInt16.toNat_mod]
    rfl
  · rw [two] at stand
    have read : m'.getWord b.dataAddr = .ok value := stand.getWord
    have more : b.length ≠ 1 := by omega
    rw [if_neg more, if_pos two, read, if_neg more]

/-- A value that is put in place is read back as far as there is room for it, and neither the
blocks nor another value is changed. -/
theorem Orderly.putProperty_changes (orderly : t.Orderly m obj blocks) {p value : Word}
    (run : (t.putProperty obj p value).run m = (.ok (), m')) :
    ∃ b ∈ blocks, b.id = p.toNat ∧ t.properties m' obj = .ok blocks ∧
      t.getProperty m' obj p = .ok (if b.length = 1 then value % 256 else value) ∧
      (∀ q, q ≠ p → t.getProperty m' obj q = t.getProperty m obj q) ∧
      m.SameBounds m' ∧ ∀ i, ¬ b.Holds i → m'.bytes[i]? = m.bytes[i]? := by
  obtain ⟨b, found, short, writable, rfl⟩ := putProperty_lays run
  rw [orderly.findProperty_eq] at found
  have searched : blocks.find? (·.id = p.toNat) = some b := Except.ok.inj found
  have member : b ∈ blocks := List.mem_of_find?_eq_some searched
  have number : b.id = p.toNat := by simpa using List.find?_some searched
  have length := length_valueBytes value short
  rw [← length] at writable
  have bounds := writable.sameBounds
  have same : ∀ i, ¬ b.Holds i →
      (m.lay b.dataAddr (valueBytes b.length value)).bytes[i]? = m.bytes[i]? := by
    intro i outside
    refine writable.getElem?_lay ?_
    rw [PropertyBlock.Holds] at outside
    omega
  have kept := orderly.properties_kept member bounds.size same
  refine ⟨b, member, number, kept, ?_, ?_, bounds, same⟩
  · refine getProperty_of_stand ?_ ?_ short writable.stand_lay
    · have some := orderly.numbered b member
      have most := (orderly.headed member).id_le
      rw [requireProperty, if_neg]
      rintro (zero | beyond)
      · rw [number, zero] at some
        exact some rfl
      · omega
    · rw [findProperty, kept]
      exact found
  · intro q other
    refine orderly.getProperty_kept member bounds.size same fun equal => other ?_
    exact UInt16.toNat_inj.mp (equal.trans number)

/-- **Views of properties.** In an orderly table the accessors agree with the blocks: the
address and the length of each property are those of its block, other properties have
address 0, and going from one property to the next gives the numbers of the blocks in order.
A value that is put in place is read back, as far as the property has room for it, and no
byte outside the data of the property is changed. -/
theorem property_views_agree (orderly : t.Orderly m obj blocks) :
    (∀ b ∈ blocks, ∀ p : Word, p.toNat = b.id →
      ∃ data length, t.propertyAddress m obj p = .ok data ∧ data.toNat = b.dataAddr ∧
        t.propertyLength m data.toNat = .ok length ∧ length.toNat = b.length) ∧
    (∀ b ∈ blocks, b.dataAddr = b.headerAddr + 2 → ∀ size,
      m.getByte (b.headerAddr + 1) = .ok size → size.toNat % 64 = 0 → b.length = 64) ∧
    (∀ p : Word, (∀ b ∈ blocks, p.toNat ≠ b.id) → t.propertyAddress m obj p = .ok 0) ∧
    (∀ k ≤ blocks.length, ∃ next, t.nthProperty m obj k = .ok next ∧
      next.toNat = (blocks[k]?.map (·.id)).getD 0) ∧
    ∀ p value m', (t.putProperty obj p value).run m = (.ok (), m') →
      ∃ b ∈ blocks, b.id = p.toNat ∧ t.properties m' obj = .ok blocks ∧
        t.getProperty m' obj p = .ok (if b.length = 1 then value % 256 else value) ∧
        (∀ q, q ≠ p → t.getProperty m' obj q = t.getProperty m obj q) ∧
        m.SameBounds m' ∧ ∀ i, ¬ b.Holds i → m'.bytes[i]? = m.bytes[i]? := by
  refine ⟨?addresses, ?zero, fun _ => orderly.propertyAddress_absent, ?order,
    fun _ _ _ => orderly.putProperty_changes⟩
  case addresses =>
    intro b member p named
    obtain ⟨address, placed⟩ := orderly.propertyAddress_member member named
    have headed := orderly.headed member
    have bound := headed.length_le
    refine ⟨_, UInt16.ofNat b.length, address, placed, ?_, ?_⟩
    · rw [placed]
      exact headed.propertyLength_eq (orderly.marked b member)
    · exact UInt16.toNat_ofNat_of_lt' (by rw [UInt16.size]; omega)
  case zero =>
    intro b member double size read zero
    exact (orderly.headed member).length_of_zero double read zero
  case order =>
    intro k inside
    exact ⟨_, orderly.nthProperty_eq inside, orderly.toNat_idOrZero k⟩

/-- A story of version 5 with one object, which has a property of 64 bytes, one of a word
and one of a byte. -/
def chestBytes : List Byte :=
  [5, 0, 0, 0, 1, 0x15, 0, 0, 0, 0, 0, 0x40, 0, 0, 1, 0x15] ++ List.replicate 186 0 ++
    [0, 204, 0, 0x94, 0x80] ++ List.replicate 64 7 ++ [0x4A, 1, 2, 0x03, 9, 0]

def chestStory : Memory :=
  { bytes := chestBytes.toArray, pristine := chestBytes.toArray, version := 5, staticBase := 277,
    highBase := 277 }

def chestTable : ObjectTable :=
  { version := 5, addr := 0x40 }

def chestBlocks : List PropertyBlock :=
  [⟨20, 64, 207, 205⟩, ⟨10, 2, 272, 271⟩, ⟨3, 1, 275, 274⟩]

theorem chest_orderly : chestTable.Orderly chestStory 1 chestBlocks where
  walked := eq_ok_of_toOption (by decide +kernel)
  descending := by decide
  numbered := by decide
  marked := by
    intro b member double
    simp only [chestBlocks, List.mem_cons, List.not_mem_nil, or_false] at member
    rcases member with rfl | rfl | rfl
    · exact ⟨0x80, eq_ok_of_toOption (by decide +kernel), by decide⟩
    · cases double
    · cases double
  low := by decide
  apart := by
    intro b member i holds
    have placed : ∀ b ∈ chestBlocks, 204 ≤ b.dataAddr := by decide
    have behind := Nat.le_trans (placed b member) holds.1
    have defaults : chestTable.entriesAddr = 190 := by decide
    have width : chestTable.entrySize = 14 := by decide
    rw [InDefaults, InEntry, defaults, width]
    constructor <;> simp <;> omega

theorem chest_loaded : Memory.load chestBytes.toArray = .ok chestStory := by
  have size : chestBytes.toArray.size = 277 := by decide +kernel
  refine Memory.load_eq_ok ⟨by decide +kernel, by decide, by decide⟩
    ⟨by decide +kernel, by decide, ?_⟩ ⟨by decide +kernel, ?_⟩ <;> rw [size]

/-- The size byte of the first property holds zero, and its length is 64. A byte is all
that the last property keeps of a word. -/
theorem chest_views :
    Memory.load chestBytes.toArray = .ok chestStory ∧ chestTable.Orderly chestStory 1 chestBlocks ∧
    (∃ data length, chestTable.propertyAddress chestStory 1 20 = .ok data ∧ data.toNat = 207 ∧
      chestTable.propertyLength chestStory data.toNat = .ok length ∧ length.toNat = 64) ∧
    chestTable.propertyAddress chestStory 1 7 = .ok 0 ∧
    (∃ next, chestTable.nthProperty chestStory 1 3 = .ok next ∧ next.toNat = 0) ∧
    ∃ m', (chestTable.putProperty 1 3 0x1234).run chestStory = (.ok (), m') ∧
      chestTable.getProperty m' 1 3 = .ok 0x34 ∧
      chestTable.getProperty m' 1 10 = chestTable.getProperty chestStory 1 10 ∧
      chestTable.properties m' 1 = .ok chestBlocks := by
  obtain ⟨addresses, _, absent, order, values⟩ := property_views_agree chest_orderly
  have put : ((chestTable.putProperty 1 3 0x1234).run chestStory).1 = .ok () :=
    eq_ok_of_toOption (by decide +kernel)
  rcases run : (chestTable.putProperty 1 3 0x1234).run chestStory with ⟨ended, m'⟩
  obtain rfl : ended = .ok () := by rw [← put, run]
  obtain ⟨b, member, number, kept, changed, others, _⟩ := values 3 0x1234 m' run
  have last : b = ⟨3, 1, 275, 274⟩ := by
    simp only [chestBlocks, List.mem_cons, List.not_mem_nil, or_false] at member
    rcases member with rfl | rfl | rfl
    · exact absurd number (by decide)
    · exact absurd number (by decide)
    · rfl
  rw [last] at changed
  exact ⟨chest_loaded, chest_orderly,
    addresses ⟨20, 64, 207, 205⟩ (by decide) 20 rfl, absent 7 (by decide), order 3 (by decide),
    m', rfl, changed, others 10 (by decide), kept⟩

end ObjectTable

end ZMachine
