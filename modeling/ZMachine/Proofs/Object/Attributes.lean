import ZMachine.Proofs.Memory.Flags
import ZMachine.Proofs.Object.Properties

/-!
# Attributes

An attribute is one bit of the entry of its object, the highest bit of a byte first. All
the attribute bytes of an object are read, changed in one place and written back, and that
comes to changing one bit of memory (`HasAttribute.run_setAttribute`). No bit belongs to
two attributes, and none to an attribute and to a link (`HasAttribute.bit_inj`,
`HasAttribute.not_inField`), so everything else the object table holds is as it was, and
attributes can be set in any order (`setAttribute_changes_one_bit`).

Where the static base cuts through the attribute bytes, those below it are written before
the write fails. What fails and what is changed is then still the same whatever other
attributes were set before.
-/

set_option autoImplicit false

namespace ZMachine.ObjectTable

variable {t : ObjectTable} {m m' : Memory} {obj o attr x : Word} {entry place : Nat}

/-! ## Bits of attribute bytes -/

/-- The mask of an attribute selects one bit, here counted from the lowest. -/
theorem attributeMask_eq (n : Nat) :
    attributeMask n = (1 : Byte) <<< UInt8.ofNat (7 - n % 8) := by
  have each : ∀ k < 8, (0x80 : Byte) >>> UInt8.ofNat k = (1 : Byte) <<< UInt8.ofNat (7 - k) := by
    decide
  exact each _ (Nat.mod_lt _ (by decide))

theorem attributeIn_eq (bytes : Array Byte) (n : Nat) :
    attributeIn bytes n = (bytes.getD (n / 8) 0).toNat.testBit (7 - n % 8) := by
  rw [attributeIn, attributeMask_eq, and_bitMask_bne_zero _ (by omega)]

theorem withAttribute_eq (bytes : Array Byte) (n : Nat) (on : Bool) :
    withAttribute bytes n on = bytes.modify (n / 8) (withBit on (7 - n % 8)) := by
  refine Array.ext_getElem? fun i => ?_
  rw [withAttribute, attributeMask_eq, Array.getElem?_modify, Array.getElem?_setIfInBounds]
  by_cases same : n / 8 = i
  · subst same
    by_cases inside : n / 8 < bytes.size
    · simp [inside, withBit]
    · simp [inside]
  · rw [if_neg same, if_neg same]

/-! ## Where attributes stand -/

/-- The object has the attribute, and the attribute bytes of its entry lie in the image. -/
structure HasAttribute (t : ObjectTable) (m : Memory) (obj attr : Word) (entry : Nat) : Prop where
  numbered : attr.toNat < t.attributeCount
  found : t.entryAddr obj = .ok entry
  room : entry + t.attributeCount / 8 ≤ m.size

namespace HasAttribute

theorem congr (has : t.HasAttribute m obj attr entry) (bounds : m.SameBounds m') :
    t.HasAttribute m' obj attr entry := by
  refine ⟨has.numbered, has.found, ?_⟩
  rw [Memory.size, bounds.size]
  exact has.room

theorem byte_lt (has : t.HasAttribute m obj attr entry) :
    attr.toNat / 8 < t.attributeCount / 8 := by
  have numbered := has.numbered
  cases early : t.early <;> simp [attributeCount, early] at numbered ⊢ <;> omega

theorem inside (has : t.HasAttribute m obj attr entry) : entry + attr.toNat / 8 < m.size :=
  Nat.lt_of_lt_of_le (Nat.add_lt_add_left has.byte_lt entry) has.room

theorem attributeBytes_eq (has : t.HasAttribute m obj attr entry) :
    t.attributeBytes m obj = .ok (m.bytes.extract entry (entry + t.attributeCount / 8)) := by
  rw [attributeBytes, has.found]
  exact if_pos has.room

/-- No bit belongs to two attributes. -/
theorem bit_inj (has : t.HasAttribute m obj attr entry) (has' : t.HasAttribute m' o x place)
    (byte : place + x.toNat / 8 = entry + attr.toNat / 8)
    (bit : 7 - x.toNat % 8 = 7 - attr.toNat % 8) : o = obj ∧ x = attr := by
  have lt := has.byte_lt
  have lt' := has'.byte_lt
  obtain ⟨some, rfl⟩ := eq_of_entryAddr has.found
  obtain ⟨some', rfl⟩ := eq_of_entryAddr has'.found
  have pos : 0 < obj.toNat := Nat.pos_of_ne_zero fun zero => some (UInt16.toNat_inj.mp zero)
  have pos' : 0 < o.toNat := Nat.pos_of_ne_zero fun zero => some' (UInt16.toNat_inj.mp zero)
  rw [← UInt16.toNat_inj, ← UInt16.toNat_inj]
  cases early : t.early <;> simp [attributeCount, entrySize, early] at lt lt' byte <;> omega

/-- No bit of an attribute belongs to a link. -/
theorem not_inField (has : t.HasAttribute m obj attr entry) (o : Word) (l : Link) :
    ¬ t.InField o l (entry + attr.toNat / 8) := by
  have lt := has.byte_lt
  obtain ⟨_, rfl⟩ := eq_of_entryAddr has.found
  rintro ⟨low, high⟩
  cases early : t.early <;> cases l <;>
    simp [attributeCount, fieldAddr, fieldWidth, entrySize, linkOffset, linkSlot, early]
      at lt low high <;> omega

/-- No bit of an attribute belongs to the address of a property table. -/
theorem not_inTableField (has : t.HasAttribute m obj attr entry) (o : Word) :
    ¬ t.InTableField o (entry + attr.toNat / 8) := by
  have lt := has.byte_lt
  obtain ⟨_, rfl⟩ := eq_of_entryAddr has.found
  intro inField
  rw [InTableField] at inField
  cases early : t.early <;>
    simp [attributeCount, entrySize, early] at lt inField <;> omega

end HasAttribute

/-- Either an object has an attribute, or asking for it and setting it fail in the same way
as long as the bounds are the same. -/
theorem attribute_cases (t : ObjectTable) (m : Memory) (obj attr : Word) :
    (∃ entry, t.HasAttribute m obj attr entry) ∨
      ∃ fault, ∀ u, m.SameBounds u → t.testAttribute u obj attr = .error fault ∧
        ∀ on, (t.setAttribute obj attr on).run u = (.error fault, u) := by
  by_cases numbered : attr.toNat < t.attributeCount
  · have required : t.requireAttribute attr = .ok () := if_pos numbered
    have unread : ∀ fault, (∀ u, m.SameBounds u → t.attributeBytes u obj = .error fault) →
        ∃ fault, ∀ u, m.SameBounds u → t.testAttribute u obj attr = .error fault ∧
          ∀ on, (t.setAttribute obj attr on).run u = (.error fault, u) := by
      intro fault unread
      refine ⟨fault, fun u bounds => ⟨?_, fun on => ?_⟩⟩
      · rw [testAttribute, required]
        change (t.attributeBytes u obj >>= _) = _
        rw [unread u bounds]
        rfl
      · have asked : (Op.ofExcept (t.requireAttribute attr) : Op Memory Unit).run u = (.ok (), u) :=
          congrArg (Prod.mk · u) required
        rw [setAttribute, Op.run_bind_ok asked]
        exact Op.run_bind_error (congrArg (Prod.mk · u) (unread u bounds))
    cases found : t.entryAddr obj with
    | error fault =>
        refine .inr (unread fault fun u _ => ?_)
        rw [attributeBytes, found]
        rfl
    | ok entry =>
        by_cases room : entry + t.attributeCount / 8 ≤ m.size
        · exact .inl ⟨entry, numbered, found, room⟩
        · refine .inr (unread (.bytesRead (t.attributeCount / 8) entry) fun u bounds => ?_)
          rw [attributeBytes, found]
          refine if_neg ?_
          rw [Memory.size, bounds.size]
          exact room
  · have refused : t.requireAttribute attr = .error (.attributeRange attr.toNat t.attributeCount) :=
      if_neg numbered
    refine .inr ⟨.attributeRange attr.toNat t.attributeCount, fun u _ => ⟨?_, fun on => ?_⟩⟩
    · rw [testAttribute, refused]
      rfl
    · exact Op.run_bind_error (congrArg (Prod.mk · u) refused)

/-! ## Asking for attributes -/

theorem getD_extract (bytes : Array Byte) {low high i : Nat} (inside : low + i < high) :
    (bytes.extract low high).getD i 0 = bytes.getD (low + i) 0 := by
  rw [Array.getD_eq_getD_getElem?, Array.getD_eq_getD_getElem?, Array.getElem?_extract]
  split
  · rfl
  · rw [Array.getElem?_eq_none (by omega)]

theorem testAttribute_of_bytes {bytes : Array Byte} (numbered : attr.toNat < t.attributeCount)
    (read : t.attributeBytes m obj = .ok bytes) :
    t.testAttribute m obj attr = .ok (attributeIn bytes attr.toNat) := by
  have required : t.requireAttribute attr = .ok () := if_pos numbered
  rw [testAttribute, required]
  change (t.attributeBytes m obj >>= _) = _
  rw [read]
  rfl

/-- An attribute is set when its bit is. -/
theorem HasAttribute.testAttribute_eq (has : t.HasAttribute m obj attr entry) :
    t.testAttribute m obj attr =
      .ok (m.bit (entry + attr.toNat / 8) (7 - attr.toNat % 8)) := by
  rw [testAttribute_of_bytes has.numbered has.attributeBytes_eq, attributeIn_eq,
    getD_extract _ (Nat.add_lt_add_left has.byte_lt entry), Memory.bit]

/-- There are eight attributes to a byte. -/
theorem size_attributeBytes {bytes : Array Byte} (read : t.attributeBytes m obj = .ok bytes) :
    bytes.size * 8 = t.attributeCount := by
  obtain ⟨entry, _, read⟩ := bind_eq_ok read
  rw [Memory.readBytes] at read
  split at read
  · cases read
    rename_i room
    rw [Memory.size] at room
    rw [Array.size_extract, Nat.min_eq_left room, Nat.add_sub_cancel_left, attributeCount]
    split <;> rfl
  · cases read

/-- The attributes of an object are listed in ascending order, and they are those that it
turns out to have when it is asked for each. -/
theorem attributes_listed {listed : List Nat} (given : t.attributes m obj = .ok listed) :
    listed.Pairwise (· < ·) ∧
      ∀ n, n ∈ listed ↔ ∃ x : Word, x.toNat = n ∧ t.testAttribute m obj x = .ok true := by
  obtain ⟨bytes, read, given⟩ := bind_eq_ok given
  cases given
  refine ⟨List.pairwise_lt_range.filter _, fun n => ?_⟩
  rw [List.mem_filter, List.mem_range, size_attributeBytes read]
  constructor
  · rintro ⟨numbered, set⟩
    have narrow : n < UInt16.size := by
      refine Nat.lt_of_lt_of_le numbered ?_
      rw [attributeCount]
      split <;> decide
    have number : (UInt16.ofNat n).toNat = n := UInt16.toNat_ofNat_of_lt' narrow
    refine ⟨UInt16.ofNat n, number, ?_⟩
    rw [testAttribute_of_bytes (by rwa [number]) read, number, set]
  · rintro ⟨x, rfl, set⟩
    obtain ⟨_, required, _⟩ := bind_eq_ok set
    have numbered : x.toNat < t.attributeCount := by
      rw [requireAttribute] at required
      split at required
      · assumption
      · cases required
    rw [testAttribute_of_bytes numbered read] at set
    exact ⟨numbered, Except.ok.inj set⟩

/-! ## Setting an attribute -/

/-- The image after one bit of it is set or cleared, if it lies in dynamic memory. -/
def changeDynamicBit (m : Memory) (addr k : Nat) (on : Bool) : Memory :=
  if addr < m.staticBase then m.changeBit addr k on else m

theorem changeDynamicBit_sameBounds (m : Memory) (addr k : Nat) (on : Bool) :
    m.SameBounds (changeDynamicBit m addr k on) := by
  rw [changeDynamicBit]
  split
  · exact m.changeBit_sameBounds addr k on
  · exact .refl m

theorem changeDynamicBit_comm (m : Memory) {addr addr' k l : Nat} (narrow : k < 8)
    (narrow' : l < 8) (other : addr ≠ addr' ∨ k ≠ l) (on off : Bool) :
    changeDynamicBit (changeDynamicBit m addr k on) addr' l off =
      changeDynamicBit (changeDynamicBit m addr' l off) addr k on := by
  have base := (changeDynamicBit_sameBounds m addr k on).staticBase
  have base' := (changeDynamicBit_sameBounds m addr' l off).staticBase
  rw [changeDynamicBit, base, changeDynamicBit.eq_1 (changeDynamicBit m addr' l off), base']
  by_cases here : addr < m.staticBase <;> by_cases there : addr' < m.staticBase <;>
    simp only [changeDynamicBit, here, there, if_true, if_false]
  exact m.changeBit_comm narrow narrow' other on off

/-- The bytes with an attribute changed are those of the image with the bit changed. -/
theorem withAttribute_extract (m : Memory) (place width n : Nat) (on : Bool) :
    withAttribute (m.bytes.extract place (place + width)) n on =
      (m.changeBit (place + n / 8) (7 - n % 8) on).bytes.extract place (place + width) := by
  rw [withAttribute_eq]
  refine Array.ext_getElem? fun i => ?_
  rw [Array.getElem?_modify, Array.getElem?_extract, Array.getElem?_extract,
    (m.changeBit_sameBounds _ _ _).size, Memory.getElem?_changeBit]
  by_cases same : n / 8 = i
  · subst same
    simp only [if_true]
    split <;> rfl
  · have other : place + n / 8 ≠ place + i := by omega
    rw [if_neg same, if_neg other]

/-- **One bit.** Setting an attribute that an object has changes its bit, if that lies in
dynamic memory, and it succeeds if all the attribute bytes do. -/
theorem HasAttribute.run_setAttribute (has : t.HasAttribute m obj attr entry) (on : Bool) :
    (t.setAttribute obj attr on).run m =
      (m.permits entry (t.attributeCount / 8),
        changeDynamicBit m (entry + attr.toNat / 8) (7 - attr.toNat % 8) on) := by
  have asked : (Op.ofExcept (t.requireAttribute attr) : Op Memory Unit).run m = (.ok (), m) :=
    congrArg (Prod.mk · m) (if_pos has.numbered)
  have read : (Op.query (t.attributeBytes · obj)).run m = (.ok _, m) :=
    congrArg (Prod.mk · m) has.attributeBytes_eq
  have found : (Op.ofExcept (t.entryAddr obj) : Op Memory Nat).run m = (.ok entry, m) :=
    congrArg (Prod.mk · m) has.found
  rw [setAttribute, Op.run_bind_ok asked, Op.run_bind_ok read, Op.run_bind_ok found,
    withAttribute_extract]
  refine Memory.run_writeBytes_extract (m.changeBit_sameBounds _ _ on) (Nat.le_add_right _ _)
    (Nat.add_lt_add_left has.byte_lt entry) has.room fun i other => ?_
  rw [Memory.getElem?_changeBit, if_neg (Ne.symm other)]

/-! ## What is changed -/

/-- The image with an attribute set or cleared in an entry. -/
def changeAttribute (m : Memory) (entry : Nat) (attr : Word) (on : Bool) : Memory :=
  m.changeBit (entry + attr.toNat / 8) (7 - attr.toNat % 8) on

theorem changeAttribute_sameBounds (m : Memory) (entry : Nat) (attr : Word) (on : Bool) :
    m.SameBounds (changeAttribute m entry attr on) :=
  m.changeBit_sameBounds _ _ on

theorem getElem?_changeAttribute (m : Memory) (on : Bool) {i : Nat}
    (other : i ≠ entry + attr.toNat / 8) :
    (changeAttribute m entry attr on).bytes[i]? = m.bytes[i]? := by
  rw [changeAttribute, Memory.getElem?_changeBit, if_neg (Ne.symm other)]

/-- Setting an attribute succeeds only if the object has it and all its attribute bytes lie in
dynamic memory, and then changes its bit. -/
theorem setAttribute_eq_ok {on : Bool} (run : (t.setAttribute obj attr on).run m = (.ok (), m')) :
    ∃ entry, t.HasAttribute m obj attr entry ∧
      entry + t.attributeCount / 8 ≤ m.staticBase ∧ m' = changeAttribute m entry attr on := by
  obtain ⟨entry, has⟩ | ⟨fault, fails⟩ := t.attribute_cases m obj attr
  · rw [has.run_setAttribute] at run
    obtain ⟨permitted, rfl⟩ := Prod.mk.inj run
    have dynamic : entry + t.attributeCount / 8 ≤ m.staticBase := by
      rw [Memory.permits] at permitted
      split at permitted
      · cases permitted
      · omega
    refine ⟨entry, has, dynamic, if_pos ?_⟩
    exact Nat.lt_of_lt_of_le (Nat.add_lt_add_left has.byte_lt entry) dynamic
  · cases ((fails m (.refl m)).2 on).symm.trans run

namespace HasAttribute

theorem bit_changeAttribute (has : t.HasAttribute m obj attr entry) (on : Bool) (i n : Nat) :
    (changeAttribute m entry attr on).bit i n =
      if i = entry + attr.toNat / 8 ∧ n = 7 - attr.toNat % 8 then on else m.bit i n :=
  Memory.bit_changeBit has.inside (by omega) on i n

/-- The attribute is found as it was set, also under its mask. -/
theorem mask_changeAttribute (has : t.HasAttribute m obj attr entry) (on : Bool) :
    ∃ b, (changeAttribute m entry attr on).getByte (entry + attr.toNat / 8) = .ok b ∧
      (b &&& (0x80 >>> UInt8.ofNat (attr.toNat % 8)) != 0) = on := by
  have has' := has.congr (changeAttribute_sameBounds m entry attr on)
  have mask := attributeMask_eq attr.toNat
  rw [attributeMask] at mask
  refine ⟨_, Memory.getByte_getD has'.inside, ?_⟩
  rw [mask, and_bitMask_bne_zero _ (by omega), ← Memory.bit, has.bit_changeAttribute,
    if_pos ⟨rfl, rfl⟩]

theorem testAttribute_changed (has : t.HasAttribute m obj attr entry) (on : Bool) :
    t.testAttribute (changeAttribute m entry attr on) obj attr = .ok on := by
  have has' := has.congr (changeAttribute_sameBounds m entry attr on)
  rw [has'.testAttribute_eq, has.bit_changeAttribute, if_pos ⟨rfl, rfl⟩]

/-- Other attributes are as they were. -/
theorem testAttribute_other (has : t.HasAttribute m obj attr entry) (on : Bool)
    (other : ¬ (o = obj ∧ x = attr)) :
    t.testAttribute (changeAttribute m entry attr on) o x = t.testAttribute m o x := by
  have bounds := changeAttribute_sameBounds m entry attr on
  obtain ⟨place, has'⟩ | ⟨fault, fails⟩ := t.attribute_cases m o x
  · rw [(has'.congr bounds).testAttribute_eq, has'.testAttribute_eq, has.bit_changeAttribute,
      if_neg fun same => other (has.bit_inj has' same.1 same.2)]
  · rw [(fails _ bounds).1, (fails m (.refl m)).1]

/-- Links are as they were. -/
theorem link_changeAttribute (has : t.HasAttribute m obj attr entry) (on : Bool) (o : Word)
    (l : Link) : t.link (changeAttribute m entry attr on) o l = t.link m o l := by
  refine link_congr (changeAttribute_sameBounds m entry attr on).size fun i inField => ?_
  refine getElem?_changeAttribute m on ?_
  rintro rfl
  exact has.not_inField o l inField

/-- Property tables are where they were. -/
theorem propertiesAddr_changeAttribute (has : t.HasAttribute m obj attr entry) (on : Bool)
    (o : Word) : t.propertiesAddr (changeAttribute m entry attr on) o = t.propertiesAddr m o := by
  refine propertiesAddr_congr (changeAttribute_sameBounds m entry attr on).size fun i inField => ?_
  refine getElem?_changeAttribute m on ?_
  rintro rfl
  exact has.not_inTableField o inField

/-- An object that has an attribute has a list of them. -/
theorem attributes_eq_ok (has : t.HasAttribute m obj attr entry) :
    ∃ listed, t.attributes m obj = .ok listed := by
  rw [attributes, has.attributeBytes_eq]
  exact ⟨_, rfl⟩

/-- Setting an attribute back to what it was restores the image. -/
theorem setAttribute_back (has : t.HasAttribute m obj attr entry)
    (dynamic : entry + t.attributeCount / 8 ≤ m.staticBase) (on : Bool) :
    ∃ old, t.testAttribute m obj attr = .ok old ∧
      (t.setAttribute obj attr old).run (changeAttribute m entry attr on) = (.ok (), m) := by
  have bounds := changeAttribute_sameBounds m entry attr on
  have below := Nat.lt_of_lt_of_le (Nat.add_lt_add_left has.byte_lt entry) dynamic
  refine ⟨_, has.testAttribute_eq, ?_⟩
  rw [(has.congr bounds).run_setAttribute, Memory.permits, changeDynamicBit, bounds.staticBase,
    if_neg (Nat.not_lt.mpr dynamic), if_pos below, changeAttribute,
    m.changeBit_restore _ (by omega)]

end HasAttribute

/-- Setting an attribute fails or succeeds, and changes what it changes, whatever other
attribute was set before. -/
theorem setAttribute_comm (t : ObjectTable) (m : Memory) (obj attr o x : Word) (on off : Bool)
    (other : ¬ (o = obj ∧ x = attr)) :
    let first := t.setAttribute obj attr on
    let second := t.setAttribute o x off
    (second.run (first.run m).2).1 = (second.run m).1 ∧
      (first.run (second.run m).2).1 = (first.run m).1 ∧
      (second.run (first.run m).2).2 = (first.run (second.run m).2).2 := by
  obtain ⟨entry, has⟩ | ⟨fault, fails⟩ := t.attribute_cases m obj attr <;>
    obtain ⟨place, has'⟩ | ⟨fault', fails'⟩ := t.attribute_cases m o x
  · have bounds := changeDynamicBit_sameBounds m (entry + attr.toNat / 8) (7 - attr.toNat % 8) on
    have bounds' := changeDynamicBit_sameBounds m (place + x.toNat / 8) (7 - x.toNat % 8) off
    simp only [has.run_setAttribute, has'.run_setAttribute, (has.congr bounds').run_setAttribute,
      (has'.congr bounds).run_setAttribute, Memory.permits, bounds.staticBase, bounds'.staticBase,
      true_and]
    refine changeDynamicBit_comm m (by omega) (by omega) ?_ on off
    refine Decidable.not_and_iff_not_or_not.mp fun same => other ?_
    exact has.bit_inj has' same.1.symm same.2.symm
  · have bounds := changeDynamicBit_sameBounds m (entry + attr.toNat / 8) (7 - attr.toNat % 8) on
    simp only [has.run_setAttribute, (fails' m (.refl m)).2, (fails' _ bounds).2, true_and]
  · have bounds' := changeDynamicBit_sameBounds m (place + x.toNat / 8) (7 - x.toNat % 8) off
    simp only [has'.run_setAttribute, (fails m (.refl m)).2, (fails _ bounds').2, true_and]
  · simp only [(fails m (.refl m)).2, (fails' m (.refl m)).2, true_and]

/-- **Attributes.** An attribute that objects do not have is refused and nothing is changed.
Setting one that they do have changes its bit and no other bit of memory: it is then found
as it was set, all other attributes, all links and all property tables are as they were, and
the list of attributes is right. Setting it back restores the image, and different
attributes can be set in any order. -/
theorem setAttribute_changes_one_bit (t : ObjectTable) (m : Memory) (obj attr : Word) (on : Bool) :
    (t.attributeCount ≤ attr.toNat →
      ∃ fault, (t.setAttribute obj attr on).run m = (.error fault, m)) ∧
    (∀ m', (t.setAttribute obj attr on).run m = (.ok (), m') →
      (∃ entry, t.entryAddr obj = .ok entry ∧ m.SameBounds m' ∧
        (∃ b, m'.getByte (entry + attr.toNat / 8) = .ok b ∧
          (b &&& (0x80 >>> UInt8.ofNat (attr.toNat % 8)) != 0) = on) ∧
        ∀ i n, ¬ (i = entry + attr.toNat / 8 ∧ n = 7 - attr.toNat % 8) →
          m'.bit i n = m.bit i n) ∧
      t.testAttribute m' obj attr = .ok on ∧
      (∀ o x, ¬ (o = obj ∧ x = attr) → t.testAttribute m' o x = t.testAttribute m o x) ∧
      (∀ o l, t.link m' o l = t.link m o l) ∧
      (∀ o, t.propertiesAddr m' o = t.propertiesAddr m o) ∧
      (∃ listed, t.attributes m' obj = .ok listed ∧ listed.Pairwise (· < ·) ∧
        ∀ n, n ∈ listed ↔ ∃ x : Word, x.toNat = n ∧ t.testAttribute m' obj x = .ok true) ∧
      ∃ old, t.testAttribute m obj attr = .ok old ∧
        (t.setAttribute obj attr old).run m' = (.ok (), m)) ∧
    ∀ o x off, ¬ (o = obj ∧ x = attr) →
      let first := t.setAttribute obj attr on
      let second := t.setAttribute o x off
      (second.run (first.run m).2).1 = (second.run m).1 ∧
        (first.run (second.run m).2).1 = (first.run m).1 ∧
        (second.run (first.run m).2).2 = (first.run (second.run m).2).2 := by
  refine ⟨?refused, ?changed, fun o x off other => t.setAttribute_comm m obj attr o x on off other⟩
  case refused =>
    intro high
    obtain ⟨entry, has⟩ | ⟨fault, fails⟩ := t.attribute_cases m obj attr
    · exact absurd has.numbered (Nat.not_lt.mpr high)
    · exact ⟨fault, (fails m (.refl m)).2 on⟩
  case changed =>
    intro m' run
    obtain ⟨entry, has, dynamic, rfl⟩ := setAttribute_eq_ok run
    have bounds := changeAttribute_sameBounds m entry attr on
    obtain ⟨listed, given⟩ := (has.congr bounds).attributes_eq_ok
    refine ⟨⟨entry, has.found, bounds, has.mask_changeAttribute on, fun i n other => ?_⟩,
      has.testAttribute_changed on, fun o x => has.testAttribute_other on,
      has.link_changeAttribute on, has.propertiesAddr_changeAttribute on,
      ⟨listed, given, attributes_listed given⟩, has.setAttribute_back dynamic on⟩
    rw [has.bit_changeAttribute, if_neg other]

/-- The chest gets its tenth attribute, keeps its others, and loses it again. -/
theorem chest_marked :
    ∃ m', (chestTable.setAttribute 1 9 true).run chestStory = (.ok (), m') ∧
      chestTable.testAttribute m' 1 9 = .ok true ∧ chestTable.testAttribute m' 1 8 = .ok false ∧
      chestTable.propertiesAddr m' 1 = .ok 204 ∧
      (chestTable.setAttribute 1 9 false).run m' = (.ok (), chestStory) := by
  have has : chestTable.HasAttribute chestStory 1 9 190 :=
    ⟨by decide, eq_ok_of_toOption (by decide +kernel), by decide +kernel⟩
  have run := has.run_setAttribute true
  have permitted : chestStory.permits 190 (chestTable.attributeCount / 8) = .ok () :=
    eq_ok_of_toOption (by decide +kernel)
  rw [permitted] at run
  have before : chestTable.testAttribute chestStory 1 9 = .ok false :=
    eq_ok_of_toOption (by decide +kernel)
  have beside : chestTable.testAttribute chestStory 1 8 = .ok false :=
    eq_ok_of_toOption (by decide +kernel)
  have table : chestTable.propertiesAddr chestStory 1 = .ok 204 :=
    eq_ok_of_toOption (by decide +kernel)
  obtain ⟨_, tested, others, _, tables, _, old, was, back⟩ :=
    (setAttribute_changes_one_bit chestTable chestStory 1 9 true).2.1 _ run
  cases before.symm.trans was
  exact ⟨_, run, tested, (others 1 8 (by decide)).trans beside, (tables 1).trans table, back⟩

end ZMachine.ObjectTable
