import ZMachine.Object.Tree
import ZMachine.Proofs.Memory.Layout

/-!
# The links of the object table

Each object has three links, each in a field of its own: no two fields share a byte
(`field_disjoint`). Setting a link writes its field if all of that lies in dynamic memory
and changes nothing otherwise (`setLink_cases`), and it changes no other link. So a table
whose entries lie in dynamic memory holds a map from objects and links to objects, and
setting a link changes that map at one place and no byte outside one field
(`Placed.setLink_run`).
-/

set_option autoImplicit false

namespace ZMachine

/-- A map of links: the object that a link of an object leads to. -/
def Links : Type :=
  Word → Link → Word

/-- The map with one link changed. -/
def Links.set (f : Links) (obj : Word) (l : Link) (value : Word) : Links :=
  fun o k => if o = obj ∧ k = l then value else f o k

namespace Links

variable (f : Links) (obj : Word) (l : Link) (value : Word)

@[simp] theorem set_same : f.set obj l value obj l = value :=
  if_pos ⟨rfl, rfl⟩

theorem set_of_ne {o : Word} {k : Link} (other : o ≠ obj ∨ k ≠ l) :
    f.set obj l value o k = f o k := by
  refine if_neg ?_
  rintro ⟨rfl, rfl⟩
  exact other.elim (fun ne => ne rfl) fun ne => ne rfl

@[simp] theorem set_other {o : Word} (other : o ≠ obj) (k : Link) :
    f.set obj l value o k = f o k :=
  set_of_ne f obj l value (.inl other)

@[simp] theorem set_other_link {o : Word} {k : Link} (other : k ≠ l) :
    f.set obj l value o k = f o k :=
  set_of_ne f obj l value (.inr other)

end Links

/-- The number of an object among the first `count`. -/
def Known (count : Nat) (obj : Word) : Prop :=
  obj ≠ 0 ∧ obj.toNat ≤ count

instance (count : Nat) (obj : Word) : Decidable (Known count obj) :=
  inferInstanceAs (Decidable (obj ≠ 0 ∧ obj.toNat ≤ count))

theorem Known.pos {count : Nat} {obj : Word} (known : Known count obj) : 0 < obj.toNat := by
  refine Nat.pos_of_ne_zero fun zero => known.1 ?_
  exact UInt16.toNat_inj.mp zero

namespace ObjectTable

variable {t : ObjectTable} {m : Memory} {count : Nat} {obj : Word} {l : Link}

/-- The links that a table holds, those of its first `count` objects. -/
def links (t : ObjectTable) (m : Memory) (count : Nat) : Links :=
  fun obj l => if Known count obj then (t.link m obj l).toOption.getD 0 else 0

/-! ## Fields -/

/-- Where a link of an object stands. -/
def fieldAddr (t : ObjectTable) (obj : Word) (l : Link) : Nat :=
  t.entriesAddr + (obj.toNat - 1) * t.entrySize + t.linkOffset l

/-- The number of bytes in a link. -/
def fieldWidth (t : ObjectTable) : Nat :=
  if t.early then 1 else 2

/-- The byte at an address belongs to a link of an object. -/
def InField (t : ObjectTable) (obj : Word) (l : Link) (i : Nat) : Prop :=
  t.fieldAddr obj l ≤ i ∧ i < t.fieldAddr obj l + t.fieldWidth

/-- The first `count` objects can be numbered by links, and their entries lie in
dynamic memory. -/
structure Placed (t : ObjectTable) (m : Memory) (count : Nat) : Prop where
  numbered : count ≤ if t.early then 255 else 65535
  dynamic : t.entriesAddr + count * t.entrySize ≤ m.staticBase
  inside : m.staticBase ≤ m.size

theorem Placed.congr {m' : Memory} (placed : t.Placed m count) (same : m.SameBounds m') :
    t.Placed m' count :=
  ⟨placed.numbered, same.staticBase ▸ placed.dynamic,
    by rw [same.staticBase, Memory.size, same.size]; exact placed.inside⟩

/-- A field lies inside its entry, and so in dynamic memory. -/
theorem Placed.field_lt (placed : t.Placed m count) (known : Known count obj) (l : Link) :
    t.fieldAddr obj l + t.fieldWidth ≤ m.staticBase := by
  have pos := known.pos
  have bound := known.2
  refine Nat.le_trans ?_ placed.dynamic
  cases early : t.early <;> cases l <;>
    simp only [fieldAddr, fieldWidth, entrySize, linkOffset, linkSlot, early, if_true] <;>
    simp <;> omega

/-- **Fields.** A byte belongs to at most one link of one object. -/
theorem field_disjoint {o : Word} {k : Link} {i : Nat} (known : Known count obj)
    (known' : Known count o) (here : t.InField obj l i) (there : t.InField o k i) :
    o = obj ∧ k = l := by
  have pos := known.pos
  have pos' := known'.pos
  have same : o.toNat = obj.toNat ∧ k = l := by
    obtain ⟨low, high⟩ := here
    obtain ⟨low', high'⟩ := there
    cases early : t.early <;> cases l <;> cases k <;>
      simp only [fieldAddr, fieldWidth, entrySize, linkOffset, linkSlot, early, if_true]
        at low high low' high' <;>
      simp at low high low' high' ⊢ <;> omega
  exact ⟨UInt16.toNat_inj.mp same.1, same.2⟩

/-- The entries stand in a row, in the order of their numbers. -/
theorem eq_of_entryAddr {entry : Nat} (found : t.entryAddr obj = .ok entry) :
    obj ≠ 0 ∧ entry = t.entriesAddr + (obj.toNat - 1) * t.entrySize := by
  rw [entryAddr] at found
  split at found
  · cases found
  · split at found
    · cases found
    · cases found
      exact ⟨‹_›, rfl⟩

/-! ## Reading a link -/

theorem Placed.entryAddr_eq (placed : t.Placed m count) (known : Known count obj) :
    t.entryAddr obj = .ok (t.entriesAddr + (obj.toNat - 1) * t.entrySize) := by
  have numbered : ¬ (t.early && decide (255 < obj.toNat)) = true := by
    have bound := placed.numbered
    cases early : t.early with
    | false => simp
    | true =>
        rw [early, if_pos rfl] at bound
        simpa using Nat.le_trans known.2 bound
  rw [entryAddr, if_neg known.1, if_neg numbered]

theorem link_of_refused {fault : Fault} (refused : t.entryAddr obj = .error fault) :
    t.link m obj l = .error fault := by
  rw [link, refused]
  rfl

/-- The link of an object is read from its field. -/
theorem link_of_entry {entry : Nat} (found : t.entryAddr obj = .ok entry) :
    t.link m obj l =
      if t.early = true then m.getByte (t.fieldAddr obj l) >>= fun b => pure b.toUInt16
      else m.getWord (t.fieldAddr obj l) := by
  obtain ⟨_, rfl⟩ := eq_of_entryAddr found
  rw [link, found]
  rfl

/-- A link is read from its field alone. -/
theorem link_congr {m' : Memory} (size : m'.bytes.size = m.bytes.size)
    (kept : ∀ i, t.InField obj l i → m'.bytes[i]? = m.bytes[i]?) :
    t.link m' obj l = t.link m obj l := by
  cases found : t.entryAddr obj with
  | error fault => rw [link_of_refused found, link_of_refused found]
  | ok entry =>
      rw [link_of_entry found, link_of_entry found]
      have first := kept (t.fieldAddr obj l) ⟨Nat.le_refl _, by rw [fieldWidth]; split <;> omega⟩
      cases early : t.early with
      | true => rw [if_pos rfl, if_pos rfl, Memory.getByte_congr size first]
      | false =>
          have second := kept (t.fieldAddr obj l + 1)
            ⟨Nat.le_succ _, by simp [fieldWidth, early]⟩
          rw [if_neg Bool.false_ne_true, if_neg Bool.false_ne_true,
            Memory.getWord_congr size first second]

/-- Whether a link can be read depends on the size of the image alone. -/
theorem link_error {m' : Memory} (size : m'.bytes.size = m.bytes.size) {fault : Fault}
    (failed : t.link m obj l = .error fault) : t.link m' obj l = .error fault := by
  cases found : t.entryAddr obj with
  | error refused =>
      rw [link_of_refused found] at failed ⊢
      exact failed
  | ok entry =>
      rw [link_of_entry found] at failed ⊢
      cases early : t.early with
      | true =>
          rw [early, if_pos rfl, Memory.getByte] at failed
          rw [if_pos rfl, Memory.getByte]
          split at failed
          · cases failed
          · rename_i outside
            rw [← size] at outside
            rw [dif_neg outside, Memory.size, size]
            exact failed
      | false =>
          rw [early, if_neg Bool.false_ne_true, Memory.getWord] at failed
          rw [if_neg Bool.false_ne_true, Memory.getWord]
          split at failed
          · cases failed
          · rename_i outside
            rw [← size] at outside
            rw [dif_neg outside, Memory.size, size]
            exact failed

/-- The bytes of a link to an object. -/
def linkBytes (t : ObjectTable) (value : Word) : List Byte :=
  if t.early then [lowByte value] else [highByte value, lowByte value]

theorem length_linkBytes (t : ObjectTable) (value : Word) :
    (t.linkBytes value).length = t.fieldWidth := by
  rw [linkBytes, fieldWidth]
  split <;> rfl

/-- A link has room for the number of the object. -/
def Fits (t : ObjectTable) (value : Word) : Prop :=
  t.early = true → value.toNat ≤ 255

theorem fits_zero (t : ObjectTable) : t.Fits 0 :=
  fun _ => Nat.zero_le 255

/-- The number of an object in the table fits into a link. -/
theorem fits_of_entryAddr {entry : Nat} (found : t.entryAddr obj = .ok entry) : t.Fits obj := by
  intro early
  rw [entryAddr] at found
  split at found
  · cases found
  · split at found
    · cases found
    · rename_i numbered
      simpa [early] using numbered

/-- A link leads to an object when its field holds the number of the object. -/
theorem link_eq_ok {value : Word} :
    t.link m obj l = .ok value ↔
      (∃ entry, t.entryAddr obj = .ok entry) ∧ t.Fits value ∧
        m.Stand (t.fieldAddr obj l) (t.linkBytes value) := by
  cases found : t.entryAddr obj with
  | error fault =>
      rw [link_of_refused found]
      constructor
      · intro given
        cases given
      · rintro ⟨⟨_, given⟩, _⟩
        cases given
  | ok entry =>
      rw [link_of_entry found]
      cases early : t.early with
      | true =>
          rw [if_pos rfl, linkBytes, if_pos early, Memory.stand_singleton, ← Memory.getByte_eq_ok]
          constructor
          · intro given
            obtain ⟨b, read, given⟩ := bind_eq_ok given
            cases given
            refine ⟨⟨_, rfl⟩, fun _ => Nat.le_of_lt_succ b.toNat_lt, ?_⟩
            rw [read]
            exact congrArg Except.ok (UInt8.toUInt8_toUInt16 b).symm
          · rintro ⟨_, fits, read⟩
            rw [read]
            refine congrArg Except.ok (UInt16.toNat_inj.mp ?_)
            have small := fits early
            rw [UInt8.toNat_toUInt16, toNat_lowByte]
            omega
      | false =>
          rw [if_neg Bool.false_ne_true, linkBytes, early, if_neg Bool.false_ne_true,
            Memory.getWord_eq_ok]
          have fits : t.Fits value := by
            intro early'
            rw [early] at early'
            cases early'
          exact ⟨fun stand => ⟨⟨_, rfl⟩, fits, stand⟩, fun given => given.2.2⟩

/-! ## Setting a link -/

/-- The field of a link lies in dynamic memory. -/
structure LinkWritable (t : ObjectTable) (m : Memory) (obj : Word) (l : Link) : Prop where
  found : ∃ entry, t.entryAddr obj = .ok entry
  writable : m.Writable (t.fieldAddr obj l) t.fieldWidth

/-- The image with a link changed. -/
def relink (t : ObjectTable) (m : Memory) (obj : Word) (l : Link) (value : Word) : Memory :=
  m.lay (t.fieldAddr obj l) (t.linkBytes value)

/-- A link of an object is written as a byte or as a word. -/
theorem setLink_write {entry : Nat} (found : t.entryAddr obj = .ok entry) (m : Memory) (l : Link)
    {value : Word} (fits : t.Fits value) :
    ∃ write : Op Memory Unit, (t.setLink obj l value).run m = write.run m ∧
      Memory.Lays write (t.fieldAddr obj l) (t.linkBytes value) ∧
      ∀ fault m', write.run m = (.error fault, m') → m' = m := by
  obtain ⟨_, rfl⟩ := eq_of_entryAddr found
  have looked : (Op.ofExcept (t.entryAddr obj) : Op Memory Nat).run m = (.ok _, m) :=
    congrArg (Prod.mk · m) found
  rw [setLink, Op.run_bind_ok looked, linkBytes]
  cases early : t.early with
  | true =>
      rw [if_pos rfl, if_neg (Nat.not_lt.mpr (fits early))]
      exact ⟨_, rfl, Memory.writeByte_lays _ _, fun _ _ => Memory.guarded_eq_error⟩
  | false => exact ⟨_, rfl, Memory.writeWord_lays _ _, fun _ _ => Memory.guarded_eq_error⟩

/-- A link that fits is set if its field lies in dynamic memory, and nothing is changed
otherwise. -/
theorem setLink_cases (m : Memory) (obj : Word) (l : Link) {value : Word} (fits : t.Fits value) :
    t.LinkWritable m obj l ∧ (t.setLink obj l value).run m = (.ok (), t.relink m obj l value) ∨
      ¬ t.LinkWritable m obj l ∧ ∃ fault, (t.setLink obj l value).run m = (.error fault, m) := by
  cases found : t.entryAddr obj with
  | error fault =>
      refine .inr ⟨?_, fault, Op.run_bind_error (congrArg (Prod.mk · m) found)⟩
      rintro ⟨⟨_, found'⟩, _⟩
      cases found.symm.trans found'
  | ok entry =>
      obtain ⟨_, rfl⟩ := eq_of_entryAddr found
      obtain ⟨write, same, lays, whole⟩ := setLink_write found m l fits
      rw [same]
      rcases run : write.run m with ⟨fault | _, m'⟩
      · refine .inr ⟨fun here => ?_, fault, by rw [whole fault m' run]⟩
        have writable := here.writable
        rw [← length_linkBytes t value] at writable
        cases run.symm.trans ((lays m _).mpr ⟨writable, rfl⟩)
      · obtain ⟨writable, rfl⟩ := (lays m m').mp run
        rw [length_linkBytes] at writable
        exact .inl ⟨⟨⟨_, found⟩, writable⟩, rfl⟩

namespace LinkWritable

variable {value : Word}

theorem congr {m' : Memory} (here : t.LinkWritable m obj l) (same : m.SameBounds m') :
    t.LinkWritable m' obj l :=
  ⟨here.found, here.writable.congr same⟩

theorem laid (here : t.LinkWritable m obj l) (value : Word) :
    m.Writable (t.fieldAddr obj l) (t.linkBytes value).length := by
  rw [length_linkBytes]
  exact here.writable

/-- A link that can be set can be read. -/
theorem readable (here : t.LinkWritable m obj l) : ∃ value, t.link m obj l = .ok value := by
  obtain ⟨entry, found⟩ := here.found
  have room := here.writable.room (by rw [fieldWidth]; split <;> decide)
  rw [Memory.size] at room
  rw [link_of_entry found]
  cases early : t.early with
  | true =>
      simp only [fieldWidth, early, if_true] at room
      rw [if_pos rfl, Memory.getByte, dif_pos (by omega)]
      exact ⟨_, rfl⟩
  | false =>
      simp only [fieldWidth, early, Bool.false_eq_true, if_false] at room
      rw [if_neg Bool.false_ne_true, Memory.getWord, dif_pos (by omega)]
      exact ⟨_, rfl⟩

theorem sameBounds (here : t.LinkWritable m obj l) (value : Word) :
    m.SameBounds (t.relink m obj l value) :=
  (here.laid value).sameBounds

/-- No byte outside the field is changed. -/
theorem bytes_relink (here : t.LinkWritable m obj l) (value : Word) {i : Nat}
    (outside : ¬ t.InField obj l i) : (t.relink m obj l value).bytes[i]? = m.bytes[i]? := by
  refine (here.laid value).getElem?_lay ?_
  rw [length_linkBytes]
  rw [InField] at outside
  omega

/-- The link is read back. -/
theorem link_relink (here : t.LinkWritable m obj l) (fits : t.Fits value) :
    t.link (t.relink m obj l value) obj l = .ok value :=
  link_eq_ok.mpr ⟨here.found, fits, (here.laid value).stand_lay⟩

/-- The other links are as they were. -/
theorem link_relink_other (here : t.LinkWritable m obj l) (value : Word) {o : Word} {k : Link}
    (other : ¬ (o = obj ∧ k = l)) : t.link (t.relink m obj l value) o k = t.link m o k := by
  by_cases none : o = 0
  · have refused : t.entryAddr o = .error .objectZero := if_pos none
    rw [link_of_refused refused, link_of_refused refused]
  · refine link_congr (here.sameBounds value).size fun i there => here.bytes_relink value ?_
    intro inField
    obtain ⟨entry, found⟩ := here.found
    have known : ∀ {o : Word}, o ≠ 0 → Known 65535 o :=
      fun some => ⟨some, Nat.le_of_lt_succ (UInt16.toNat_lt _)⟩
    exact other (field_disjoint (known (eq_of_entryAddr found).1) (known none) inField there)

/-- Setting a link changes what that link leads to. -/
theorem link_relink_eq (here : t.LinkWritable m obj l) (fits : t.Fits value) (o : Word) (k : Link) :
    t.link (t.relink m obj l value) o k =
      if o = obj ∧ k = l then .ok value else t.link m o k := by
  split
  · rename_i same
    obtain ⟨rfl, rfl⟩ := same
    exact here.link_relink fits
  · exact here.link_relink_other value ‹_›

/-- Setting a link to what it is changes nothing. -/
theorem relink_self (here : t.LinkWritable m obj l) (linked : t.link m obj l = .ok value) :
    t.relink m obj l value = m := by
  obtain ⟨_, _, stand⟩ := link_eq_ok.mp linked
  refine stand.lay_eq ((here.laid value).room ?_)
  rw [length_linkBytes, fieldWidth]
  split <;> decide

end LinkWritable

/-- Numbers of known objects fit into links. -/
theorem Placed.fits (placed : t.Placed m count) {value : Word} (bound : value.toNat ≤ count) :
    t.Fits value := by
  intro early
  have numbered := placed.numbered
  rw [early, if_pos rfl] at numbered
  omega

theorem Placed.linkWritable (placed : t.Placed m count) (known : Known count obj) (l : Link) :
    t.LinkWritable m obj l := by
  refine ⟨⟨_, placed.entryAddr_eq known⟩, fun i _ high => ?_⟩
  have field := placed.field_lt known l
  have inside := placed.inside
  omega

/-- The link of a known object can be read. -/
theorem Placed.link_eq (placed : t.Placed m count) (known : Known count obj) :
    t.link m obj l = .ok (t.links m count obj l) := by
  obtain ⟨value, read⟩ := (placed.linkWritable known l).readable
  rw [links, if_pos known, read]
  rfl

/-- What setting a link does to memory: it is read back, and no byte outside its field
is changed. -/
theorem Placed.setLink_bytes (placed : t.Placed m count) (known : Known count obj) (l : Link)
    {value : Word} (bound : value.toNat ≤ count) :
    ∃ m', (t.setLink obj l value).run m = (.ok (), m') ∧ m.SameBounds m' ∧
      (∀ i, ¬ t.InField obj l i → m'.bytes[i]? = m.bytes[i]?) ∧ t.link m' obj l = .ok value := by
  have here := placed.linkWritable known l
  have fits := placed.fits bound
  obtain ⟨_, run⟩ | ⟨blocked, _⟩ := setLink_cases m obj l fits
  · exact ⟨_, run, here.sameBounds value, fun _ => here.bytes_relink value, here.link_relink fits⟩
  · exact absurd here blocked

/-- **Setting a link.** It succeeds, changes the map of links at one place, and no byte
outside the field of the link. -/
theorem Placed.setLink_run (placed : t.Placed m count) (known : Known count obj) (l : Link)
    {value : Word} (bound : value.toNat ≤ count) :
    ∃ m', (t.setLink obj l value).run m = (.ok (), m') ∧ m.SameBounds m' ∧
      (∀ i, ¬ t.InField obj l i → m'.bytes[i]? = m.bytes[i]?) ∧
      t.links m' count = (t.links m count).set obj l value := by
  obtain ⟨m', run, same, kept, read⟩ := placed.setLink_bytes known l bound
  refine ⟨m', run, same, kept, ?_⟩
  funext o k
  by_cases here : o = obj ∧ k = l
  · obtain ⟨rfl, rfl⟩ := here
    rw [Links.set_same, links, if_pos known, read]
    rfl
  · have other : o ≠ obj ∨ k ≠ l := Decidable.not_and_iff_not_or_not.mp here
    rw [Links.set_of_ne _ _ _ _ other]
    by_cases known' : Known count o
    · rw [links, links, if_pos known', if_pos known', link_congr same.size]
      intro i there
      exact kept i fun inField => here (field_disjoint known known' inField there)
    · rw [links, links, if_neg known', if_neg known']

end ObjectTable

end ZMachine
