import ZMachine.Proofs.Memory.Writes

/-!
# Bytes laid out in memory

Bytes stand in an image from a place on when each of them is found there (`Stand`). An
image with bytes laid out at an address (`lay`) is the image with these bytes in place of
its own, and nothing else changed.

What the story writes, a byte, a word or several bytes in a row, is laid out at the
address it names, and this succeeds exactly if every byte of it falls into dynamic memory
(`Lays`). So the outcome of several writes is an image with several lists of bytes laid
out one after another, and what can be read from it is a matter of where they stand.
-/

set_option autoImplicit false

namespace ZMachine.Memory

variable {m t : Memory} {addr place : Nat} {bytes : List Byte}

/-! ## Bytes that stand in an image -/

/-- The bytes stand in the image from a place on. -/
def Stand (m : Memory) (place : Nat) (bytes : List Byte) : Prop :=
  ∀ k b, bytes[k]? = some b → m.bytes[place + k]? = some b

theorem Stand.head {b : Byte} {rest : List Byte} (stand : m.Stand place (b :: rest)) :
    m.bytes[place]? = some b :=
  stand 0 b rfl

theorem Stand.tail {b : Byte} {rest : List Byte} (stand : m.Stand place (b :: rest)) :
    m.Stand (place + 1) rest := by
  intro k c found
  rw [Nat.add_assoc, Nat.add_comm 1 k]
  exact stand (k + 1) c found

theorem stand_singleton {b : Byte} : m.Stand place [b] ↔ m.bytes[place]? = some b := by
  constructor
  · exact Stand.head
  · intro found k c listed
    rcases k with _ | k
    · cases listed
      exact found
    · cases listed

theorem stand_append {first second : List Byte} :
    m.Stand place (first ++ second) ↔
      m.Stand place first ∧ m.Stand (place + first.length) second := by
  constructor
  · intro stand
    refine ⟨fun k b found => stand k b ?_, fun k b found => ?_⟩
    · obtain ⟨inside, _⟩ := List.getElem?_eq_some_iff.mp found
      rwa [List.getElem?_append_left inside]
    · rw [Nat.add_assoc]
      apply stand
      rwa [List.getElem?_append_right (Nat.le_add_right _ _), Nat.add_sub_cancel_left]
  · rintro ⟨stand, stand'⟩ k b found
    by_cases inside : k < first.length
    · rw [List.getElem?_append_left inside] at found
      exact stand k b found
    · have beyond : first.length ≤ k := Nat.not_lt.mp inside
      rw [List.getElem?_append_right beyond] at found
      have := stand' (k - first.length) b found
      rwa [Nat.add_assoc, Nat.add_sub_cancel' beyond] at this

/-- Bytes stand where an image has not changed. -/
theorem Stand.congr (stand : m.Stand place bytes)
    (same : ∀ i, place ≤ i → i < place + bytes.length → t.bytes[i]? = m.bytes[i]?) :
    t.Stand place bytes := by
  intro k b found
  obtain ⟨inside, _⟩ := List.getElem?_eq_some_iff.mp found
  rw [same (place + k) (Nat.le_add_right _ _) (Nat.add_lt_add_left inside _)]
  exact stand k b found

/-- As many bytes can stand at one place in one way only. -/
theorem Stand.unique {other : List Byte} (stand : m.Stand place bytes)
    (stand' : m.Stand place other) (length : bytes.length = other.length) : bytes = other := by
  refine List.ext_getElem? fun k => ?_
  rcases found : bytes[k]? with _ | b
  · have beyond : bytes.length ≤ k := List.getElem?_eq_none_iff.mp found
    exact (List.getElem?_eq_none_iff.mpr (length ▸ beyond)).symm
  · have inside : k < other.length := by
      obtain ⟨inside, _⟩ := List.getElem?_eq_some_iff.mp found
      omega
    have here := stand k b found
    rw [stand' k other[k] (List.getElem?_eq_getElem inside)] at here
    rw [List.getElem?_eq_getElem inside, here]

/-- Bytes that stand in an image lie inside it. -/
theorem Stand.inside (stand : m.Stand place bytes) (some : bytes ≠ []) :
    place + bytes.length ≤ m.size := by
  have last : bytes.length - 1 < bytes.length :=
    Nat.sub_lt (List.length_pos_iff.mpr some) Nat.one_pos
  obtain ⟨inside, _⟩ := Array.getElem?_eq_some_iff.mp
    (stand _ _ (List.getElem?_eq_getElem last))
  rw [Memory.size]
  omega

theorem getByte_eq_ok {b : Byte} : m.getByte addr = .ok b ↔ m.bytes[addr]? = some b := by
  rw [Memory.getByte, Array.getElem?_eq_some_iff]
  split
  · rename_i inside
    simp [inside]
  · rename_i outside
    simp [outside]

theorem Stand.getByte {b : Byte} (stand : m.Stand place [b]) : m.getByte place = .ok b :=
  getByte_eq_ok.mpr stand.head

theorem Stand.getWord {w : Word} (stand : m.Stand place [highByte w, lowByte w]) :
    m.getWord place = .ok w := by
  obtain ⟨_, high⟩ := Array.getElem?_eq_some_iff.mp stand.head
  obtain ⟨inside, low⟩ := Array.getElem?_eq_some_iff.mp stand.tail.head
  rw [Memory.getWord, dif_pos inside, high, low, wordOfBytes_bytes]

theorem getWord_eq_ok {w : Word} :
    m.getWord place = .ok w ↔ m.Stand place [highByte w, lowByte w] := by
  refine ⟨fun read => ?_, Stand.getWord⟩
  rw [Memory.getWord] at read
  split at read
  · rename_i inside
    cases read
    rw [highByte_wordOfBytes, lowByte_wordOfBytes]
    refine (@stand_append m place [_] [_]).mpr ⟨stand_singleton.mpr ?_, stand_singleton.mpr ?_⟩
    · exact Array.getElem?_eq_getElem (Nat.lt_of_succ_lt inside)
    · exact Array.getElem?_eq_getElem inside
  · cases read

theorem Stand.readBytes (stand : m.Stand place bytes) (inside : place + bytes.length ≤ m.size) :
    m.readBytes place bytes.length = .ok bytes.toArray := by
  rw [Memory.readBytes, if_pos inside]
  refine congrArg Except.ok (Array.ext_getElem? fun k => ?_)
  have listed : bytes.toArray[k]? = bytes[k]? := List.getElem?_toArray
  rw [Memory.size] at inside
  rw [Array.getElem?_extract, listed]
  by_cases short : k < bytes.length
  · have found : bytes[k]? = some bytes[k] := List.getElem?_eq_getElem short
    rw [if_pos (by omega), found]
    exact stand k _ found
  · rw [if_neg (by omega)]
    exact (List.getElem?_eq_none_iff.mpr (Nat.not_lt.mp short)).symm

/-! ## Laying bytes out -/

/-- The image with bytes laid out from an address on. -/
def lay (m : Memory) (addr : Nat) (bytes : List Byte) : Memory :=
  { m with
    bytes := m.bytes.extract 0 addr ++ bytes.toArray ++
      m.bytes.extract (addr + bytes.length) m.bytes.size }

theorem stand_lay (room : addr + bytes.length ≤ m.size) : (m.lay addr bytes).Stand addr bytes := by
  intro k b found
  obtain ⟨inside, _⟩ := List.getElem?_eq_some_iff.mp found
  have before : (m.bytes.extract 0 addr).size = addr := by
    simp only [Memory.size, Array.size_extract] at room ⊢
    omega
  have within : addr + k < (m.bytes.extract 0 addr ++ bytes.toArray).size := by
    rw [Array.size_append, before, List.size_toArray]
    omega
  rw [lay, Array.getElem?_append_left within, Array.getElem?_append_right (by omega), before,
    Nat.add_sub_cancel_left, List.getElem?_toArray, found]

/-- Outside the bytes that were laid out an image is as it was. -/
theorem getElem?_lay (room : addr + bytes.length ≤ m.size) {i : Nat}
    (outside : i < addr ∨ addr + bytes.length ≤ i) :
    (m.lay addr bytes).bytes[i]? = m.bytes[i]? := by
  rw [Memory.size] at room
  have before : (m.bytes.extract 0 addr).size = addr := by
    rw [Array.size_extract]
    omega
  have front : (m.bytes.extract 0 addr ++ bytes.toArray).size = addr + bytes.length := by
    rw [Array.size_append, before, List.size_toArray]
  rcases outside with below | beyond
  · rw [lay, Array.getElem?_append_left (by omega), Array.getElem?_append_left (by omega),
      Array.getElem?_extract, if_pos (by omega), Nat.zero_add]
  · rw [lay, Array.getElem?_append_right (by omega), Array.getElem?_extract, front, Nat.min_self,
      Nat.add_sub_cancel' beyond]
    split
    · rfl
    · exact (Array.getElem?_eq_none (by omega)).symm

theorem lay_sameBounds (room : addr + bytes.length ≤ m.size) :
    m.SameBounds (m.lay addr bytes) := by
  refine ⟨rfl, rfl, rfl, rfl, ?_⟩
  simp only [Memory.size] at room
  simp only [lay, Array.size_append, Array.size_extract, List.size_toArray]
  omega

/-- Images with the same bounds and the same bytes are the same. -/
theorem eq_of_bytes (bounds : m.SameBounds t)
    (same : ∀ i : Nat, t.bytes[i]? = m.bytes[i]?) : t = m := by
  have bytes : t.bytes = m.bytes := Array.ext_getElem? same
  obtain ⟨pristine, version, staticBase, highBase, _⟩ := bounds
  cases m
  cases t
  cases bytes
  cases pristine
  cases version
  cases staticBase
  cases highBase
  rfl

/-- An image with the bounds of another in which the bytes stand, and nothing else is
changed, is the other with the bytes laid out. -/
theorem eq_lay (bounds : m.SameBounds t) (room : addr + bytes.length ≤ m.size)
    (stand : t.Stand addr bytes)
    (same : ∀ i, i < addr ∨ addr + bytes.length ≤ i → t.bytes[i]? = m.bytes[i]?) :
    t = m.lay addr bytes := by
  refine eq_of_bytes ((lay_sameBounds room).symm.trans bounds) fun i => ?_
  by_cases outside : i < addr ∨ addr + bytes.length ≤ i
  · rw [same i outside, getElem?_lay room outside]
  · obtain ⟨k, rfl⟩ : ∃ k, i = addr + k := ⟨i - addr, by omega⟩
    have inside : k < bytes.length := by omega
    have found : bytes[k]? = some bytes[k] := List.getElem?_eq_getElem inside
    rw [stand k _ found, stand_lay room k _ found]

/-- Laying out bytes that already stand there changes nothing. -/
theorem Stand.lay_eq (stand : m.Stand addr bytes) (room : addr + bytes.length ≤ m.size) :
    m.lay addr bytes = m :=
  (eq_lay (.refl m) room stand fun _ _ => rfl).symm

theorem lay_nil (m : Memory) (addr : Nat) : m.lay addr [] = m := by
  have bytes : m.bytes.extract 0 addr ++ m.bytes.extract addr m.bytes.size = m.bytes := by
    refine Array.ext_getElem? fun i => ?_
    by_cases below : i < (m.bytes.extract 0 addr).size
    · rw [Array.getElem?_append_left below, Array.getElem?_extract]
      rw [Array.size_extract] at below
      rw [if_pos (by omega), Nat.zero_add]
    · rw [Array.getElem?_append_right (Nat.not_lt.mp below), Array.getElem?_extract]
      rw [Array.size_extract] at below ⊢
      split
      · congr 1
        omega
      · exact (Array.getElem?_eq_none (by omega)).symm
  simp [lay, bytes]

theorem lay_append {first second : List Byte}
    (room : addr + (first ++ second).length ≤ m.size) :
    (m.lay addr first).lay (addr + first.length) second = m.lay addr (first ++ second) := by
  rw [List.length_append] at room
  have room₁ : addr + first.length ≤ m.size := by omega
  have bounds₁ : m.SameBounds (m.lay addr first) := lay_sameBounds room₁
  have room₂ : addr + first.length + second.length ≤ (m.lay addr first).size := by
    rw [Memory.size, bounds₁.size, ← Memory.size]
    omega
  have outside : ∀ i, i < addr ∨ addr + (first ++ second).length ≤ i →
      ((m.lay addr first).lay (addr + first.length) second).bytes[i]? = m.bytes[i]? := by
    intro i out
    rw [List.length_append] at out
    rw [getElem?_lay room₂ (by omega), getElem?_lay room₁ (by omega)]
  refine eq_lay (bounds₁.trans (lay_sameBounds room₂)) (by rw [List.length_append]; omega)
    (stand_append.mpr ⟨?_, stand_lay room₂⟩) outside
  exact (stand_lay room₁).congr fun i _ below => getElem?_lay room₂ (.inl below)

/-! ## Writing -/

/-- The story may write each of so many bytes from an address on. -/
def Writable (m : Memory) (addr count : Nat) : Prop :=
  ∀ i, addr ≤ i → i < addr + count → i < m.staticBase ∧ i < m.size

theorem writable_one : m.Writable addr 1 ↔ addr < m.staticBase ∧ addr < m.size := by
  constructor
  · intro writable
    exact writable addr (Nat.le_refl _) (Nat.lt_succ_self _)
  · intro here i low high
    obtain rfl : i = addr := by omega
    exact here

theorem writable_add {count more : Nat} :
    m.Writable addr (count + more) ↔
      m.Writable addr count ∧ m.Writable (addr + count) more := by
  constructor
  · intro writable
    exact ⟨fun i low high => writable i low (by omega),
      fun i low high => writable i (by omega) (by omega)⟩
  · rintro ⟨first, second⟩ i low high
    by_cases below : i < addr + count
    · exact first i low below
    · exact second i (Nat.not_lt.mp below) (by omega)

theorem Writable.congr {count : Nat} (writable : m.Writable addr count) (bounds : m.SameBounds t) :
    t.Writable addr count := by
  intro i low high
  rw [Memory.size, bounds.staticBase, bounds.size]
  exact writable i low high

theorem Writable.part {count low size : Nat} (writable : m.Writable addr count) (start : addr ≤ low)
    (stop : low + size ≤ addr + count) : m.Writable low size :=
  fun i above below => writable i (by omega) (by omega)

/-- Bytes that may be written lie inside the image. -/
theorem Writable.room {count : Nat} (writable : m.Writable addr count) (some : 0 < count) :
    addr + count ≤ m.size := by
  have := (writable (addr + count - 1) (by omega) (by omega)).2
  omega

/-- Bytes that may be written lie below the static base. -/
theorem Writable.below {count : Nat} (writable : m.Writable addr count)
    (start : addr ≤ m.staticBase) : addr + count ≤ m.staticBase := by
  rcases count with _ | count
  · exact start
  · exact (writable (addr + count) (Nat.le_add_right _ _) (Nat.lt_succ_self _)).1

/-- Laying out bytes that may be written keeps the bounds. -/
theorem Writable.sameBounds (writable : m.Writable addr bytes.length) :
    m.SameBounds (m.lay addr bytes) := by
  cases bytes with
  | nil =>
      rw [lay_nil]
      exact .refl m
  | cons b rest => exact lay_sameBounds (writable.room (Nat.succ_pos _))

/-- Outside the bytes that were written an image is as it was. -/
theorem Writable.getElem?_lay (writable : m.Writable addr bytes.length) {i : Nat}
    (outside : i < addr ∨ addr + bytes.length ≤ i) :
    (m.lay addr bytes).bytes[i]? = m.bytes[i]? := by
  cases bytes with
  | nil => rw [lay_nil]
  | cons b rest => exact Memory.getElem?_lay (writable.room (Nat.succ_pos _)) outside

/-- A flag that lies before the bytes that were written is as it was. -/
theorem Writable.flag_lay (writable : m.Writable addr bytes.length) {f : Flag} {on : Bool}
    (before : f.byte < addr) (flag : m.flag f = .ok on) : (m.lay addr bytes).flag f = .ok on := by
  obtain ⟨_, covered, flag⟩ := bind_eq_ok flag
  obtain ⟨b, read, flag⟩ := bind_eq_ok flag
  have read' : (m.lay addr bytes).getByte f.byte = .ok b := by
    rw [getByte_eq_ok, writable.getElem?_lay (.inl before), getByte_eq_ok.mp read]
  rw [requireEra, ← writable.sameBounds.version, ← requireEra] at covered
  rw [Memory.flag, covered, read']
  exact flag

theorem Writable.stand_lay (writable : m.Writable addr bytes.length) :
    (m.lay addr bytes).Stand addr bytes := by
  cases bytes with
  | nil => exact fun _ _ found => nomatch found
  | cons b rest => exact Memory.stand_lay (writable.room (Nat.succ_pos _))

/-- Bytes that were laid out side by side are laid out together. -/
theorem Writable.lay_append {first second : List Byte}
    (writable : m.Writable addr (first.length + second.length)) :
    (m.lay addr first).lay (addr + first.length) second = m.lay addr (first ++ second) := by
  by_cases none : first ++ second = []
  · obtain ⟨rfl, rfl⟩ := List.append_eq_nil_iff.mp none
    rw [List.append_nil, lay_nil, lay_nil]
  · refine Memory.lay_append ?_
    rw [List.length_append]
    refine writable.room ?_
    rw [← List.length_append]
    exact List.length_pos_iff.mpr none

theorem set_eq_lay (inside : addr < m.size) (value : Byte) :
    { m with bytes := m.bytes.setIfInBounds addr value } = m.lay addr [value] := by
  refine eq_lay ⟨rfl, rfl, rfl, rfl, Array.size_setIfInBounds⟩ inside ?_ ?_
  · exact stand_singleton.mpr (Array.getElem?_setIfInBounds_self_of_lt inside)
  · intro i outside
    rw [List.length_singleton] at outside
    exact Array.getElem?_setIfInBounds_ne (by omega)

/-- A write succeeds when nothing stands in its way. -/
theorem guarded_eq_ok {result : Memory} {forbidden inside : Prop} [Decidable forbidden]
    [Decidable inside] {e e' : Fault} :
    (if forbidden then (.error e, m) else if inside then (.ok (), result) else (.error e', m) :
      Except Fault Unit × Memory) = (.ok (), t) ↔ (¬ forbidden ∧ inside) ∧ t = result := by
  by_cases stopped : forbidden
  · simp [stopped]
  · by_cases within : inside
    · simp [stopped, within, eq_comm]
    · simp [stopped, within]

/-- A write that fails changes nothing. -/
theorem guarded_eq_error {result : Memory} {forbidden inside : Prop} [Decidable forbidden]
    [Decidable inside] {e e' fault : Fault}
    (failed : (if forbidden then (.error e, m) else if inside then (.ok (), result)
      else (.error e', m) : Except Fault Unit × Memory) = (.error fault, t)) : t = m := by
  split at failed
  · cases failed
    rfl
  · split at failed
    · cases failed
    · cases failed
      rfl

/-- A byte is written where it may be. -/
theorem writeByte_eq_ok {value : Byte} :
    (writeByte addr value).run m = (.ok (), t) ↔
      m.Writable addr 1 ∧ t = m.lay addr [value] := by
  rw [writable_one, Op.run, writeByte]
  refine guarded_eq_ok.trans ?_
  rw [Nat.not_le]
  refine and_congr_right fun here => ?_
  rw [set_eq_lay here.2]

/-- The operation lays the bytes out at the address if the story may write all of them,
and fails otherwise. -/
def Lays (x : Op Memory Unit) (addr : Nat) (bytes : List Byte) : Prop :=
  ∀ m t, x.run m = (.ok (), t) ↔ m.Writable addr bytes.length ∧ t = m.lay addr bytes

theorem lays_nil (addr : Nat) : Lays (pure ()) addr [] := by
  intro m t
  rw [lay_nil]
  constructor
  · intro run
    exact ⟨fun i low high => absurd high (Nat.not_lt.mpr low), (Prod.mk.inj run).2.symm⟩
  · rintro ⟨_, rfl⟩
    rfl

/-- Operations that lay bytes out side by side lay them out together. -/
theorem Lays.append {x y : Op Memory Unit} {first second : List Byte} (lays : Lays x addr first)
    (lays' : Lays y (addr + first.length) second) :
    Lays (x >>= fun _ => y) addr (first ++ second) := by
  intro m t
  rw [Op.run_bind_eq_ok_iff, List.length_append]
  constructor
  · rintro ⟨_, u, ran, ran'⟩
    obtain ⟨writable, rfl⟩ := (lays m u).mp ran
    obtain ⟨writable', rfl⟩ := (lays' _ t).mp ran'
    have both := writable_add.mpr ⟨writable, writable'.congr writable.sameBounds.symm⟩
    exact ⟨both, both.lay_append⟩
  · rintro ⟨both, rfl⟩
    obtain ⟨writable, writable'⟩ := writable_add.mp both
    refine ⟨(), m.lay addr first, (lays _ _).mpr ⟨writable, rfl⟩, (lays' _ _).mpr ⟨?_, ?_⟩⟩
    · exact writable'.congr writable.sameBounds
    · exact both.lay_append.symm

theorem writeByte_lays (addr : Nat) (value : Byte) : Lays (writeByte addr value) addr [value] :=
  fun _ _ => writeByte_eq_ok

/-- Bytes are written in a row where all of them may be. -/
theorem writeBytes_lays (addr : Nat) (bytes : List Byte) :
    Lays (writeBytes addr bytes) addr bytes := by
  induction bytes generalizing addr with
  | nil => exact lays_nil addr
  | cons b rest ih => exact (writeByte_lays addr b).append (ih (addr + 1))

/-- Whether the story may write so many bytes inside the image from an address on. -/
def permits (m : Memory) (addr count : Nat) : Except Fault Unit :=
  if m.staticBase < addr + count then .error (.protectedByte (max addr m.staticBase) m.staticBase)
  else .ok ()

/-- Bytes that are written in a row are laid out up to the static base. -/
theorem run_writeBytes {bytes : List Byte} (some : bytes ≠ [])
    (room : addr + bytes.length ≤ m.size) :
    (writeBytes addr bytes).run m =
      (m.permits addr bytes.length, m.lay addr (bytes.take (m.staticBase - addr))) := by
  induction bytes generalizing addr m with
  | nil => exact absurd rfl some
  | cons b rest ih =>
      rw [List.length_cons] at room
      by_cases stopped : m.staticBase ≤ addr
      · have refused : (writeByte addr b).run m =
            (.error (.protectedByte addr m.staticBase), m) := if_pos stopped
        rw [writeBytes, Op.run_bind_error refused, permits, List.length_cons, if_pos (by omega),
          Nat.max_eq_left stopped, Nat.sub_eq_zero_of_le stopped, List.take_zero, lay_nil]
      · have wrote : (writeByte addr b).run m = (.ok (), m.lay addr [b]) :=
          writeByte_eq_ok.mpr ⟨writable_one.mpr ⟨by omega, by omega⟩, rfl⟩
        have bounds : m.SameBounds (m.lay addr [b]) := lay_sameBounds (by simp; omega)
        obtain ⟨left, cut⟩ : ∃ left, m.staticBase - addr = left + 1 :=
          Nat.exists_eq_add_of_le' (by omega)
        rw [writeBytes, Op.run_bind_ok wrote, cut, List.take_succ_cons]
        by_cases last : rest = []
        · subst last
          rw [permits, if_neg (by simp; omega), List.take_nil]
          rfl
        · have room' : addr + 1 + rest.length ≤ (m.lay addr [b]).size := by
            rw [Memory.size, bounds.size, ← Memory.size]
            omega
          have cut' : (m.lay addr [b]).staticBase - (addr + 1) = left := by
            rw [bounds.staticBase]
            omega
          have outcome : (m.lay addr [b]).permits (addr + 1) rest.length =
              m.permits addr (b :: rest).length := by
            rw [permits, permits, bounds.staticBase, List.length_cons, Nat.max_eq_right (by omega),
              Nat.max_eq_right (by omega), Nat.add_right_comm, Nat.add_assoc]
          rw [ih last room', outcome, cut']
          refine congrArg (Prod.mk _) (@lay_append m addr [b] _ ?_)
          simp only [List.singleton_append, List.length_cons, List.length_take]
          omega

/-- Where all the bytes of a region are written back and one of them is changed, the image
is changed there, or nowhere if that byte is protected. -/
theorem run_writeBytes_extract {count : Nat} (bounds : m.SameBounds t) (low : addr ≤ place)
    (high : place < addr + count) (room : addr + count ≤ m.size)
    (same : ∀ i, i ≠ place → t.bytes[i]? = m.bytes[i]?) :
    (writeBytes addr (t.bytes.extract addr (addr + count)).toList).run m =
      (m.permits addr count, if place < m.staticBase then t else m) := by
  rw [Memory.size] at room
  generalize listed : (t.bytes.extract addr (addr + count)).toList = bytes
  have length : bytes.length = count := by
    rw [← listed, Array.length_toList, Array.size_extract, bounds.size]
    omega
  have stand : t.Stand addr bytes := by
    intro k b found
    rw [← listed, Array.getElem?_toList, Array.getElem?_extract] at found
    split at found
    · exact found
    · cases found
  have some : bytes ≠ [] := List.length_pos_iff.mp (by omega)
  rw [run_writeBytes some (by rw [Memory.size]; omega), length]
  refine congrArg (Prod.mk _) (Eq.symm ?_)
  by_cases dynamic : place < m.staticBase
  · rw [if_pos dynamic]
    refine eq_lay bounds (by rw [List.length_take, Memory.size]; omega) ?_ fun i outside => ?_
    · rw [← List.take_append_drop (m.staticBase - addr) bytes] at stand
      exact (stand_append.mp stand).1
    · rw [List.length_take] at outside
      exact same i (by omega)
  · rw [if_neg dynamic]
    refine (Stand.lay_eq ?_ (by rw [List.length_take, Memory.size]; omega)).symm
    intro k b taken
    rw [List.getElem?_take] at taken
    split at taken
    · rw [← same _ (by omega)]
      exact stand k b taken
    · cases taken

/-- A word is written as its two bytes. -/
theorem writeWord_eq_ok {value : Word} :
    (writeWord addr value).run m = (.ok (), t) ↔
      m.Writable addr 2 ∧ t = m.lay addr [highByte value, lowByte value] := by
  have both : m.Writable addr 2 ↔ addr + 1 < m.staticBase ∧ addr + 1 < m.size := by
    constructor
    · intro writable
      exact writable (addr + 1) (Nat.le_succ _) (Nat.lt_succ_self _)
    · intro last i low high
      omega
  rw [both, Op.run, writeWord]
  refine guarded_eq_ok.trans ?_
  rw [Nat.not_le]
  refine and_congr_right fun here => ?_
  have first : addr < m.size := Nat.lt_of_succ_lt here.2
  have second : addr + 1 < (m.lay addr [highByte value]).size := by
    rw [Memory.size, (lay_sameBounds first).size]
    exact here.2
  have laid := (set_eq_lay second (lowByte value)).trans (lay_append here.2)
  rw [← set_eq_lay first] at laid
  exact iff_of_eq (congrArg (t = ·) laid)

theorem writeWord_lays (addr : Nat) (value : Word) :
    Lays (writeWord addr value) addr [highByte value, lowByte value] :=
  fun _ _ => writeWord_eq_ok

/-! ## Loading -/

/-- Bytes with a version and region bounds in order are taken as an image. -/
theorem load_eq_ok {bytes : Array Byte} {version staticBase highBase : Nat}
    (numbered : (bytes.getD 0 0).toNat = version ∧ 1 ≤ version ∧ version ≤ 8)
    (static : (rawWord bytes 0x0E).toNat = staticBase ∧ headerSize ≤ staticBase ∧
      staticBase ≤ bytes.size)
    (high : (rawWord bytes 0x04).toNat = highBase ∧ highBase ≤ bytes.size) :
    load bytes = .ok { bytes, pristine := bytes, version, staticBase, highBase } := by
  obtain ⟨rfl, least, most⟩ := numbered
  obtain ⟨rfl, behind, inside⟩ := static
  obtain ⟨rfl, inside'⟩ := high
  have size : headerSize ≤ bytes.size := Nat.le_trans behind inside
  simp only [load]
  rw [if_neg (Nat.not_lt.mpr size), if_neg (by omega), if_neg (Nat.not_lt.mpr behind),
    if_neg (Nat.not_lt.mpr inside), if_neg (Nat.not_lt.mpr inside')]

end ZMachine.Memory
