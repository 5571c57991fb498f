import ZMachine.Instruction
import ZMachine.Proofs.Operation

/-!
# Decoding instructions

A reader of instructions only moves upwards, so decoding an instruction looks at no
byte below its address. Two images of the same size that agree from an address on
have the same instruction there (`decode_congr`).

An instruction of the class without operands is written in the short form and has
none, and an instruction names a variable for its result exactly if its opcode stores
one (`decode_ok`).
-/

set_option autoImplicit false

namespace ZMachine.Instruction

variable {α β : Type}

/-! ## Readers -/

theorem fetch_bind (x : Fetch α) (f : α → Fetch β) (pos : Nat) :
    (x >>= f) pos = match x pos with
      | .ok (a, next) => f a next
      | .error e => .error e := by
  change (x pos >>= fun p => f p.1 p.2) = _
  rcases x pos with _ | ⟨_, _⟩ <;> rfl

/-- Two readers in a row give a value when the second does from where the first
stopped. -/
theorem fetch_bind_ok {x : Fetch α} {f : α → Fetch β} {pos stop : Nat} {b : β}
    (read : (x >>= f) pos = .ok (b, stop)) :
    ∃ a next, x pos = .ok (a, next) ∧ f a next = .ok (b, stop) := by
  rw [fetch_bind] at read
  rcases first : x pos with e | ⟨a, next⟩
  · rw [first] at read
    cases read
  · rw [first] at read
    exact ⟨a, next, rfl, read⟩

/-- From any place at or above `floor` the readers give the same, and stop at or
above it. -/
def Agree (floor : Nat) (x y : Fetch α) : Prop :=
  ∀ pos, floor ≤ pos → y pos = x pos ∧ ∀ a next, x pos = .ok (a, next) → floor ≤ next

namespace Agree

variable {floor : Nat}

theorem pure (a : α) : Agree floor (Pure.pure a) (Pure.pure a) := by
  intro pos above
  refine ⟨rfl, fun b next read => ?_⟩
  cases read
  exact above

theorem bind {x y : Fetch α} {f g : α → Fetch β} (first : Agree floor x y)
    (rest : ∀ a, Agree floor (f a) (g a)) : Agree floor (x >>= f) (y >>= g) := by
  intro pos above
  obtain ⟨same, stays⟩ := first pos above
  rw [fetch_bind, fetch_bind, same]
  rcases read : x pos with e | ⟨a, next⟩
  · exact ⟨rfl, fun _ _ given => by cases given⟩
  · exact rest a next (stays a next read)

theorem ite {condition : Prop} [Decidable condition] {x x' y y' : Fetch α}
    (yes : Agree floor x y) (no : Agree floor x' y') :
    Agree floor (if condition then x else x') (if condition then y else y') := by
  by_cases holds : condition
  · simpa only [if_pos holds] using yes
  · simpa only [if_neg holds] using no

theorem get : Agree floor (MonadState.get : Fetch Nat) MonadState.get := by
  intro pos above
  refine ⟨rfl, fun b next read => ?_⟩
  cases read
  exact above

theorem fetchIf {present : Bool} {x y : Fetch α} (part : Agree floor x y) :
    Agree floor (Instruction.fetchIf present x) (Instruction.fetchIf present y) := by
  cases present with
  | false => exact .pure _
  | true => exact .bind part fun _ => .pure _

end Agree

/-! ## Images that agree -/

theorem getElem_agree {m t : Memory} {floor pos : Nat}
    (same : ∀ i, floor ≤ i → t.bytes[i]? = m.bytes[i]?) (above : floor ≤ pos)
    (inside : pos < m.bytes.size) (inside' : pos < t.bytes.size) : t.bytes[pos] = m.bytes[pos] := by
  have equal := same pos above
  rw [Array.getElem?_eq_getElem inside, Array.getElem?_eq_getElem inside'] at equal
  exact Option.some.inj equal

section Locality

variable {m t : Memory} {floor : Nat} (size : t.bytes.size = m.bytes.size)
  (same : ∀ i, floor ≤ i → t.bytes[i]? = m.bytes[i]?)
include size same

theorem fetchByte_agree (origin : Nat) : Agree floor (fetchByte m origin) (fetchByte t origin) := by
  intro pos above
  by_cases inside : pos < m.bytes.size
  · have inside' : pos < t.bytes.size := size ▸ inside
    simp only [fetchByte, dif_pos inside, dif_pos inside', getElem_agree same above inside inside']
    refine ⟨trivial, fun b next read => ?_⟩
    cases read
    omega
  · have outside : ¬ pos < t.bytes.size := size ▸ inside
    simp only [fetchByte, dif_neg inside, dif_neg outside]
    exact ⟨trivial, fun b next read => by cases read⟩

theorem fetchOpcode_agree (origin version : Nat) (first : Byte) :
    Agree floor (fetchOpcode m origin version first) (fetchOpcode t origin version first) := by
  simp only [fetchOpcode]
  rcases formOf version first with _ | _ | _ | _
  · exact .pure _
  · exact .pure _
  · exact .bind (fetchByte_agree size same origin) fun _ => .pure _
  · exact .pure _

theorem fetchTypes_agree (origin : Nat) (first : Byte) (o : Opcode) :
    Agree floor (fetchTypes m origin first o) (fetchTypes t origin first o) := by
  have byte := fetchByte_agree size same origin
  simp only [fetchTypes]
  rcases o.form with _ | _ | _ | _
  · exact .pure _
  · exact .pure _
  · exact .bind byte fun _ => .pure _
  · exact .bind byte fun _ => .ite (.bind byte fun _ => .pure _) (.pure _)

theorem fetchOperands_agree (origin : Nat) (types : List OperandType) :
    Agree floor (fetchOperands m origin types) (fetchOperands t origin types) := by
  have byte := fetchByte_agree size same origin
  induction types with
  | nil => exact .pure _
  | cons type rest ih =>
      rcases type with _ | _ | _ | _
      · exact .bind byte fun _ => .bind byte fun _ => .bind ih fun _ => .pure _
      · exact .bind byte fun _ => .bind ih fun _ => .pure _
      · exact .bind byte fun _ => .bind ih fun _ => .pure _
      · exact .pure _

theorem fetchBranch_agree (origin : Nat) :
    Agree floor (fetchBranch m origin) (fetchBranch t origin) := by
  have byte := fetchByte_agree size same origin
  exact .bind byte fun _ => .ite (.pure _) (.bind byte fun _ => .pure _)

/-- The search for the end of a string only moves upwards. -/
theorem textEnd_agree (origin addr : Nat) (above : floor ≤ addr) :
    textEnd t origin addr = textEnd m origin addr ∧
      ∀ stop, textEnd m origin addr = .ok stop → floor ≤ stop := by
  fun_induction textEnd m origin addr with
  | case1 addr inside first last =>
      have inside' : addr + 1 < t.bytes.size := size ▸ inside
      have equal := getElem_agree same above first (Nat.lt_of_succ_lt inside')
      refine ⟨?_, fun stop ended => ?_⟩
      · rw [textEnd, dif_pos inside']
        simp only [equal, if_pos last]
      · cases ended
        omega
  | case2 addr inside first goes ih =>
      have inside' : addr + 1 < t.bytes.size := size ▸ inside
      have equal := getElem_agree same above first (Nat.lt_of_succ_lt inside')
      obtain ⟨rest, stays⟩ := ih (by omega)
      refine ⟨?_, stays⟩
      rw [textEnd, dif_pos inside']
      simp only [equal, if_neg goes, rest]
  | case3 addr outside =>
      have outside' : ¬ addr + 1 < t.bytes.size := size ▸ outside
      refine ⟨?_, fun stop ended => by cases ended⟩
      rw [textEnd, dif_neg outside']

theorem fetchText_agree (origin : Nat) : Agree floor (fetchText m origin) (fetchText t origin) := by
  intro pos above
  obtain ⟨equal, stays⟩ := textEnd_agree size same origin pos above
  simp only [fetchText, equal]
  refine ⟨trivial, fun a next read => ?_⟩
  obtain ⟨stop, ended, read⟩ := bind_eq_ok read
  obtain rfl : stop = next := congrArg Prod.snd (Except.ok.inj read)
  exact stays stop ended

/-- Reading an instruction looks at no byte below its address. -/
theorem fetch_agree (origin version : Nat) :
    Agree floor (fetch m origin version) (fetch t origin version) := by
  have byte := fetchByte_agree size same origin
  refine .bind byte fun first => ?_
  refine .bind (fetchOpcode_agree size same origin version first) fun o => ?_
  refine .bind (fetchTypes_agree size same origin first o) fun types => ?_
  refine .bind (fetchOperands_agree size same origin types) fun operands => ?_
  refine .bind (Agree.fetchIf byte) fun store => ?_
  refine .bind (Agree.fetchIf (fetchBranch_agree size same origin)) fun branch => ?_
  refine .bind (Agree.fetchIf (fetchText_agree size same origin)) fun text => ?_
  exact .bind .get fun stop => .pure _

/-- **Locality.** Images that agree from an address on have the same instruction
there. -/
theorem decode_congr (version : Nat) : decode t floor version = decode m floor version := by
  have equal := (fetch_agree size same floor version floor (Nat.le_refl _)).1
  simp only [decode, StateT.run'] at equal ⊢
  rw [equal]

end Locality

/-! ## What was decoded -/

variable {m : Memory} {origin version pos stop : Nat}

/-- An opcode without operands is announced by a first byte of the short form whose
operand type is omitted. -/
theorem fetchOpcode_zero {first : Byte} {o : Opcode}
    (read : fetchOpcode m origin version first pos = .ok (o, stop)) (zero : o.count = .zero) :
    o.form = .short ∧ first.toNat / 16 % 4 = 3 := by
  simp only [fetchOpcode] at read
  generalize formOf version first = form at read
  rcases form with _ | _ | _ | _
  · cases read
    cases zero
  · cases read
    refine ⟨rfl, ?_⟩
    by_cases omitted : first.toNat / 16 % 4 = 3
    · exact omitted
    · simp only [if_neg omitted] at zero
      cases zero
  · obtain ⟨number, next, _, read⟩ := fetch_bind_ok read
    cases read
    cases zero
  · cases read
    simp only at zero
    split at zero <;> cases zero

theorem fetchTypes_omitted {first : Byte} {o : Opcode} {types : List OperandType}
    (read : fetchTypes m origin first o pos = .ok (types, stop)) (short : o.form = .short)
    (omitted : first.toNat / 16 % 4 = 3) : types = [] := by
  have bits : OperandType.ofBits (first >>> 4) = .omitted := by
    have shifted : (first >>> 4).toNat % 4 = 3 := by
      rw [UInt8.toNat_shiftRight]
      simpa [Nat.shiftRight_eq_div_pow] using omitted
    simp only [OperandType.ofBits, shifted]
  simp only [fetchTypes, short, bits] at read
  cases read
  rfl

/-- A part of an instruction is read exactly if it is there. -/
theorem fetchIf_isSome {present : Bool} {x : Fetch α} {part : Option α} {pos stop : Nat}
    (read : fetchIf present x pos = .ok (part, stop)) : part.isSome = present := by
  cases present with
  | false =>
      cases read
      rfl
  | true =>
      have read : (x >>= fun a => pure (some a)) pos = .ok (part, stop) := read
      obtain ⟨a, next, _, read⟩ := fetch_bind_ok read
      cases read
      rfl

/-- What is known of an instruction that was decoded at an address of an image. -/
structure DecodedAt (m : Memory) (origin version : Nat) (i : Instruction) : Prop where
  addr : i.addr = origin
  inside : origin < m.bytes.size
  stores : i.store.isSome = i.opcode.stores version
  branches : i.branch.isSome = i.opcode.branches version
  bare : i.opcode.count = .zero → i.opcode.form = .short ∧ i.operands = []

theorem decode_ok {i : Instruction} (decoded : decode m origin version = .ok i) :
    i.DecodedAt m origin version := by
  obtain ⟨⟨_, stop⟩, read, given⟩ := bind_eq_ok decoded
  cases given
  obtain ⟨first, next, read₁, read⟩ := fetch_bind_ok read
  obtain ⟨o, next, read₂, read⟩ := fetch_bind_ok read
  obtain ⟨types, next, read₃, read⟩ := fetch_bind_ok read
  obtain ⟨operands, next, read₄, read⟩ := fetch_bind_ok read
  obtain ⟨store, next, read₅, read⟩ := fetch_bind_ok read
  obtain ⟨branch, next, read₆, read⟩ := fetch_bind_ok read
  obtain ⟨text, next, _, read⟩ := fetch_bind_ok read
  obtain ⟨_, next, _, read⟩ := fetch_bind_ok read
  cases read
  refine ⟨rfl, ?_, fetchIf_isSome read₅, fetchIf_isSome read₆, fun zero => ?_⟩
  · by_cases inside : origin < m.bytes.size
    · exact inside
    · simp only [fetchByte, dif_neg inside] at read₁
      cases read₁
  · obtain ⟨short, omitted⟩ := fetchOpcode_zero read₂ zero
    obtain rfl := fetchTypes_omitted read₃ short omitted
    cases read₄
    exact ⟨short, rfl⟩

end ZMachine.Instruction
