import ZMachine.Proofs.Instruction.Decode
import ZMachine.Proofs.Memory.Layout
import ZMachine.Proofs.Text.Packing

/-!
# Writing instructions

An instruction is laid out as its first byte, the number within the extended set if it
has one, the operand types that do not fit into the first byte, the operands, and then
the store variable, the branch and the string that its opcode asks for. `Written` is an
instruction together with the choices that its layout leaves open, and `Written.bytes`
are its bytes.

Decoding is the inverse of writing: the bytes of a well-formed instruction, laid out
anywhere in an image, are decoded to that instruction and nothing behind them is read
(`decode_written`). The proof goes part by part, with one lemma for each reader, which
says that it passes over exactly what was written for it (`ReadsAt`).
-/

set_option autoImplicit false

namespace ZMachine

/-! ## Layout -/

/-- The two bits that stand for an operand type. -/
def OperandType.bits : OperandType → Nat
  | .large => 0
  | .small => 1
  | .variable => 2
  | .omitted => 3

/-- The single bit that stands for the type of an operand of one byte. -/
def OperandType.flag : OperandType → Nat
  | .variable => 1
  | _ => 0

theorem OperandType.flag_le (type : OperandType) : type.flag ≤ 1 := by
  cases type <;> decide

theorem OperandType.bits_le (type : OperandType) : type.bits ≤ 3 := by
  cases type <;> decide

theorem Operand.type_ne_omitted (a : Operand) : a.type ≠ .omitted := by
  cases a <;> exact nofun

theorem Operand.bits_type_le (a : Operand) : a.type.bits ≤ 2 := by
  cases a <;> simp [type, OperandType.bits]

/-- The bytes of an operand. -/
def Operand.bytes : Operand → List Byte
  | .large value => [highByte value, lowByte value]
  | .small value => [value]
  | .variable number => [number]

/-- A branch as it is written: with a short offset in one byte, or with a signed one in
two. -/
inductive WrittenBranch where
  | short (onTrue : Bool) (offset : Nat)
  | long (onTrue : Bool) (offset : Int)
  deriving DecidableEq, Repr, Inhabited

namespace WrittenBranch

/-- The branch that was written. -/
def branch : WrittenBranch → Branch
  | short onTrue offset => ⟨onTrue, offset⟩
  | long onTrue offset => ⟨onTrue, offset⟩

/-- The offset fits into the bits that the branch has for it: six without a sign, or
fourteen with one. -/
def Fits : WrittenBranch → Prop
  | short _ offset => offset ≤ 63
  | long _ offset => -8192 ≤ offset ∧ offset ≤ 8191

/-- The bytes of a branch. The top bit is its sense, and the next one marks a short
offset. -/
def bytes : WrittenBranch → List Byte
  | short onTrue offset => [UInt8.ofNat (0x80 * onTrue.toNat + (0x40 + offset))]
  | long onTrue offset =>
      let low := (offset % 0x4000).toNat
      [UInt8.ofNat (0x80 * onTrue.toNat + low / 0x100), UInt8.ofNat (low % 0x100)]

end WrittenBranch

namespace Opcode

/-- The number in the first byte of an instruction. The long form has one bit for each of
its two operand types, the short form two bits for its only one. -/
def firstNumber (o : Opcode) (types : List OperandType) : Nat :=
  match o.form with
  | .long =>
      0x40 * (types.getD 0 .omitted).flag + 0x20 * (types.getD 1 .omitted).flag + o.number.toNat
  | .short => 0x80 + 0x10 * (types.getD 0 .omitted).bits + o.number.toNat
  | .variable => 0xC0 + (if o.count = .var then 0x20 else 0) + o.number.toNat
  | .extended => 0xBE

/-- The first byte of an instruction. -/
def firstByte (o : Opcode) (types : List OperandType) : Byte :=
  UInt8.ofNat (o.firstNumber types)

/-- A byte of four operand types, the first in the top bits. -/
def typeByte (types : List OperandType) : Byte :=
  UInt8.ofNat (0x40 * (types.getD 0 .omitted).bits + 0x10 * (types.getD 1 .omitted).bits +
    4 * (types.getD 2 .omitted).bits + (types.getD 3 .omitted).bits)

/-- The calls with up to eight operands. -/
def TakesEight (o : Opcode) : Prop :=
  o.form = .variable ∧ o.count = .var ∧ (o.number = 0x0C ∨ o.number = 0x1A)

instance (o : Opcode) : Decidable o.TakesEight :=
  inferInstanceAs (Decidable (_ ∧ _ ∧ (_ ∨ _)))

/-- The bytes of the operand types that do not fit into the first byte. -/
def typeBytes (o : Opcode) (types : List OperandType) : List Byte :=
  match o.form with
  | .long => []
  | .short => []
  | .variable =>
      if o.TakesEight then [typeByte types, typeByte (types.drop 4)] else [typeByte types]
  | .extended => [typeByte types]

/-- The opcode can be written in a version with the given operands. -/
inductive Admits (version : Nat) : Opcode → List Operand → Prop where
  /-- Two operands of a byte each. -/
  | long {number : Byte} {a b : Operand} (narrow : number.toNat < 0x20) (small : a.type ≠ .large)
      (small' : b.type ≠ .large) : Admits version ⟨.long, .two, number, none⟩ [a, b]
  /-- No operand. From version 5 on the first byte of one of them introduces the extended
  form. -/
  | zero {number : Byte} (narrow : number.toNat < 0x10) (free : version < 5 ∨ number ≠ 0x0E) :
      Admits version ⟨.short, .zero, number, none⟩ []
  | one {number : Byte} {a : Operand} (narrow : number.toNat < 0x10) :
      Admits version ⟨.short, .one, number, none⟩ [a]
  | several {count : OperandCount} {number : Byte} {operands : List Operand}
      (narrow : number.toNat < 0x20) (counted : count = .two ∨ count = .var)
      (few : operands.length ≤ if TakesEight ⟨.variable, count, number, none⟩ then 8 else 4) :
      Admits version ⟨.variable, count, number, none⟩ operands
  | extended {number : Byte} {operands : List Operand} (late : 5 ≤ version)
      (few : operands.length ≤ 4) : Admits version ⟨.extended, .var, 0xBE, some number⟩ operands

end Opcode

/-- An instruction to be written. -/
structure Written where
  opcode : Opcode
  operands : List Operand
  store : Option Byte
  branch : Option WrittenBranch
  /-- The words of the string that follows. -/
  text : Option (List Word)
  deriving DecidableEq, Repr, Inhabited

namespace Written

/-- The instruction can be written in a version: its opcode takes the operands, and a
store variable, a branch and a string follow exactly if the opcode asks for them. -/
structure WellFormed (w : Written) (version : Nat) : Prop where
  admitted : w.opcode.Admits version w.operands
  stores : w.store.isSome = w.opcode.stores version
  branches : w.branch.isSome = w.opcode.branches version
  fits : ∀ b, w.branch = some b → b.Fits
  speaks : w.text.isSome = w.opcode.hasText
  /-- The end mark stands on the last word of the string and on no other. -/
  ended : ∀ words, w.text = some words → words ≠ [] ∧ Text.EndMarked words

/-- The bytes in front of the string. -/
def front (w : Written) : List Byte :=
  let types := w.operands.map Operand.type
  w.opcode.firstByte types :: (w.opcode.extended.toList ++ (w.opcode.typeBytes types ++
    (w.operands.flatMap Operand.bytes ++ (w.store.toList ++ w.branch.elim [] WrittenBranch.bytes))))

/-- The bytes of an instruction. -/
def bytes (w : Written) : List Byte :=
  w.front ++ w.text.elim [] Text.bytesOfWords

/-- What is to be decoded where the instruction was written. -/
def instruction (w : Written) (addr : Nat) : Instruction where
  addr
  opcode := w.opcode
  operands := w.operands
  store := w.store
  branch := w.branch.map WrittenBranch.branch
  text := w.text.map fun _ => addr + w.front.length
  size := w.bytes.length

end Written

namespace Instruction

variable {α β : Type} {m : Memory} {origin version pos : Nat}

/-! ## Readers -/

/-- Where the bytes stand, the reader passes over them and gives the value. -/
def ReadsAt (m : Memory) (pos : Nat) (x : Fetch α) (bytes : List Byte) (a : α) : Prop :=
  m.Stand pos bytes → x pos = .ok (a, pos + bytes.length)

namespace ReadsAt

theorem pure (a : α) : ReadsAt m pos (Pure.pure a) [] a := fun _ => rfl

theorem bind {x : Fetch α} {f : α → Fetch β} {first second : List Byte} {a : α} {b : β}
    (read : ReadsAt m pos x first a) (rest : ReadsAt m (pos + first.length) (f a) second b) :
    ReadsAt m pos (x >>= f) (first ++ second) b := by
  intro stand
  obtain ⟨stand, stand'⟩ := Memory.stand_append.mp stand
  rw [fetch_bind, read stand]
  simp only [rest stand', List.length_append, Nat.add_assoc]

/-- A value is computed from what was read. -/
theorem map {x : Fetch α} {f : α → β} {bytes : List Byte} {a : α} {c : β}
    (read : ReadsAt m pos x bytes a) (value : f a = c) :
    ReadsAt m pos (x >>= fun a => Pure.pure (f a)) bytes c := by
  have both := read.bind (f := fun a => Pure.pure (f a)) (.pure (f a))
  rwa [List.append_nil, value] at both

end ReadsAt

theorem fetchByte_reads (b : Byte) : ReadsAt m pos (fetchByte m origin) [b] b := by
  intro stand
  obtain ⟨inside, found⟩ := Array.getElem?_eq_some_iff.mp stand.head
  rw [fetchByte, dif_pos inside, found]
  rfl

/-- A part that is there is read, and one that is not is passed over. -/
theorem fetchIf_reads {present : Bool} {x : Fetch β} {part : Option α} {write : α → List Byte}
    {value : α → β} (there : part.isSome = present)
    (read : ∀ a, part = some a → ReadsAt m pos x (write a) (value a)) :
    ReadsAt m pos (fetchIf present x) (part.elim [] write) (part.map value) := by
  cases part with
  | none =>
      obtain rfl : false = present := there
      exact .pure none
  | some a =>
      obtain rfl : true = present := there
      exact (read a rfl).map rfl

/-! ## The opcode -/

section Opcode

variable {o : Opcode} {operands : List Operand} (admitted : o.Admits version operands)
include admitted

theorem toNat_firstByte :
    (o.firstByte (operands.map Operand.type)).toNat =
      o.firstNumber (operands.map Operand.type) := by
  apply toNat_byte
  cases admitted with
  | @long _ a b narrow _ _ =>
      have bound := a.type.flag_le
      have bound' := b.type.flag_le
      simp only [Opcode.firstNumber, List.map_cons, List.getD_cons_zero, List.getD_cons_succ]
      omega
  | zero narrow _ =>
      simp only [Opcode.firstNumber, List.map_nil, List.getD_nil, OperandType.bits]
      omega
  | @one _ a narrow =>
      have bound := a.bits_type_le
      simp only [Opcode.firstNumber, List.map_cons, List.getD_cons_zero]
      omega
  | several narrow _ _ =>
      simp only [Opcode.firstNumber]
      split <;> omega
  | extended _ _ => exact (by decide : 0xBE < 256)

/-- **The opcode.** The first byte announces its form, and its number is read back. -/
theorem fetchOpcode_reads :
    ReadsAt m pos (fetchOpcode m origin version (o.firstByte (operands.map Operand.type)))
      o.extended.toList o := by
  have value := toNat_firstByte admitted
  generalize o.firstByte (operands.map Operand.type) = first at value
  cases admitted with
  | @long number a b narrow _ _ =>
      have bound := a.type.flag_le
      have bound' := b.type.flag_le
      simp only [Opcode.firstNumber, List.map_cons, List.getD_cons_zero, List.getD_cons_succ]
        at value
      have form : formOf version first = .long := by
        rw [formOf, if_neg (by omega), if_pos (by omega)]
      have same : first &&& 0x1F = number := and_mask_eq 5 rfl (by omega)
      rw [fetchOpcode, form]
      simp only [same]
      exact .pure _
  | @zero number narrow free =>
      simp only [Opcode.firstNumber, List.map_nil, List.getD_nil, OperandType.bits] at value
      have form : formOf version first = .short := by
        rw [formOf, if_neg (by omega), if_neg (by omega), if_neg]
        rintro ⟨rfl, late⟩
        rcases free with early | other
        · omega
        · exact other (UInt8.toNat_inj.mp (show number.toNat = 14 by simp at value; omega))
      have same : first &&& 0x0F = number := and_mask_eq 4 rfl (by omega)
      rw [fetchOpcode, form]
      simp only [same, show first.toNat / 16 % 4 = 3 by omega, if_true]
      exact .pure _
  | @one number a narrow =>
      have bound := a.bits_type_le
      simp only [Opcode.firstNumber, List.map_cons, List.getD_cons_zero] at value
      have form : formOf version first = .short := by
        rw [formOf, if_neg (by omega), if_neg (by omega), if_neg]
        rintro ⟨rfl, _⟩
        simp at value
        omega
      have same : first &&& 0x0F = number := and_mask_eq 4 rfl (by omega)
      rw [fetchOpcode, form]
      simp only [same, show ¬ first.toNat / 16 % 4 = 3 by omega, if_false]
      exact .pure _
  | @several count number _ narrow counted _ =>
      simp only [Opcode.firstNumber] at value
      have form : formOf version first = .variable := by
        rw [formOf, if_pos (by omega)]
      have same : first &&& 0x1F = number :=
        and_mask_eq 5 rfl (by split at value <;> omega)
      have bit : first &&& 0x20 = 0 ↔ first.toNat / 2 ^ 5 % 2 = 0 := and_bit_eq_zero first 5 rfl
      rw [fetchOpcode, form]
      simp only [same, bit]
      obtain rfl | rfl := counted
      · simp at value
        simp only [show first.toNat / 2 ^ 5 % 2 = 0 by omega, if_true]
        exact .pure _
      · simp at value
        simp only [show ¬ first.toNat / 2 ^ 5 % 2 = 0 by omega, if_false]
        exact .pure _
  | @extended number _ late _ =>
      have form : formOf version first = .extended := by
        obtain rfl : first = 0xBE := UInt8.toNat_inj.mp value
        rw [formOf, if_neg (by decide), if_neg (by decide), if_pos ⟨rfl, late⟩]
      rw [fetchOpcode, form]
      obtain rfl : first = 0xBE := UInt8.toNat_inj.mp value
      exact (fetchByte_reads number).map rfl

end Opcode

/-! ## Operand types -/

/-- Two bits give back the type that they stand for. -/
theorem ofBits_eq {b : Byte} {type : OperandType} (held : b.toNat % 4 = type.bits) :
    OperandType.ofBits b = type := by
  rw [OperandType.ofBits, held]
  cases type <;> rfl

/-- A bit gives back the type of an operand of one byte. -/
theorem flag_eq {a : Operand} {n : Nat} (small : a.type ≠ .large) (held : n = a.type.flag) :
    (if n = 0 then .small else .variable) = a.type := by
  subst held
  cases a with
  | large value => exact absurd rfl small
  | _ => rfl

/-- A byte gives back the four types whose bits it holds. -/
theorem typesOfByte_eq {b : Byte} {first second third fourth : OperandType}
    (held : b.toNat = 0x40 * first.bits + 0x10 * second.bits + 4 * third.bits + fourth.bits) :
    typesOfByte b = [first, second, third, fourth] := by
  have le₁ := first.bits_le
  have le₂ := second.bits_le
  have le₃ := third.bits_le
  have le₄ := fourth.bits_le
  have bits₁ : (b >>> 6).toNat % 4 = first.bits := by
    have shifted : (b >>> 6).toNat = b.toNat / 64 := toNat_shiftRight b 6
    omega
  have bits₂ : (b >>> 4).toNat % 4 = second.bits := by
    have shifted : (b >>> 4).toNat = b.toNat / 16 := toNat_shiftRight b 4
    omega
  have bits₃ : (b >>> 2).toNat % 4 = third.bits := by
    have shifted : (b >>> 2).toNat = b.toNat / 4 := toNat_shiftRight b 2
    omega
  have bits₄ : b.toNat % 4 = fourth.bits := by omega
  rw [typesOfByte, ofBits_eq bits₁, ofBits_eq bits₂, ofBits_eq bits₃, ofBits_eq bits₄]

/-- A type byte holds the first four types, and none in the places left over. -/
theorem typesOfByte_typeByte (types : List OperandType) :
    typesOfByte (Opcode.typeByte types) =
      [types.getD 0 .omitted, types.getD 1 .omitted, types.getD 2 .omitted,
        types.getD 3 .omitted] := by
  have first := (types.getD 0 .omitted).bits_le
  have second := (types.getD 1 .omitted).bits_le
  have third := (types.getD 2 .omitted).bits_le
  have fourth := (types.getD 3 .omitted).bits_le
  exact typesOfByte_eq (toNat_byte (by omega))

/-- The types in a type byte, and those in what follows it if it is full. -/
theorem takeWhile_typesOfByte {types : List OperandType} (given : ∀ t ∈ types, t ≠ .omitted)
    (more : List OperandType) :
    (typesOfByte (Opcode.typeByte types) ++ more).takeWhile (· ≠ .omitted) =
      if 4 ≤ types.length then types.take 4 ++ more.takeWhile (· ≠ .omitted) else types := by
  rw [typesOfByte_typeByte]
  match types with
  | [] => rfl
  | [a] => simp_all
  | [a, b] => simp_all
  | [a, b, c] => simp_all
  | a :: b :: c :: d :: rest => simp_all

/-- One byte holds up to four types. -/
theorem takeWhile_single {types : List OperandType} (given : ∀ t ∈ types, t ≠ .omitted)
    (few : types.length ≤ 4) :
    (typesOfByte (Opcode.typeByte types)).takeWhile (· ≠ .omitted) = types := by
  have taken := takeWhile_typesOfByte given []
  rw [List.append_nil, List.takeWhile_nil, List.append_nil, List.take_of_length_le few, ite_self]
    at taken
  exact taken

/-- Two bytes hold up to eight types. -/
theorem takeWhile_double {types : List OperandType} (given : ∀ t ∈ types, t ≠ .omitted)
    (few : types.length ≤ 8) :
    (typesOfByte (Opcode.typeByte types) ++
      typesOfByte (Opcode.typeByte (types.drop 4))).takeWhile (· ≠ .omitted) = types := by
  have given' : ∀ t ∈ types.drop 4, t ≠ .omitted := fun t member =>
    given t (List.mem_of_mem_drop member)
  have few' : (types.drop 4).length ≤ 4 := by
    rw [List.length_drop]
    omega
  rw [takeWhile_typesOfByte given, takeWhile_single given' few', List.take_append_drop, ite_self]

/-- **Operand types.** They are read back from the first byte or from the type bytes. -/
theorem fetchTypes_reads {o : Opcode} {operands : List Operand}
    (admitted : o.Admits version operands) :
    ReadsAt m pos (fetchTypes m origin (o.firstByte (operands.map Operand.type)) o)
      (o.typeBytes (operands.map Operand.type)) (operands.map Operand.type) := by
  have value := toNat_firstByte admitted
  have given : ∀ t ∈ operands.map Operand.type, t ≠ .omitted := by
    simpa using fun a _ => a.type_ne_omitted
  generalize o.firstByte (operands.map Operand.type) = first at value
  have shifted : (first >>> 4).toNat = first.toNat / 16 := toNat_shiftRight first 4
  cases admitted with
  | @long number a b narrow small small' =>
      have bound := a.type.flag_le
      have bound' := b.type.flag_le
      simp only [Opcode.firstNumber, List.map_cons, List.getD_cons_zero, List.getD_cons_succ]
        at value
      have bit : first &&& 0x40 = 0 ↔ first.toNat / 2 ^ 6 % 2 = 0 := and_bit_eq_zero first 6 rfl
      have bit' : first &&& 0x20 = 0 ↔ first.toNat / 2 ^ 5 % 2 = 0 := and_bit_eq_zero first 5 rfl
      simp only [fetchTypes, bit, bit']
      rw [flag_eq small (by omega), flag_eq small' (by omega)]
      exact .pure _
  | @zero number narrow _ =>
      simp only [Opcode.firstNumber, List.map_nil, List.getD_nil, OperandType.bits] at value
      have omitted : OperandType.ofBits (first >>> 4) = .omitted :=
        ofBits_eq (by simp only [OperandType.bits]; omega)
      simp only [fetchTypes, omitted]
      exact .pure _
  | @one number a narrow =>
      have bound := a.bits_type_le
      simp only [Opcode.firstNumber, List.map_cons, List.getD_cons_zero] at value
      have same : OperandType.ofBits (first >>> 4) = a.type := ofBits_eq (by omega)
      have kept : [a.type].filter (· ≠ .omitted) = [a.type] := by simpa using a.type_ne_omitted
      simp only [fetchTypes, same, kept]
      exact .pure _
  | @several count number _ narrow _ few =>
      have twice : Opcode.hasTwoTypeBytes ⟨.variable, count, number, none⟩ = true ↔
          Opcode.TakesEight ⟨.variable, count, number, none⟩ := by
        simp [Opcode.hasTwoTypeBytes, Opcode.TakesEight]
      simp only [fetchTypes, Opcode.typeBytes, twice]
      by_cases eight : Opcode.TakesEight ⟨.variable, count, number, none⟩
      · simp only [if_pos eight] at few ⊢
        refine ReadsAt.bind (fetchByte_reads _) ((fetchByte_reads _).map ?_)
        exact takeWhile_double given (by simpa using few)
      · simp only [if_neg eight] at few ⊢
        exact (fetchByte_reads _).map (takeWhile_single given (by simpa using few))
  | @extended number _ _ few =>
      exact (fetchByte_reads _).map (takeWhile_single given (by simpa using few))

/-! ## Operands -/

theorem fetchOperands_reads (operands : List Operand) :
    ReadsAt m pos (fetchOperands m origin (operands.map Operand.type))
      (operands.flatMap Operand.bytes) operands := by
  induction operands generalizing pos with
  | nil => exact .pure _
  | cons a rest ih =>
      rw [List.flatMap_cons]
      cases a with
      | large value =>
          change ReadsAt m pos _ ([highByte value] ++ ([lowByte value] ++ _)) _
          refine .bind (fetchByte_reads (highByte value)) ?_
          refine .bind (fetchByte_reads (lowByte value)) (ih.map ?_)
          rw [wordOfBytes_bytes]
      | small value => exact .bind (fetchByte_reads value) (ih.map rfl)
      | «variable» number => exact .bind (fetchByte_reads number) (ih.map rfl)

/-! ## Branches -/

/-- Fourteen bits give back the offset whose remainder they hold. -/
theorem signed14_eq {w : Word} {offset : Int} (low : -8192 ≤ offset) (high : offset ≤ 8191)
    (held : w.toNat % 0x4000 = (offset % 0x4000).toNat) : signed14 w = offset := by
  simp only [signed14, held]
  split <;> omega

/-- The top bit gives back the sense of a branch. -/
theorem sense_eq {first : Byte} {onTrue : Bool} {n : Nat} (narrow : n < 0x80)
    (held : first.toNat = 0x80 * onTrue.toNat + n) : decide (0x80 ≤ first.toNat) = onTrue := by
  rw [held]
  cases onTrue with
  | false => simpa using narrow
  | true => simp

/-- **Branches.** A branch is read back, whichever way it was written. -/
theorem fetchBranch_reads {b : WrittenBranch} (fits : b.Fits) :
    ReadsAt m pos (fetchBranch m origin) b.bytes b.branch := by
  have bit : ∀ first : Byte, first &&& 0x40 = 0 ↔ first.toNat / 2 ^ 6 % 2 = 0 :=
    fun first => and_bit_eq_zero first 6 rfl
  cases b with
  | short onTrue offset =>
      have fits : offset ≤ 63 := fits
      have bound := onTrue.toNat_le
      have value : (UInt8.ofNat (0x80 * onTrue.toNat + (0x40 + offset))).toNat =
          0x80 * onTrue.toNat + (0x40 + offset) := toNat_byte (by omega)
      rw [WrittenBranch.bytes]
      generalize UInt8.ofNat (0x80 * onTrue.toNat + (0x40 + offset)) = first at value
      have marked : first &&& 0x40 ≠ 0 := by
        rw [ne_eq, bit]
        omega
      have held : (first &&& 0x3F).toNat = offset := by
        rw [toNat_and_mask (k := 6) first rfl]
        omega
      change ReadsAt m pos _ ([first] ++ []) _
      refine .bind (fetchByte_reads first) ?_
      simp only [if_pos marked, sense_eq (by omega) value, held]
      exact .pure _
  | long onTrue offset =>
      obtain ⟨low, high⟩ : -8192 ≤ offset ∧ offset ≤ 8191 := fits
      have bound := onTrue.toNat_le
      rw [WrittenBranch.bytes]
      generalize rest : (offset % 0x4000).toNat = n
      have narrow : n < 0x4000 := by omega
      have value : (UInt8.ofNat (0x80 * onTrue.toNat + n / 0x100)).toNat =
          0x80 * onTrue.toNat + n / 0x100 := toNat_byte (by omega)
      have value' : (UInt8.ofNat (n % 0x100)).toNat = n % 0x100 := toNat_byte (by omega)
      generalize UInt8.ofNat (0x80 * onTrue.toNat + n / 0x100) = first at value
      generalize UInt8.ofNat (n % 0x100) = second at value'
      have unmarked : ¬ first &&& 0x40 ≠ 0 := by
        rw [ne_eq, not_not, bit]
        omega
      have held : signed14 (wordOfBytes first second) = offset := by
        apply signed14_eq low high
        rw [toNat_wordOfBytes]
        omega
      change ReadsAt m pos _ ([first] ++ [second]) _
      refine .bind (fetchByte_reads first) ?_
      simp only [if_neg unmarked, sense_eq (by omega) value]
      refine (fetchByte_reads second).map ?_
      rw [held]
      rfl

/-! ## Strings -/

/-- The search for the end of a string passes over the words up to the marked one. -/
theorem textEnd_eq {words : List Word} (stand : m.Stand pos (Text.bytesOfWords words))
    (some : words ≠ []) (marked : Text.EndMarked words) :
    textEnd m origin pos = .ok (pos + (Text.bytesOfWords words).length) := by
  induction words generalizing pos with
  | nil => exact absurd rfl some
  | cons w rest ih =>
      have split : Text.bytesOfWords (w :: rest) =
          highByte w :: lowByte w :: Text.bytesOfWords rest := rfl
      rw [split] at stand ⊢
      obtain ⟨inside, high⟩ := Array.getElem?_eq_some_iff.mp stand.head
      obtain ⟨inside', _⟩ := Array.getElem?_eq_some_iff.mp stand.tail.head
      obtain ⟨last, marked⟩ := Text.endMarked_cons.mp marked
      have mark : 0x80 ≤ (highByte w).toNat ↔ rest = [] := by
        rw [toNat_highByte, ← decide_eq_true_iff (p := rest = []), ← last, Text.endsString,
          decide_eq_true_iff]
        omega
      rw [textEnd, dif_pos inside']
      simp only [high, mark]
      by_cases ends : rest = []
      · subst ends
        rfl
      · rw [if_neg ends, ih stand.tail.tail ends marked]
        simp only [List.length_cons]
        congr 1
        omega

theorem fetchText_reads {words : List Word} (some : words ≠ []) (marked : Text.EndMarked words) :
    ReadsAt m pos (fetchText m origin) (Text.bytesOfWords words) pos := by
  intro stand
  rw [fetchText, textEnd_eq stand some marked]
  rfl

/-! ## Whole instructions -/

theorem fetchStore_reads {present : Bool} {store : Option Byte} (there : store.isSome = present) :
    ReadsAt m pos (fetchIf present (fetchByte m origin)) store.toList store := by
  cases store with
  | none =>
      obtain rfl : false = present := there
      exact .pure none
  | some number =>
      obtain rfl : true = present := there
      exact (fetchByte_reads number).map rfl

theorem branchPart_reads {w : Written} (formed : w.WellFormed version) :
    ReadsAt m pos (fetchIf (w.opcode.branches version) (fetchBranch m origin))
      (w.branch.elim [] WrittenBranch.bytes) (w.branch.map WrittenBranch.branch) := by
  refine fetchIf_reads formed.branches fun b found => ?_
  exact fetchBranch_reads (formed.fits b found)

theorem textPart_reads {w : Written} (formed : w.WellFormed version) :
    ReadsAt m pos (fetchIf w.opcode.hasText (fetchText m origin))
      (w.text.elim [] Text.bytesOfWords) (w.text.map fun _ => pos) := by
  refine fetchIf_reads formed.speaks fun words found => ?_
  obtain ⟨some, marked⟩ := formed.ended words found
  exact fetchText_reads some marked

/-- **Decoding.** Where a well-formed instruction stands, it is decoded. -/
theorem decode_of_stand {w : Written} {addr : Nat} (formed : w.WellFormed version)
    (stand : m.Stand addr w.bytes) : decode m addr version = .ok (w.instruction addr) := by
  have whole : ReadsAt m addr (fetch m addr version) w.bytes (w.instruction addr) := by
    have parts : w.bytes = [w.opcode.firstByte (w.operands.map Operand.type)] ++
        (w.opcode.extended.toList ++ (w.opcode.typeBytes (w.operands.map Operand.type) ++
          (w.operands.flatMap Operand.bytes ++ (w.store.toList ++
            (w.branch.elim [] WrittenBranch.bytes ++
              (w.text.elim [] Text.bytesOfWords ++ [])))))) := by
      simp [Written.bytes, Written.front]
    rw [parts]
    refine .bind (fetchByte_reads _) ?_
    refine .bind (fetchOpcode_reads formed.admitted) ?_
    refine .bind (fetchTypes_reads formed.admitted) ?_
    refine .bind (fetchOperands_reads _) ?_
    refine .bind (fetchStore_reads formed.stores) ?_
    refine .bind (branchPart_reads formed) ?_
    refine .bind (textPart_reads formed) ?_
    -- The string begins where the front ends, and the size is the number of bytes passed over.
    have front : w.front.length = 1 + w.opcode.extended.toList.length +
        (w.opcode.typeBytes (w.operands.map Operand.type)).length +
        (w.operands.flatMap Operand.bytes).length + w.store.toList.length +
        (w.branch.elim [] WrittenBranch.bytes).length := by
      simp only [Written.front, List.length_cons, List.length_append]
      omega
    have total : w.bytes.length = w.front.length + (w.text.elim [] Text.bytesOfWords).length :=
      List.length_append
    intro _
    refine congrArg (fun i => Except.ok (i, _)) ?_
    simp only [Written.instruction, Instruction.mk.injEq, true_and, List.length_singleton]
    refine ⟨congrArg (fun place => w.text.map fun _ => place) ?_, ?_⟩ <;> omega
  simp only [decode, StateT.run', whole stand]
  rfl

/-- **Decoding inverts writing.** The bytes of an instruction that is well formed for a
version are laid out at any address of any image that has room for them. Decoding at that
address gives exactly the instruction that was written, with the address of its string
and the number of its bytes. -/
theorem decode_written {w : Written} (formed : w.WellFormed version) {addr : Nat} {image : Memory}
    (room : addr + w.bytes.length ≤ image.size) :
    decode (image.lay addr w.bytes) addr version = .ok (w.instruction addr) :=
  decode_of_stand formed (Memory.stand_lay room)

/-- A call with five operands, whose types take two bytes, which stores its result. -/
def writtenCall : Written where
  opcode := ⟨.variable, .var, 0x0C, none⟩
  operands := [.large 0x1234, .small 5, .variable 0, .variable 0x10, .large 0xFFFF]
  store := some 3
  branch := none
  text := none

theorem writtenCall_decoded :
    decode ((⟨Array.replicate 100 0, #[], 4, 0, 0⟩ : Memory).lay 64 writtenCall.bytes) 64 4 =
      .ok (writtenCall.instruction 64) := by
  refine decode_written ⟨.several (by decide) (.inr rfl) (by decide), rfl, rfl, ?_, rfl, ?_⟩ ?_
  · nofun
  · nofun
  · decide

end Instruction

end ZMachine
