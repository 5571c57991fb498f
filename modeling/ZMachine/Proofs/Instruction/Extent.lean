import ZMachine.Proofs.Instruction.Decode

/-!
# The extent of an instruction

The size of an instruction tells which bytes it takes. A reader that has given a value has
moved upwards through the image without leaving it, and has looked at no byte but those it
passed: any image with the same bytes in these places gives the same value and the same
place to go on from (`Spans`). Readers in a row span what each of them spans, so this holds
of the whole instruction, whatever bytes decide how many more are read.

Hence an instruction lies inside its image, and its own bytes determine it. An image that
ends before its last byte does not have it.
-/

set_option autoImplicit false

namespace ZMachine.Instruction

variable {α β : Type}

/-! ## What a reader passes -/

/-- The images have the same bytes from one place up to another. -/
def SameBetween (m t : Memory) (start stop : Nat) : Prop :=
  ∀ k, start ≤ k → k < stop → t.bytes[k]? = m.bytes[k]?

/-- The bytes from `pos` up to `stop` lie inside the image, and make the reader give the
value and stop there in any image that has them. -/
structure Spans (x : Memory → Fetch α) (m : Memory) (pos : Nat) (a : α) (stop : Nat) : Prop where
  upward : pos ≤ stop
  inside : pos < stop → stop ≤ m.size
  alone : ∀ t, SameBetween m t pos stop → x t pos = .ok (a, stop)

/-- Whatever the reader gives, it has looked only at the bytes that it passed. -/
def Local (x : Memory → Fetch α) : Prop :=
  ∀ m pos a stop, x m pos = .ok (a, stop) → Spans x m pos a stop

namespace Local

theorem pure (a : α) : Local fun _ => Pure.pure a := by
  intro m pos b stop read
  cases read
  exact ⟨Nat.le_refl _, fun less => absurd less (Nat.lt_irrefl _), fun _ _ => rfl⟩

theorem get : Local fun _ => (MonadState.get : Fetch Nat) := by
  intro m pos b stop read
  cases read
  exact ⟨Nat.le_refl _, fun less => absurd less (Nat.lt_irrefl _), fun _ _ => rfl⟩

/-- Two readers in a row span what the one and then the other spans. -/
theorem bind {x : Memory → Fetch α} {f : α → Memory → Fetch β} (first : Local x)
    (rest : ∀ a, Local (f a)) : Local fun m => x m >>= fun a => f a m := by
  intro m pos b stop read
  obtain ⟨a, next, read₁, read₂⟩ := fetch_bind_ok read
  have span₁ := first m pos a next read₁
  have span₂ := rest a m next b stop read₂
  have upward := Nat.le_trans span₁.upward span₂.upward
  refine ⟨upward, ?_, ?_⟩
  · intro less
    by_cases further : next < stop
    · exact span₂.inside further
    · obtain rfl : next = stop := Nat.le_antisymm span₂.upward (Nat.not_lt.mp further)
      exact span₁.inside less
  · intro t same
    have here : x t pos = .ok (a, next) := by
      apply span₁.alone
      intro k low high
      exact same k low (Nat.lt_of_lt_of_le high span₂.upward)
    have there : f a t next = .ok (b, stop) := by
      apply span₂.alone
      intro k low high
      exact same k (Nat.le_trans span₁.upward low) high
    rw [fetch_bind, here]
    exact there

theorem ite {condition : Prop} [Decidable condition] {x y : Memory → Fetch α} (yes : Local x)
    (no : Local y) : Local fun m => if condition then x m else y m := by
  by_cases holds : condition
  · simpa only [if_pos holds] using yes
  · simpa only [if_neg holds] using no

theorem fetchIf {present : Bool} {x : Memory → Fetch α} (part : Local x) :
    Local fun m => Instruction.fetchIf present (x m) := by
  cases present with
  | false => exact .pure none
  | true => exact .bind part fun a => .pure (some a)

end Local

/-! ## The readers of an instruction -/

theorem fetchByte_local (origin : Nat) : Local fun m => fetchByte m origin := by
  intro m pos b stop read
  by_cases inside : pos < m.bytes.size
  · simp only [fetchByte, dif_pos inside] at read
    cases read
    refine ⟨Nat.le_succ pos, fun _ => inside, fun t same => ?_⟩
    have here := same pos (Nat.le_refl _) (Nat.lt_succ_self _)
    rw [Array.getElem?_eq_getElem inside] at here
    obtain ⟨inside', equal⟩ := Array.getElem?_eq_some_iff.mp here
    simp only [fetchByte, dif_pos inside', equal]
  · simp only [fetchByte, dif_neg inside] at read
    cases read

theorem fetchOpcode_local (origin version : Nat) (first : Byte) :
    Local fun m => fetchOpcode m origin version first := by
  simp only [fetchOpcode]
  rcases formOf version first with _ | _ | _ | _
  · exact .pure _
  · exact .pure _
  · exact .bind (fetchByte_local origin) fun _ => .pure _
  · exact .pure _

theorem fetchTypes_local (origin : Nat) (first : Byte) (o : Opcode) :
    Local fun m => fetchTypes m origin first o := by
  have byte := fetchByte_local origin
  simp only [fetchTypes]
  rcases o.form with _ | _ | _ | _
  · exact .pure _
  · exact .pure _
  · exact .bind byte fun _ => .pure _
  · exact .bind byte fun _ => .ite (.bind byte fun _ => .pure _) (.pure _)

theorem fetchOperands_local (origin : Nat) (types : List OperandType) :
    Local fun m => fetchOperands m origin types := by
  have byte := fetchByte_local origin
  induction types with
  | nil => exact .pure _
  | cons type rest ih =>
      rcases type with _ | _ | _ | _
      · exact .bind byte fun _ => .bind byte fun _ => .bind ih fun _ => .pure _
      · exact .bind byte fun _ => .bind ih fun _ => .pure _
      · exact .bind byte fun _ => .bind ih fun _ => .pure _
      · exact .pure _

theorem fetchBranch_local (origin : Nat) : Local fun m => fetchBranch m origin := by
  have byte := fetchByte_local origin
  exact .bind byte fun _ => .ite (.pure _) (.bind byte fun _ => .pure _)

/-- A word that both images have: its first byte is the same, and its second is there. -/
theorem SameBetween.word {m t : Memory} {addr stop : Nat} (same : SameBetween m t addr stop)
    (inside : addr + 1 < m.bytes.size) (behind : addr + 2 ≤ stop) :
    ∃ _ : addr + 1 < t.bytes.size, t.bytes[addr] = m.bytes[addr] := by
  have high := same addr (Nat.le_refl _) (by omega)
  have low := same (addr + 1) (by omega) (by omega)
  rw [Array.getElem?_eq_getElem inside] at low
  obtain ⟨inside', _⟩ := Array.getElem?_eq_some_iff.mp low
  rw [Array.getElem?_eq_getElem (Nat.lt_of_succ_lt inside),
    Array.getElem?_eq_getElem (Nat.lt_of_succ_lt inside')] at high
  exact ⟨inside', Option.some.inj high⟩

/-- A string is passed word by word, up to the first that is marked. -/
theorem textEnd_spans {m : Memory} {origin addr stop : Nat}
    (ended : textEnd m origin addr = .ok stop) :
    addr + 2 ≤ stop ∧ stop ≤ m.size ∧
      ∀ t, SameBetween m t addr stop → textEnd t origin addr = .ok stop := by
  fun_induction textEnd m origin addr with
  | case1 addr inside first last =>
      cases ended
      refine ⟨Nat.le_refl _, inside, fun t same => ?_⟩
      obtain ⟨inside', equal⟩ := same.word inside (Nat.le_refl _)
      rw [textEnd, dif_pos inside']
      simp only [equal, if_pos last]
  | case2 addr inside first goes ih =>
      obtain ⟨upward, fits, alone⟩ := ih ended
      refine ⟨by omega, fits, fun t same => ?_⟩
      obtain ⟨inside', equal⟩ := same.word inside (by omega)
      rw [textEnd, dif_pos inside']
      simp only [equal, if_neg goes]
      apply alone
      intro k low high
      exact same k (by omega) high
  | case3 addr outside => cases ended

theorem fetchText_local (origin : Nat) : Local fun m => fetchText m origin := by
  intro m pos a stop read
  obtain ⟨stop', ended, read⟩ := bind_eq_ok read
  obtain ⟨rfl, rfl⟩ := Prod.mk.inj (Except.ok.inj read)
  obtain ⟨upward, inside, alone⟩ := textEnd_spans ended
  refine ⟨by omega, fun _ => inside, fun t same => ?_⟩
  rw [fetchText, alone t same]
  rfl

theorem fetch_local (origin version : Nat) : Local fun m => fetch m origin version := by
  have byte := fetchByte_local origin
  refine .bind byte fun first => ?_
  refine .bind (fetchOpcode_local origin version first) fun o => ?_
  refine .bind (fetchTypes_local origin first o) fun types => ?_
  refine .bind (fetchOperands_local origin types) fun operands => ?_
  refine .bind (Local.fetchIf byte) fun store => ?_
  refine .bind (Local.fetchIf (fetchBranch_local origin)) fun branch => ?_
  refine .bind (Local.fetchIf (fetchText_local origin)) fun text => ?_
  exact .bind .get fun stop => .pure _

/-! ## Operands and their types -/

variable {m : Memory} {origin version pos stop : Nat}

/-- The types in some slots, up to the first that is empty. -/
theorem takeWhile_present {slots : List OperandType} (short : slots.length ≤ 8) :
    (slots.takeWhile (· ≠ .omitted)).length ≤ 8 ∧
      .omitted ∉ slots.takeWhile (· ≠ .omitted) := by
  refine ⟨Nat.le_trans (List.takeWhile_sublist _).length_le short, fun member => ?_⟩
  have there := List.all_eq_true.mp List.all_takeWhile _ member
  exact of_decide_eq_true there rfl

/-- At most eight operand types are announced, all of them of operands that are there. -/
theorem fetchTypes_ok {first : Byte} {o : Opcode} {types : List OperandType}
    (read : fetchTypes m origin first o pos = .ok (types, stop)) :
    types.length ≤ 8 ∧ .omitted ∉ types := by
  have four : ∀ byte, (typesOfByte byte).length = 4 := fun _ => rfl
  simp only [fetchTypes] at read
  generalize o.form = form at read
  rcases form with _ | _ | _ | _
  · cases read
    exact ⟨Nat.le_add_left 2 6, by split <;> split <;> decide⟩
  · cases read
    generalize OperandType.ofBits (first >>> 4) = type
    cases type <;> decide
  · obtain ⟨byte, next, _, read⟩ := fetch_bind_ok read
    cases read
    exact takeWhile_present (by rw [four]; decide)
  · obtain ⟨byte, next, _, read⟩ := fetch_bind_ok read
    split at read
    · obtain ⟨more, next', _, read⟩ := fetch_bind_ok read
      cases read
      exact takeWhile_present (Nat.le_of_eq (by rw [List.length_append, four, four]))
    · cases read
      exact takeWhile_present (by rw [four]; decide)

/-- One operand is read for each type that is announced. -/
theorem fetchOperands_ok {types : List OperandType} {operands : List Operand}
    (read : fetchOperands m origin types pos = .ok (operands, stop))
    (there : .omitted ∉ types) : operands.map Operand.type = types := by
  induction types generalizing operands pos with
  | nil =>
      cases read
      rfl
  | cons type rest ih =>
      have others : .omitted ∉ rest := fun member => there (List.mem_cons_of_mem _ member)
      rcases type with _ | _ | _ | _
      · obtain ⟨high, next, _, read⟩ := fetch_bind_ok read
        obtain ⟨low, next', _, read⟩ := fetch_bind_ok read
        obtain ⟨more, next'', read', read⟩ := fetch_bind_ok read
        cases read
        rw [List.map_cons, ih read' others, Operand.type]
      · obtain ⟨value, next, _, read⟩ := fetch_bind_ok read
        obtain ⟨more, next', read', read⟩ := fetch_bind_ok read
        cases read
        rw [List.map_cons, ih read' others, Operand.type]
      · obtain ⟨number, next, _, read⟩ := fetch_bind_ok read
        obtain ⟨more, next', read', read⟩ := fetch_bind_ok read
        cases read
        rw [List.map_cons, ih read' others, Operand.type]
      · exact absurd (List.mem_cons_self ..) there

/-! ## Whole instructions -/

/-- The operand types that the instruction at an address announces. -/
def announcedTypes (m : Memory) (addr version : Nat) : Except Fault (List OperandType) :=
  StateT.run' (do
    let first ← fetchByte m addr
    let opcode ← fetchOpcode m addr version first
    fetchTypes m addr first opcode : Fetch (List OperandType)) addr

/-- An instruction that was read has its operands as they are announced, and its size is
the number of bytes that were passed. -/
theorem fetch_ok {i : Instruction} (read : fetch m origin version origin = .ok (i, stop)) :
    i.size = stop - origin ∧
      ∃ types, announcedTypes m origin version = .ok types ∧ i.operands.map Operand.type = types ∧
        types.length ≤ 8 ∧ .omitted ∉ types := by
  obtain ⟨first, next₁, read₁, read⟩ := fetch_bind_ok read
  obtain ⟨o, next₂, read₂, read⟩ := fetch_bind_ok read
  obtain ⟨types, next₃, read₃, read⟩ := fetch_bind_ok read
  obtain ⟨operands, next₄, read₄, read⟩ := fetch_bind_ok read
  obtain ⟨store, next₅, _, read⟩ := fetch_bind_ok read
  obtain ⟨branch, next₆, _, read⟩ := fetch_bind_ok read
  obtain ⟨text, next₇, _, read⟩ := fetch_bind_ok read
  obtain ⟨place, next₈, got, read⟩ := fetch_bind_ok read
  cases got
  cases read
  obtain ⟨few, there⟩ := fetchTypes_ok read₃
  refine ⟨rfl, types, ?_, fetchOperands_ok read₄ there, few, there⟩
  simp only [announcedTypes, StateT.run', fetch_bind, read₁, read₂, read₃]
  rfl

/-- An instruction takes at least one byte: one of none could be read in an empty image. -/
theorem fetch_upward {i : Instruction} (read : fetch m origin version origin = .ok (i, stop)) :
    origin < stop := by
  have span := fetch_local origin version m origin i stop read
  refine Nat.lt_of_not_le fun none => ?_
  have empty := span.alone { m with bytes := #[] } fun k low high => by omega
  obtain ⟨first, next, read, _⟩ := fetch_bind_ok empty
  cases read

/-- An instruction is decoded when it is read from its address on. -/
theorem decode_eq_ok {addr : Nat} {i : Instruction} :
    decode m addr version = .ok i ↔ ∃ stop, fetch m addr version addr = .ok (i, stop) := by
  constructor
  · intro decoded
    obtain ⟨⟨_, stop⟩, read, given⟩ := bind_eq_ok decoded
    cases given
    exact ⟨stop, read⟩
  · rintro ⟨stop, read⟩
    simp only [decode, StateT.run', read]
    rfl

/-- The bytes that an instruction takes lie inside its image, and any image with these
bytes has the instruction. -/
theorem decode_spans {addr : Nat} {i : Instruction} (decoded : decode m addr version = .ok i) :
    1 ≤ i.size ∧ addr + i.size ≤ m.size ∧
      ∀ t, SameBetween m t addr (addr + i.size) → decode t addr version = .ok i := by
  obtain ⟨stop, read⟩ := decode_eq_ok.mp decoded
  have span := fetch_local addr version m addr i stop read
  have upward := fetch_upward read
  obtain ⟨size, _⟩ := fetch_ok read
  have ending : addr + i.size = stop := by omega
  rw [ending]
  refine ⟨by omega, span.inside upward, fun t same => ?_⟩
  exact decode_eq_ok.mpr ⟨stop, span.alone t same⟩

/-- **Decoding is local.** An instruction that was decoded takes at least one byte and ends
inside its image. It has an operand for each type that is announced, at most eight, and
none of a type that stands for nothing; the operands that are not large fit in a byte.

Every image with the bytes that the instruction takes has the same instruction there,
whatever its other bytes are. No image that has them up to its end, and ends before the
last of them, has any instruction there. -/
theorem decode_reads_own_bytes {addr : Nat} {i : Instruction}
    (decoded : decode m addr version = .ok i) :
    (1 ≤ i.size ∧ addr + i.size ≤ m.size) ∧
    (∃ types, announcedTypes m addr version = .ok types ∧ i.operands.map Operand.type = types ∧
      i.operands.length = types.length ∧ types.length ≤ 8 ∧ .omitted ∉ types) ∧
    (∀ o ∈ i.operands, o.type ≠ .large → o.raw.toNat < 256) ∧
    (∀ t : Memory, (∀ k, addr ≤ k → k < addr + i.size → t.bytes[k]? = m.bytes[k]?) →
      decode t addr version = .ok i) ∧
    (∀ t : Memory, t.size < addr + i.size →
      (∀ k, addr ≤ k → k < t.size → t.bytes[k]? = m.bytes[k]?) →
      ∀ j, decode t addr version ≠ .ok j) := by
  obtain ⟨some, inside, alone⟩ := decode_spans decoded
  obtain ⟨stop, read⟩ := decode_eq_ok.mp decoded
  obtain ⟨_, types, announced, same, few, there⟩ := fetch_ok read
  refine ⟨⟨some, inside⟩, ⟨types, announced, same, ?_, few, there⟩, ?_, alone, ?_⟩
  · rw [← same, List.length_map]
  · intro o member small
    rcases o with value | value | number
    · exact absurd rfl small
    · simpa [Operand.raw] using value.toNat_lt
    · simpa [Operand.raw] using number.toNat_lt
  · intro t short agree j decoded'
    -- An instruction that fits in the shorter image would be that of the longer one.
    obtain ⟨_, inside', alone'⟩ := decode_spans decoded'
    have again : decode m addr version = .ok j := by
      apply alone'
      intro k low high
      exact (agree k low (by omega)).symm
    obtain rfl : i = j := Except.ok.inj (decoded.symm.trans again)
    omega

/-- An image of version 5 with a call of five operands, whose types take two bytes, at
address 1. -/
def callImage : Memory where
  bytes := #[0, 0xEC, 0x19, 0x7F, 0x12, 0x34, 5, 0, 6, 7, 0x10, 0xFF]
  pristine := #[]
  version := 5
  staticBase := 0
  highBase := 0

/-- The call of that image. -/
def callInstruction : Instruction where
  addr := 1
  opcode := ⟨.variable, .var, 0x0C, none⟩
  operands := [.large 0x1234, .small 5, .variable 0, .small 6, .small 7]
  store := some 0x10
  branch := none
  text := none
  size := 10

/-- The call is found in every image that has its ten bytes. -/
theorem call_reads_own_bytes :
    decode callImage 1 5 = .ok callInstruction ∧ 1 + callInstruction.size ≤ callImage.size ∧
    ∀ t : Memory, (∀ k, 1 ≤ k → k < 11 → t.bytes[k]? = callImage.bytes[k]?) →
      decode t 1 5 = .ok callInstruction := by
  have decoded : decode callImage 1 5 = .ok callInstruction := eq_ok_of_toOption (by decide +kernel)
  obtain ⟨⟨_, inside⟩, _, _, alone, _⟩ := decode_reads_own_bytes decoded
  exact ⟨decoded, inside, alone⟩

end ZMachine.Instruction
