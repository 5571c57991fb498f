import ZMachine.Memory
import ZMachine.Instruction.Opcode

/-!
# Instructions

An instruction is an opcode, its operand types and operands, and then, as the
opcode asks for them, a store variable, a branch and a string. `decode` reads
one at an address, byte by byte; running out of memory anywhere is one fault,
which names the address where the instruction began.
-/

set_option autoImplicit false

namespace ZMachine

/-- An operand as written: a constant, or the number of a variable to read. -/
inductive Operand where
  | large (value : Word)
  | small (value : Byte)
  | variable (number : Byte)
  deriving DecidableEq, Repr, Inhabited

/-- The type of an operand. -/
def Operand.type : Operand → OperandType
  | .large _ => .large
  | .small _ => .small
  | .variable _ => .variable

/-- An operand as the number written. -/
def Operand.raw : Operand → Word
  | .large value => value
  | .small value => value.toUInt16
  | .variable number => number.toUInt16

/-- A branch: the sense in which it is taken and where it leads. Offsets 0 and 1
return false and true. -/
structure Branch where
  onTrue : Bool
  offset : Int
  deriving DecidableEq, Repr, Inhabited

/-- A decoded instruction. -/
structure Instruction where
  addr : Nat
  opcode : Opcode
  operands : List Operand
  store : Option Byte
  branch : Option Branch
  /-- The address of the string that follows. -/
  text : Option Nat
  /-- The number of bytes it takes. -/
  size : Nat
  deriving DecidableEq, Repr, Inhabited

namespace Instruction

/-- The address of the next instruction. -/
def next (i : Instruction) : Nat :=
  i.addr + i.size

/-- The name of an instruction. -/
def name (i : Instruction) (version : Nat) : String :=
  i.opcode.name version

/-! ## Fetching -/

/-- A reader that moves along the bytes of an instruction. -/
abbrev Fetch (α : Type) := StateT Nat (Except Fault) α

/-- The byte at the reader's place, in an instruction that began at `origin`. -/
def fetchByte (m : Memory) (origin : Nat) : Fetch Byte :=
  fun pos =>
    if h : pos < m.bytes.size then .ok (m.bytes[pos], pos + 1)
    else .error (.instructionPastEnd origin)

/-- The form that the first byte announces. -/
def formOf (version : Nat) (first : Byte) : Form :=
  if 0xC0 ≤ first.toNat then .variable
  else if first.toNat < 0x80 then .long
  else if first = 0xBE ∧ 5 ≤ version then .extended
  else .short

/-- Read the rest of the opcode behind the first byte. -/
def fetchOpcode (m : Memory) (origin version : Nat) (first : Byte) : Fetch Opcode :=
  match formOf version first with
  | .long => pure ⟨.long, .two, first &&& 0x1F, none⟩
  | .short =>
      let count := if first.toNat / 16 % 4 = 3 then .zero else .one
      pure ⟨.short, count, first &&& 0x0F, none⟩
  | .variable =>
      let count := if first &&& 0x20 = 0 then .two else .var
      pure ⟨.variable, count, first &&& 0x1F, none⟩
  | .extended => do
      let number ← fetchByte m origin
      return ⟨.extended, .var, first, some number⟩

/-- The four operand types of a type byte. -/
def typesOfByte (b : Byte) : List OperandType :=
  [.ofBits (b >>> 6), .ofBits (b >>> 4), .ofBits (b >>> 2), .ofBits b]

/-- Read the operand types; the first omitted one ends them. -/
def fetchTypes (m : Memory) (origin : Nat) (first : Byte) (o : Opcode) :
    Fetch (List OperandType) :=
  match o.form with
  | .long =>
      pure [if first &&& 0x40 = 0 then .small else .variable,
        if first &&& 0x20 = 0 then .small else .variable]
  | .short => pure ([OperandType.ofBits (first >>> 4)].filter (· ≠ .omitted))
  | .variable => do
      let types ← fetchByte m origin
      if o.hasTwoTypeBytes then
        let more ← fetchByte m origin
        return (typesOfByte types ++ typesOfByte more).takeWhile (· ≠ .omitted)
      else return (typesOfByte types).takeWhile (· ≠ .omitted)
  | .extended => do
      let types ← fetchByte m origin
      return (typesOfByte types).takeWhile (· ≠ .omitted)

/-- Read the operands of the given types. -/
def fetchOperands (m : Memory) (origin : Nat) : List OperandType → Fetch (List Operand)
  | [] => pure []
  | .large :: rest => do
      let high ← fetchByte m origin
      let low ← fetchByte m origin
      return .large (wordOfBytes high low) :: (← fetchOperands m origin rest)
  | .small :: rest => do
      let value ← fetchByte m origin
      return .small value :: (← fetchOperands m origin rest)
  | .variable :: rest => do
      let number ← fetchByte m origin
      return .variable number :: (← fetchOperands m origin rest)
  | .omitted :: _ => pure []

/-- Read a branch: one byte holds a short offset, two a signed one. -/
def fetchBranch (m : Memory) (origin : Nat) : Fetch Branch := do
  let first ← fetchByte m origin
  let onTrue := 0x80 ≤ first.toNat
  if first &&& 0x40 ≠ 0 then return ⟨onTrue, (first &&& 0x3F).toNat⟩
  let second ← fetchByte m origin
  return ⟨onTrue, signed14 (wordOfBytes first second)⟩

/-- The address behind the string at an address. -/
def textEnd (m : Memory) (origin addr : Nat) : Except Fault Nat :=
  if h : addr + 1 < m.bytes.size then
    have : addr < m.bytes.size := Nat.lt_of_succ_lt h
    if 0x80 ≤ m.bytes[addr].toNat then .ok (addr + 2) else textEnd m origin (addr + 2)
  else .error (.instructionPastEnd origin)
termination_by m.bytes.size - addr
decreasing_by omega

/-- Pass over a string and give its address. -/
def fetchText (m : Memory) (origin : Nat) : Fetch Nat :=
  fun pos => do return (pos, ← textEnd m origin pos)

/-- Read a part of an instruction if it is there. -/
def fetchIf {α : Type} (present : Bool) (part : Fetch α) : Fetch (Option α) :=
  if present then some <$> part else pure none

/-- Read the instruction that begins at `origin`. -/
def fetch (m : Memory) (origin version : Nat) : Fetch Instruction := do
  let first ← fetchByte m origin
  let opcode ← fetchOpcode m origin version first
  let types ← fetchTypes m origin first opcode
  let operands ← fetchOperands m origin types
  let store ← fetchIf (opcode.stores version) (fetchByte m origin)
  let branch ← fetchIf (opcode.branches version) (fetchBranch m origin)
  let text ← fetchIf opcode.hasText (fetchText m origin)
  let stop ← get
  return { addr := origin, opcode, operands, store, branch, text, size := stop - origin }

/-- The instruction at an address. -/
def decode (m : Memory) (addr version : Nat) : Except Fault Instruction :=
  (fetch m addr version).run' addr

/-! ## Listing -/

/-- An operand in print. -/
def operandText : Operand → String
  | .large value => "#" ++ hex 4 value.toNat
  | .small value => "#" ++ hex 4 value.toNat
  | .variable number =>
      if number = 0 then "sp"
      else if number < 0x10 then "L" ++ hex 2 (number.toNat - 1)
      else "G" ++ hex 2 (number.toNat - 0x10)

/-- A branch in print. -/
def branchText (b : Branch) : String :=
  let target :=
    if b.offset = 0 then "RFALSE" else if b.offset = 1 then "RTRUE" else explicitSigned b.offset
  let sense := if b.onTrue then "TRUE" else "FALSE"
  s!" [{sense} {target}]"

/-- What stands behind the name of an instruction in print. -/
def tailText (i : Instruction) : String :=
  let operands := ", ".intercalate (i.operands.map operandText)
  (if i.operands.isEmpty then "" else " " ++ operands)
    ++ (i.store.elim "" fun v => " -> V" ++ hex 2 v.toNat)
    ++ i.branch.elim "" branchText
    ++ (i.text.elim "" fun addr => s!" \"@{hex 5 addr}\"")

/-- An instruction in print, with its name. -/
def listing (i : Instruction) (version : Nat) : String :=
  s!"{hex 5 i.addr}: {i.name version}{i.tailText}"

/-- An instruction in print, with its form and number. -/
def rawListing (i : Instruction) : String :=
  s!"{hex 5 i.addr}: {i.opcode.form.label} {i.opcode.count.label} #{hex 2 i.opcode.number.toNat}"
    ++ i.tailText

end Instruction

end ZMachine
