import ZMachine.Session.Output
import ZMachine.Text.Case

/-!
# Input instructions

Reading a line or a key suspends the session; the player's answer finishes the
instruction later. A line is put into small letters, stored in the text buffer
and split into words, which are described in the parse buffer by their
dictionary address, their length and their place.
-/

set_option autoImplicit false

namespace ZMachine

/-- An input operation. -/
inductive InputOp where
  | read
  | readChar
  | tokenise
  | outputStream
  | inputStream
  deriving DecidableEq, Repr, Inhabited

/-- The input operation of an opcode number. -/
def InputOp.of? : OperandCount → Nat → Option InputOp
  | .var, 0x04 => some .read
  | .var, 0x16 => some .readChar
  | .var, 0x1B => some .tokenise
  | .var, 0x13 => some .outputStream
  | .var, 0x14 => some .inputStream
  | _, _ => none

namespace Session

variable {ω : Type}

/-- The most words that a parse buffer can describe. -/
def maxWords : Nat := 59

/-! ## The parse buffer -/

/-- Describe one word in its entry of the parse buffer. -/
def writeWordEntry (entry : Nat) (address : Word) (token : Token) (offset : Nat) :
    Op Memory Unit := do
  Memory.writeWord entry address
  Memory.writeByte (entry + 2) (UInt8.ofNat token.text.length)
  Memory.writeByte (entry + 3) (UInt8.ofNat (token.start + offset))

/-- Describe words in the entries from `entry` on. Words that the dictionary does
not have may be skipped, leaving their entries as they are. -/
def describeWords (skipUnknown : Bool) (offset : Nat) :
    (entry : Nat) → List Token → Op Machine Unit
  | _, [] => pure ()
  | entry, token :: rest => do
      let address ← Op.query fun m => m.dictionary.lookup m.memory m.codec token.text
      if !(skipUnknown && address == 0) then
        Machine.onMemory (writeWordEntry entry address token offset)
      describeWords skipUnknown offset (entry + 4) rest

/-- Split a text into words and describe them in a parse buffer, as many as it
has room for. -/
def fillParseBuffer (text : String) (parseAddr : Nat) (skipUnknown : Bool) :
    Op Machine Unit := do
  let room := (← Op.query (·.memory.getByte parseAddr)).toNat
  if room = 0 then Op.fail (.emptyParseBuffer parseAddr)
  let offset ← Op.view fun m => if m.version < 5 then 1 else 2
  let tokens ← Op.view (·.dictionary.tokenize text)
  let count := min (min tokens.length room) maxWords
  Machine.onMemory (Memory.writeByte (parseAddr + 1) (UInt8.ofNat count))
  describeWords skipUnknown offset (parseAddr + 2) (tokens.take count)

/-! ## The operations -/

/-- Begin to read a line into the buffers that the operands name. The parse
buffer may be left out from version 5 on. -/
def beginRead (h : Host ω) (i : Instruction) (operands : List Word) :
    Op (Session ω) Outcome := do
  let version ← viewMachine (·.version)
  let textAddr := (← operand operands 0).toNat
  let parse ← if 5 ≤ version then pure (operands.getD 1 0) else operand operands 1
  let parseAddr := parse.toNat
  let textMax ← queryMachine (·.memory.getByte textAddr)
  if textMax < 3 then Op.fail (.shortTextBuffer textAddr textMax.toNat)
  if parseAddr ≠ 0 then
    if (← queryMachine (·.memory.getByte parseAddr)) = 0 then
      Op.fail (.emptyParseBuffer parseAddr)
  updateStatus h
  Op.update fun s => { s with pending := some (.line i.addr textAddr textMax parseAddr i.store) }
  return .awaitLine

/-- Begin to read a key. -/
def beginReadChar (i : Instruction) (operands : List Word) : Op (Session ω) Outcome := do
  requireVersion i 4
  let device ← operand operands 0
  if device ≠ 1 then Op.fail (.readDevice device.toNat)
  Op.update fun s => { s with pending := some (.char i.addr i.store) }
  return .awaitChar

/-- Split the text of a buffer into words again. Each byte of the buffer is taken
as the character with that number. -/
def tokenise (i : Instruction) (operands : List Word) : Op (Session ω) Outcome := do
  requireVersion i 5
  let textAddr := (← operand operands 0).toNat
  let parseAddr := (← operand operands 1).toNat
  if operands.getD 2 0 ≠ 0 then Op.fail .customDictionary
  let length := (← queryMachine (·.memory.getByte (textAddr + 1))).toNat
  let bytes ← queryMachine (·.memory.readBytes (textAddr + 2) length)
  let text := String.ofList (bytes.toList.map fun b => Char.ofNat b.toNat)
  onMachine (fillParseBuffer text parseAddr (operands.getD 3 0 != 0))
  return .advanced

/-- Carry out an input operation. Input always comes from the keyboard. -/
def input (h : Host ω) (i : Instruction) (operands : List Word) :
    InputOp → Op (Session ω) Outcome
  | .read => beginRead h i operands
  | .readChar => beginReadChar i operands
  | .tokenise => tokenise i operands
  | .outputStream => do
      requireVersion i 3
      let stream ← operand operands 0
      selectStream (signed stream) operands[1]?
      return .advanced
  | .inputStream => do
      requireVersion i 3
      let _ ← operand operands 0
      return .advanced

/-! ## The player's answers -/

/-- Store typed characters in a text buffer: behind a zero byte's worth of room
and ended by zero before version 5, behind their count from then on. -/
def storeText (version textAddr : Nat) (codes : List Byte) : Op Memory Unit :=
  if version < 5 then do
    Memory.writeBytes (textAddr + 1) codes
    Memory.writeByte (textAddr + 1 + codes.length) 0
  else do
    Memory.writeByte (textAddr + 1) (UInt8.ofNat codes.length)
    Memory.writeBytes (textAddr + 2) codes

/-- What is stored of a line: its first characters in small letters. -/
def typedText (version : Nat) (textMax : Byte) (line : String) : String :=
  let room := if version < 5 then textMax.toNat - 1 else textMax.toNat
  String.ofList ((Text.lowercase line).toList.take room)

/-- Finish the reading of a line. -/
def finishRead (h : Host ω) (line : String) (echo : Bool) (textAddr : Nat) (textMax : Byte)
    (parseAddr : Nat) (target : Option Byte) : Op (Session ω) Unit := do
  let version ← viewMachine (·.version)
  let typed := typedText version textMax line
  onMemory (storeText version textAddr (Zscii.ofString typed))
  if echo then output h (line ++ "\n")
  else if ← queryMachine (·.memory.flag .transcripting) then
    request (h.print .transcript (line ++ "\n"))
  echoCommand h line
  if parseAddr ≠ 0 then onMachine (fillParseBuffer typed parseAddr false)
  if 5 ≤ version then
    if let some number := target then onMachine (Machine.writeVariable number 13)

end Session

end ZMachine
