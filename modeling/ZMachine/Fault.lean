import ZMachine.Number
import ZMachine.Instruction.Kind

/-!
# What can go wrong

A fault is the cause for which an operation on a story stops. The causes are
listed by the part of the machine that notices them, and `Fault.message` is the
one place where they are put into words. Two faults wrap another: a string
reports where it began, and an instruction that does not decode reports where
it was fetched. The last is none that a story or a player is told of: there the
program itself breaks off.
-/

set_option autoImplicit false

namespace ZMachine

/-- The cause for which an operation stopped. -/
inductive Fault where
  -- the story image
  | imageTooSmall (size : Nat)
  | unsupportedVersion (version : Nat)
  | staticOverlapsHeader (base : Nat)
  | staticPastEnd (base size : Nat)
  | highPastEnd (base size : Nat)
  | byteRead (addr last : Nat)
  | wordRead (addr last : Nat)
  | byteWrite (addr : Nat)
  | wordWrite (addr : Nat)
  | protectedByte (addr base : Nat)
  | protectedWord (addr base : Nat)
  | byteLoad (addr : Nat)
  | wordLoad (addr : Nat)
  | bytesRead (count addr : Nat)
  | dynamicSize (expected got : Nat)
  -- the header
  | headerAddress (table : String) (addr size : Nat)
  | fieldUndefined (field : String) (version : Nat)
  | pictureStory
  -- text
  | stringOutside (addr : Nat)
  | stringAt (addr : Nat) (cause : Fault)
  | customAlphabet (addr : Nat)
  | customUnicode (addr : Nat)
  | unterminatedString
  | nestedAbbreviation
  | abbreviationOutside (entry : Nat)
  -- the dictionary
  | shortEntry (length textBytes : Nat)
  | entryBeyond (index : Nat)
  -- objects
  | objectZero
  | objectNumber (object : Nat)
  | linkTooLarge (link : Nat)
  | attributeRange (number count : Nat)
  | propertyRange (property last : Nat)
  | runawayProperties (object : Nat)
  | propertyTooLongToRead (property object length : Nat)
  | propertyTooLongToWrite (property object length : Nat)
  | noSuchProperty (object property : Nat)
  | noPropertyToFollow (object property : Nat)
  | notAmongChildren (object parent : Nat)
  | siblingLoop (parent : Nat)
  | insertIntoItself (object : Nat)
  | treeTooDeep (object : Nat)
  | endlessWalk
  -- the call stack
  | framePastStack (frame : Nat)
  | frameTruncated (frame : Nat)
  | frameLoop (frame : Nat)
  | stackOverflow
  | stackUnderflow
  | noTopToRead
  | noTopToWrite
  | noSuchLocal (number count : Nat)
  | tooManyLocals (count : Nat)
  | returnAddress (addr : Nat)
  | frameOverflow
  | outermostReturn
  | cellOutside (place depth : Nat)
  -- instructions
  | instructionPastEnd (addr : Nat)
  | undecodable (pc : Nat) (cause : Fault)
  | belowHighMemory (pc base : Nat)
  | pastStory (pc bound : Nat)
  | extendedOpcode (opcode : Nat)
  | unimplemented (name : String) (count : OperandCount) (opcode : Nat)
  | unhandled (family : Family) (opcode : Nat) (count : OperandCount)
  | unhandledBinary (opcode : Nat)
  | unavailable (name : String) (version : Nat)
  | missingOperand (number : Nat)
  -- single operations
  | notGlobal (number : Nat)
  | routineLocals (addr count : Nat)
  | divisionByZero
  | moduloByZero
  | negativeBranch (target : Int)
  | negativeJump (target : Int)
  | nothingToCompare
  | noArgumentCount
  | noCatch
  | noCopyTable
  | emptyScanEntry
  | saveRetired
  | restoreRetired
  | noInlineText
  | readDevice (device : Nat)
  | customDictionary
  | shortTextBuffer (addr size : Nat)
  | emptyParseBuffer (addr : Nat)
  | streamWithoutTable
  | streamsTooDeep (limit : Nat)
  | noLinePending
  | noCharPending
  -- snapshots and saved games
  | savedPcOutside (pc : Nat)
  | compressionSizes (current pristine : Nat)
  | incompleteRun
  | runBeyondMemory
  | dataBeyondMemory
  -- documents
  | invalidDocument (kind reason : String)
  | unwritableDocument (kind reason : String)
  | unreadableText
  -- the host
  | host (message : String)
  -- the program itself, which reports none of these and breaks off
  | sizeOverflow
  deriving Repr, Inhabited, DecidableEq

namespace Fault

/-- The wording of a fault. -/
def message : Fault → String
  | imageTooSmall size => s!"Story image too small for header: {decimal size} bytes"
  | unsupportedVersion version => s!"Unsupported Z-machine version {decimal version}"
  | staticOverlapsHeader base => s!"Static memory base {hexAddress 4 base} overlaps the header"
  | staticPastEnd base size =>
      s!"Static memory base {hexAddress 4 base} lies past the end of a {decimal size} byte image"
  | highPastEnd base size =>
      s!"High memory base {hexAddress 5 base} lies past the end of a {decimal size} byte image"
  | byteRead addr last =>
      s!"Illegal byte read at {hexAddress 5 addr}, last address is {hexAddress 5 last}"
  | wordRead addr last =>
      s!"Illegal word read at {hexAddress 5 addr}, last address is {hexAddress 5 last}"
  | byteWrite addr => s!"Illegal byte write at {hexAddress 5 addr}"
  | wordWrite addr => s!"Illegal word write at {hexAddress 5 addr}"
  | protectedByte addr base =>
      s!"Illegal byte write to {hexAddress 5 addr}: static memory begins at {hexAddress 4 base}"
  | protectedWord addr base =>
      s!"Illegal word write to {hexAddress 5 addr}: static memory begins at {hexAddress 4 base}"
  | byteLoad addr => s!"Illegal byte load from {hexAddress 5 addr}"
  | wordLoad addr => s!"Illegal word load from {hexAddress 5 addr}"
  | bytesRead count addr => s!"Illegal read of {decimal count} bytes at {hexAddress 5 addr}"
  | dynamicSize expected got =>
      s!"Dynamic memory size mismatch: expected {decimal expected} bytes, got {decimal got}"
  | headerAddress table addr size =>
      s!"Header {table} address {hexAddress 5 addr} lies outside the {decimal size} byte image"
  | fieldUndefined field version =>
      s!"Header field '{field}' is not defined in version {decimal version}"
  | pictureStory => "Version 6 stories are not supported"
  | stringOutside addr => s!"String address {hexAddress 5 addr} is outside memory"
  | stringAt addr cause => s!"{cause.message} (string at {hexAddress 5 addr})"
  | customAlphabet addr => s!"Custom alphabet table at {hexAddress 4 addr} is not supported"
  | customUnicode addr =>
      s!"Custom unicode translation table at {hexAddress 4 addr} is not supported"
  | unterminatedString => "Unterminated string"
  | nestedAbbreviation => "Abbreviation nested inside an abbreviation"
  | abbreviationOutside entry => s!"Abbreviation {decimal entry} points outside memory"
  | shortEntry length textBytes =>
      s!"Dictionary entry length {decimal length} is shorter than its {decimal textBytes} text bytes"
  | entryBeyond index => s!"Dictionary entry {decimal index} lies beyond 0xFFFF"
  | objectZero => "Reference to object 0"
  | objectNumber object =>
      s!"Invalid object number {decimal object} (max 255 before version 4)"
  | linkTooLarge link => s!"Object link {decimal link} does not fit in a byte"
  | attributeRange number count =>
      s!"Attribute {decimal number} out of range (0..{decimal count})"
  | propertyRange property last =>
      s!"Property {decimal property} out of range (1..={decimal last})"
  | runawayProperties object => s!"Runaway property table for object {decimal object}"
  | propertyTooLongToRead property object length =>
      s!"Property {decimal property} of object {decimal object} has length {decimal length}, "
        ++ "too long to read"
  | propertyTooLongToWrite property object length =>
      s!"Property {decimal property} of object {decimal object} has length {decimal length}, "
        ++ "too long to write"
  | noSuchProperty object property =>
      s!"Object {decimal object} has no property {decimal property}"
  | noPropertyToFollow object property =>
      s!"get_next_prop: object {decimal object} has no property {decimal property}"
  | notAmongChildren object parent =>
      s!"Object {decimal object} is not in the child list of its parent {decimal parent}"
  | siblingLoop parent => s!"Sibling chain under {decimal parent} loops"
  | insertIntoItself object => s!"Cannot insert object {decimal object} into itself"
  | treeTooDeep object => s!"Object tree too deep at {decimal object}"
  | endlessWalk => "The object tree never ends"
  | framePastStack frame => s!"Saved frame pointer {decimal frame} is past the stack"
  | frameTruncated frame => s!"Saved frame at {decimal frame} is truncated"
  | frameLoop frame => s!"Saved frame chain loops at {decimal frame}"
  | stackOverflow => "Stack overflow"
  | stackUnderflow => "Stack underflow"
  | noTopToRead => "Stack underflow reading the top value"
  | noTopToWrite => "Stack underflow writing the top value"
  | noSuchLocal number count =>
      s!"Local {decimal number} does not exist (routine has {decimal count})"
  | tooManyLocals count => s!"Routine declares {decimal count} locals"
  | returnAddress addr => s!"Return address {hexAddress 1 addr} is out of range"
  | frameOverflow => "Stack overflow entering routine"
  | outermostReturn => "Return from the outermost frame"
  | cellOutside place depth =>
      s!"Stack cell {decimal place} lies outside the {decimal depth} cells"
  | instructionPastEnd addr =>
      s!"Instruction at {hexAddress 5 addr} runs past the end of memory"
  | undecodable pc cause => s!"Decode error at PC {hexAddress 5 pc}: {cause.message}"
  | belowHighMemory pc base =>
      s!"PC {hexAddress 5 pc} is below high memory at {hexAddress 5 base}"
  | pastStory pc bound =>
      s!"PC {hexAddress 5 pc} is past the end of the story ({hexAddress 5 bound})"
  | extendedOpcode opcode => s!"Extended opcode {hexAddress 2 opcode} is not implemented"
  | unimplemented name count opcode =>
      s!"Unimplemented opcode {name} ({count.label} {hexAddress 2 opcode})"
  | unhandled family opcode count =>
      s!"Unhandled {family.label} opcode {hexAddress 2 opcode} ({count.label})"
  | unhandledBinary opcode => s!"Unhandled math opcode 2OP:{hexAddress 2 opcode}"
  | unavailable name version => s!"{name} is not available in version {decimal version}"
  | missingOperand number => s!"Missing operand {decimal number}"
  | notGlobal number => s!"Variable {decimal number} is not a global"
  | routineLocals addr count =>
      s!"Routine at {hexAddress 5 addr} declares {decimal count} locals"
  | divisionByZero => "Division by zero"
  | moduloByZero => "Modulo by zero"
  | negativeBranch target => s!"Branch to negative address {signedDecimal target}"
  | negativeJump target => s!"Jump to negative address {signedDecimal target}"
  | nothingToCompare => "je needs at least two operands"
  | noArgumentCount => "check_arg_count is not implemented"
  | noCatch => "catch is not implemented"
  | noCopyTable => "copy_table is not implemented"
  | emptyScanEntry => "scan_table entry length is 0"
  | saveRetired => "0OP save is not valid from version 5"
  | restoreRetired => "0OP restore is not valid from version 5"
  | noInlineText => "Print instruction has no inline text"
  | readDevice device => s!"read_char from unexpected device {decimal device}"
  | customDictionary => "tokenise with a custom dictionary is not supported"
  | shortTextBuffer addr size =>
      s!"Text buffer at {hexAddress 4 addr} holds only {decimal size} bytes"
  | emptyParseBuffer addr => s!"Parse buffer at {hexAddress 4 addr} holds no words"
  | streamWithoutTable => "output_stream 3 needs a table"
  | streamsTooDeep limit => s!"output_stream 3 nested more than {decimal limit} deep"
  | noLinePending => "No line input is pending"
  | noCharPending => "No character input is pending"
  | savedPcOutside pc => s!"Saved PC {hexAddress 5 pc} is outside the story"
  | compressionSizes current pristine =>
      s!"Memory sizes don't match for compression: {decimal current} vs {decimal pristine}"
  | incompleteRun => "Incomplete run at end of compressed memory"
  | runBeyondMemory => "Run extends beyond memory"
  | dataBeyondMemory => "Compressed data extends beyond memory"
  | invalidDocument kind reason => s!"Invalid {kind}: {reason}"
  | unwritableDocument kind reason => s!"Cannot serialize {kind}: {reason}"
  | unreadableText => "stream did not contain valid UTF-8"
  | host message => message
  | sizeOverflow => "attempt to add with overflow"

end Fault

end ZMachine
