import ZMachine.Op

/-!
# The call stack

Values and routine frames share one stack of words. A frame begins at the frame
pointer with four words: the return address in two, the previous frame pointer,
and the store variable together with the number of locals. Its locals follow,
and then the values that the routine has pushed. The outermost frame stands at
the bottom and is never left.

An operation reads the active frame from the cells. Saved cells can hold a frame
that a return cuts short; an operation that would then touch a place where no
cell is stops with a fault of its own.
-/

set_option autoImplicit false

namespace ZMachine

/-- Where a routine hands control back. -/
structure FrameReturn where
  returnAddr : Nat
  /-- The variable that receives the result, unless it is discarded. -/
  store : Option Byte
  deriving DecidableEq, Repr, Inhabited

/-- The stack of values and frames. -/
structure CallStack where
  cells : Array Word
  /-- Where the active frame begins. -/
  frame : Nat
  deriving DecidableEq, Repr, Inhabited

namespace CallStack

/-- The most cells a stack can have. -/
def capacity : Nat := 0x10000

/-- The number of cells at the beginning of a frame that are not locals. -/
def frameHeader : Nat := 4

/-- The most locals a routine can have. -/
def maxLocals : Nat := 15

/-- The bit of a frame's first cell that says that the result is discarded. -/
def discardMark : Word := 0x4000

/-- The stack with nothing but the outermost frame. -/
def empty : CallStack :=
  ⟨#[0, 0, 0, 0], 0⟩

/-! ## Views -/

/-- The number of cells. -/
def depth (s : CallStack) : Nat :=
  s.cells.size

/-- The cell at a place. -/
def cell (s : CallStack) (i : Nat) : Word :=
  s.cells.getD i 0

/-- The number of locals of the frame at a place. -/
def localCountAt (s : CallStack) (frame : Nat) : Nat :=
  (s.cell (frame + 3)).toNat % 256

/-- The frame before the frame at a place. -/
def previousFrame (s : CallStack) (frame : Nat) : Nat :=
  (s.cell (frame + 2)).toNat

/-- The number of locals of the active frame. -/
def localCount (s : CallStack) : Nat :=
  s.localCountAt s.frame

/-- Where the values of the active routine begin. -/
def frameTop (s : CallStack) : Nat :=
  s.frame + frameHeader + s.localCount

/-- How many values the active routine has on the stack. -/
def valueCount (s : CallStack) : Nat :=
  s.depth - s.frameTop

/-- The locals of the active frame. -/
def locals (s : CallStack) : List Word :=
  (s.cells.extract (s.frame + frameHeader) s.frameTop).toList

/-- How many frames lie on the way from a frame to the outermost, which does not
count. -/
def countFrames (s : CallStack) (frame : Nat) : Nat :=
  if frame = 0 then 0
  else
    if _h : s.previousFrame frame < frame then 1 + s.countFrames (s.previousFrame frame) else 1
termination_by frame

/-- The number of routines that have been entered and not left. -/
def frameCount (s : CallStack) : Nat :=
  s.countFrames s.frame

/-! ## Touching cells -/

/-- The cell at a place that an operation touches. -/
def touch (s : CallStack) (place : Nat) : Except Fault Word :=
  if h : place < s.cells.size then .ok s.cells[place] else .error (.cellOutside place s.depth)

/-- The number of locals that the active frame states. -/
def statedLocals (s : CallStack) : Except Fault Nat := do
  return (← s.touch (s.frame + 3)).toNat % 256

/-- The last value of the active routine; without one, the given fault. -/
def lastValue (s : CallStack) (missing : Fault) : Except Fault Word := do
  let count ← s.statedLocals
  if s.depth ≤ s.frame + frameHeader + count then throw missing
  s.touch (s.depth - 1)

/-- The place of a local of the active routine, counted from 1. -/
def localPlace (s : CallStack) (n : Byte) : Except Fault Nat := do
  let count ← s.statedLocals
  if n = 0 ∨ count < n.toNat then throw (.noSuchLocal n.toNat count)
  return s.frame + 3 + n.toNat

/-! ## Values -/

/-- Push a value. -/
def push (value : Word) : Op CallStack Unit :=
  fun s =>
    if capacity ≤ s.cells.size then (.error .stackOverflow, s)
    else (.ok (), { s with cells := s.cells.push value })

/-- Take the last value of the active routine. -/
def pop : Op CallStack Word :=
  fun s =>
    match s.lastValue .stackUnderflow with
    | .ok value => (.ok value, { s with cells := s.cells.pop })
    | .error e => (.error e, s)

/-- The last value of the active routine. -/
def peek (s : CallStack) : Except Fault Word :=
  s.lastValue .noTopToRead

/-- Replace the last value of the active routine. -/
def setTop (value : Word) : Op CallStack Unit :=
  fun s =>
    match s.lastValue .noTopToWrite with
    | .ok _ =>
        let last := s.cells.size - 1
        (.ok (), { s with cells := s.cells.setIfInBounds last value })
    | .error e => (.error e, s)

/-! ## Locals -/

/-- The value of a local of the active routine, counted from 1. -/
def getLocal (s : CallStack) (n : Byte) : Except Fault Word := do
  s.touch (← s.localPlace n)

/-- Set a local of the active routine, counted from 1. -/
def setLocal (n : Byte) (value : Word) : Op CallStack Unit := do
  let place ← Op.query (·.localPlace n)
  let _ ← Op.query (·.touch place)
  Op.update fun s => { s with cells := s.cells.setIfInBounds place value }

/-! ## Frames -/

/-- The cells at the beginning of a frame. -/
def headerCells (returnAddr previous : Nat) (store : Option Byte) (localCount : Nat) :
    Array Word :=
  let high := UInt16.ofNat (returnAddr / 0x10000 % 0x4000)
  #[if store.isNone then high ||| discardMark else high,
    UInt16.ofNat returnAddr,
    UInt16.ofNat previous,
    ((store.getD 0).toUInt16 <<< 8) ||| UInt16.ofNat localCount]

/-- Enter a routine with the first values of its locals. -/
def pushFrame (returnAddr : Nat) (store : Option Byte) (locals : List Word) :
    Op CallStack Unit :=
  fun s =>
    if maxLocals < locals.length then (.error (.tooManyLocals locals.length), s)
    else if 0x3FFFFFFF < returnAddr then (.error (.returnAddress returnAddr), s)
    else if capacity < s.cells.size + frameHeader + locals.length then
      (.error .frameOverflow, s)
    else
      let frame := s.cells.size
      let header := headerCells returnAddr s.frame store locals.length
      (.ok (), ⟨s.cells ++ header ++ locals, frame⟩)

/-- What the cells of the active frame say: how it returns, and the frame before
it. -/
def readFrame (s : CallStack) : Except Fault (FrameReturn × Nat) := do
  let high ← s.touch s.frame
  let low ← s.touch (s.frame + 1)
  let previous ← s.touch (s.frame + 2)
  let packed ← s.touch (s.frame + 3)
  let back : FrameReturn :=
    { returnAddr := high.toNat % 0x4000 * 0x10000 + low.toNat
      store := if high &&& discardMark ≠ 0 then none else some (highByte packed) }
  return (back, previous.toNat)

/-- Leave the active routine together with its locals and values. -/
def popFrame : Op CallStack FrameReturn :=
  fun s =>
    if s.frame = 0 then (.error .outermostReturn, s)
    else
      match s.readFrame with
      | .ok (back, previous) => (.ok back, ⟨s.cells.extract 0 s.frame, previous⟩)
      | .error e => (.error e, s)

/-! ## Saved stacks -/

/-- Follow the frames of a saved stack down to the outermost, checking that each
stands inside the cells and that the chain descends. The check adds sizes, and a
frame pointer close to the last of them breaks it off. -/
def checkFrames (s : CallStack) (frame : Nat) : Except Fault Unit :=
  if s.depth < frame + frameHeader then
    -- Cells are fewer than sizes, so no frame inside them ends beyond the last size.
    .error (if frame + frameHeader < sizeLimit then .framePastStack frame else .sizeOverflow)
  else if s.depth < frame + frameHeader + s.localCountAt frame then
    .error (.frameTruncated frame)
  else if frame = 0 then .ok ()
  else
    if _h : s.previousFrame frame < frame then s.checkFrames (s.previousFrame frame)
    else .error (.frameLoop frame)
termination_by frame

/-- The stack with saved cells and frame pointer, if its frames check. -/
def ofParts (cells : Array Word) (frame : Nat) : Except Fault CallStack := do
  let s : CallStack := ⟨cells, frame⟩
  s.checkFrames frame
  return s

end CallStack

end ZMachine
