import Mathlib.Data.Nat.Bitwise
import ZMachine.Proofs.Number
import ZMachine.Proofs.Stack.Operations

/-!
# Calls on a call stack

Entering a routine puts a frame where the cells end. From then on, as long as that
frame is not left, no operation changes the cells below it or its header
(`Inside.perform`): values are taken off and locals are set only behind the active
frame's header, and every frame that is active meanwhile begins at that place or above
it.

So when the frame is active and left, its header still holds what was put there. The
header reads back as what the call wrote (`back_headerCells`), and the stack is what it
was before the call, to the cell (`Inside.run_popFrame`).
-/

set_option autoImplicit false

namespace ZMachine.CallStack

variable {s t c : CallStack} {returnAddr : Nat} {store : Option Byte} {locals : List Word}

/-! ## The header of a frame -/

/-- What the first, second and fourth cell of a frame say about the return. -/
def backOf (high low packed : Word) : FrameReturn where
  returnAddr := high.toNat % 0x4000 * 0x10000 + low.toNat
  store := if high &&& discardMark ≠ 0 then none else some (highByte packed)

theorem readFrame_cells (header : s.frame + 4 ≤ s.depth) :
    s.readFrame = .ok (backOf (s.cell s.frame) (s.cell (s.frame + 1)) (s.cell (s.frame + 3)),
      s.previousFrame s.frame) := by
  rw [readFrame, touch_inside (by omega), touch_inside (by omega), touch_inside (by omega),
    touch_inside (by omega)]
  rfl

theorem toNat_discardMark : discardMark.toNat = 2 ^ 14 := rfl

/-- A word below the mark does not have it. -/
theorem and_discardMark {high : Word} (small : high.toNat < 2 ^ 14) : high &&& discardMark = 0 := by
  apply UInt16.toNat_inj.mp
  rw [UInt16.toNat_and, toNat_discardMark, Nat.and_two_pow, Nat.testBit_lt_two_pow small]
  rfl

/-- The mark can be added and found, and the rest of the word is kept. -/
theorem or_discardMark {high : Word} (small : high.toNat < 2 ^ 14) :
    (high ||| discardMark) &&& discardMark ≠ 0 ∧
      (high ||| discardMark).toNat % 0x4000 = high.toNat := by
  constructor
  · intro absent
    have bits := congrArg UInt16.toNat absent
    rw [UInt16.toNat_and, UInt16.toNat_or, toNat_discardMark, Nat.and_two_pow, Nat.testBit_or,
      Nat.testBit_two_pow_self, Bool.or_true] at bits
    cases bits
  · rw [UInt16.toNat_or, toNat_discardMark, show (0x4000 : Nat) = 2 ^ 14 from rfl,
      Nat.or_mod_two_pow, Nat.mod_self, Nat.or_zero, Nat.mod_eq_of_lt small]

/-- The store variable stands in the high byte of a frame's fourth cell. -/
theorem highByte_packed (number : Byte) {count : Nat} (small : count < 256) :
    highByte ((number.toUInt16 <<< 8) ||| UInt16.ofNat count) = number := by
  have bound := number.toNat_lt
  have low : (UInt16.ofNat count).toNat = count := by
    rw [UInt16.toNat_ofNat']
    omega
  apply UInt8.toNat_inj.mp
  rw [toNat_highByte, toNat_shiftLeft_or (by decide), UInt8.toNat_toUInt16, low]
  · simp only [UInt16.reduceToNat]
    omega
  · rw [UInt8.toNat_toUInt16]
    simp only [UInt16.reduceToNat]
    omega
  · rw [low]
    exact small

/-- **The header reads back.** The cells that a call puts at the beginning of a frame
say where it returns to and which variable receives the result. -/
theorem backOf_headerCells (previous : Nat) (store : Option Byte) {count : Nat}
    (near : returnAddr ≤ 0x3FFFFFFF) (small : count < 256) :
    backOf ((headerCells returnAddr previous store count).getD 0 0)
        ((headerCells returnAddr previous store count).getD 1 0)
        ((headerCells returnAddr previous store count).getD 3 0) = ⟨returnAddr, store⟩ := by
  have high : (UInt16.ofNat (returnAddr / 0x10000 % 0x4000)).toNat = returnAddr / 0x10000 := by
    rw [UInt16.toNat_ofNat']
    omega
  have low : (UInt16.ofNat returnAddr).toNat = returnAddr % 0x10000 := UInt16.toNat_ofNat'
  have below : (UInt16.ofNat (returnAddr / 0x10000 % 0x4000)).toNat < 2 ^ 14 := by omega
  have joined : returnAddr / 0x10000 * 0x10000 + returnAddr % 0x10000 = returnAddr := by omega
  cases store with
  | none =>
      obtain ⟨marked, kept⟩ := or_discardMark below
      rw [backOf, FrameReturn.mk.injEq]
      refine ⟨?_, if_pos marked⟩
      change (UInt16.ofNat (returnAddr / 0x10000 % 0x4000) ||| discardMark).toNat % 0x4000 *
        0x10000 + (UInt16.ofNat returnAddr).toNat = returnAddr
      rw [kept, high, low, joined]
  | some number =>
      rw [backOf, FrameReturn.mk.injEq]
      constructor
      · change (UInt16.ofNat (returnAddr / 0x10000 % 0x4000)).toNat % 0x4000 * 0x10000 +
          (UInt16.ofNat returnAddr).toNat = returnAddr
        rw [Nat.mod_eq_of_lt (show _ < 0x4000 from below), high, low, joined]
      · have unmarked := and_discardMark below
        refine (if_neg (not_not.mpr unmarked)).trans (congrArg some ?_)
        exact highByte_packed number small

/-! ## A routine that was entered -/

/-- Only leaving a routine takes a frame away. -/
theorem popFrame_of_frameGain {op : StackOp} {ended : Except Fault Unit}
    (lost : op.frameGain ended = -1) : op = .popFrame := by
  cases op with
  | popFrame => rfl
  | pushFrame => cases ended <;> cases lost
  | _ => cases lost

theorem cell_entered (c : CallStack) (returnAddr : Nat) (store : Option Byte)
    (locals : List Word) {k : Nat} (below : k < c.depth) :
    (c.entered returnAddr store locals).cell k = c.cell k :=
  c.cell_append _ _ below

theorem header_entered (c : CallStack) (returnAddr : Nat) (store : Option Byte)
    (locals : List Word) {k : Nat} (small : k < 4) :
    (c.entered returnAddr store locals).cell (c.depth + k) =
      (headerCells returnAddr c.frame store locals.length).getD k 0 := by
  have bound : k < (headerCells returnAddr c.frame store locals.length).size := small
  rw [entered, cell_appended, Array.getD_eq_getD_getElem?, Array.getElem?_append_left bound,
    Array.getD_eq_getD_getElem?]

/-- A stack on which a routine that was entered on `e` has not been left: the routine's
frame is among the frames, and up to the end of that frame's header the cells are as
they were on entry. -/
structure Inside (e s : CallStack) : Prop where
  nested : ∃ frames, s.Nested s.depth s.frame frames ∧ e.frame ∈ frames
  same : ∀ k, k < e.frame + 4 → s.cell k = e.cell k

/-- A routine with the given locals can be entered, to return to the given address. -/
structure Admits (c : CallStack) (returnAddr : Nat) (locals : List Word) : Prop where
  formed : c.WellFormed
  near : returnAddr ≤ 0x3FFFFFFF
  few : locals.length ≤ maxLocals
  room : c.depth + 4 + locals.length ≤ capacity

/-- A routine has not been left when it has just been entered. -/
theorem Admits.inside_entered (admits : c.Admits returnAddr locals) (store : Option Byte) :
    Inside (c.entered returnAddr store locals) (c.entered returnAddr store locals) := by
  obtain ⟨frames, nested⟩ := admits.formed
  refine ⟨⟨c.depth :: frames, ?_, List.mem_cons_self⟩, fun _ _ => rfl⟩
  rw [depth_entered]
  exact nested_entered nested returnAddr store admits.few admits.room

namespace Inside

variable {e : CallStack}

theorem frame_le (inside : e.Inside s) : e.frame ≤ s.frame := by
  obtain ⟨frames, nested, member⟩ := inside.nested
  exact (nested.le_frame _ member).2

theorem header_le (inside : e.Inside s) : s.frame + 4 ≤ s.depth := by
  obtain ⟨frames, nested, _⟩ := inside.nested
  exact header_inside nested.frameEnd_le

theorem frameTop_le (inside : e.Inside s) : s.frameTop ≤ s.depth := by
  obtain ⟨frames, nested, _⟩ := inside.nested
  exact nested.frameEnd_le

/-- An effect other than leaving the routine itself. -/
theorem effect {gain : Int} (inside : e.Inside s) (effect : s.Effect t gain)
    (stays : gain = -1 → s.frame ≠ e.frame) : e.Inside t := by
  have above := inside.frame_le
  have header := inside.header_le
  obtain ⟨⟨frames, nested, member⟩, same⟩ := inside
  cases effect with
  | kept => exact ⟨⟨frames, nested, member⟩, same⟩
  | pushed value _ =>
      refine ⟨⟨frames, ?_, member⟩, fun k low => ?_⟩
      · simpa [depth] using nested_push nested value
      · rw [s.cell_push value (by omega), same k low]
  | popped rich =>
      have : s.frame + 4 ≤ s.frameTop := s.header_le_frameEnd s.frame
      refine ⟨⟨frames, ?_, member⟩, fun k low => ?_⟩
      · simpa [depth] using nested_pop nested rich
      · rw [s.cell_pop (by omega), same k low]
  | changed place value behind =>
      refine ⟨⟨frames, ?_, member⟩, fun k low => ?_⟩
      · simpa [depth] using nested_set nested value behind
      · rw [s.cell_set value (by omega), same k low]
  | entered returnAddr store locals few room =>
      refine ⟨⟨s.depth :: frames, ?_, List.mem_cons_of_mem _ member⟩, fun k low => ?_⟩
      · rw [depth_entered]
        exact nested_entered nested returnAddr store few room
      · rw [s.cell_entered _ _ _ (by omega), same k low]
  | left inner =>
      obtain ⟨below, rfl, rest⟩ := nested_left nested inner
      have member : e.frame ∈ below :=
        (List.mem_cons.mp member).resolve_left (stays rfl).symm
      -- The frame of the routine ends below the one that is left.
      have ends := rest.frameEnd_le_all e.frame
        (List.mem_cons_of_mem _ (List.mem_cons_of_mem _ member))
      have := s.left.header_le_frameEnd e.frame
      refine ⟨⟨below, ?_, member⟩, fun k low => ?_⟩
      · rw [depth_left (by omega)]
        exact rest
      · rw [CallStack.left, s.cell_extract _ (by omega), same k low]

/-- **Isolation, one operation.** No operation but leaving the routine itself changes a
cell below its frame, or its frame's header. -/
theorem perform (inside : e.Inside s) (op : StackOp) (stays : op = .popFrame → s.frame ≠ e.frame) :
    e.Inside (op.perform.run s).2 := by
  exact inside.effect (perform_effect inside.frameTop_le op) fun lost =>
    stays (popFrame_of_frameGain lost)

/-- The cells below the frame are those before the call. -/
theorem below (inside : (c.entered returnAddr store locals).Inside s) :
    s.cells.extract 0 c.depth = c.cells := by
  have reach : c.depth + 4 ≤ s.depth := by
    have above : c.depth ≤ s.frame := inside.frame_le
    have := inside.header_le
    omega
  refine Array.ext (by simp only [depth, Array.size_extract] at reach ⊢; omega) fun k low low' => ?_
  have cell : s.cell k = c.cell k := by
    rw [inside.same k (Nat.lt_add_right 4 low'), c.cell_entered _ _ _ low']
  have bound : k < s.cells.size := by
    simp only [depth] at reach
    omega
  simpa [CallStack.cell, bound, low'] using cell

/-- **Isolation, leaving.** When the routine's own frame is left, the stack is what it
was before the call, and the return is the one that the call stated. -/
theorem run_popFrame (admits : c.Admits returnAddr locals)
    (inside : (c.entered returnAddr store locals).Inside s) (own : s.frame = c.depth) :
    popFrame.run s = (.ok ⟨returnAddr, store⟩, c) := by
  obtain ⟨formed, near, few, room⟩ := admits
  simp only [maxLocals, capacity] at few room
  have low : c.frame < 2 ^ 16 := by
    have := header_inside formed.frameTop_le
    omega
  have inner : s.frame ≠ 0 := by
    obtain ⟨frames, nested, member⟩ := inside.nested
    exact own ▸ Nat.ne_of_gt (nested.le_frame _ member).1
  have cell : ∀ k < 4, s.cell (s.frame + k) =
      (headerCells returnAddr c.frame store locals.length).getD k 0 := by
    intro k small
    rw [own, inside.same (c.depth + k) (Nat.add_lt_add_left small _), c.header_entered _ _ _ small]
  have previous : s.previousFrame s.frame = c.frame := by
    rw [previousFrame, cell 2 (by decide)]
    exact UInt16.toNat_ofNat_of_lt' low
  have read : s.readFrame = .ok (⟨returnAddr, store⟩, c.frame) := by
    have first : s.cell s.frame = _ := cell 0 (by decide)
    rw [readFrame_cells inside.header_le, previous, first, cell 1 (by decide), cell 3 (by decide),
      backOf_headerCells c.frame store near (by omega)]
  simp only [Op.run, popFrame, if_neg inner, read]
  rw [own, inside.below]

end Inside

/-! ## Receiving a result -/

/-- The stack of a caller that has received a result: variable 0 is pushed, and a local
is set; a global variable stands elsewhere, and without a variable the result is
dropped. -/
def received (s : CallStack) (value : Word) : Option Byte → CallStack
  | none => s
  | some number =>
      if number = 0 then ⟨s.cells.push value, s.frame⟩
      else if number < 0x10 then
        ⟨s.cells.setIfInBounds (s.frame + 3 + number.toNat) value, s.frame⟩
      else s

@[simp] theorem frame_received (s : CallStack) (value : Word) (target : Option Byte) :
    (s.received value target).frame = s.frame := by
  rcases target with _ | number
  · rfl
  · simp only [received]
    split
    · rfl
    · split <;> rfl

/-- A local that is set, or cannot be, stands in the frame that is active. -/
theorem frame_setLocal (n : Byte) (value : Word) (s : CallStack) :
    ((setLocal n value).run s).2.frame = s.frame := by
  rcases run : (setLocal n value).run s with ⟨ended, t⟩
  obtain ⟨_, _, _, rfl⟩ | ⟨place, _, run⟩ := Op.bind_cases run
  · rfl
  obtain ⟨_, _, _, rfl⟩ | ⟨_, _, run⟩ := Op.bind_cases run
  · rfl
  · obtain ⟨_, rfl⟩ := Prod.mk.inj run
    rfl

/-- A value that was pushed is the last one. -/
theorem peek_push (inside : s.frameTop ≤ s.depth) (value : Word) :
    peek ⟨s.cells.push value, s.frame⟩ = .ok value := by
  have header := header_inside inside
  have more : depth ⟨s.cells.push value, s.frame⟩ = s.depth + 1 := Array.size_push _
  have top : frameTop ⟨s.cells.push value, s.frame⟩ = s.frameTop := by
    have same := s.cell_push value (show s.frame + 3 < s.depth by omega)
    simp only [frameTop, localCount, localCountAt, same]
  have header' : s.frame + 4 ≤ depth ⟨s.cells.push value, s.frame⟩ := by omega
  rw [peek, lastValue_eq header', if_neg (by omega), more]
  simp [cell, depth]

/-- A local that was set is read back. -/
theorem getLocal_set (inside : s.frameTop ≤ s.depth) {n : Byte}
    (present : ¬ (n = 0 ∨ s.localCount < n.toNat)) (value : Word) :
    getLocal ⟨s.cells.setIfInBounds (s.frame + 3 + n.toNat) value, s.frame⟩ n = .ok value := by
  have counted : n.toNat ≠ 0 := fun zero => present (.inl (UInt8.toNat_inj.mp zero))
  have count : localCount ⟨s.cells.setIfInBounds (s.frame + 3 + n.toNat) value, s.frame⟩ =
      s.localCount := by
    have same := s.cell_set value (show s.frame + 3 ≠ s.frame + 3 + n.toNat by omega)
    simp only [localCount, localCountAt, same]
  have top : s.frame + 4 + s.localCount ≤ s.cells.size := inside
  have place : s.frame + 3 + n.toNat < s.cells.size := by omega
  rw [getLocal_eq, count, if_neg present]
  · simp [cell, place]
  · rw [frameTop, count, depth, Array.size_setIfInBounds]
    exact top

end ZMachine.CallStack
