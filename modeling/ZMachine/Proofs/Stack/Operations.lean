import ZMachine.Proofs.Operation
import ZMachine.Proofs.Stack.Frames

/-!
# Operations on a call stack

Every operation keeps the frames nested: values are pushed and taken above the
active frame, locals stand behind its header, entering a routine begins a frame
where the cells end, and leaving one cuts the cells off where its frame began.
So a run of operations from the empty stack, whether or not each succeeds, never
touches a place outside the cells (`performAll_sound`).

A saved stack is accepted when every frame of its chain ends inside the whole
stack. That is not enough: a frame may run into the one above it, and a return
then cuts it short. An accepted stack is safe in every later run exactly when
its frames are nested (`ofParts_safe_iff`).
-/

set_option autoImplicit false

namespace ZMachine

/-- An operation on a call stack. -/
inductive StackOp where
  | push (value : Word)
  | pop
  | peek
  | setTop (value : Word)
  | getLocal (n : Byte)
  | setLocal (n : Byte) (value : Word)
  | pushFrame (returnAddr : Nat) (store : Option Byte) (locals : List Word)
  | popFrame
  deriving DecidableEq, Repr, Inhabited

namespace StackOp

/-- Carry out an operation; the value that it gives is dropped. -/
def perform : StackOp → Op CallStack Unit
  | .push value => CallStack.push value
  | .pop => do let _ ← CallStack.pop
  | .peek => do let _ ← Op.query CallStack.peek
  | .setTop value => CallStack.setTop value
  | .getLocal n => do let _ ← Op.query (·.getLocal n)
  | .setLocal n value => CallStack.setLocal n value
  | .pushFrame returnAddr store locals => CallStack.pushFrame returnAddr store locals
  | .popFrame => do let _ ← CallStack.popFrame

/-- The stack that operations leave one after another, each succeeding or not. -/
def performAll : List StackOp → CallStack → CallStack
  | [], s => s
  | op :: rest, s => performAll rest (op.perform.run s).2

/-- By how many the frames grow in an operation that ends as given. -/
def frameGain : StackOp → Except Fault Unit → Int
  | .pushFrame .., .ok _ => 1
  | .popFrame, .ok _ => -1
  | _, _ => 0

/-- How many routines operations enter and do not leave: the successful entries
less the successful returns. -/
def netFrames : List StackOp → CallStack → Int
  | [], _ => 0
  | op :: rest, s =>
      op.frameGain (op.perform.run s).1 + netFrames rest (op.perform.run s).2

end StackOp

namespace CallStack

open StackOp (performAll netFrames)

/-- No operation on the stack touches a place outside its cells. -/
def Safe (s : CallStack) : Prop :=
  ∀ (op : StackOp) (place depth : Nat),
    (op.perform.run s).1 ≠ .error (.cellOutside place depth)

variable {s : CallStack}

/-! ## Failing operations -/

/-- Dropping the value of an operation changes neither its fault nor the stack. -/
theorem run_drop {α : Type} (x : Op CallStack α) (s : CallStack) :
    (do let _ ← x : Op CallStack Unit).run s = ((x.run s).1.map fun _ => (), (x.run s).2) := by
  rw [Op.run_bind]
  rcases x.run s with ⟨_ | _, _⟩ <;> rfl

/-- An operation that fails leaves the stack as it was. -/
theorem perform_error {op : StackOp} {fault : Fault}
    (fails : (op.perform.run s).1 = .error fault) : (op.perform.run s).2 = s := by
  cases op with
  | push value =>
      simp only [StackOp.perform, Op.run, push] at fails ⊢
      split at fails
      · rw [if_pos ‹_›]
      · cases fails
  | pop =>
      simp only [StackOp.perform, run_drop] at fails ⊢
      simp only [Op.run, pop] at fails ⊢
      rcases last : s.lastValue .stackUnderflow with _ | value
      · rfl
      · simp only [last] at fails
        cases fails
  | peek => simp only [StackOp.perform, run_drop, Op.run_query]
  | setTop value =>
      simp only [StackOp.perform, Op.run, setTop] at fails ⊢
      rcases last : s.lastValue .noTopToWrite with _ | value
      · rfl
      · simp only [last] at fails
        cases fails
  | getLocal n => simp only [StackOp.perform, run_drop, Op.run_query]
  | setLocal n value =>
      simp only [StackOp.perform, setLocal, Op.run_bind, Op.run_query] at fails ⊢
      rcases found : s.localPlace n with _ | place
      · rfl
      · rcases touched : s.touch place with _ | _
        · simp only [touched]
        · simp only [found, touched, Op.run_update] at fails
          cases fails
  | pushFrame returnAddr store locals =>
      simp only [StackOp.perform, Op.run, pushFrame] at fails ⊢
      split at fails
      · rw [if_pos ‹_›]
      · split at fails
        · rw [if_neg ‹_›, if_pos ‹_›]
        · split at fails
          · rw [if_neg ‹_›, if_neg ‹_›, if_pos ‹_›]
          · cases fails
  | popFrame =>
      simp only [StackOp.perform, run_drop] at fails ⊢
      simp only [Op.run, popFrame] at fails ⊢
      split at fails
      · rw [if_pos ‹_›]
      · rw [if_neg ‹_›]
        rcases read : s.readFrame with _ | ⟨back, previous⟩
        · rfl
        · simp only [read] at fails
          cases fails

/-! ## Touching places inside the cells -/

/-- Where the active frame ends inside the cells, no operation leaves them. -/
theorem safe_of_inside (inside : s.frameTop ≤ s.depth) : s.Safe := by
  have header := header_inside inside
  intro op place depth
  cases op with
  | push value =>
      simp only [StackOp.perform, Op.run, push]
      split <;> simp
  | pop =>
      simp only [StackOp.perform, run_drop, run_pop header]
      split <;> simp [Except.map]
  | peek =>
      simp only [StackOp.perform, run_drop, Op.run_query, peek, lastValue_eq header]
      split <;> simp [Except.map]
  | setTop value =>
      simp only [StackOp.perform, run_setTop header]
      split <;> simp
  | getLocal n =>
      simp only [StackOp.perform, run_drop, Op.run_query, getLocal_eq inside]
      split <;> simp [Except.map]
  | setLocal n value =>
      simp only [StackOp.perform, run_setLocal inside]
      split <;> simp
  | pushFrame returnAddr store locals =>
      simp only [StackOp.perform, Op.run, pushFrame]
      split
      · simp
      · split
        · simp
        · split <;> simp
  | popFrame =>
      by_cases outermost : s.frame = 0
      · simp only [StackOp.perform, run_drop]
        simp [Op.run, popFrame, outermost, Except.map]
      · obtain ⟨back, run⟩ := run_popFrame header outermost
        simp only [StackOp.perform, run_drop, run]
        simp [Except.map]

/-- Where the active frame ends past the cells, looking at the last value or at
the last local leaves them. -/
theorem inside_of_safe (safe : s.Safe) : s.frameTop ≤ s.depth := by
  refine Nat.not_lt.mp fun cut => ?_
  have top : s.frameTop = s.frame + 4 + s.localCount := rfl
  by_cases header : s.frame + 3 < s.depth
  · have small : s.localCount < 256 := Nat.mod_lt _ (by decide)
    have number : (UInt8.ofNat s.localCount).toNat = s.localCount := by
      rw [UInt8.toNat_ofNat']
      omega
    have present : ¬ (UInt8.ofNat s.localCount = 0 ∨
        s.localCount < (UInt8.ofNat s.localCount).toNat) := by
      rw [← UInt8.toNat_inj, number]
      simp
      omega
    have place : s.localPlace (UInt8.ofNat s.localCount) = .ok (s.frame + 3 + s.localCount) := by
      rw [localPlace_eq header, if_neg present, number]
    have gone : s.getLocal (UInt8.ofNat s.localCount) =
        .error (.cellOutside (s.frame + 3 + s.localCount) s.depth) := by
      rw [getLocal, place]
      exact touch_outside (by omega)
    refine safe (.getLocal (UInt8.ofNat s.localCount)) (s.frame + 3 + s.localCount) s.depth ?_
    simp only [StackOp.perform, run_drop, Op.run_query, gone]
    rfl
  · have gone : s.peek = .error (.cellOutside (s.frame + 3) s.depth) := by
      rw [peek, lastValue, statedLocals, touch_outside (Nat.not_lt.mp header)]
      rfl
    refine safe .peek (s.frame + 3) s.depth ?_
    simp only [StackOp.perform, run_drop, Op.run_query, gone]
    rfl

/-! ## What an operation does -/

/-- The stack inside a routine that was entered. -/
def entered (s : CallStack) (returnAddr : Nat) (store : Option Byte) (locals : List Word) :
    CallStack :=
  ⟨s.cells ++ (headerCells returnAddr s.frame store locals.length ++ locals.toArray), s.depth⟩

/-- The stack after the active routine was left. -/
def left (s : CallStack) : CallStack :=
  ⟨s.cells.extract 0 s.frame, s.previousFrame s.frame⟩

/-- What an operation can do to a stack, with the number of frames it adds. -/
inductive Effect (s : CallStack) : CallStack → Int → Prop where
  | kept : Effect s s 0
  | pushed (value : Word) (room : s.depth < capacity) :
      Effect s ⟨s.cells.push value, s.frame⟩ 0
  | popped (rich : s.frameTop < s.depth) : Effect s ⟨s.cells.pop, s.frame⟩ 0
  | changed (place : Nat) (value : Word) (behind : s.frame + 4 ≤ place) :
      Effect s ⟨s.cells.setIfInBounds place value, s.frame⟩ 0
  | entered (returnAddr : Nat) (store : Option Byte) (locals : List Word)
      (few : locals.length ≤ maxLocals) (room : s.depth + 4 + locals.length ≤ capacity) :
      Effect s (s.entered returnAddr store locals) 1
  | left (inner : s.frame ≠ 0) : Effect s s.left (-1)

theorem pushFrame_ok {returnAddr : Nat} {store : Option Byte} {locals : List Word}
    (ended : ((pushFrame returnAddr store locals).run s).1 = .ok ()) :
    locals.length ≤ maxLocals ∧ returnAddr ≤ 0x3FFFFFFF ∧
      s.depth + 4 + locals.length ≤ capacity ∧
      ((pushFrame returnAddr store locals).run s).2 = s.entered returnAddr store locals := by
  simp only [Op.run, pushFrame] at ended ⊢
  split at ended
  · cases ended
  · rename_i few
    split at ended
    · cases ended
    · rename_i reachable
      split at ended
      · cases ended
      · rename_i room
        refine ⟨Nat.not_lt.mp few, Nat.not_lt.mp reachable, Nat.not_lt.mp room, ?_⟩
        rw [if_neg few, if_neg reachable, if_neg room]
        simp only [entered, depth, CallStack.mk.injEq, and_true]
        exact Array.ext' (by simp)

theorem frameGain_error (op : StackOp) (fault : Fault) : op.frameGain (.error fault) = 0 := by
  cases op <;> rfl

/-- A failing operation has no effect. -/
theorem effect_of_error {op : StackOp} {fault : Fault}
    (fails : (op.perform.run s).1 = .error fault) :
    s.Effect (op.perform.run s).2 (op.frameGain (op.perform.run s).1) := by
  rw [perform_error fails, fails, frameGain_error]
  exact .kept

/-- Each operation has one of the effects. -/
theorem perform_effect (inside : s.frameTop ≤ s.depth) (op : StackOp) :
    s.Effect (op.perform.run s).2 (op.frameGain (op.perform.run s).1) := by
  have header := header_inside inside
  have behind : s.frame + 4 ≤ s.frameTop := s.header_le_frameEnd s.frame
  rcases ended : (op.perform.run s).1 with fault | _
  · exact ended ▸ effect_of_error ended
  cases op with
  | push value =>
      simp only [StackOp.perform, Op.run, push] at ended ⊢
      split at ended
      · cases ended
      · rw [if_neg ‹_›]
        exact .pushed value (Nat.not_le.mp ‹_›)
  | pop =>
      simp only [StackOp.perform, run_drop, run_pop header] at ended ⊢
      split at ended
      · cases ended
      · rw [if_neg ‹_›]
        exact .popped (Nat.not_le.mp ‹_›)
  | peek =>
      simp only [StackOp.perform, run_drop, Op.run_query]
      exact .kept
  | setTop value =>
      simp only [StackOp.perform, run_setTop header] at ended ⊢
      split at ended
      · cases ended
      · rw [if_neg ‹_›]
        exact .changed _ value (by omega)
  | getLocal n =>
      simp only [StackOp.perform, run_drop, Op.run_query]
      exact .kept
  | setLocal n value =>
      simp only [StackOp.perform, run_setLocal inside] at ended ⊢
      split at ended
      · cases ended
      · rename_i present
        rw [if_neg present]
        have counted : n.toNat ≠ 0 := fun zero => present (.inl (UInt8.toNat_inj.mp zero))
        exact .changed _ value (by omega)
  | pushFrame returnAddr store locals =>
      simp only [StackOp.perform] at ended ⊢
      obtain ⟨few, _, room, same⟩ := pushFrame_ok ended
      rw [same]
      exact .entered returnAddr store locals few room
  | popFrame =>
      by_cases outermost : s.frame = 0
      · simp only [StackOp.perform, run_drop] at ended
        simp only [Op.run, popFrame, if_pos outermost] at ended
        cases ended
      · obtain ⟨back, run⟩ := run_popFrame header outermost
        simp only [StackOp.perform, run_drop, run]
        exact .left outermost

/-! ## Keeping the frames nested -/

theorem depth_entered (s : CallStack) (returnAddr : Nat) (store : Option Byte)
    (locals : List Word) :
    (s.entered returnAddr store locals).depth = s.depth + 4 + locals.length := by
  simp only [entered, depth, headerCells, Array.size_append, List.size_toArray]
  exact (Nat.add_assoc _ _ _).symm

theorem depth_left (inside : s.frame ≤ s.depth) : s.left.depth = s.frame := by
  simp only [left, depth, Array.size_extract, Nat.sub_zero]
  exact Nat.min_eq_left inside

/-- The count of locals stands in the low byte of a frame's fourth cell. -/
theorem packed_locals (store : Byte) {count : Nat} (small : count < 256) :
    ((store.toUInt16 <<< 8) ||| UInt16.ofNat count).toNat % 256 = count := by
  have low : (UInt16.ofNat count).toNat % 2 ^ 8 = count := by
    rw [UInt16.toNat_ofNat']
    omega
  have high : (store.toUInt16 <<< 8).toNat % 2 ^ 8 = 0 := by
    rw [UInt16.toNat_shiftLeft]
    simp [Nat.shiftLeft_eq]
  rw [UInt16.toNat_or, show (256 : Nat) = 2 ^ 8 from rfl, Nat.or_mod_two_pow, low, high,
    Nat.zero_or]

/-- A routine that was entered has the locals that it was given. -/
theorem localCountAt_entered (s : CallStack) (returnAddr : Nat) (store : Option Byte)
    {locals : List Word} (few : locals.length ≤ maxLocals) :
    (s.entered returnAddr store locals).localCountAt s.depth = locals.length := by
  have small : locals.length < 256 := Nat.lt_of_le_of_lt few (by decide)
  rw [localCountAt, entered, cell_appended]
  simpa [headerCells] using packed_locals (store.getD 0) small

section Keeping

variable {frames : List Nat} (nested : s.Nested s.depth s.frame frames)
include nested

theorem nested_push (value : Word) :
    Nested ⟨s.cells.push value, s.frame⟩ (s.depth + 1) s.frame frames := by
  have inside := header_inside nested.frameEnd_le
  exact (nested.relimit (Nat.le_succ_of_le nested.frameEnd_le)).congr
    fun i below => s.cell_push value (by omega)

theorem nested_pop (rich : s.frameTop < s.depth) :
    Nested ⟨s.cells.pop, s.frame⟩ (s.depth - 1) s.frame frames := by
  have header := s.header_le_frameEnd s.frame
  rw [frameTop_eq] at rich
  exact (nested.relimit (by omega)).congr fun i below => s.cell_pop (by omega)

/-- A change behind the active frame's header leaves the frames alone. -/
theorem nested_set (value : Word) {place : Nat} (behind : s.frame + 4 ≤ place) :
    Nested ⟨s.cells.setIfInBounds place value, s.frame⟩ s.depth s.frame frames :=
  nested.congr fun _ below => s.cell_set value (by omega)

/-- Entering a routine puts a frame on top, where the cells ended. -/
theorem nested_entered (returnAddr : Nat) (store : Option Byte) {locals : List Word}
    (few : locals.length ≤ maxLocals) (room : s.depth + 4 + locals.length ≤ capacity) :
    (s.entered returnAddr store locals).Nested (s.depth + 4 + locals.length) s.depth
      (s.depth :: frames) := by
  have header := header_inside nested.frameEnd_le
  have fits : s.frame < 2 ^ 16 := by
    simp only [capacity] at room
    omega
  have previous : (s.entered returnAddr store locals).previousFrame s.depth = s.frame := by
    rw [previousFrame, entered, cell_appended]
    simpa [headerCells] using Nat.mod_eq_of_lt fits
  have ends : (s.entered returnAddr store locals).frameEnd s.depth =
      s.depth + 4 + locals.length := by
    rw [frameEnd, localCountAt_entered s returnAddr store few]
    rfl
  refine .inner (Nat.le_of_eq ends) (by rw [previous]; omega) ?_
  rw [previous]
  exact nested.congr fun i below => s.cell_append _ _ (by omega)

/-- Leaving a routine makes the frame below it the active one. -/
theorem nested_left (inner : s.frame ≠ 0) :
    ∃ below, frames = s.frame :: below ∧
      s.left.Nested s.frame (s.previousFrame s.frame) below := by
  simp only [left]
  generalize s.frame = frame at nested inner ⊢
  cases nested with
  | outermost _ => exact absurd rfl inner
  | inner _ descends rest =>
      refine ⟨_, rfl, rest.congr fun i below => s.cell_extract _ ?_⟩
      have := rest.frameEnd_le
      have := s.header_le_frameEnd (s.previousFrame frame)
      omega

/-- **One operation.** An effect on nested frames leaves nested frames, as many
more as it adds. -/
theorem Effect.keeps_nested {t : CallStack} {gain : Int} (effect : s.Effect t gain) :
    ∃ frames', t.Nested t.depth t.frame frames' ∧
      (frames'.length : Int) = frames.length + gain := by
  cases effect with
  | kept => exact ⟨frames, nested, by omega⟩
  | pushed value _ =>
      refine ⟨frames, ?_, by omega⟩
      simpa [depth] using nested_push nested value
  | popped rich =>
      refine ⟨frames, ?_, by omega⟩
      simpa [depth] using nested_pop nested rich
  | changed place value behind =>
      refine ⟨frames, ?_, by omega⟩
      simpa [depth] using nested_set nested value behind
  | entered returnAddr store locals few room =>
      refine ⟨s.depth :: frames, ?_, by simp⟩
      rw [depth_entered]
      exact nested_entered nested returnAddr store few room
  | left inner =>
      obtain ⟨below, rfl, rest⟩ := nested_left nested inner
      have header := header_inside nested.frameEnd_le
      refine ⟨below, ?_, by rw [List.length_cons]; omega⟩
      rw [depth_left (by omega)]
      exact rest

end Keeping

/-- No effect takes a stack past its capacity. -/
theorem Effect.depth_le {t : CallStack} {gain : Int} (effect : s.Effect t gain)
    (bounded : s.depth ≤ capacity) : t.depth ≤ capacity := by
  cases effect with
  | kept => exact bounded
  | pushed value room =>
      simp only [depth, Array.size_push] at room ⊢
      exact room
  | popped _ =>
      simp only [depth, Array.size_pop] at bounded ⊢
      omega
  | changed place value _ =>
      simp only [depth, Array.size_setIfInBounds] at bounded ⊢
      exact bounded
  | entered returnAddr store locals _ room =>
      rw [depth_entered]
      exact room
  | left _ =>
      simp only [CallStack.left, depth, Array.size_extract] at bounded ⊢
      omega

/-! ## Runs of operations -/

/-- **A run of operations.** It leaves nested frames, as many more as it enters and
does not leave. -/
theorem performAll_nested (ops : List StackOp) {frames : List Nat}
    (nested : s.Nested s.depth s.frame frames) :
    ∃ frames', (performAll ops s).Nested (performAll ops s).depth (performAll ops s).frame frames' ∧
      (frames'.length : Int) = frames.length + netFrames ops s := by
  induction ops generalizing s frames with
  | nil => exact ⟨frames, nested, by simp [netFrames]⟩
  | cons op rest ih =>
      obtain ⟨frames₁, nested₁, gained₁⟩ :=
        (perform_effect nested.frameEnd_le op).keeps_nested nested
      obtain ⟨frames₂, nested₂, gained₂⟩ := ih nested₁
      refine ⟨frames₂, nested₂, ?_⟩
      rw [gained₂, gained₁, netFrames]
      omega

theorem performAll_wellFormed (ops : List StackOp) (formed : s.WellFormed) :
    (performAll ops s).WellFormed := by
  obtain ⟨frames, nested⟩ := formed
  obtain ⟨frames', nested', _⟩ := performAll_nested ops nested
  exact ⟨frames', nested'⟩

theorem performAll_depth_le (ops : List StackOp) (formed : s.WellFormed)
    (bounded : s.depth ≤ capacity) : (performAll ops s).depth ≤ capacity := by
  induction ops generalizing s with
  | nil => exact bounded
  | cons op rest ih =>
      have effect := perform_effect formed.frameTop_le op
      exact ih (performAll_wellFormed [op] formed) (effect.depth_le bounded)

/-- **Runs from the empty stack.** Whatever operations are carried out, each
succeeding or not: the stack keeps its bounds; the frames are nested and descend,
and there are as many as were entered and not left; an operation that fails
changes nothing; the parts of the stack give the stack back; and the active frame
ends inside the cells, so that no operation touches a place outside them and the
values of the routine are what stands behind it. -/
theorem performAll_sound (ops : List StackOp) :
    4 ≤ (performAll ops empty).depth ∧ (performAll ops empty).depth ≤ capacity ∧
    (∃ frames,
      (performAll ops empty).Nested (performAll ops empty).depth (performAll ops empty).frame
        frames ∧
      frames.Pairwise (· > ·) ∧
      (frames.length : Int) = netFrames ops empty ∧
      frames.length = (performAll ops empty).frameCount ∧
      ∀ g ∈ 0 :: (performAll ops empty).frame :: frames,
        (performAll ops empty).frameEnd g ≤ (performAll ops empty).depth) ∧
    (∀ (op : StackOp) (fault : Fault),
      (op.perform.run (performAll ops empty)).1 = .error fault →
        (op.perform.run (performAll ops empty)).2 = performAll ops empty) ∧
    ofParts (performAll ops empty).cells (performAll ops empty).frame =
      .ok (performAll ops empty) ∧
    (performAll ops empty).frameTop ≤ (performAll ops empty).depth ∧
    (performAll ops empty).Safe ∧
    (performAll ops empty).frameTop + (performAll ops empty).valueCount =
      (performAll ops empty).depth := by
  have formed := performAll_wellFormed ops wellFormed_empty
  have inside := formed.frameTop_le
  obtain ⟨frames, nested, counted⟩ :=
    performAll_nested ops (s := empty) (.outermost (by decide))
  refine ⟨?_, performAll_depth_le ops wellFormed_empty (by decide), ?_,
    fun _ _ => perform_error, formed.ofParts_eq, inside, safe_of_inside inside, ?_⟩
  · have := header_inside inside
    omega
  · refine ⟨frames, nested, nested.descending, ?_, nested.countFrames_eq.symm,
      nested.frameEnd_le_all⟩
    simpa using counted
  · rw [valueCount]
    omega

/-! ## Saved stacks -/

/-- A stack that is safe in every later run has nested frames, if they descend: the
frame below the active one is brought to light by leaving the active routine. -/
theorem wellFormed_of_safe (chain : s.Descends s.frame)
    (safe : ∀ ops, (performAll ops s).Safe) : s.WellFormed := by
  induction size : s.frame using Nat.strongRecOn generalizing s with
  | ind frame ih =>
      have inside : s.frameTop ≤ s.depth := inside_of_safe (safe [])
      by_cases outermost : s.frame = 0
      · refine ⟨[], ?_⟩
        rw [frameTop_eq, outermost] at inside
        exact outermost.symm ▸ .outermost inside
      · have header := header_inside inside
        obtain ⟨back, run⟩ := run_popFrame header outermost
        have after : performAll [.popFrame] s = s.left := by
          simp only [performAll, StackOp.perform, run_drop, run]
          rfl
        have safe' : ∀ ops, (performAll ops s.left).Safe :=
          fun ops => after ▸ safe (.popFrame :: ops)
        have size' : s.left.depth = s.frame := depth_left (by omega)
        -- The frame below is cut off where the active one began, and still safe.
        have fits : s.left.frame + 4 ≤ s.frame :=
          size' ▸ header_inside (inside_of_safe (safe' []))
        have same : ∀ i, i < s.left.frame + 4 → s.left.cell i = s.cell i :=
          fun i below => s.cell_extract _ (by omega)
        obtain ⟨descends, rest⟩ := chain.previous outermost
        obtain ⟨below, nested⟩ := ih _ (size ▸ descends) (rest.congr same) safe' rfl
        rw [size'] at nested
        exact ⟨_, .inner inside descends (nested.congr fun i bound => (same i bound).symm)⟩

/-- **Saved stacks.** A stack is given back from saved parts and then safe in every
run, its active frame ending inside its cells, exactly when its frames are
nested. -/
theorem ofParts_safe_iff (cells : Array Word) (frame : Nat) :
    (ofParts cells frame = .ok ⟨cells, frame⟩ ∧
      ∀ ops, (performAll ops ⟨cells, frame⟩).frameTop ≤ (performAll ops ⟨cells, frame⟩).depth ∧
        (performAll ops ⟨cells, frame⟩).Safe) ↔
      WellFormed ⟨cells, frame⟩ := by
  constructor
  · rintro ⟨accepted, safe⟩
    obtain ⟨_, checked⟩ := checkFrames_of_ofParts accepted
    exact wellFormed_of_safe (descends_of_checkFrames checked) fun ops => (safe ops).2
  · intro formed
    refine ⟨formed.ofParts_eq, fun ops => ?_⟩
    have inside := (performAll_wellFormed ops formed).frameTop_le
    exact ⟨inside, safe_of_inside inside⟩

/-- A frame of four locals that begins where its header meets the frame above is
accepted; after the return to it, its locals lie outside the cells. -/
theorem ofParts_overlapping :
    ∃ s, ofParts #[0, 0, 0, 0, 0, 0, 0, 4, 0, 0, 4, 0] 8 = .ok s ∧ ¬ s.WellFormed ∧
      (performAll [.popFrame] s).depth < (performAll [.popFrame] s).frameTop ∧
      ¬ (performAll [.popFrame] s).Safe := by
  have accepted : ofParts #[0, 0, 0, 0, 0, 0, 0, 4, 0, 0, 4, 0] 8 =
      .ok ⟨#[0, 0, 0, 0, 0, 0, 0, 4, 0, 0, 4, 0], 8⟩ :=
    eq_ok_of_toOption (by decide +kernel)
  have cut : (performAll [.popFrame] ⟨#[0, 0, 0, 0, 0, 0, 0, 4, 0, 0, 4, 0], 8⟩).depth <
      (performAll [.popFrame] ⟨#[0, 0, 0, 0, 0, 0, 0, 4, 0, 0, 4, 0], 8⟩).frameTop := by
    decide
  refine ⟨_, accepted, fun formed => ?_, cut, fun safe => ?_⟩
  · exact absurd (performAll_wellFormed [.popFrame] formed).frameTop_le (Nat.not_le.mpr cut)
  · exact absurd (inside_of_safe safe) (Nat.not_le.mpr cut)

end CallStack

end ZMachine
