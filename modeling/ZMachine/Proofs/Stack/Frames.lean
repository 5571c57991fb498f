import ZMachine.Stack

/-!
# The frames of a call stack

Frames, locals and values share one array of cells, and a frame knows the one
before it only by a number in its third cell. The frames are nested when
following that number leads down to the outermost frame, each frame ending, its
locals included, at or before the place where the next one up begins. The active
frame has to end inside the cells.

Nesting depends only on the cells of the frames' headers (`Nested.congr`), so it
can be carried over every operation that leaves those alone. Where the active
frame lies inside the cells, each operation that reads it is described here by
an equation that has no fault for a place outside (`run_pop`, `run_setLocal`).
-/

set_option autoImplicit false

namespace ZMachine.CallStack

/-- Where a frame ends: behind its header and its locals. -/
def frameEnd (s : CallStack) (frame : Nat) : Nat :=
  frame + frameHeader + s.localCountAt frame

/-- The frames met on the way down from a frame, the outermost apart, when each
ends at or before the next one up. The first must end at or before `limit`. -/
inductive Nested (s : CallStack) : (limit frame : Nat) → List Nat → Prop where
  | outermost {limit : Nat} (ends : s.frameEnd 0 ≤ limit) : Nested s limit 0 []
  | inner {limit frame : Nat} {below : List Nat} (ends : s.frameEnd frame ≤ limit)
      (descends : s.previousFrame frame < frame)
      (rest : Nested s frame (s.previousFrame frame) below) :
      Nested s limit frame (frame :: below)

/-- The frames of a stack are nested. -/
def WellFormed (s : CallStack) : Prop :=
  ∃ frames, s.Nested s.depth s.frame frames

variable {s t : CallStack}

theorem frameTop_eq (s : CallStack) : s.frameTop = s.frameEnd s.frame := rfl

theorem header_le_frameEnd (s : CallStack) (frame : Nat) : frame + 4 ≤ s.frameEnd frame :=
  Nat.le_add_right _ _

/-! ## Nesting -/

namespace Nested

theorem frameEnd_le {limit frame : Nat} {frames : List Nat}
    (nested : s.Nested limit frame frames) : s.frameEnd frame ≤ limit := by
  cases nested with
  | outermost ends => exact ends
  | inner ends _ _ => exact ends

/-- Any other limit will do that the first frame respects. -/
theorem relimit {limit limit' frame : Nat} {frames : List Nat}
    (nested : s.Nested limit frame frames) (ends : s.frameEnd frame ≤ limit') :
    s.Nested limit' frame frames := by
  cases nested with
  | outermost _ => exact .outermost ends
  | inner _ descends rest => exact .inner ends descends rest

/-- Only the cells up to the end of the first frame's header matter. -/
theorem congr {limit frame : Nat} {frames : List Nat} (nested : s.Nested limit frame frames)
    (same : ∀ i, i < frame + 4 → t.cell i = s.cell i) : t.Nested limit frame frames := by
  induction nested with
  | outermost ends =>
      refine .outermost ?_
      rwa [frameEnd, localCountAt, same _ (by omega)]
  | @inner limit frame below ends descends rest ih =>
      have previous : t.previousFrame frame = s.previousFrame frame := by
        rw [previousFrame, previousFrame, same _ (by omega)]
      have count : t.frameEnd frame = s.frameEnd frame := by
        rw [frameEnd, frameEnd, localCountAt, localCountAt, same _ (by omega)]
      refine .inner (count ▸ ends) (previous ▸ descends) ?_
      rw [previous]
      exact ih fun i below => same i (by omega)

/-- Every frame on the way down begins at or below the first. -/
theorem le_frame {limit frame : Nat} {frames : List Nat} (nested : s.Nested limit frame frames) :
    ∀ g ∈ frames, 0 < g ∧ g ≤ frame := by
  induction nested with
  | outermost _ => simp
  | inner _ descends _ ih =>
      intro g member
      rcases List.mem_cons.mp member with rfl | member
      · omega
      · have := ih g member
        omega

/-- The frames on the way down begin at ever lower places. -/
theorem descending {limit frame : Nat} {frames : List Nat}
    (nested : s.Nested limit frame frames) : frames.Pairwise (· > ·) := by
  induction nested with
  | outermost _ => exact .nil
  | inner _ descends rest ih =>
      refine .cons (fun g member => ?_) ih
      have := rest.le_frame g member
      omega

/-- Every frame on the way down, the first and the outermost with it, ends at or
before the limit. -/
theorem frameEnd_le_all {limit frame : Nat} {frames : List Nat}
    (nested : s.Nested limit frame frames) :
    ∀ g ∈ 0 :: frame :: frames, s.frameEnd g ≤ limit := by
  induction nested with
  | outermost ends => simpa using ends
  | @inner limit frame below ends descends rest ih =>
      have := s.header_le_frameEnd frame
      intro g member
      by_cases first : g = frame
      · exact first ▸ ends
      · have member : g ∈ 0 :: s.previousFrame frame :: below := by
          simp only [List.mem_cons, first, false_or] at member ⊢
          exact member.imp_right .inr
        have := ih g member
        omega

/-- Counting the frames down from a frame counts those that are nested. -/
theorem countFrames_eq {limit frame : Nat} {frames : List Nat}
    (nested : s.Nested limit frame frames) : s.countFrames frame = frames.length := by
  induction nested with
  | outermost _ => simp [countFrames]
  | inner _ descends _ ih =>
      rw [countFrames, if_neg (by omega), dif_pos descends, ih, List.length_cons]
      omega

/-- Nested frames pass the check of a saved stack. -/
theorem checkFrames_ok {limit frame : Nat} {frames : List Nat}
    (nested : s.Nested limit frame frames) (inside : limit ≤ s.depth) :
    s.checkFrames frame = .ok () := by
  induction nested with
  | outermost ends =>
      have := s.header_le_frameEnd 0
      simp only [frameEnd, frameHeader] at ends this
      rw [checkFrames, if_neg (by simp only [frameHeader]; omega),
        if_neg (by simp only [frameHeader]; omega), if_pos rfl]
  | @inner limit frame below ends descends rest ih =>
      have := s.header_le_frameEnd frame
      simp only [frameEnd, frameHeader] at ends this
      rw [checkFrames, if_neg (by simp only [frameHeader]; omega),
        if_neg (by simp only [frameHeader]; omega), if_neg (by omega), dif_pos descends]
      exact ih (by omega)

end Nested

/-- Following the frames down from a frame leads to the outermost. -/
inductive Descends (s : CallStack) : (frame : Nat) → Prop where
  | outermost : Descends s 0
  | inner {frame : Nat} (descends : s.previousFrame frame < frame)
      (rest : Descends s (s.previousFrame frame)) : Descends s frame

theorem Descends.previous {frame : Nat} (chain : s.Descends frame) (inner : frame ≠ 0) :
    s.previousFrame frame < frame ∧ s.Descends (s.previousFrame frame) := by
  cases chain with
  | outermost => exact absurd rfl inner
  | inner descends rest => exact ⟨descends, rest⟩

theorem Descends.congr {frame : Nat} (chain : s.Descends frame)
    (same : ∀ i, i < frame + 4 → t.cell i = s.cell i) : t.Descends frame := by
  induction chain with
  | outermost => exact .outermost
  | @inner frame descends rest ih =>
      have previous : t.previousFrame frame = s.previousFrame frame := by
        rw [previousFrame, previousFrame, same _ (by omega)]
      refine .inner (previous ▸ descends) ?_
      rw [previous]
      exact ih fun i below => same i (by omega)

/-- The check of a saved stack finds that the frames descend. -/
theorem descends_of_checkFrames {frame : Nat} (checked : s.checkFrames frame = .ok ()) :
    s.Descends frame := by
  induction frame using Nat.strongRecOn with
  | ind frame ih =>
      rw [checkFrames] at checked
      split at checked
      · cases checked
      · split at checked
        · cases checked
        · split at checked
          · rename_i outermost
            exact outermost ▸ .outermost
          · split at checked
            · rename_i descends
              exact .inner descends (ih _ descends checked)
            · cases checked

theorem WellFormed.frameTop_le (formed : s.WellFormed) : s.frameTop ≤ s.depth := by
  obtain ⟨frames, nested⟩ := formed
  exact nested.frameEnd_le

/-- The stack with nothing but the outermost frame is well formed. -/
theorem wellFormed_empty : empty.WellFormed :=
  ⟨[], .outermost (by decide)⟩

/-- A well-formed stack is given back from its parts. -/
theorem WellFormed.ofParts_eq (formed : s.WellFormed) : ofParts s.cells s.frame = .ok s := by
  obtain ⟨frames, nested⟩ := formed
  have checked := nested.checkFrames_ok (Nat.le_refl _)
  simp only [ofParts, checked]
  rfl

/-- A stack that is given back from saved parts has passed the check. -/
theorem checkFrames_of_ofParts {cells : Array Word} {frame : Nat}
    (accepted : ofParts cells frame = .ok s) :
    s = ⟨cells, frame⟩ ∧ s.checkFrames s.frame = .ok () := by
  rcases checked : checkFrames ⟨cells, frame⟩ frame with fault | _
  · simp only [ofParts, checked] at accepted
    cases accepted
  · simp only [ofParts, checked] at accepted
    cases accepted
    exact ⟨rfl, checked⟩

/-- The check of a saved stack breaks off at the frame pointer or not at all: the frames below
are named by words, which are far from the last size. -/
theorem checkFrames_overflow_iff {frame : Nat} :
    s.checkFrames frame = .error .sizeOverflow ↔
      s.depth < frame + frameHeader ∧ sizeLimit ≤ frame + frameHeader := by
  induction frame using Nat.strongRecOn with
  | ind frame ih =>
      have near : s.previousFrame frame + frameHeader < sizeLimit := by
        have word := (s.cell (frame + 2)).toNat_lt
        simp only [previousFrame, frameHeader, sizeLimit]
        omega
      rw [checkFrames]
      by_cases past : s.depth < frame + frameHeader
      · rw [if_pos past]
        by_cases within : frame + frameHeader < sizeLimit
        · simp [within, Nat.not_le.mpr within]
        · simp [within, past, Nat.not_lt.mp within]
      · rw [if_neg past]
        refine iff_of_false ?_ fun both => past both.1
        split
        · simp
        · split
          · simp
          · split
            · rename_i descends
              rw [ih _ descends]
              exact fun both => absurd both.2 (Nat.not_le.mpr near)
            · simp

theorem ofParts_overflow_iff {cells : Array Word} {frame : Nat} :
    ofParts cells frame = .error .sizeOverflow ↔
      cells.size < frame + frameHeader ∧ sizeLimit ≤ frame + frameHeader := by
  refine Iff.trans ?_ (checkFrames_overflow_iff (s := ⟨cells, frame⟩))
  rcases checked : checkFrames ⟨cells, frame⟩ frame with fault | _
  · simp only [ofParts, checked]
    exact ⟨fun stopped => by cases stopped; rfl, fun stopped => by cases stopped; rfl⟩
  · simp only [ofParts, checked]
    exact iff_of_false (by rintro ⟨⟩) (by rintro ⟨⟩)

/-! ## Touching cells inside the stack -/

theorem touch_inside {place : Nat} (inside : place < s.depth) :
    s.touch place = .ok (s.cell place) := by
  have bound : place < s.cells.size := inside
  simp [touch, cell, bound]

theorem touch_outside {place : Nat} (outside : s.depth ≤ place) :
    s.touch place = .error (.cellOutside place s.depth) :=
  dif_neg (Nat.not_lt.mpr outside)

theorem header_inside (inside : s.frameTop ≤ s.depth) : s.frame + 4 ≤ s.depth :=
  Nat.le_trans (s.header_le_frameEnd s.frame) inside

section Header

variable (header : s.frame + 4 ≤ s.depth)
include header

theorem statedLocals_eq : s.statedLocals = .ok s.localCount := by
  rw [statedLocals, touch_inside (by omega)]
  rfl

theorem lastValue_eq (missing : Fault) :
    s.lastValue missing =
      if s.depth ≤ s.frameTop then .error missing else .ok (s.cell (s.depth - 1)) := by
  rw [lastValue, statedLocals_eq header, touch_inside (by omega)]
  rfl

theorem localPlace_eq (n : Byte) :
    s.localPlace n =
      if n = 0 ∨ s.localCount < n.toNat then .error (.noSuchLocal n.toNat s.localCount)
      else .ok (s.frame + 3 + n.toNat) := by
  rw [localPlace, statedLocals_eq header]
  rfl

theorem readFrame_eq : ∃ back, s.readFrame = .ok (back, s.previousFrame s.frame) := by
  rw [readFrame, touch_inside (by omega), touch_inside (by omega), touch_inside (by omega),
    touch_inside (by omega)]
  exact ⟨_, rfl⟩

theorem run_pop :
    pop.run s =
      if s.depth ≤ s.frameTop then (.error .stackUnderflow, s)
      else (.ok (s.cell (s.depth - 1)), ⟨s.cells.pop, s.frame⟩) := by
  by_cases bare : s.depth ≤ s.frameTop
  · simp only [Op.run, pop, lastValue_eq header, if_pos bare]
  · simp only [Op.run, pop, lastValue_eq header, if_neg bare]

theorem run_setTop (value : Word) :
    (setTop value).run s =
      if s.depth ≤ s.frameTop then (.error .noTopToWrite, s)
      else (.ok (), ⟨s.cells.setIfInBounds (s.depth - 1) value, s.frame⟩) := by
  by_cases bare : s.depth ≤ s.frameTop
  · simp only [Op.run, setTop, lastValue_eq header, if_pos bare]
  · simp only [Op.run, setTop, lastValue_eq header, if_neg bare]
    rfl

theorem run_popFrame (inner : s.frame ≠ 0) :
    ∃ back, popFrame.run s =
      (.ok back, ⟨s.cells.extract 0 s.frame, s.previousFrame s.frame⟩) := by
  obtain ⟨back, read⟩ := readFrame_eq header
  refine ⟨back, ?_⟩
  simp only [Op.run, popFrame, if_neg inner, read]

end Header

section Inside

variable (inside : s.frameTop ≤ s.depth)
include inside

theorem getLocal_eq (n : Byte) :
    s.getLocal n =
      if n = 0 ∨ s.localCount < n.toNat then .error (.noSuchLocal n.toNat s.localCount)
      else .ok (s.cell (s.frame + 3 + n.toNat)) := by
  rw [getLocal, localPlace_eq (header_inside inside)]
  split
  · rfl
  · have : s.frame + 4 + s.localCount ≤ s.depth := inside
    exact touch_inside (by omega)

theorem run_setLocal (n : Byte) (value : Word) :
    (setLocal n value).run s =
      if n = 0 ∨ s.localCount < n.toNat then
        (.error (.noSuchLocal n.toNat s.localCount), s)
      else (.ok (), ⟨s.cells.setIfInBounds (s.frame + 3 + n.toNat) value, s.frame⟩) := by
  rw [setLocal, Op.run_bind, Op.run_query, localPlace_eq (header_inside inside)]
  by_cases absent : n = 0 ∨ s.localCount < n.toNat
  · simp only [if_pos absent]
  · have : s.frame + 4 + s.localCount ≤ s.depth := inside
    simp only [if_neg absent, Op.run_bind, Op.run_query, touch_inside
      (show s.frame + 3 + n.toNat < s.depth by omega), Op.run_update]

end Inside

/-! ## What operations do to the cells -/

theorem cell_push (s : CallStack) (value : Word) {i : Nat} (below : i < s.depth) :
    cell ⟨s.cells.push value, s.frame⟩ i = s.cell i := by
  have bound : i < s.cells.size := below
  simp [cell, Array.getElem_push, bound, Nat.lt_succ_of_lt bound]

theorem cell_pop (s : CallStack) {i : Nat} (below : i < s.depth - 1) :
    cell ⟨s.cells.pop, s.frame⟩ i = s.cell i := by
  have bound : i < s.cells.size - 1 := below
  have : i < s.cells.size := by omega
  simp [cell, bound, this]

theorem cell_set (s : CallStack) (value : Word) {place i : Nat} (other : i ≠ place) :
    cell ⟨s.cells.setIfInBounds place value, s.frame⟩ i = s.cell i := by
  simp [cell, Array.getElem?_setIfInBounds_ne other.symm]

theorem cell_extract (s : CallStack) (frame : Nat) {bound i : Nat} (below : i < bound) :
    cell ⟨s.cells.extract 0 bound, frame⟩ i = s.cell i := by
  simp only [cell, Array.getD_eq_getD_getElem?, Array.getElem?_extract]
  by_cases within : i < s.cells.size
  · rw [if_pos (by omega), Nat.zero_add]
  · simp [within]

theorem cell_append (s : CallStack) (frame : Nat) (more : Array Word) {i : Nat}
    (below : i < s.depth) : cell ⟨s.cells ++ more, frame⟩ i = s.cell i := by
  simp only [cell, Array.getD_eq_getD_getElem?, Array.getElem?_append_left below]

theorem cell_appended (s : CallStack) (frame : Nat) (more : Array Word) (i : Nat) :
    cell ⟨s.cells ++ more, frame⟩ (s.depth + i) = more.getD i 0 := by
  simp only [cell, depth, Array.getD_eq_getD_getElem?]
  rw [Array.getElem?_append_right (Nat.le_add_right _ _), Nat.add_sub_cancel_left]

end ZMachine.CallStack
