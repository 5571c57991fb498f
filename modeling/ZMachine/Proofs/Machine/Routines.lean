import ZMachine.Proofs.Machine.Calls
import ZMachine.Proofs.Machine.Story
import ZMachine.Proofs.Machine.Variables

/-!
# The frame of a routine

A call reads the header of the routine, which says how many locals there are and, before
version 5, what they hold at first (`routineHeader_ok`). The arguments take the place of first
values as far as there are locals (`withArguments_getElem?`), and the frame is put where the
cells end, with one cell for each local and no value behind them (`EntersRoutine`).

All of this is read before anything is written: a call that fails changes nothing
(`eq_of_callRoutine_error`). A return that follows at once finds the frame as the call left it.
-/

set_option autoImplicit false

namespace ZMachine

namespace CallStack

variable {s : CallStack} {returnAddr : Nat} {locals : List Word}

/-! ## A frame that was put on the stack -/

/-- The locals stand behind the header of the frame, in order. -/
theorem cell_local_entered (s : CallStack) (returnAddr : Nat) (store : Option Byte) {k : Nat}
    (named : k < locals.length) :
    (s.entered returnAddr store locals).cell (s.depth + (4 + k)) = locals[k] := by
  have header : (headerCells returnAddr s.frame store locals.length).size = 4 := rfl
  rw [entered, cell_appended, Array.getD_eq_getD_getElem?,
    Array.getElem?_append_right (header ▸ Nat.le_add_right 4 k), header, Nat.add_sub_cancel_left]
  simp [named]

theorem frameTop_entered (s : CallStack) (returnAddr : Nat) (store : Option Byte)
    (few : locals.length ≤ maxLocals) :
    (s.entered returnAddr store locals).frameTop = (s.entered returnAddr store locals).depth := by
  rw [depth_entered]
  exact congrArg (s.depth + 4 + ·) (s.localCountAt_entered returnAddr store few)

/-- A local of the routine that was entered, counted from 1. -/
theorem getLocal_entered (s : CallStack) (returnAddr : Nat) (store : Option Byte)
    (few : locals.length ≤ maxLocals) {k : Nat} (named : k < locals.length) :
    (s.entered returnAddr store locals).getLocal (UInt8.ofNat (k + 1)) = .ok locals[k] := by
  have small : locals.length ≤ 15 := few
  have number : (UInt8.ofNat (k + 1)).toNat = k + 1 := by
    rw [UInt8.toNat_ofNat']
    omega
  have count : (s.entered returnAddr store locals).localCount = locals.length :=
    s.localCountAt_entered returnAddr store few
  have present : ¬ (UInt8.ofNat (k + 1) = 0 ∨
      (s.entered returnAddr store locals).localCount < (UInt8.ofNat (k + 1)).toNat) := by
    rw [← UInt8.toNat_inj, number, count]
    simp
    omega
  rw [getLocal_eq (Nat.le_of_eq (s.frameTop_entered returnAddr store few)), if_neg present, number]
  have place : (s.entered returnAddr store locals).frame + 3 + (k + 1) = s.depth + (4 + k) := by
    simp only [entered]
    omega
  rw [place, s.cell_local_entered returnAddr store named]

end CallStack

namespace Machine

variable {m t : Machine} {addr body : Nat} {first args : List Word}

/-! ## The header of a routine -/

theorem wordsFrom_ok {memory : Memory} {count addr : Nat} {words : List Word}
    (read : wordsFrom memory count addr = .ok words) :
    words.length = count ∧
      ∀ k (named : k < words.length), memory.getWord (addr + 2 * k) = .ok words[k] := by
  induction count generalizing addr words with
  | zero =>
      cases read
      exact ⟨rfl, fun k named => absurd named (Nat.not_lt_zero k)⟩
  | succ count ih =>
      obtain ⟨word, here, read⟩ := bind_eq_ok read
      obtain ⟨rest, behind, read⟩ := bind_eq_ok read
      cases read
      obtain ⟨length, each⟩ := ih behind
      refine ⟨congrArg (· + 1) length, fun k named => ?_⟩
      cases k with
      | zero => exact here
      | succ k =>
          rw [show addr + 2 * (k + 1) = addr + 2 + 2 * k by omega]
          exact each k (Nat.lt_of_succ_lt_succ named)

/-- The first value of a local of the routine at an address, counted from 0: it is written out
before version 5, and 0 from then on. -/
def FirstValue (m : Machine) (addr k : Nat) (value : Word) : Prop :=
  if m.version < 5 then m.memory.getWord (addr + 1 + 2 * k) = .ok value else value = 0

/-- The header of a routine states its locals, and the instructions begin behind it. -/
theorem routineHeader_ok (read : m.routineHeader addr = .ok (first, body)) :
    ∃ n : Byte, m.memory.getByte addr = .ok n ∧ first.length = n.toNat ∧
      body = addr + 1 + (if m.version < 5 then 2 * n.toNat else 0) ∧
      ∀ k (named : k < first.length), m.FirstValue addr k first[k] := by
  obtain ⟨n, counted, read⟩ := bind_eq_ok read
  refine ⟨n, counted, ?_⟩
  by_cases many : CallStack.maxLocals < n.toNat
  · simp only [if_pos many] at read
    cases read
  simp only [if_neg many] at read
  by_cases early : m.version < 5
  · simp only [if_pos early] at read
    obtain ⟨words, written, read⟩ := bind_eq_ok read
    cases read
    obtain ⟨length, each⟩ := wordsFrom_ok written
    refine ⟨length, by rw [if_pos early, Nat.mul_comm], fun k named => ?_⟩
    rw [FirstValue, if_pos early]
    exact each k named
  · simp only [if_neg early] at read
    cases read
    refine ⟨List.length_replicate, by rw [if_neg early], fun k named => ?_⟩
    rw [FirstValue, if_neg early, List.getElem_replicate]

/-- Arguments take the place of first values, as far as there are locals. -/
theorem withArguments_getElem? (first args : List Word) (k : Nat) :
    (withArguments first args)[k]? = first[k]?.map (args[k]?.getD ·) := by
  induction first generalizing args k with
  | nil => simp [withArguments]
  | cons value rest ih =>
      cases args with
      | nil => simp [withArguments]
      | cons arg args => cases k <;> simp [withArguments, ih]

theorem length_withArguments (first args : List Word) :
    (withArguments first args).length = first.length := by
  induction first generalizing args with
  | nil => simp [withArguments]
  | cons value rest ih => cases args <;> simp [withArguments, ih]

/-! ## Calls -/

/-- The machine has entered the routine at an address, which has `n` locals. The routine's frame
stands where the cells ended. A local holds its argument, or its first value when there is none;
surplus arguments are dropped, and no value stands on the stack. The cells that were there,
memory and all else are as they were, and the machine goes on behind the routine's header, which
holds the first values before version 5. -/
structure EntersRoutine (m t : Machine) (addr : Nat) (args : List Word) (n : Byte) : Prop where
  counted : m.memory.getByte addr = .ok n
  few : n.toNat ≤ 15
  frame : t.stack.frame = m.stack.depth
  localCount : t.stack.localCount = n.toNat
  locals : ∀ k, k < n.toNat → ∃ value, m.FirstValue addr k value ∧
    t.stack.getLocal (UInt8.ofNat (k + 1)) = .ok (args[k]?.getD value)
  bare : t.stack.depth = t.stack.frameTop
  older : t.stack.cells.extract 0 m.stack.depth = m.stack.cells
  pc : t.pc = addr + 1 + if m.version < 5 then 2 * n.toNat else 0
  rest : t = { m with stack := t.stack, pc := t.pc }

section Formed

variable {packed : Word} {store : Option Byte} {returnPc : Nat} (formed : m.stack.WellFormed)
include formed

/-- A call that enters a routine sets up its frame. -/
theorem entersRoutine_of_callRoutine
    (run : (callRoutine packed args store returnPc).run m = (.ok true, t)) :
    ∃ n, m.EntersRoutine t (m.memory.unpackRoutine packed) args n := by
  obtain ⟨first, body, read, admits, rfl⟩ := callRoutine_true formed run
  obtain ⟨n, counted, length, behind, values⟩ := routineHeader_ok read
  have few := admits.few
  have same : (withArguments first args).length = n.toNat :=
    (length_withArguments first args).trans length
  refine ⟨n, counted, same ▸ few, rfl, ?_, fun k named => ?_, ?_, ?_, behind, rfl⟩
  · exact (m.stack.localCountAt_entered returnPc store few).trans same
  · have first' : k < first.length := length ▸ named
    have named' : k < (withArguments first args).length := same ▸ named
    refine ⟨first[k], values k first', ?_⟩
    have value : (withArguments first args)[k] = args[k]?.getD first[k] := by
      have found := withArguments_getElem? first args k
      rw [List.getElem?_eq_getElem named', List.getElem?_eq_getElem first'] at found
      exact Option.some.inj found
    rw [← value]
    exact m.stack.getLocal_entered returnPc store few named'
  · exact (m.stack.frameTop_entered returnPc store few).symm
  · exact (admits.inside_entered store).below

/-- A call that fails changes nothing: what may fail comes before the first change. -/
theorem eq_of_callRoutine_error {e : Fault}
    (run : (callRoutine packed args store returnPc).run m = (.error e, t)) : t = m := by
  rw [callRoutine] at run
  by_cases none : packed = 0
  · rw [if_pos none] at run
    rcases store with _ | number
    · cases (Prod.mk.inj run).1
    · obtain ⟨_, failed, _, rfl⟩ | ⟨_, _, run⟩ := Op.bind_cases run
      · exact eq_of_writeVariable_error formed.frameTop_le (Prod.ext failed rfl)
      · cases (Prod.mk.inj run).1
  · rw [if_neg none] at run
    obtain ⟨_, _, _, rfl⟩ | ⟨⟨first, body⟩, _, run⟩ := Op.bind_cases run
    · rfl
    obtain ⟨fault, failed, _, rfl⟩ | ⟨_, _, run⟩ := Op.bind_cases run
    · let op : StackOp := .pushFrame returnPc store (withArguments first args)
      have refused : (op.perform.run m.stack).1 = .error fault := failed
      exact congrArg (fun stack => { m with stack }) (CallStack.perform_error refused)
    · cases (Prod.mk.inj run).1

/-- A return that follows at once gives the caller its stack back. -/
theorem returnRoutine_of_callRoutine {value : Word}
    (run : (callRoutine packed args none returnPc).run m = (.ok true, t)) :
    (returnRoutine value).run t = (.ok (), { m with pc := returnPc }) := by
  obtain ⟨first, body, _, admits, entered⟩ := callRoutine_true formed run
  have stack : t.stack = m.stack.entered returnPc none (withArguments first args) := by rw [entered]
  have own : t.stack.frame = m.stack.depth := by
    rw [stack]
    rfl
  have inside : (m.stack.entered returnPc none (withArguments first args)).Inside t.stack := by
    rw [stack]
    exact admits.inside_entered none
  rw [run_returnRoutine admits inside own value, entered]
  rfl

end Formed

open StackOp (performAll)

/-- **Calls.** Where the stack of the machine comes about by stack operations: a call that fails
changes nothing; one that enters a routine sets up its frame and changes nothing else; and a
return that follows at once, where no variable receives the result, gives the machine back as it
was, but for going on where the call said. -/
theorem calls_set_up_frames {m : Machine} {ops : List StackOp}
    (reached : performAll ops .empty = m.stack) (packed : Word) (args : List Word)
    (store : Option Byte) (returnPc : Nat) :
    (∀ e t, (callRoutine packed args store returnPc).run m = (.error e, t) → t = m) ∧
    (∀ t, (callRoutine packed args store returnPc).run m = (.ok true, t) →
      ∃ n, m.EntersRoutine t (m.memory.unpackRoutine packed) args n) ∧
    ∀ t value, (callRoutine packed args none returnPc).run m = (.ok true, t) →
      (returnRoutine value).run t = (.ok (), { m with pc := returnPc }) := by
  have formed : m.stack.WellFormed :=
    reached ▸ CallStack.performAll_wellFormed ops CallStack.wellFormed_empty
  exact ⟨fun _ _ run => eq_of_callRoutine_error formed run,
    fun _ run => entersRoutine_of_callRoutine formed run,
    fun _ _ run => returnRoutine_of_callRoutine formed run⟩

/-- A story with a routine of two locals, which hold 7 and 8 at first. -/
def twoLocalsStory : Array Byte :=
  #[3, 0, 0, 0, 0, 0x40, 0, 0x45, 0, 0x48, 0, 0x40, 0, 0x40, 0, 0x40] ++ Array.replicate 48 0 ++
    #[2, 0, 7, 0, 8, 0x9B, 5, 0, 0, 0, 0, 0]

/-- The routine is called with one argument, and its second local keeps its first value. -/
theorem two_locals_set_up :
    load twoLocalsStory {} 0 = .ok (ofStory twoLocalsStory) ∧
      performAll [] .empty = (ofStory twoLocalsStory).stack ∧
      ∃ t n, (callRoutine 0x20 [5] none 0x47).run (ofStory twoLocalsStory) = (.ok true, t) ∧
        (ofStory twoLocalsStory).EntersRoutine t 0x40 [5] n ∧ t.stack.locals = [5, 8] ∧
        (returnRoutine 1).run t = (.ok (), { ofStory twoLocalsStory with pc := 0x47 }) := by
  have loaded : load twoLocalsStory {} 0 = .ok (ofStory twoLocalsStory) :=
    load_ofStory (by decide +kernel)
  have reached : performAll [] .empty = (ofStory twoLocalsStory).stack := by decide +kernel
  have called : ((callRoutine 0x20 [5] none 0x47).run (ofStory twoLocalsStory)).1 = .ok true :=
    eq_ok_of_toOption (by decide +kernel)
  have locals : ((callRoutine 0x20 [5] none 0x47).run (ofStory twoLocalsStory)).2.stack.locals =
      [5, 8] := by decide +kernel
  have place : (ofStory twoLocalsStory).memory.unpackRoutine 0x20 = 0x40 := by decide +kernel
  obtain ⟨_, enters, returns⟩ := calls_set_up_frames reached 0x20 [5] none 0x47
  obtain ⟨n, entered⟩ := enters _ (Prod.ext called rfl)
  exact ⟨loaded, reached, _, n, Prod.ext called rfl, place ▸ entered, locals,
    returns _ 1 (Prod.ext called rfl)⟩

end Machine

end ZMachine
