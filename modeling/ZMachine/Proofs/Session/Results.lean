import ZMachine.Proofs.Machine.Variables
import ZMachine.Proofs.Session.Change

/-!
# Where results go

Most instructions end by handing on what they came to. A result is stored in the variable that
the instruction names (`store_cases`). A condition decides whether the instruction branches:
the story goes on with the next instruction, at an address relative to it, or by returning 0
or 1 from the routine (`branch_ends`). Success is reported either by a branch or by storing 1
or 0 (`report_ends`).
-/

set_option autoImplicit false

namespace ZMachine

namespace Session

variable {ω : Type} {s : Session ω} {i : Instruction}

/-! ## Storing -/

/-- A result has been stored where an instruction says, if it says so, and nothing else has
changed. -/
inductive Stored (i : Instruction) (value : Word) (s : Session ω) : Session ω → Prop where
  | nowhere (unnamed : i.store = none) : Stored i value s s
  | written {number : Byte} {machine : Machine} (named : i.store = some number)
      (written : s.machine.Written value number machine) : Stored i value s { s with machine }

/-- **Storing.** Storing a result succeeds and does just that, or it fails and does nothing. -/
theorem store_cases (inside : s.machine.stack.frameTop ≤ s.machine.stack.depth) (i : Instruction)
    (value : Word) :
    (∃ t, (store i value).run s = (.ok (), t) ∧ Stored i value s t) ∨
      ∃ e, (store i value).run s = (.error e, s) := by
  rw [store]
  cases named : i.store with
  | none => exact .inl ⟨s, rfl, .nowhere named⟩
  | some number =>
      have whole : (onMachine (Machine.writeVariable number value)).run s =
          (((Machine.writeVariable number value).run s.machine).1,
            { s with machine := ((Machine.writeVariable number value).run s.machine).2 }) := rfl
      obtain ⟨machine, run, written⟩ | ⟨e, run⟩ := Machine.writeVariable_cases inside number value
      · rw [run] at whole
        exact .inl ⟨_, whole, .written named written⟩
      · rw [run] at whole
        exact .inr ⟨e, whole⟩

/-! ## Branching -/

/-- An instruction branches on a condition: it has a branch, whose sense is the condition's. -/
def Takes (i : Instruction) (condition : Bool) (b : Branch) : Prop :=
  i.branch = some b ∧ condition = b.onTrue

/-- How an instruction ends that may branch. It is passed over, if it has no branch or one of
the other sense. Else an offset of 0 or 1 is a result to return, and any other leads to an
address: it counts from two bytes before the next instruction, and the address may not be
below 0. -/
inductive BranchEnds (i : Instruction) (condition : Bool) (s : Session ω) :
    Except Fault Outcome × Session ω → Prop where
  | passed (other : ∀ b, ¬ Takes i condition b) : BranchEnds i condition s (.ok .advanced, s)
  | returns {b : Branch} {value : Word} (takes : Takes i condition b)
      (result : b.offset = 0 ∧ value = 0 ∨ b.offset = 1 ∧ value = 1) :
      BranchEnds i condition s ((leave value).run s)
  | jumps {b : Branch} {target : Nat} (takes : Takes i condition b)
      (far : b.offset ≠ 0 ∧ b.offset ≠ 1) (there : (target : Int) = s.machine.pc + b.offset - 2) :
      BranchEnds i condition s (.ok .branched, { s with machine.pc := target })
  | below {b : Branch} (takes : Takes i condition b) (far : b.offset ≠ 0 ∧ b.offset ≠ 1)
      (negative : (s.machine.pc : Int) + b.offset - 2 < 0) :
      BranchEnds i condition s (.error (.negativeBranch (s.machine.pc + b.offset - 2)), s)

theorem run_jumpBy (offset : Int) (negative : Int → Fault) (s : Session ω) :
    (jumpBy offset negative).run s =
      if (s.machine.pc : Int) + offset - 2 < 0 then
        (.error (negative (s.machine.pc + offset - 2)), s)
      else (.ok .branched, { s with machine.pc := ((s.machine.pc : Int) + offset - 2).toNat }) := by
  simp only [jumpBy, viewMachine, Op.run_view_bind]
  split <;> rfl

/-- **Branching.** A branch ends in one of these ways, and leaves everything but the program
counter as it is, unless it returns. -/
theorem branch_ends (i : Instruction) (condition : Bool) (s : Session ω) :
    BranchEnds i condition s ((branch i condition).run s) := by
  rw [branch]
  rcases found : i.branch with _ | b
  · refine .passed fun b takes => ?_
    rw [Takes, found] at takes
    cases takes.1
  · by_cases sense : condition = b.onTrue
    · have takes : Takes i condition b := ⟨found, sense⟩
      simp only [if_neg (not_not_intro sense)]
      by_cases zero : b.offset = 0
      · rw [if_pos zero]
        exact .returns takes (.inl ⟨zero, rfl⟩)
      · by_cases one : b.offset = 1
        · rw [if_neg zero, if_pos one]
          exact .returns takes (.inr ⟨one, rfl⟩)
        · rw [if_neg zero, if_neg one, run_jumpBy]
          by_cases negative : (s.machine.pc : Int) + b.offset - 2 < 0
          · rw [if_pos negative]
            exact .below takes ⟨zero, one⟩ negative
          · rw [if_neg negative]
            exact .jumps takes ⟨zero, one⟩ (Int.toNat_of_nonneg (Int.not_lt.mp negative))
    · simp only [if_pos sense]
      refine .passed fun b' takes => sense ?_
      obtain rfl : b' = b := Option.some.inj (takes.1.symm.trans found)
      exact takes.2

/-! ## Both -/

/-- An instruction that stores a result and then branches fails to store and does nothing, or
ends as its branch does, with the result stored. -/
theorem store_branch_ends (inside : s.machine.stack.frameTop ≤ s.machine.stack.depth)
    (i : Instruction) (value : Word) (condition : Bool) :
    (∃ t, Stored i value s t ∧
        BranchEnds i condition t ((store i value >>= fun _ => branch i condition).run s)) ∨
      ∃ e, (store i value >>= fun _ => branch i condition).run s = (.error e, s) := by
  obtain ⟨t, run, stored⟩ | ⟨e, run⟩ := store_cases inside i value
  · refine .inl ⟨t, stored, ?_⟩
    rw [Op.run_bind_ok run]
    exact branch_ends i condition t
  · exact .inr ⟨e, Op.run_bind_error run⟩

/-- **Reporting.** An instruction with a branch reports its success by the branch, and one
without by storing 1 or 0; where this fails, nothing is stored. -/
theorem report_ends (inside : s.machine.stack.frameTop ≤ s.machine.stack.depth) (i : Instruction)
    (success : Bool) :
    (i.branch ≠ none ∧ BranchEnds i success s ((report i success).run s)) ∨
      i.branch = none ∧
        ((∃ t, (report i success).run s = (.ok .advanced, t) ∧
            Stored i (if success then 1 else 0) s t) ∨
          ∃ e, (report i success).run s = (.error e, s)) := by
  rw [report]
  cases found : i.branch with
  | some b => exact .inl ⟨Option.some_ne_none b, branch_ends i success s⟩
  | none =>
      refine .inr ⟨rfl, ?_⟩
      obtain ⟨t, run, stored⟩ | ⟨e, run⟩ := store_cases inside i (if success then 1 else 0)
      · exact .inl ⟨t, Op.run_bind_ok run, stored⟩
      · exact .inr ⟨e, Op.run_bind_error run⟩

end Session

end ZMachine
