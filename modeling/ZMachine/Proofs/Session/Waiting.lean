import ZMachine.Proofs.Session.Calls

/-!
# Halting and waiting

A session that has halted stays as it is for good, and one that waits for the player
stays as it is until it is answered. Both rest on the books being in order: a session
that has halted has no read pending, and the status of every step says what the session
is left doing (`step_tells`). An instruction begins a read last of all, so that none is
pending when an instruction fails; and an answer ends the read before it finishes the
instruction, so that none is pending when that fails.

What every step keeps, and holds of each session with no read pending, is kept by whatever
is asked of a session (`performAll_keeps`).

A run that has stopped before its count is out has left the session at rest, and so the
rest of the count can be run later or not at all (`run_run`).
-/

set_option autoImplicit false

namespace ZMachine.Session

open Relation (ReflTransGen)

variable {ω : Type} {h : Host ω} {s t : Session ω} {i : Instruction}

/-! ## What a step leaves the session doing -/

/-- A session that has halted has no read pending. -/
def Orderly (s : Session ω) : Prop :=
  s.halted = true → s.pending = none

/-- The session waits for its player, or it has halted. -/
def Rests (s : Session ω) : Prop :=
  s.halted = true ∨ s.pending ≠ none

/-- The status says what the session is doing. -/
inductive Tells (s : Session ω) : Status → Prop where
  | running (going : s.halted = false) (free : s.pending = none) : Tells s .running
  | waiting {read : PendingRead} (going : s.halted = false) (pending : s.pending = some read) :
      Tells s read.status
  | halted (halted : s.halted = true) (free : s.pending = none) : Tells s .halted
  | failed (halted : s.halted = true) (free : s.pending = none) (error : ExecutionError) :
      Tells s (.failed error)

theorem Tells.orderly {status : Status} (tells : s.Tells status) : s.Orderly := by
  intro halted
  cases tells with
  | running _ free => exact free
  | waiting going _ => cases going.symm.trans halted
  | halted _ free => exact free
  | failed _ free _ => exact free

theorem Tells.rests {status : Status} (tells : s.Tells status) (stopped : status ≠ .running) :
    s.Rests := by
  cases tells with
  | running _ _ => exact absurd rfl stopped
  | waiting _ pending => exact .inr (by rw [pending]; nofun)
  | halted halted _ => exact .inl halted
  | failed halted _ _ => exact .inl halted

theorem Tells.awaits {status : Status} (tells : s.Tells status)
    (waits : status = .waitingForLine ∨ status = .waitingForChar) : s.Awaits status := by
  cases tells with
  | waiting _ pending => exact congrArg (Option.map PendingRead.status) pending
  | running _ _ => simp at waits
  | halted _ _ => simp at waits
  | failed _ _ _ => simp at waits

theorem conclude_waits (i : Instruction) (version : Nat) (read : PendingRead) (s : Session ω) :
    conclude i version (.ok read.outcome, s) = (read.status, s) := by
  cases read <;> rfl

/-- However an instruction ends, the status that is concluded from it says so. -/
theorem Ends.tells {results : Word → Prop} {ended : Except Fault Outcome × Session ω}
    (ends : Ends results t ended) (going : t.halted = false) (free : t.pending = none)
    (i : Instruction) (version : Nat) :
    (conclude i version ended).2.Tells (conclude i version ended).1 := by
  have failed : ∀ machine error, Tells { t with machine, halted := true } (.failed error) := by
    intro machine error
    refine .failed rfl ?_ error
    exact free
  cases ends with
  | stopped fault => exact failed t.machine _
  | @goesOn outcome awake =>
      cases outcome with
      | quit => exact .halted rfl free
      | awaitLine => cases awake
      | awaitChar => cases awake
      | _ => exact .running going free
  | waits _ =>
      rw [conclude_waits]
      exact .waiting going rfl
  | @leaves value _ =>
      rw [run_leave]
      cases ((Machine.returnRoutine value).run t.machine).1 with
      | error fault => exact failed _ _
      | ok _ => exact .running going free

theorem LeavesLastFrom.ends {results : Word → Prop} {x : Op (Session ω) Outcome}
    (last : LeavesLastFrom results s x) (going : s.halted = false) (free : s.pending = none) :
    ∃ t, t.halted = false ∧ t.pending = none ∧ Ends (fun _ => True) t (x.run s) := by
  obtain ⟨t, acts, ends⟩ := last
  obtain ⟨pending, halted, _⟩ := books_of_acts acts
  exact ⟨t, halted.trans going, pending.trans free, ends.mono fun _ _ => trivial⟩

/-- Every instruction ends in one of the four ways, with no read pending before. -/
theorem Executes.ends (runs : s.Executes i) (h : Host ω) :
    ∃ t, t.halted = false ∧ t.pending = none ∧
      Ends (fun _ => True) t ((execute h i).run (s.enter h i)) := by
  by_cases restarts : s.Restarts
  · obtain ⟨_, runs', restarting⟩ := restarts
    cases runs.next.symm.trans runs'.next
    rw [runs.run_zero (count_of_restart restarting) restarting, control, restart]
    rcases began : (onMachine Machine.restart).run (s.enter h i) with ⟨fault | _, t⟩
    · rw [Op.run_bind_error began]
      obtain ⟨_, rfl⟩ := Prod.mk.inj began
      refine ⟨_, ?_, ?_, .stopped fault⟩
      · exact runs.going
      · exact runs.free
    · rw [Op.run_bind_ok began]
      obtain ⟨_, rfl⟩ := Prod.mk.inj began
      refine ⟨_, ?_, ?_, .goesOn rfl⟩
      · exact runs.going
      · rfl
  · by_cases resumes : s.Resumes h
    · obtain ⟨_, snapshot, saving, runs', restoring, early, handed, found, taken⟩ := resumes
      cases runs.next.symm.trans runs'.next
      obtain ⟨world, streams, run⟩ :=
        runs.run_restore restoring (t := s.enter h i) early handed found (Prod.ext taken rfl)
      -- What comes after the snapshot is the report of the instruction that saved it.
      rw [run]
      exact (report_leavesLast saving true _).ends runs.going runs.free
    · exact (runs.leavesLast restarts resumes).ends runs.going runs.free

theorem step_halted (h : Host ω) (halted : s.halted = true) : s.step h = (.halted, s) := by
  rw [step, if_pos halted]

theorem step_pending (h : Host ω) (going : s.halted = false) {read : PendingRead}
    (pending : s.pending = some read) : s.step h = (read.status, s) := by
  rw [step, going, pending]
  cases read <;> rfl

/-- **One step.** The status of a step says what the session is left doing. -/
theorem step_tells (h : Host ω) (orderly : s.Orderly) : (s.step h).2.Tells (s.step h).1 := by
  cases halted : s.halted with
  | true =>
      rw [step_halted h halted]
      exact .halted halted (orderly halted)
  | false =>
      cases free : s.pending with
      | some read =>
          rw [step_pending h halted free]
          exact .waiting halted free
      | none =>
          rcases next : nextInstruction s.machine with fault | i
          · simp only [step, halted, free, advance, next, halt, Bool.false_eq_true, if_false]
            exact .failed rfl rfl _
          · have runs : s.Executes i := ⟨halted, free, next⟩
            obtain ⟨t, going, free, ends⟩ := runs.ends h
            rw [runs.step_eq h]
            exact ends.tells going free i _

/-! ## Rest -/

theorem Rests.step_eq (rests : s.Rests) (h : Host ω) :
    ∃ status, status ≠ .running ∧ s.step h = (status, s) := by
  cases halted : s.halted with
  | true => exact ⟨.halted, nofun, step_halted h halted⟩
  | false =>
      have waits : s.pending ≠ none := rests.resolve_left (by simp [halted])
      obtain ⟨read, pending⟩ := Option.ne_none_iff_exists'.mp waits
      refine ⟨read.status, ?_, step_pending h halted pending⟩
      cases read <;> nofun

theorem Rests.run_eq (rests : s.Rests) (h : Host ω) (count : Nat) : (run h count s).2 = s := by
  cases count with
  | zero => rfl
  | succ count =>
      obtain ⟨status, stopped, same⟩ := rests.step_eq h
      rw [run, same]
      cases status with
      | running => exact absurd rfl stopped
      | _ => rfl

/-- The read that an action answers. -/
def Action.answers : Action → Option Status
  | .step => none
  | .run _ => none
  | .line _ _ => some .waitingForLine
  | .char _ => some .waitingForChar

/-- At rest, nothing but an answer to the pending read changes the session. -/
theorem Rests.perform_eq (rests : s.Rests) (h : Host ω) {action : Action}
    (unasked : ∀ status, action.answers = some status → ¬ s.Awaits status) :
    perform h s action = s := by
  cases action with
  | step =>
      obtain ⟨status, _, same⟩ := rests.step_eq h
      rw [perform, same]
  | run count => exact rests.run_eq h count
  | line text echo => rw [perform, provideLine_refused h text echo (unasked _ rfl)]
  | char c => rw [perform, provideChar_refused c (unasked _ rfl)]

theorem Rests.performAll_eq (rests : s.Rests) (h : Host ω) {actions : List Action}
    (unasked : ∀ action ∈ actions, ∀ status, action.answers = some status → ¬ s.Awaits status) :
    performAll h actions s = s := by
  induction actions with
  | nil => rfl
  | cons action rest ih =>
      have first := rests.perform_eq h (unasked action List.mem_cons_self)
      rw [performAll, List.foldl_cons, first]
      exact ih fun action member => unasked action (List.mem_cons_of_mem _ member)

/-- A session that waits is changed by nothing but an answer of the kind it waits for. -/
theorem Awaits.performAll_eq {status : Status} (awaits : s.Awaits status) (h : Host ω)
    {others : List Action} (unasked : ∀ action ∈ others, action.answers ≠ some status) :
    performAll h others s = s := by
  refine Rests.performAll_eq (.inr ?_) h fun action member other answers awaits' => ?_
  · intro free
    rw [Awaits, free] at awaits
    cases awaits
  · exact unasked action member (answers.trans (awaits'.symm.trans awaits))

/-! ## Answers -/

theorem pc_of_works (works : ReflTransGen Works s t) : t.machine.pc = s.machine.pc := by
  induction works with
  | refl => rfl
  | tail _ work ih =>
      cases work with
      | within work => exact work.pc_eq.trans ih
      | sent => exact ih

/-- Whether or not it can be taken, an answer leaves no read pending. -/
theorem Answers.pending_eq {answered : Except ExecutionError Unit × Session ω}
    (answers : s.Answers answered) : answered.2.pending = none := by
  cases answers with
  | taken finished => exact (books_of_acts finished).1
  | failed finished _ => exact (books_of_acts finished).1

/-- The read that was pending in the first session is over in the second: none is
pending, and the story stands at the same place after as many instructions. -/
structure ReadOver (s t : Session ω) : Prop where
  pending : t.pending = none
  pc : t.machine.pc = s.machine.pc
  executed : t.executed = s.executed

theorem Answers.readOver (answers : s.Answers (.ok (), t)) : s.ReadOver t := by
  cases answers with
  | taken finished =>
      obtain ⟨pending, _, executed⟩ := books_of_acts finished
      have pc := pc_of_works finished
      exact ⟨pending, pc, executed⟩

/-! ## Runs -/

section Keeps

variable {P : Session ω → Prop} (stepped : ∀ s, P s → P (s.step h).2)
include stepped

/-- What a step keeps is kept by a run. -/
theorem run_keeps (count : Nat) (holds : P s) : P (run h count s).2 := by
  induction count generalizing s with
  | zero => exact holds
  | succ count ih =>
      have after := stepped s holds
      rw [run]
      rcases ran : s.step h with ⟨status, t⟩
      rw [ran] at after
      cases status with
      | running => exact ih after
      | _ => exact after

variable (free : ∀ s, s.pending = none → P s)
include free

/-- **One action.** What a step keeps, and holds while no read is pending, is kept. -/
theorem perform_keeps (action : Action) (holds : P s) : P (perform h s action) := by
  cases action with
  | step => exact stepped s holds
  | run count => exact run_keeps stepped count holds
  | line text echo =>
      by_cases awaits : s.Awaits .waitingForLine
      · exact free _ (provideLine_answers h text echo awaits).pending_eq
      · rwa [perform, provideLine_refused h text echo awaits]
  | char c =>
      by_cases awaits : s.Awaits .waitingForChar
      · exact free _ (provideChar_answers c awaits).pending_eq
      · rwa [perform, provideChar_refused c awaits]

theorem performAll_keeps (actions : List Action) (holds : P s) : P (performAll h actions s) := by
  induction actions generalizing s with
  | nil => exact holds
  | cons action rest ih => exact ih (perform_keeps stepped free action holds)

end Keeps

/-- The books stay in order. -/
theorem performAll_orderly (h : Host ω) (actions : List Action) (orderly : s.Orderly) :
    (performAll h actions s).Orderly :=
  performAll_keeps (fun _ orderly => (step_tells h orderly).orderly) (fun _ free _ => free) actions
    orderly

/-- Two runs in a row are one run. -/
theorem run_run (h : Host ω) (m n : Nat) (orderly : s.Orderly) :
    (run h n (run h m s).2).2 = (run h (m + n) s).2 := by
  induction m generalizing s with
  | zero => rw [Nat.zero_add, run]
  | succ m ih =>
      have tells := step_tells h orderly
      rw [Nat.succ_add, run, run]
      rcases stepped : s.step h with ⟨status, t⟩
      rw [stepped] at tells
      cases status with
      | running => exact ih tells.orderly
      -- Any other status has left the session at rest, and the second run changes nothing.
      | _ => exact (tells.rests (by simp)).run_eq h n

/-! ## Reachable sessions -/

/-- A session that has halted waits for nothing. -/
theorem Orderly.not_awaits (orderly : s.Orderly) (halted : s.halted = true) (status : Status) :
    ¬ s.Awaits status := by
  intro awaits
  rw [Awaits, orderly halted] at awaits
  cases awaits

/-- **Halting is final, and reads wait.** Take any session that can be reached from the
start of any machine, with any host.

If it has halted, it has no read pending, nothing that is asked of it changes it, a step
says that it has halted, and answers are refused. If it waits for a line or a key, a step
says so, and nothing but an answer of that kind changes it. An answer of a kind that it
does not wait for is refused and changes nothing. When a step has left it waiting and the
answer comes, after whatever else is asked in between, and is taken, the read is over, at
the place and after the count of instructions at which it began to wait. And two runs in a
row leave what one run of both counts leaves. -/
theorem halting_final_and_reads_wait (h : Host ω) (machine : Machine) (name : String) (world : ω)
    (actions : List Action) (reached : performAll h actions (start machine name world) = s) :
    (s.halted = true → s.pending = none) ∧
    (s.halted = true →
      (∀ more, performAll h more s = s) ∧
      s.step h = (.halted, s) ∧
      (∀ line echo, ∃ error, s.provideLine h line echo = (.error error, s)) ∧
      ∀ c, ∃ error, s.provideChar c = (.error error, s)) ∧
    (∀ status, s.Awaits status →
      s.step h = (status, s) ∧
      ∀ others : List Action, (∀ action ∈ others, action.answers ≠ some status) →
        performAll h others s = s) ∧
    (¬ s.Awaits .waitingForLine →
      ∀ line echo, ∃ error, s.provideLine h line echo = (.error error, s)) ∧
    (¬ s.Awaits .waitingForChar → ∀ c, ∃ error, s.provideChar c = (.error error, s)) ∧
    (∀ others : List Action, (∀ action ∈ others, action.answers ≠ some (s.step h).1) →
      ((s.step h).1 = .waitingForLine → ∀ line echo t,
        (performAll h others (s.step h).2).provideLine h line echo = (.ok (), t) →
        (s.step h).2.ReadOver t) ∧
      ((s.step h).1 = .waitingForChar → ∀ c t,
        (performAll h others (s.step h).2).provideChar c = (.ok (), t) →
        (s.step h).2.ReadOver t)) ∧
    ∀ m n, (run h n (run h m s).2).2 = (run h (m + n) s).2 := by
  have orderly : s.Orderly := by
    rw [← reached]
    exact performAll_orderly h actions fun _ => rfl
  have line : ¬ s.Awaits .waitingForLine →
      ∀ text echo, ∃ error, s.provideLine h text echo = (.error error, s) :=
    fun other text echo => ⟨_, provideLine_refused h text echo other⟩
  have char : ¬ s.Awaits .waitingForChar → ∀ c, ∃ error, s.provideChar c = (.error error, s) :=
    fun other c => ⟨_, provideChar_refused c other⟩
  have tells := step_tells h orderly
  refine ⟨orderly, fun halted => ?_, fun status awaits => ?_, line, char, fun others unasked => ?_,
    fun m n => run_run h m n orderly⟩
  · have unasked := orderly.not_awaits halted
    refine ⟨fun more => ?_, step_halted h halted, line (unasked _), char (unasked _)⟩
    exact Rests.performAll_eq (.inl halted) h fun _ _ status _ => unasked status
  · refine ⟨?_, fun others unasked => awaits.performAll_eq h unasked⟩
    obtain ⟨read, pending, rfl⟩ := Option.map_eq_some_iff.mp awaits
    cases halted : s.halted with
    | true => exact absurd awaits (orderly.not_awaits halted _)
    | false => exact step_pending h halted pending
  · refine ⟨fun waits text echo t taken => ?_, fun waits c t taken => ?_⟩
    · have awaits := tells.awaits (.inl waits)
      rw [awaits.performAll_eq h unasked] at taken
      have answers := provideLine_answers h text echo (waits ▸ awaits)
      rw [taken] at answers
      exact answers.readOver
    · have awaits := tells.awaits (.inr waits)
      rw [awaits.performAll_eq h unasked] at taken
      have answers := provideChar_answers c (waits ▸ awaits)
      rw [taken] at answers
      exact answers.readOver

/-- A story that reads a key and ends. -/
def askingStory : Array Byte :=
  #[4, 0, 0, 0, 0, 0x40, 0, 0x40, 0, 0x46, 0, 0x40, 0, 0x40, 0, 0x40] ++ Array.replicate 48 0 ++
    #[0xF6, 0x7F, 1, 0, 0xBA, 0, 0, 0, 0, 0]

/-- The machine on which the story that asks is played. -/
@[irreducible] def askingMachine : Machine :=
  match Machine.load askingStory {} 0 with
  | .ok machine => machine
  | .error _ => default

/-- The story that asks waits while it is told to run and given a line. The key, when it
comes, leaves it at the instruction behind the read; and once it has ended, it stays as it
is. -/
theorem askingStory_waits_and_ends :
    (performAll Host.null [.step, .run 9, .line "y" true, .char 'y']
      (start askingMachine "tale" ())).machine.pc = 0x44 ∧
    performAll Host.null ([.step, .char 'y', .step] ++ [.run 9, .char 'n'])
        (start askingMachine "tale" ()) =
      performAll Host.null [.step, .char 'y', .step] (start askingMachine "tale" ()) := by
  constructor
  · have waits : ((start askingMachine "tale" ()).step Host.null).1 = .waitingForChar := by
      decide +kernel
    have pc : ((start askingMachine "tale" ()).step Host.null).2.machine.pc = 0x44 := by
      decide +kernel
    obtain ⟨_, _, _, _, _, answered, _⟩ := halting_final_and_reads_wait
      (s := start askingMachine "tale" ()) Host.null askingMachine "tale" () [] rfl
    have readOver := (answered [.run 9, .line "y" true] ?_).2 waits 'y' _ (Prod.ext ?_ rfl)
    · exact readOver.pc.trans pc
    · rw [waits]
      decide
    · decide +kernel
  · have halted : (performAll Host.null [.step, .char 'y', .step]
        (start askingMachine "tale" ())).halted = true := by decide +kernel
    obtain ⟨_, final, _⟩ := halting_final_and_reads_wait Host.null askingMachine "tale" ()
      [.step, .char 'y', .step] rfl
    rw [performAll, List.foldl_append]
    exact (final halted).1 [.run 9, .char 'n']

end ZMachine.Session
