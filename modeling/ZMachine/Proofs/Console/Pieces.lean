import ZMachine.Console
import ZMachine.Proofs.Session.Waiting

/-!
# Playing an input in pieces

An input can be cut in two behind a line end, and the pieces fed to a session one after
the other. The first run ends where the first piece does, with the session waiting. The
second run takes up the wait: a step of a session that waits changes nothing and tells
again what it waits for (`step_again`). So the session is left as if the input had been
fed at once, and with it the host's world, in which the host has kept what it likes of
the requests made of it (`play_pieces`).

There is one exception. A line that is no text breaks playing off while the session goes
on waiting, and the rest of its piece is lost. Fed at once, nothing behind that line is
read; in pieces, the wait is answered from the second piece (`unreadable_line_skipped`).
-/

set_option autoImplicit false

namespace ZMachine

/-- What a session that has stopped says when it is asked again: a failure is told
once. -/
def Status.again : Status → Status
  | .failed _ => .halted
  | status => status

namespace Session

variable {ω : Type} {h : Host ω} {s t : Session ω}

/-- The status of a step says what the session is left doing, or the session had halted
before. -/
theorem tells_of_step {status : Status} (stepped : s.step h = (status, t)) :
    t.Tells status ∨ status = .halted ∧ t.halted = true := by
  cases halted : s.halted with
  | true =>
      rw [step_halted h halted] at stepped
      cases stepped
      exact .inr ⟨rfl, halted⟩
  | false =>
      have tells := step_tells h (s := s) (by simp [Orderly, halted])
      rw [stepped] at tells
      exact .inl tells

/-- A step after one that has left the session waiting or halted changes nothing. -/
theorem step_again {status : Status} (stepped : s.step h = (status, t))
    (stopped : status ≠ .running) : t.step h = (status.again, t) := by
  obtain tells | ⟨rfl, halted⟩ := tells_of_step stepped
  · cases tells with
    | running => exact absurd rfl stopped
    | @waiting read going pending =>
        rw [step_pending h going pending]
        cases read <;> rfl
    | halted halted _ => exact step_halted h halted
    | failed halted _ _ => exact step_halted h halted
  · exact step_halted h halted

/-- A session that a step has left waiting waits for what the status says. -/
theorem awaits_of_step {status : Status} (stepped : s.step h = (status, t))
    (waits : status = .waitingForLine ∨ status = .waitingForChar) : t.Awaits status := by
  obtain tells | ⟨rfl, _⟩ := tells_of_step stepped
  · exact tells.awaits waits
  · simp at waits

/-- A session whose step says that it has halted, or fails, has halted. -/
theorem halted_of_step {status : Status} (stepped : s.step h = (status, t))
    (told : status.again = .halted) : t.halted = true := by
  obtain tells | ⟨_, halted⟩ := tells_of_step stepped
  · cases tells with
    | running => cases told
    | @waiting read _ _ => cases read <;> cases told
    | halted halted _ => exact halted
    | failed halted _ _ => exact halted
  · exact halted

theorem Answers.halted_of_error {error : ExecutionError} (answers : s.Answers (.error error, t)) :
    t.halted = true := by
  cases answers
  rfl

end Session

namespace Console

open Session

variable {ω : Type} {h : Host ω} {echo : Bool} {s t : Session ω} {a b rest : List Byte}

/-! ## Lines -/

/-- The input is empty or ends with a line end. -/
def EndsLine (input : List Byte) : Prop :=
  input = [] ∨ input.getLast? = some 10

instance (input : List Byte) : Decidable (EndsLine input) :=
  inferInstanceAs (Decidable (input = [] ∨ input.getLast? = some 10))

/-- The first line of an input goes up to its first line end. -/
theorem takeLine_line {line : List Byte} (within : 10 ∉ line) (rest : List Byte) :
    takeLine (line ++ 10 :: rest) = (line ++ [10], rest) := by
  have passed : ∀ byte ∈ line, (decide (byte ≠ 10)) = true := by
    intro byte member
    exact decide_eq_true fun same => within (same ▸ member)
  simp only [takeLine, List.takeWhile_append_of_pos passed, List.dropWhile_append_of_pos passed]
  simp

/-- An input that ends with a line end begins with a line, and what follows the line ends
with a line end too. -/
theorem EndsLine.first_line (ends : EndsLine a) (more : a ≠ []) :
    ∃ line rest, 10 ∉ line ∧ a = line ++ 10 :: rest ∧ EndsLine rest := by
  have last : a.getLast? = some 10 := ends.resolve_left more
  obtain ⟨line, rest, rfl, within⟩ :=
    List.eq_append_cons_of_mem (List.mem_of_getLast? last)
  refine ⟨line, rest, within, rfl, ?_⟩
  cases rest with
  | nil => exact .inl rfl
  | cons byte rest =>
      refine .inr ?_
      simpa using last

/-! ## One round -/

/-- A failure other than a line that is no text is one of the session, which it has
halted. -/
theorem answer_halts {waiting : Status} {text : String} {error : ExecutionError}
    (awaits : s.Awaits waiting) (waits : waiting = .waitingForLine ∨ waiting = .waitingForChar)
    (failed : answer h echo waiting text s = (.error error, t)) : t.halted = true := by
  obtain rfl | rfl := waits
  · have answers := provideLine_answers h text echo awaits
    rw [answer] at failed
    · rw [failed] at answers
      exact answers.halted_of_error
    · exact nofun
  · have answers := provideChar_answers (text.toList.headD '\n') awaits
    rw [answer] at failed
    rw [failed] at answers
    exact answers.halted_of_error

/-- How a round on an input compares with the same round on a first piece of it. Either
both go on, or both end, with the second piece left behind in the whole input: at a line
that is no text, or with the session halted. Or the first piece has ended, and the round
on the whole is the round on the second piece that comes next. -/
inductive Compares (h : Host ω) (echo : Bool) (s : Session ω) (a b : List Byte) : Prop where
  | goesOn (t : Session ω) (rest : List Byte) (ends : EndsLine rest)
      (piece : round h echo s a = .goesOn t rest)
      (whole : round h echo s (a ++ b) = .goesOn t (rest ++ b))
  | breaks (t : Session ω) (rest : List Byte)
      (piece : round h echo s a = .ends (.error .unreadable) t rest)
      (whole : round h echo s (a ++ b) = .ends (.error .unreadable) t (rest ++ b))
  | halts (result : Except Failure Unit) (t : Session ω) (rest : List Byte)
      (halted : t.halted = true) (readable : result ≠ .error .unreadable)
      (piece : round h echo s a = .ends result t rest)
      (whole : round h echo s (a ++ b) = .ends result t (rest ++ b))
  | waits (t : Session ω) (piece : round h echo s a = .ends (.ok ()) t [])
      (whole : round h echo s (a ++ b) = round h echo t b)

/-- Where a step leaves the session waiting, the round is the answer from the input. -/
theorem round_waiting {waiting : Status} (stepped : s.step h = (waiting, t))
    (waits : waiting = .waitingForLine ∨ waiting = .waitingForChar) (input : List Byte) :
    round h echo s input = answerFrom h echo waiting t input := by
  obtain rfl | rfl := waits <;> rw [round, stepped]

/-- A read is answered from the first line of a piece as it is from the whole input. When
the piece has ended, the session goes on waiting, and the answer comes from the next. -/
theorem compares_waiting {waiting : Status} (stepped : s.step h = (waiting, t))
    (waits : waiting = .waitingForLine ∨ waiting = .waitingForChar) (ends : EndsLine a)
    (b : List Byte) : Compares h echo s a b := by
  have awaits : t.Awaits waiting := awaits_of_step stepped waits
  by_cases empty : a = []
  · subst empty
    have again : t.step h = (waiting, t) := by
      have again := step_again stepped (by rintro rfl; simp at waits)
      obtain rfl | rfl := waits <;> exact again
    refine .waits t ?_ ?_
    · rw [round_waiting stepped waits]
      rfl
    · rw [List.nil_append, round_waiting stepped waits, round_waiting again waits]
  · obtain ⟨line, rest, within, rfl, after⟩ := ends.first_line empty
    have piece : round h echo s (line ++ 10 :: rest) = _ := round_waiting stepped waits _
    have whole : round h echo s (line ++ 10 :: (rest ++ b)) = _ := round_waiting stepped waits _
    obtain ⟨first, others, filled⟩ : ∃ first others, line ++ [(10 : Byte)] = first :: others :=
      List.exists_cons_of_ne_nil (by simp)
    simp only [answerFrom, takeLine_line within, filled] at piece whole
    cases text : textOfBytes? (first :: others).toArray with
    | none =>
        rw [text] at piece whole
        exact .breaks t rest piece (by simpa using whole)
    | some text' =>
        rw [text] at piece whole
        rcases answered : answer h echo waiting text' t with ⟨error | _, u⟩
        · have halted := answer_halts awaits waits answered
          simp only [answered] at piece whole
          exact .halts _ u rest halted (by simp) piece (by simpa using whole)
        · simp only [answered] at piece whole
          exact .goesOn u rest after piece (by simpa using whole)

/-- **One round.** A round on an input is a round on its first piece, or the next round on
the second. -/
theorem round_compares (h : Host ω) (echo : Bool) (s : Session ω) (ends : EndsLine a)
    (b : List Byte) : Compares h echo s a b := by
  rcases stepped : s.step h with ⟨status, t⟩
  cases status with
  | running => exact .goesOn t a ends (by rw [round, stepped]) (by rw [round, stepped])
  | waitingForLine => exact compares_waiting stepped (.inl rfl) ends b
  | waitingForChar => exact compares_waiting stepped (.inr rfl) ends b
  | halted =>
      refine .halts (.ok ()) t a (halted_of_step stepped rfl) (by simp) ?_ ?_
      · rw [round, stepped]
      · rw [round, stepped]
  | failed error =>
      refine .halts (.error (.execution error)) t a (halted_of_step stepped rfl) (by simp) ?_ ?_
      · rw [round, stepped]
      · rw [round, stepped]

/-! ## Whole runs -/

/-- Playing the input ends with that result, in that session and with that much of the
input left. -/
def Finishes (h : Host ω) (echo : Bool) (s : Session ω) (input : List Byte)
    (result : Except Failure Unit) (t : Session ω) (rest : List Byte) : Prop :=
  ∃ fuel, play h echo fuel s input = (some result, t, rest)

variable {result : Except Failure Unit}

theorem Finishes.of_ends (ended : round h echo s a = .ends result t rest) :
    Finishes h echo s a result t rest :=
  ⟨1, by rw [play, ended]⟩

theorem Finishes.of_goesOn {u : Session ω} (went : round h echo s a = .goesOn u b)
    (later : Finishes h echo u b result t rest) : Finishes h echo s a result t rest := by
  obtain ⟨fuel, played⟩ := later
  refine ⟨fuel + 1, ?_⟩
  rw [play, went]
  exact played

/-- A run that has stopped before its rounds are out has finished. -/
theorem finishes_of_play (fuel : Nat) (stopped : (play h echo fuel s a).1 = some result)
    (left : (play h echo fuel s a).2.2 = rest) :
    Finishes h echo s a result (play h echo fuel s a).2.1 rest :=
  ⟨fuel, Prod.ext stopped (Prod.ext rfl left)⟩

/-- A run does not finish in two ways. -/
theorem Finishes.unique {result' : Except Failure Unit} {t' : Session ω} {rest' : List Byte}
    (first : Finishes h echo s a result t rest) (second : Finishes h echo s a result' t' rest') :
    result = result' ∧ t = t' ∧ rest = rest' := by
  obtain ⟨fuel, played⟩ := first
  obtain ⟨fuel', played'⟩ := second
  induction fuel generalizing s a fuel' with
  | zero => cases played
  | succ fuel ih =>
      cases fuel' with
      | zero => cases played'
      | succ fuel' =>
          rw [play] at played played'
          cases went : round h echo s a with
          | goesOn u left =>
              rw [went] at played played'
              exact ih played fuel' played'
          | ends =>
              rw [went] at played played'
              cases played
              cases played'
              exact ⟨rfl, rfl, rfl⟩

/-- A session that has halted is played no further. -/
theorem finishes_halted (h : Host ω) (echo : Bool) (halted : s.halted = true)
    (input : List Byte) : Finishes h echo s input (.ok ()) s input :=
  .of_ends (by rw [round, step_halted h halted])

/-- **Playing in pieces.** Whenever playing an input finishes, and the input is cut in two
where it is empty or behind a line end, playing the first piece finishes too. Unless it
breaks off at a line that is no text, playing the second piece from there finishes as well,
in the session that the whole input leads to: machine, pending read, streams, halting, count
of instructions and the host's world are all the same. What is left of the pieces is what is
left of the whole, and playing the whole fails just when playing one of the pieces does.

If playing the first piece breaks off at a line that is no text, playing the whole breaks
off there as well, and the second piece is not read. -/
theorem play_pieces (h : Host ω) (s : Session ω) (ends : EndsLine a) (b : List Byte)
    (finishes : Finishes h true s (a ++ b) result t rest) :
    ∃ first u left, Finishes h true s a first u left ∧
      ((first ≠ .error .unreadable ∧
          ∃ second left', Finishes h true u b second t left' ∧ rest = left ++ left' ∧
            (result = .ok () ↔ first = .ok () ∧ second = .ok ())) ∨
        (first = .error .unreadable ∧ result = first ∧ t = u ∧ rest = left ++ b)) := by
  obtain ⟨fuel, played⟩ := finishes
  induction fuel generalizing s a with
  | zero => cases played
  | succ fuel ih =>
      rw [play] at played
      cases round_compares h true s ends b with
      | goesOn u left ends piece whole =>
          rw [whole] at played
          obtain ⟨first, u', left', finished, others⟩ := ih u ends played
          exact ⟨first, u', left', .of_goesOn piece finished, others⟩
      | breaks u left piece whole =>
          rw [whole] at played
          cases played
          exact ⟨_, t, left, .of_ends piece, .inr ⟨rfl, rfl, rfl, rfl⟩⟩
      | halts first u left halted readable piece whole =>
          rw [whole] at played
          cases played
          refine ⟨result, t, left, .of_ends piece, .inl ⟨readable, .ok (), b, ?_, rfl, by simp⟩⟩
          exact finishes_halted h true halted b
      | waits u piece whole =>
          -- The second run begins with the round that the whole input would have had next.
          rw [whole] at played
          refine ⟨.ok (), u, [], .of_ends piece, .inl ⟨by simp, result, rest, ?_, rfl, by simp⟩⟩
          exact ⟨fuel + 1, by rw [play, played]⟩

/-! ## A story that asks twice -/

/-- A story that reads two keys and ends. -/
def askingTwiceStory : Array Byte :=
  #[4, 0, 0, 0, 0, 0x40, 0, 0x40, 0, 0x4A, 0, 0x40, 0, 0x40, 0, 0x40] ++ Array.replicate 48 0 ++
    #[0xF6, 0x7F, 1, 0, 0xF6, 0x7F, 1, 0, 0xBA, 0, 0, 0, 0, 0]

/-- The story that asks twice, about to begin. -/
@[irreducible] def askingTwice : Session Unit :=
  start (Machine.ofStory askingTwiceStory) "tale" ()

/-- A line with the key `y`. -/
def yesLine : List Byte := [0x79, 0x0A]

/-- A line with the key `n`. -/
def noLine : List Byte := [0x6E, 0x0A]

/-- A line that is no text. -/
def strayLine : List Byte := [0xFF, 0x0A]

/-- Given the keys in two inputs, the story that asks twice waits after the first and ends
with the second, in the session to which both keys at once lead. -/
theorem askingTwice_pieces :
    ∃ t u, Finishes Host.null true askingTwice (yesLine ++ noLine) (.ok ()) t [] ∧
      Finishes Host.null true askingTwice yesLine (.ok ()) u [] ∧ u.halted = false ∧
      Finishes Host.null true u noLine (.ok ()) t [] ∧ t.halted = true := by
  have whole : Finishes Host.null true askingTwice (yesLine ++ noLine) (.ok ()) _ [] :=
    finishes_of_play 6 (by decide +kernel) (by decide +kernel)
  have piece : Finishes Host.null true askingTwice yesLine (.ok ()) _ [] :=
    finishes_of_play 6 (by decide +kernel) (by decide +kernel)
  obtain ⟨first, u, left, finished, others⟩ :=
    play_pieces Host.null askingTwice (by decide) noLine whole
  obtain ⟨rfl, rfl, rfl⟩ := finished.unique piece
  obtain ⟨_, second, left', later, none, results⟩ | ⟨unreadable, _⟩ := others
  · obtain ⟨_, rfl⟩ := results.mp rfl
    obtain rfl : left' = [] := none.symm
    exact ⟨_, _, whole, piece, by decide +kernel, later, by decide +kernel⟩
  · cases unreadable

/-- **A line that is no text.** Fed together with the line behind it, it breaks playing off
while the story waits for a key. Fed on its own it does so too, but then the wait is
answered from the second piece, which does not lead to the session that the whole input
leads to. -/
theorem unreadable_line_skipped :
    EndsLine strayLine ∧ ∃ t,
      Finishes Host.null true askingTwice (strayLine ++ yesLine) (.error .unreadable) t yesLine ∧
      ¬ ∃ first u left second left', Finishes Host.null true askingTwice strayLine first u left ∧
        Finishes Host.null true u yesLine second t left' := by
  have whole : Finishes Host.null true askingTwice (strayLine ++ yesLine) (.error .unreadable) _
      yesLine := finishes_of_play 2 (by decide +kernel) (by decide +kernel)
  have piece : Finishes Host.null true askingTwice strayLine (.error .unreadable) _ [] :=
    finishes_of_play 2 (by decide +kernel) (by decide +kernel)
  have later : Finishes Host.null true (play Host.null true 2 askingTwice strayLine).2.1 yesLine
      (.ok ()) _ [] := finishes_of_play 3 (by decide +kernel) (by decide +kernel)
  refine ⟨by decide, _, whole, ?_⟩
  rintro ⟨first, u, left, second, left', piece', later'⟩
  obtain ⟨_, rfl, _⟩ := piece'.unique piece
  obtain ⟨_, same, _⟩ := later'.unique later
  have executed := congrArg Session.executed same
  exact absurd executed (by decide +kernel)

end Console

end ZMachine
