import ZMachine.Proofs.Session.Output
import ZMachine.Proofs.Session.Step

/-!
# Taking an answer

A line that the player has typed is taken in three parts: it is stored in the text
buffer, it is copied to the streams, and its words are described in the parse buffer
(`finishRead_eq`). Only the second part reaches the host, and with no table open it does
nothing else. So an answer that is taken has stored the line and described its words, and
all else it has changed is the host's world (`provideLine_eq_ok`).
-/

set_option autoImplicit false

namespace ZMachine.Session

variable {ω α β : Type} {h : Host ω} {s t : Session ω}

/-- A line without its line end. -/
def stripped (text : String) : String :=
  (text.dropEndWhile fun c => c = '\r' || c = '\n').toString

/-- A line that has no line end is kept whole. -/
theorem stripped_eq {text : String}
    (last : text.toList.getLast?.any (fun c => c = '\r' || c = '\n') = false) :
    stripped text = text := by
  have ends : text.endsWith (fun c : Char => c = '\r' || c = '\n') = false := by
    rw [String.endsWith_bool_eq_getLast?]
    exact last
  rw [stripped, String.dropEndWhile_eq_toSlice ends]
  exact String.copy_toSlice

/-- Copy a typed line to the streams. -/
def copyLine (h : Host ω) (line : String) (echo : Bool) : Op (Session ω) Unit := do
  if echo then output h (line ++ "\n")
  else if ← queryMachine (·.memory.flag .transcripting) then
    request (h.print .transcript (line ++ "\n"))
  echoCommand h line

/-- Describe the words of a line that is stored, and tell how it was ended. -/
def describeLine (version : Nat) (typed : String) (parseAddr : Nat) (target : Option Byte) :
    Op Machine Unit := do
  if parseAddr ≠ 0 then fillParseBuffer typed parseAddr false
  if 5 ≤ version then
    if let some number := target then Machine.writeVariable number 13

theorem onMachine_bind (x : Op Machine α) (f : α → Op Machine β) :
    (onMachine (x >>= f) : Op (Session ω) β) = onMachine x >>= fun a => onMachine (f a) :=
  Op.zoom_bind x f (fun _ _ => rfl) fun _ _ _ => rfl

/-- Describing a line is an operation on the machine. -/
theorem onMachine_describeLine (version : Nat) (typed : String) (parseAddr : Nat)
    (target : Option Byte) :
    (onMachine (describeLine version typed parseAddr target) : Op (Session ω) Unit) = (do
      if parseAddr ≠ 0 then onMachine (fillParseBuffer typed parseAddr false)
      if 5 ≤ version then
        if let some number := target then onMachine (Machine.writeVariable number 13)) := by
  have ending : (onMachine (if 5 ≤ version then
        if let some number := target then Machine.writeVariable number 13 else pure ()
      else pure ()) : Op (Session ω) Unit) =
      if 5 ≤ version then
        if let some number := target then onMachine (Machine.writeVariable number 13) else pure ()
      else pure () := by
    split
    · cases target <;> rfl
    · rfl
  by_cases parses : parseAddr ≠ 0
  · simp only [describeLine, if_pos parses, onMachine_bind]
    exact congrArg (onMachine _ >>= ·) (funext fun _ => ending)
  · simp only [describeLine, if_neg parses]
    exact ending

/-- **The parts of an answer.** The line is stored, copied to the streams, and described. -/
theorem finishRead_eq (h : Host ω) (line : String) (echo : Bool) (textAddr : Nat)
    (textMax : Byte) (parseAddr : Nat) (target : Option Byte) :
    finishRead h line echo textAddr textMax parseAddr target = (do
      let version ← viewMachine (·.version)
      onMemory (storeText version textAddr (Zscii.ofString (typedText version textMax line)))
      copyLine h line echo
      onMachine (describeLine version (typedText version textMax line) parseAddr target)) := by
  refine congrArg (viewMachine (·.version) >>= ·) (funext fun version => ?_)
  refine congrArg (onMemory _ >>= ·) (funext fun _ => ?_)
  rw [onMachine_describeLine, copyLine]
  cases echo with
  | true => exact (bind_assoc (output h (line ++ "\n")) _ _).symm
  | false =>
      refine Eq.trans ?_ (bind_assoc (queryMachine (·.memory.flag .transcripting)) _ _).symm
      refine congrArg (queryMachine _ >>= ·) (funext fun on => ?_)
      cases on with
      | false => rfl
      | true => exact (bind_assoc (request (h.print .transcript (line ++ "\n"))) _ _).symm

/-- A line that is not echoed is sent to the transcript if that is selected. -/
theorem run_copyLine {line : String} {on : Bool}
    (flag : s.machine.memory.flag .transcripting = .ok on) :
    (copyLine h line false).run s =
      (if on then request (h.print .transcript (line ++ "\n")) >>= fun _ => echoCommand h line
        else echoCommand h line).run s := by
  have queried : (queryMachine (·.memory.flag .transcripting)).run s = (.ok on, s) :=
    Prod.ext flag rfl
  exact Op.run_bind_ok queried

/-- With no table open, copying a line reaches the host and changes nothing else. -/
theorem copyLine_sends {line : String} {echo : Bool} {ended : Except Fault Unit}
    (copied : (copyLine h line echo).run s = (ended, t)) (closed : s.streams.tables = []) :
    s.Sends t := by
  cases echo with
  | true =>
      have sent := output_sends h (line ++ "\n") closed
      obtain ⟨_, _, _, rfl⟩ | ⟨_, _, echoed⟩ := Op.bind_cases copied
      · exact sent
      · exact sends_of_reaches (.head sent ((echoCommand_sends h line).reaches echoed))
  | false =>
      have made : (copyLine h line false).MadeOf Sends :=
        .bind (.query _) fun _ => .sometimes (request_sends _) fun _ => echoCommand_sends h line
      exact sends_of_reaches (made.reaches copied)

/-- The answer to a pending read ends as the finishing of the read does. -/
theorem provideLine_pending {addr textAddr : Nat} {textMax : Byte} {parseAddr : Nat}
    {target : Option Byte}
    (pending : s.pending = some (.line addr textAddr textMax parseAddr target)) (h : Host ω)
    (text : String) (echo : Bool) :
    s.provideLine h text echo =
      match (finishRead h (stripped text) echo textAddr textMax parseAddr target).run
        { s with pending := none } with
      | (.ok _, t) => (.ok (), t)
      | (.error fault, t) =>
          (.error ⟨addr, readName t.machine.version, fault⟩, { t with halted := true }) := by
  simp only [provideLine, pending]
  rfl

/-- **A line that was taken** is stored, and then its words are described. -/
theorem provideLine_eq_ok {addr textAddr : Nat} {textMax : Byte} {parseAddr : Nat}
    {target : Option Byte} {text : String} {echo : Bool}
    (pending : s.pending = some (.line addr textAddr textMax parseAddr target))
    (closed : s.streams.tables = []) (taken : s.provideLine h text echo = (.ok (), t)) :
    ∃ memory machine world,
      (storeText s.machine.version textAddr
        (Zscii.ofString (typedText s.machine.version textMax (stripped text)))).run
          s.machine.memory = (.ok (), memory) ∧
      (describeLine s.machine.version (typedText s.machine.version textMax (stripped text))
        parseAddr target).run { s.machine with memory } = (.ok (), machine) ∧
      t = { s with machine, pending := none, world } := by
  rw [provideLine_pending pending, finishRead_eq] at taken
  split at taken
  · rename_i finished
    cases taken
    obtain ⟨_, _, viewed, finished⟩ := Op.run_bind_eq_ok_iff.mp finished
    cases viewed
    obtain ⟨_, _, stored, finished⟩ := Op.run_bind_eq_ok_iff.mp finished
    obtain ⟨memory, written, rfl⟩ := onMemory_eq_ok.mp stored
    obtain ⟨_, u, copied, described⟩ := Op.run_bind_eq_ok_iff.mp finished
    obtain ⟨world, rfl⟩ := copyLine_sends copied closed
    obtain ⟨machine, filled, rfl⟩ := onMachine_eq_ok.mp described
    exact ⟨memory, machine, world, written, filled, rfl⟩
  · cases taken

/-- A line is taken when it can be stored, copied and described. -/
theorem provideLine_taken {addr textAddr : Nat} {textMax : Byte} {parseAddr : Nat}
    {target : Option Byte} {text : String} {echo : Bool} {memory : Memory} {machine : Machine}
    (pending : s.pending = some (.line addr textAddr textMax parseAddr target))
    (closed : s.streams.tables = [])
    (stored : (storeText s.machine.version textAddr
      (Zscii.ofString (typedText s.machine.version textMax (stripped text)))).run
        s.machine.memory = (.ok (), memory))
    (copied : ((copyLine h (stripped text) echo).run
      { s with machine := { s.machine with memory }, pending := none }).1 = .ok ())
    (described : (describeLine s.machine.version
      (typedText s.machine.version textMax (stripped text)) parseAddr target).run
        { s.machine with memory } = (.ok (), machine)) :
    ∃ world, s.provideLine h text echo = (.ok (), { s with machine, pending := none, world }) := by
  rcases run : (copyLine h (stripped text) echo).run
    { s with machine := { s.machine with memory }, pending := none } with ⟨ended, u⟩
  rw [run] at copied
  cases copied
  obtain ⟨world, rfl⟩ := copyLine_sends run closed
  have written : (onMemory (storeText s.machine.version textAddr
      (Zscii.ofString (typedText s.machine.version textMax (stripped text))))).run
        { s with pending := none } =
      (.ok (), { s with machine := { s.machine with memory }, pending := none }) :=
    onMemory_eq_ok.mpr ⟨memory, stored, rfl⟩
  have finished : (finishRead h (stripped text) echo textAddr textMax parseAddr target).run
      { s with pending := none } = (.ok (), { s with machine, pending := none, world }) := by
    rw [finishRead_eq, viewMachine, Op.run_view_bind, Op.run_bind_ok written, Op.run_bind_ok run]
    exact onMachine_eq_ok.mpr ⟨machine, described, rfl⟩
  exact ⟨world, by rw [provideLine_pending pending, finished]⟩

end ZMachine.Session
