import ZMachine.Host.Journal
import ZMachine.Proofs.Session.Answers

/-!
# Silence while a table is open

As long as a table in memory is open, what the story prints goes to the table, and the
host's screen and transcript are not reached. That is to say that the host may do with
text for them whatever it likes: a session goes on in the same way with another host that
treats only such text differently (`Host.redirect`).

Every instruction keeps this, since each prints through the one operation that honours
the table. The answers of the player keep it with a single exception: a line that is not
to be echoed is copied to the transcript directly, if that is selected, whether or not a
table is open (`silent_but_for_noted_line`).
-/

set_option autoImplicit false

namespace ZMachine

/-- A way of receiving text. -/
abbrev Printer (ω : Type) : Type :=
  OutputStream → String → ω → Except HostError Unit × ω

/-- The host with another way of receiving text for the screen and the transcript. -/
def Host.redirect {ω : Type} (h : Host ω) (p : Printer ω) : Host ω :=
  { h with
    print := fun
      | .commands => h.print .commands
      | other => p other }

namespace Session

variable {ω α β : Type} {h : Host ω} {p : Printer ω} {s t : Session ω}

/-! ## Operations while a table is open -/

/-- While a table is open, the operations do the same. -/
def Silent (x y : Op (Session ω) α) : Prop :=
  ∀ s : Session ω, s.streams.tables ≠ [] → x.run s = y.run s

/-- The operation leaves the streams as they are. -/
def KeepsStreams (x : Op (Session ω) α) : Prop :=
  ∀ s : Session ω, (x.run s).2.streams = s.streams

theorem KeepsStreams.bind {x : Op (Session ω) α} {f : α → Op (Session ω) β}
    (first : KeepsStreams x) (rest : ∀ a, KeepsStreams (f a)) : KeepsStreams (x >>= f) := by
  intro s
  have kept := first s
  rw [Op.run_bind]
  rcases run : x.run s with ⟨fault | a, t⟩
  · rwa [run] at kept
  · rw [run] at kept
    exact (rest a t).trans kept

theorem onMachine_keepsStreams (x : Op Machine α) :
    KeepsStreams (onMachine x : Op (Session ω) α) :=
  fun _ => rfl

theorem operand_keepsStreams (operands : List Word) (i : Nat) :
    KeepsStreams (operand operands i : Op (Session ω) Word) := by
  intro s
  rw [operand]
  cases operands[i]? <;> rfl

theorem readText_keepsStreams (addr : Nat) : KeepsStreams (readText addr : Op (Session ω) String) :=
  .bind (fun _ => rfl) fun _ => .bind (onMachine_keepsStreams _) fun _ _ => rfl

theorem inlineText_keepsStreams (i : Instruction) :
    KeepsStreams (inlineText i : Op (Session ω) String) := by
  rw [inlineText]
  cases i.text with
  | none => exact fun _ => rfl
  | some addr => exact readText_keepsStreams addr

namespace Silent

theorem same (x : Op (Session ω) α) : Silent x x :=
  fun _ _ => rfl

/-- Something that leaves the streams alone comes first. -/
theorem after {x : Op (Session ω) α} {f g : α → Op (Session ω) β} (kept : KeepsStreams x)
    (rest : ∀ a, Silent (f a) (g a)) : Silent (x >>= f) (x >>= g) := by
  intro s opened
  have streams := kept s
  rw [Op.run_bind, Op.run_bind]
  rcases run : x.run s with ⟨fault | a, t⟩
  · rfl
  · rw [run] at streams
    exact rest a t (streams ▸ opened)

/-- However the writing of a text to a table ends, a table is open. -/
theorem writeToTable_open (table : OutputTable) (outer : List OutputTable) (text : String)
    (opened : s.streams.tables ≠ []) :
    ((writeToTable table outer text).run s).2.streams.tables ≠ [] := by
  have made : (writeToTable table outer text).MadeOf fun s t : Session ω =>
      s.streams.tables ≠ [] → t.streams.tables ≠ [] :=
    .bind (fun _ => .single id) fun _ =>
      .bind (.update fun _ _ => List.cons_ne_nil _ _) fun _ _ => .single id
  have reached := made s
  generalize ((writeToTable table outer text).run s).2 = t at reached ⊢
  induction reached with
  | refl => exact opened
  | tail _ last ih => exact last ih

/-- While a table is open, a text goes there, and the table stays open. -/
theorem output_table (h : Host ω) (p : Printer ω) (text : String)
    (opened : s.streams.tables ≠ []) :
    (output (h.redirect p) text).run s = (output h text).run s ∧
      ((output h text).run s).2.streams.tables ≠ [] := by
  rw [output, output]
  split
  · exact ⟨rfl, opened⟩
  · obtain ⟨table, outer, tables⟩ := List.exists_cons_of_ne_nil opened
    rw [Op.run_view_bind, Op.run_view_bind, tables]
    exact ⟨rfl, writeToTable_open table outer text opened⟩

/-- Printing comes first. -/
theorem printing {text : String} {f g : Unit → Op (Session ω) β}
    (rest : ∀ u, Silent (f u) (g u)) :
    Silent (output (h.redirect p) text >>= f) (output h text >>= g) := by
  intro s opened
  obtain ⟨same, still⟩ := output_table h p text opened
  rw [Op.run_bind, Op.run_bind, same]
  rcases run : (output h text).run s with ⟨fault | a, t⟩
  · rfl
  · rw [run] at still
    exact rest a t still

theorem printOut (text : String) :
    Silent (Session.printOut (h.redirect p) text) (Session.printOut h text) :=
  printing fun _ => same _

end Silent

theorem display_silent (i : Instruction) (operands : List Word) (op : DisplayOp) :
    Silent (display (h.redirect p) i operands op) (display h i operands op) := by
  cases op with
  | print => exact .after (inlineText_keepsStreams i) fun text => .printOut text
  | printReturn =>
      refine .after (inlineText_keepsStreams i) fun text => .printing fun _ => .printing fun _ => ?_
      exact .same _
  | newLine => exact .printOut "\n"
  | printAddress =>
      refine .after (operand_keepsStreams operands 0) fun addr => ?_
      exact .after (readText_keepsStreams _) fun text => .printOut text
  | printPacked =>
      refine .after (operand_keepsStreams operands 0) fun packed => ?_
      refine .after (fun _ => rfl) fun addr => ?_
      exact .after (readText_keepsStreams _) fun text => .printOut text
  | printChar =>
      refine .after (operand_keepsStreams operands 0) fun code => ?_
      refine .after (fun _ => rfl) fun found => ?_
      cases found with
      | none => exact .same _
      | some c => exact .printOut _
  | printNumber =>
      exact .after (operand_keepsStreams operands 0) fun number => .printOut _
  | _ => exact .same _

theorem object_silent (i : Instruction) (operands : List Word) (obj : Word) (op : ObjectOp) :
    Silent (object (h.redirect p) i operands obj op) (object h i operands obj op) := by
  cases op with
  | print => exact .after (fun _ => rfl) fun name => .printing fun _ => .same _
  | _ => exact .same _

theorem dispatch_silent {ο : Type} {family : Family} {i : Instruction}
    {of? : OperandCount → Nat → Option ο} {run run' : ο → Op (Session ω) Outcome}
    (each : ∀ op, Silent (run op) (run' op)) :
    Silent (dispatch family i of? run) (dispatch family i of? run') := by
  rw [dispatch, dispatch]
  cases of? i.opcode.count i.opcode.number.toNat with
  | none => exact .same _
  | some op => exact each op

theorem executeAs_silent (i : Instruction) (operands : List Word) (family : Family) :
    Silent (executeAs (h.redirect p) i operands family) (executeAs h i operands family) := by
  cases family with
  | object =>
      refine .after (operand_keepsStreams operands 0) fun obj => ?_
      exact dispatch_silent fun op => object_silent i operands obj op
  | display => exact dispatch_silent fun op => display_silent i operands op
  | _ => exact .same _

theorem resolveAll_keepsStreams (operands : List Operand) :
    KeepsStreams (resolveAll operands : Op (Session ω) (List Word)) := by
  intro s
  obtain ⟨stack, kept⟩ := run_resolveAll operands s
  rw [kept]

/-- **Instructions.** Every instruction is silent while a table is open. -/
theorem execute_silent (i : Instruction) : Silent (execute (h.redirect p) i) (execute h i) := by
  refine .after (resolveAll_keepsStreams i.operands) fun operands => .after (fun _ => rfl) ?_
  intro version
  by_cases extended : i.opcode.form = .extended
  · simp only [if_pos extended]
    exact .same _
  · simp only [if_neg extended]
    cases Family.of? version i.opcode.count i.opcode.number.toNat with
    | none => exact .same _
    | some family => exact executeAs_silent i operands family

/-- **One step.** A step is silent while a table is open. -/
theorem step_silent (opened : s.streams.tables ≠ []) : s.step (h.redirect p) = s.step h := by
  rw [step, step]
  split
  · rfl
  · split
    · rfl
    · rfl
    · rw [advance, advance]
      split
      · rfl
      · exact congrArg (conclude _ _) (execute_silent _ (s.enter h _) opened)

/-! ## The player's answers -/

/-- A request depends on what the host does in its present world only. -/
theorem request_congr {r r' : ω → Except HostError α × ω} (same : r s.world = r' s.world) :
    (request r).run s = (request r').run s := by
  have asked : (attempt r).run s = (attempt r').run s := by
    change (Except.ok (r s.world).1, { s with world := (r s.world).2 }) = _
    rw [same]
    rfl
  rw [request, request, Op.run_bind, Op.run_bind, asked]

/-- A line that is echoed goes to the open table. -/
theorem copyLine_echoed (line : String) :
    Silent (copyLine (h.redirect p) line true) (copyLine h line true) :=
  .printing fun _ => .same _

/-- A line that is not echoed reaches the host's transcript, if that is selected, and its
screen in no case. -/
theorem copyLine_unechoed {line : String}
    (same : s.machine.memory.flag .transcripting = .ok true →
      p .transcript (line ++ "\n") s.world = h.print .transcript (line ++ "\n") s.world) :
    (copyLine (h.redirect p) line false).run s = (copyLine h line false).run s := by
  rcases flag : s.machine.memory.flag .transcripting with fault | on
  · have queried : (queryMachine (·.memory.flag .transcripting)).run s = (.error fault, s) :=
      Prod.ext flag rfl
    exact (Op.run_bind_error queried).trans (Op.run_bind_error queried).symm
  · rw [run_copyLine flag, run_copyLine flag]
    cases on with
    | false => rfl
    | true =>
        have answered : (request ((h.redirect p).print .transcript (line ++ "\n"))).run s =
            (request (h.print .transcript (line ++ "\n"))).run s := request_congr (same flag)
        simp only [if_true]
        rw [Op.run_bind, Op.run_bind, answered]
        rfl

/-- The line can be stored in the text buffer of the pending read, and the transcript is
selected then. -/
def NotesLine (s : Session ω) (line : String) : Prop :=
  ∃ addr textAddr textMax parseAddr target memory,
    s.pending = some (.line addr textAddr textMax parseAddr target) ∧
    (storeText s.machine.version textAddr
      (Zscii.ofString (typedText s.machine.version textMax line))).run s.machine.memory =
        (.ok (), memory) ∧
    memory.flag .transcripting = .ok true

variable {line text : String} {textAddr parseAddr : Nat} {textMax : Byte} {target : Option Byte}

/-- Finishing a read depends on the host through the copying of the line alone. -/
theorem finishRead_congr {echo : Bool}
    (same : ∀ memory, (storeText s.machine.version textAddr
        (Zscii.ofString (typedText s.machine.version textMax line))).run s.machine.memory =
          (.ok (), memory) →
      (copyLine (h.redirect p) line echo).run { s with machine := { s.machine with memory } } =
        (copyLine h line echo).run { s with machine := { s.machine with memory } }) :
    (finishRead (h.redirect p) line echo textAddr textMax parseAddr target).run s =
      (finishRead h line echo textAddr textMax parseAddr target).run s := by
  rw [finishRead_eq, finishRead_eq, viewMachine, Op.run_view_bind, Op.run_view_bind, Op.run_bind,
    Op.run_bind]
  rcases stored : (onMemory (storeText s.machine.version textAddr
    (Zscii.ofString (typedText s.machine.version textMax line)))).run s with ⟨fault | _, t⟩
  · rfl
  · obtain ⟨memory, written, rfl⟩ := onMemory_eq_ok.mp stored
    simp only
    rw [Op.run_bind, Op.run_bind, same memory written]

/-- Taking a line depends on the host through the copying of the line alone. -/
theorem provideLine_congr {echo : Bool}
    (same : ∀ addr textAddr textMax parseAddr target memory,
      s.pending = some (.line addr textAddr textMax parseAddr target) →
      (storeText s.machine.version textAddr
        (Zscii.ofString (typedText s.machine.version textMax (stripped text)))).run
          s.machine.memory = (.ok (), memory) →
      (copyLine (h.redirect p) (stripped text) echo).run
          { s with machine := { s.machine with memory }, pending := none } =
        (copyLine h (stripped text) echo).run
          { s with machine := { s.machine with memory }, pending := none }) :
    s.provideLine (h.redirect p) text echo = s.provideLine h text echo := by
  rcases pending : s.pending with _ | ⟨addr, textAddr, textMax, parseAddr, target⟩ | _
  · simp only [provideLine, pending]
  · have finished : (finishRead (h.redirect p) (stripped text) echo textAddr textMax parseAddr
        target).run { s with pending := none } =
        (finishRead h (stripped text) echo textAddr textMax parseAddr target).run
          { s with pending := none } :=
      finishRead_congr fun memory => same addr textAddr textMax parseAddr target memory pending
    rw [provideLine_pending pending, provideLine_pending pending, finished]
  · simp only [provideLine, pending]

/-- A line that the host refuses for its transcript is not copied. -/
theorem copyLine_refused (flag : s.machine.memory.flag .transcripting = .ok true) {e : HostError}
    {world : ω} (refused : h.print .transcript (line ++ "\n") s.world = (.error e, world)) :
    (copyLine h line false).run s = (.error (.host e.message), { s with world }) := by
  have asked : (attempt (h.print .transcript (line ++ "\n"))).run s =
      (.ok (.error e), { s with world }) := by
    rw [run_attempt, refused]
  have failed : (request (h.print .transcript (line ++ "\n"))).run s =
      (.error (.host e.message), { s with world }) := Op.run_bind_ok asked
  rw [run_copyLine flag, if_pos rfl]
  exact Op.run_bind_error failed

/-- The host is asked to note the line: if it refuses, the answer fails with its refusal
and leaves its world as the refusal does. -/
theorem provideLine_refuses_note (notes : s.NotesLine (stripped text)) {e : HostError} {world : ω}
    (refused : h.print .transcript (stripped text ++ "\n") s.world = (.error e, world)) :
    ∃ error, (s.provideLine h text false).1 = .error error ∧ error.fault = .host e.message ∧
      (s.provideLine h text false).2.world = world := by
  obtain ⟨addr, textAddr, textMax, parseAddr, target, memory, pending, stored, flag⟩ := notes
  have written : (onMemory (storeText s.machine.version textAddr
      (Zscii.ofString (typedText s.machine.version textMax (stripped text))))).run
        { s with pending := none } =
      (.ok (), { s with machine := { s.machine with memory }, pending := none }) :=
    onMemory_eq_ok.mpr ⟨memory, stored, rfl⟩
  have failed : (finishRead h (stripped text) false textAddr textMax parseAddr target).run
      { s with pending := none } = (.error (.host e.message),
        { s with machine := { s.machine with memory }, pending := none, world }) := by
    rw [finishRead_eq, viewMachine, Op.run_view_bind, Op.run_bind_ok written]
    exact Op.run_bind_error (copyLine_refused flag refused)
  rw [provideLine_pending pending, failed]
  exact ⟨_, rfl, rfl, rfl⟩

/-- **Silence while a table is open.** Take any session in which a table is open, and
let the host treat text for the screen and the transcript in any other way. A step goes in
the same way, whatever its instruction, and so do the taking of a key, of a line that is
echoed, and of a line that is not echoed but not to be noted either.

The exception is a line that is not echoed while the transcript is selected. It reaches
the transcript, which is asked for nothing else: the line is taken in the same way if only
the one request for it is treated the same, and fails if that is refused. -/
theorem silent_but_for_noted_line (h : Host ω) (p : Printer ω) (opened : s.streams.tables ≠ []) :
    s.step (h.redirect p) = s.step h ∧
    (∀ c, perform (h.redirect p) s (.char c) = perform h s (.char c)) ∧
    (∀ text, s.provideLine (h.redirect p) text true = s.provideLine h text true) ∧
    (∀ text, ¬ s.NotesLine (stripped text) →
      s.provideLine (h.redirect p) text false = s.provideLine h text false) ∧
    ∀ text, s.NotesLine (stripped text) →
      (p .transcript (stripped text ++ "\n") s.world =
          h.print .transcript (stripped text ++ "\n") s.world →
        s.provideLine (h.redirect p) text false = s.provideLine h text false) ∧
      ∀ e world, h.print .transcript (stripped text ++ "\n") s.world = (.error e, world) →
        ∃ error, (s.provideLine h text false).1 = .error error ∧ error.fault = .host e.message ∧
          (s.provideLine h text false).2.world = world := by
  refine ⟨step_silent opened, fun c => rfl, fun text => ?_, fun text quiet => ?_,
    fun text notes => ⟨fun same => ?_, fun e world => provideLine_refuses_note notes⟩⟩
  · exact provideLine_congr fun _ _ _ _ _ _ _ _ => copyLine_echoed _ _ opened
  · refine provideLine_congr fun addr textAddr textMax parseAddr target memory pending stored => ?_
    refine copyLine_unechoed fun flag => ?_
    exact absurd ⟨addr, textAddr, textMax, parseAddr, target, memory, pending, stored, flag⟩ quiet
  · exact provideLine_congr fun _ _ _ _ _ _ _ _ => copyLine_unechoed fun _ => same

/-! ## A line that is noted -/

/-- The story that notes, when it has opened its table and waits for a line. -/
@[irreducible] def notedSession : Session Recording :=
  performAll (Recording.host false) [.run 3] (start notingMachine "tale" {})

theorem notedSession_open : notedSession.streams.tables ≠ [] := by
  decide +kernel

/-- With an echo, the line "look" is taken whatever becomes of text for the screen and the
transcript. -/
theorem look_taken_silently :
    notedSession.streams.tables ≠ [] ∧ ∀ p : Printer Recording,
      notedSession.provideLine ((Recording.host false).redirect p) "look" true =
        notedSession.provideLine (Recording.host false) "look" true := by
  refine ⟨notedSession_open, fun p => ?_⟩
  obtain ⟨_, _, echoed, _⟩ :=
    silent_but_for_noted_line (Recording.host false) p notedSession_open
  exact echoed "look"

/-- Without an echo, the line "look" is noted in the transcript although a table is open. -/
theorem look_noted_in_transcript :
    Machine.load notingStory {} 0 = .ok notingMachine ∧
    notedSession = performAll (Recording.host false) [.run 3] (start notingMachine "tale" {}) ∧
    notedSession.streams.tables ≠ [] ∧ notedSession.world.transcript = "" ∧
    (notedSession.provideLine (Recording.host false) "look" false).2.world.transcript =
      "look\n" := by
  have line : stripped "look" = "look" := stripped_eq (by decide)
  have pending : notedSession.pending = some (.line 0x6C 0x40 10 0 (some 0)) := by decide +kernel
  refine ⟨notingMachine_loaded, by rw [notedSession], notedSession_open, by decide +kernel, ?_⟩
  rw [provideLine_pending pending, line]
  decide +kernel

end Session

end ZMachine
