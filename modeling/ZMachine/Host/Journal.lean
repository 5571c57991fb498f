import ZMachine.Host

/-!
# Hosts that remember

A shelf keeps snapshots by name. The journal host writes down every request in
order, and can be told to refuse some kinds of request. The recording host
keeps what each stream and listener has received.
-/

set_option autoImplicit false

namespace ZMachine

/-! ## Shelves -/

/-- Snapshots by the name of their story. -/
abbrev Shelf := List (String × Snapshot)

/-- The snapshot kept under a name. -/
def Shelf.get? (shelf : Shelf) (name : String) : Option Snapshot :=
  (shelf.find? (·.1 = name)).map (·.2)

/-- Keep a snapshot under a name, in place of one kept before. -/
def Shelf.put (shelf : Shelf) (name : String) (snapshot : Snapshot) : Shelf :=
  (name, snapshot) :: shelf.filter (·.1 ≠ name)

/-! ## The journal -/

/-- A kind of request. -/
inductive RequestKind where
  | print
  | status
  | save
  | restore
  | window
  deriving DecidableEq, Repr, Inhabited

/-- The name of a kind of request. -/
def RequestKind.label : RequestKind → String
  | .print => "print"
  | .status => "status"
  | .save => "save"
  | .restore => "restore"
  | .window => "terminal"

/-- The kind of request with a name. -/
def RequestKind.ofLabel? (s : String) : Option RequestKind :=
  [RequestKind.print, .status, .save, .restore, .window].find? (·.label = s)

/-- A request as written down. -/
inductive Event where
  | print (stream : OutputStream) (text : String)
  | status (report : StatusReport)
  | save (name : String) (pc : Nat)
  | restore (name : String)
  | window (command : WindowCommand)
  | trace (pc : Nat) (text : String)
  deriving DecidableEq, Repr, Inhabited

/-- The world of the journal host. -/
structure Journal where
  /-- The requests so far. -/
  events : Array Event := #[]
  /-- The kinds of request that are refused. -/
  refused : List RequestKind := []
  shelf : Shelf := []
  deriving DecidableEq, Repr, Inhabited

namespace Journal

/-- Write a request down. -/
def note (j : Journal) (e : Event) : Journal :=
  { j with events := j.events.push e }

/-- Write a request down and carry it out unless its kind is refused. -/
def answer {α : Type} (kind : RequestKind) (e : Event)
    (carryOut : Journal → Except HostError α × Journal) (j : Journal) :
    Except HostError α × Journal :=
  let j := j.note e
  if j.refused.contains kind then (.error ⟨kind.label ++ " refused"⟩, j) else carryOut j

/-- The journal host. With `tracing` it also writes down each instruction. -/
def host (tracing : Bool) : Host Journal where
  print stream text := answer .print (.print stream text) fun j => (.ok (), j)
  showStatus report := answer .status (.status report) fun j => (.ok (), j)
  save name snapshot := answer .save (.save name snapshot.pc) fun j =>
    (.ok (), { j with shelf := j.shelf.put name snapshot })
  restore name := answer .restore (.restore name) fun j => (.ok (j.shelf.get? name), j)
  command c := answer .window (.window c) fun j => (.ok (), j)
  trace := if tracing then some fun pc text j => j.note (.trace pc text) else none

end Journal

/-! ## The recording -/

/-- The world of the recording host. -/
structure Recording where
  screen : String := ""
  transcript : String := ""
  commands : String := ""
  statuses : Array StatusReport := #[]
  windows : Array WindowCommand := #[]
  shelf : Shelf := []
  trace : Array String := #[]
  deriving DecidableEq, Repr, Inhabited

namespace Recording

/-- Add text to a stream. -/
def print (r : Recording) (stream : OutputStream) (text : String) : Recording :=
  match stream with
  | .screen => { r with screen := r.screen ++ text }
  | .transcript => { r with transcript := r.transcript ++ text }
  | .commands => { r with commands := r.commands ++ text }

/-- What the screen has received, which is then forgotten. -/
def takeScreen (r : Recording) : String × Recording :=
  (r.screen, { r with screen := "" })

/-- The recording host. With `tracing` it also keeps each instruction. -/
def host (tracing : Bool) : Host Recording where
  print stream text r := (.ok (), r.print stream text)
  showStatus report r := (.ok (), { r with statuses := r.statuses.push report })
  save name snapshot r := (.ok (), { r with shelf := r.shelf.put name snapshot })
  restore name r := (.ok (r.shelf.get? name), r)
  command c r := (.ok (), { r with windows := r.windows.push c })
  trace :=
    if tracing then
      some fun pc text r => { r with trace := r.trace.push s!"{hex 5 pc} {text}" }
    else none

end Recording

end ZMachine
