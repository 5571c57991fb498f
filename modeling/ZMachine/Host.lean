import ZMachine.Snapshot

/-!
# Hosts

A machine reaches the player through a host. Text, the status line, window
commands and snapshots all pass through it, and any of these requests may be
refused. A host acts on a world of its own, whose type is a parameter: a log, a
set of files, or nothing at all.
-/

set_option autoImplicit false

namespace ZMachine

/-- A stream of text that leaves the machine. -/
inductive OutputStream where
  | screen
  | transcript
  | commands
  deriving DecidableEq, Repr, Inhabited

/-- The number of a stream. -/
def OutputStream.number : OutputStream → Nat
  | .screen => 1
  | .transcript => 2
  | .commands => 4

/-- The stream with a number. -/
def OutputStream.ofNumber? (n : Nat) : Option OutputStream :=
  if n = 1 then some .screen
  else if n = 2 then some .transcript
  else if n = 4 then some .commands
  else none

/-- A command to the windows of the screen. -/
inductive WindowCommand where
  /-- Clear a window; -1 and -2 clear the whole screen. -/
  | eraseWindow (window : Int)
  | splitWindow (lines : Word)
  | setWindow (window : Word)
  /-- Move the cursor to a line and column counted from 1. -/
  | setCursor (line column : Word)
  | setTextStyle (style : Word)
  | bufferMode (on : Bool)
  deriving DecidableEq, Repr, Inhabited

/-- What the status line shows. The score and turns are hours and minutes when
it shows the time. -/
structure StatusReport where
  location : String
  score : Int
  turns : Word
  showsTime : Bool
  deriving DecidableEq, Repr, Inhabited

/-- A refusal by the host. -/
structure HostError where
  message : String
  deriving DecidableEq, Repr, Inhabited

/-- The text of a refusal on its own. -/
def HostError.display (e : HostError) : String :=
  s!"Host error: {e.message}"

/-- A host over a world `ω`. -/
structure Host (ω : Type) where
  print : OutputStream → String → ω → Except HostError Unit × ω
  showStatus : StatusReport → ω → Except HostError Unit × ω
  save : String → Snapshot → ω → Except HostError Unit × ω
  /-- The snapshot kept under a name, if there is one. -/
  restore : String → ω → Except HostError (Option Snapshot) × ω
  command : WindowCommand → ω → Except HostError Unit × ω
  /-- Is told the address and the text of each instruction, if it wants to be. -/
  trace : Option (Nat → String → ω → ω) := none

/-- The host that shows nothing and keeps nothing. -/
def Host.null : Host Unit where
  print _ _ w := (.ok (), w)
  showStatus _ w := (.ok (), w)
  save _ _ w := (.error ⟨"no save storage configured"⟩, w)
  restore _ w := (.ok none, w)
  command _ w := (.ok (), w)

end ZMachine
