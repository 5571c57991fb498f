import ZMachine.Session

/-!
# Output

Text goes to the innermost open table in memory if there is one, and then
nowhere else. Otherwise it goes to the screen, if that is selected, and to the
transcript, if the header says so.
-/

set_option autoImplicit false

namespace ZMachine.Session

variable {ω : Type}

/-- The most tables that can be open at once. -/
def maxTables : Nat := 16

/-! ## Text -/

/-- Add text to a table that is open inside others. -/
def writeToTable (table : OutputTable) (outer : List OutputTable) (text : String) :
    Op (Session ω) Unit := do
  onMemory (Memory.writeBytes (table.addr + 2 + table.count.toNat) (Zscii.ofString text))
  let count := table.count + UInt16.ofNat text.length
  Op.update fun s => { s with streams.tables := { table with count } :: outer }
  onMemory (Memory.writeWord table.addr count)

/-- Send text to the selected streams. -/
def output (h : Host ω) (text : String) : Op (Session ω) Unit := do
  if text.isEmpty then return ()
  match ← Op.view (·.streams.tables) with
  | table :: outer => writeToTable table outer text
  | [] =>
      if ← Op.view (·.streams.screen) then request (h.print .screen text)
      if ← queryMachine (·.memory.flag .transcripting) then request (h.print .transcript text)

/-- Read the string at an address; the locked alphabet is carried on. -/
def readText (addr : Nat) : Op (Session ω) String := do
  let (string, alphabet) ← queryMachine fun m =>
    m.codec.decodeFrom m.memory addr none m.alphabet
  onMachine (Op.update fun m => { m with alphabet })
  return string.text

/-- Copy a line of the player to the command stream, if it is selected. -/
def echoCommand (h : Host ω) (line : String) : Op (Session ω) Unit := do
  if ← Op.view (·.streams.commands) then request (h.print .commands (line ++ "\n"))

/-! ## Status line -/

/-- What the status line shows: the object in the first global, and the two
numbers after it. -/
def statusReport (m : Machine) : Except Fault StatusReport := do
  let object ← m.readGlobal 0x10
  let location ← if object = 0 then pure "" else m.objects.shortName m.memory m.codec object
  let score ← m.readGlobal 0x11
  let turns ← m.readGlobal 0x12
  let showsTime ← m.memory.flag .statusShowsTime
  return { location, score := signed score, turns, showsTime }

/-- Show the status line, which only the first three versions have. -/
def updateStatus (h : Host ω) : Op (Session ω) Unit := do
  if 3 < (← viewMachine (·.version)) then return ()
  let report ← queryMachine statusReport
  request (h.showStatus report)

/-! ## Selecting streams -/

/-- Open a table in memory inside those already open. -/
def openTable (table : Option Word) : Op (Session ω) Unit := do
  match table with
  | none => Op.fail .streamWithoutTable
  | some addr =>
      if maxTables ≤ (← Op.view (·.streams.tables.length)) then
        Op.fail (.streamsTooDeep maxTables)
      onMemory (Memory.writeWord addr.toNat 0)
      Op.update fun s =>
        { s with streams.tables := ⟨addr.toNat, 0⟩ :: s.streams.tables }

/-- Select a stream by its number, or deselect it by its negative. A number that
is no stream does nothing. -/
def selectStream (stream : Int) (table : Option Word) : Op (Session ω) Unit :=
  if stream = 1 then Op.update fun s => { s with streams.screen := true }
  else if stream = -1 then Op.update fun s => { s with streams.screen := false }
  else if stream = 2 then onMemory (Memory.setFlag .transcripting true)
  else if stream = -2 then onMemory (Memory.setFlag .transcripting false)
  else if stream = 3 then openTable table
  else if stream = -3 then
    Op.update fun s => { s with streams.tables := s.streams.tables.tail }
  else if stream = 4 then Op.update fun s => { s with streams.commands := true }
  else if stream = -4 then Op.update fun s => { s with streams.commands := false }
  else pure ()

end ZMachine.Session
