import ZMachine.CommandLine

/-!
# The program

Plays a story on the terminal. The files that a run can use are read at the
start. What the story prints is shown, and files that have changed are written
back, after every batch of instructions and before every read.
-/

set_option autoImplicit false

namespace ZMachine.Main

/-- The paths of the files that a run with some arguments can use. -/
def usablePaths (args : List String) : List String :=
  let story := args.headD ""
  let places : Console.Places := {
    story
    saveDirectory := Path.parent story
    pristine := #[] }
  let name := (Path.stem? story).getD "story"
  args ++ [CommandLine.defaultConfig, places.streamFile .transcript,
    places.streamFile .commands, places.saveFile name]

/-- Read a file from the disk, if it is there. -/
def readFile (path : String) : IO Files := do
  try
    let bytes ← IO.FS.readBinFile path
    return [⟨Path.place path, bytes.data⟩]
  catch _ => return []

/-- Write back the files at some paths whose contents have changed. -/
def writeChanges (paths : List String) (before after : Files) : IO Unit := do
  for path in paths do
    if let some file := after.get? (Path.place path) then
      if (before.get? file.path).map (·.bytes) ≠ some file.bytes then
        IO.FS.writeBinFile path ⟨file.bytes⟩

/-- How many instructions run before their output is shown. -/
def batch : Nat := 1000

/-- Show what the screen has received, forget it, and write back the files. -/
def flush (paths : List String) (before : Files) (session : Session Console.World) :
    IO (Session Console.World) := do
  let out ← IO.getStdout
  out.putStr session.world.screen
  out.flush
  writeChanges paths before session.world.files
  return { session with world.screen := "" }

/-- Play until the story ends, the input ends or something goes wrong. -/
partial def playOn (h : Host Console.World) (echo : Bool) (paths : List String)
    (session : Session Console.World) : IO UInt32 := do
  let before := session.world.files
  let (status, session) := session.run h batch
  let session ← flush paths before session
  match status with
  | .running => playOn h echo paths session
  | .halted => return 0
  | .failed error =>
      IO.eprint (CommandLine.failureText (.execution error))
      return 1
  | waiting =>
      let line ← (← IO.getStdin).getLine
      if line.isEmpty then return 0
      let before := session.world.files
      let (answered, session) := Console.answer h echo waiting line session
      let session ← flush paths before session
      match answered with
      | .ok _ => playOn h echo paths session
      | .error error =>
          IO.eprint (CommandLine.failureText (.execution error))
          return 1

end ZMachine.Main

open ZMachine in
/-- Run the program. -/
def main (args : List String) : IO UInt32 := do
  let paths := Main.usablePaths args
  let files := (← paths.mapM Main.readFile).flatten
  let entropy := UInt64.ofNat (← IO.rand 0 0x7FFFFFFFFFFFFFFF)
  match CommandLine.prepare "zvm" args files entropy with
  | .error report =>
      IO.print report.stdout
      IO.eprint report.stderr
      return UInt32.ofNat report.code
  | .ok ready =>
      let echo := !(← (← IO.getStdin).isTty)
      Main.playOn (Console.host ready.places) echo paths ready.session
