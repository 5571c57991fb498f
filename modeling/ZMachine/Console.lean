import ZMachine.Console.Files
import ZMachine.Session.Run
import ZMachine.Snapshot.Document

/-!
# Playing on a console

The console host prints to a screen, appends the transcript and the player's
commands to files named after the story, and keeps saved games in files. It
draws no status line and obeys no window command.

A session is played by feeding it the lines of an input until the story ends,
the input ends or something goes wrong. A key is the first character of a line.
-/

set_option autoImplicit false

namespace ZMachine.Console

/-! ## The host -/

/-- The world of the console: what the screen has received, and the files. -/
structure World where
  screen : String := ""
  files : Files := []
  deriving DecidableEq, Repr, Inhabited

/-- Where the files of a story stand, and what its saved games are written with. -/
structure Places where
  story : String
  saveDirectory : String
  /-- Dynamic memory as it was loaded. -/
  pristine : Array Byte
  /-- The library for the documents of saved games. -/
  toml : Toml.Library := .standard
  deriving Inhabited

/-- The refusal for a file that cannot be used. -/
def refusal (e : FileError) : HostError :=
  ⟨s!"I/O error: {e.message}"⟩

/-- Change the files of the world, or refuse. -/
def World.change (w : World) (r : Except FileError Files) : Except HostError Unit × World :=
  match r with
  | .ok files => (.ok (), { w with files })
  | .error e => (.error (refusal e), w)

/-- The file of the transcript or of the commands. -/
def Places.streamFile (p : Places) : OutputStream → String
  | .commands => Path.withExtension p.story "commands.txt"
  | _ => Path.withExtension p.story "transcript.txt"

/-- The file of the game saved under a name. -/
def Places.saveFile (p : Places) (name : String) : String :=
  Path.join p.saveDirectory (name ++ ".sav.toml")

/-- Print on a stream. -/
def print (p : Places) (stream : OutputStream) (text : String) (w : World) :
    Except HostError Unit × World :=
  match stream with
  | .screen => (.ok (), { w with screen := w.screen ++ text })
  | stream => w.change (w.files.append (p.streamFile stream) text)

/-- Print on the stream with a number; what is printed on no stream is lost. -/
def printTo (p : Places) (number : Nat) (text : String) (w : World) :
    Except HostError Unit × World :=
  match OutputStream.ofNumber? number with
  | some stream => print p stream text w
  | none => (.ok (), w)

/-- The document of a saved game. -/
def savedText (p : Places) (snapshot : Snapshot) : Except Fault String := do
  (← SavedGame.compress snapshot p.pristine).write p.toml

/-- Save a game to its file. -/
def save (p : Places) (name : String) (snapshot : Snapshot) (w : World) :
    Except HostError Unit × World :=
  match savedText p snapshot with
  | .ok text => w.change (w.files.write (p.saveFile name) text)
  | .error fault => (.error ⟨fault.message⟩, w)

/-- The snapshot of a saved game's document. -/
def snapshotOf (p : Places) (text : String) : Except Fault Snapshot := do
  (← SavedGame.read text p.toml).expand p.pristine

/-- Restore a game from its file, if it is there. -/
def restore (p : Places) (name : String) (w : World) :
    Except HostError (Option Snapshot) × World :=
  match w.files.readText (p.saveFile name) with
  | .error .notFound => (.ok none, w)
  | .error e => (.error (refusal e), w)
  | .ok text =>
      match snapshotOf p text with
      | .ok snapshot => (.ok (some snapshot), w)
      | .error fault => (.error ⟨fault.message⟩, w)

/-- The console host. -/
def host (p : Places) : Host World where
  print := print p
  showStatus _ w := (.ok (), w)
  save := save p
  restore := restore p
  command _ w := (.ok (), w)

/-! ## Playing -/

/-- Why playing broke off. -/
inductive Failure where
  | execution (error : ExecutionError)
  /-- A line of the input is no text. -/
  | unreadable
  deriving DecidableEq, Repr, Inhabited

/-- The wording of a failure. -/
def Failure.message : Failure → String
  | .execution error => error.display
  | .unreadable => Fault.unreadableText.message

/-- The first line of an input, with its line end, and the rest. -/
def takeLine (input : List Byte) : List Byte × List Byte :=
  let line := input.takeWhile (· ≠ 10)
  match input.dropWhile (· ≠ 10) with
  | [] => (line, [])
  | newline :: rest => (line ++ [newline], rest)

variable {ω : Type}

/-- Answer a read with a line. -/
def answer (h : Host ω) (echo : Bool) (waiting : Status) (line : String) (s : Session ω) :
    Except ExecutionError Unit × Session ω :=
  match waiting with
  | .waitingForChar => s.provideChar (line.toList.headD '\n')
  | _ => s.provideLine h line echo

/-- What a round of playing comes to: the session goes on with what is left of the
input, or playing ends. -/
inductive Round (ω : Type) where
  | goesOn (s : Session ω) (rest : List Byte)
  | ends (result : Except Failure Unit) (s : Session ω) (rest : List Byte)

/-- Answer the read that a session waits for with the first line of an input.
Playing ends when the input has ended. -/
def answerFrom (h : Host ω) (echo : Bool) (waiting : Status) (s : Session ω)
    (input : List Byte) : Round ω :=
  match takeLine input with
  | ([], rest) => .ends (.ok ()) s rest
  | (line, rest) =>
      match textOfBytes? line.toArray with
      | none => .ends (.error .unreadable) s rest
      | some text =>
          match answer h echo waiting text s with
          | (.ok _, s) => .goesOn s rest
          | (.error error, s) => .ends (.error (.execution error)) s rest

/-- One round: a step, and an answer when the session waits after it. -/
def round (h : Host ω) (echo : Bool) (s : Session ω) (input : List Byte) : Round ω :=
  match s.step h with
  | (.running, s) => .goesOn s input
  | (.halted, s) => .ends (.ok ()) s input
  | (.failed error, s) => .ends (.error (.execution error)) s input
  | (waiting, s) => answerFrom h echo waiting s input

/-- Feed a session with an input, for at most `fuel` rounds. Gives how playing
ended, if it did, and what is left of the input. -/
def play (h : Host ω) (echo : Bool) :
    (fuel : Nat) → Session ω → List Byte → Option (Except Failure Unit) × Session ω × List Byte
  | 0, s, input => (none, s, input)
  | fuel + 1, s, input =>
      match round h echo s input with
      | .goesOn s rest => play h echo fuel s rest
      | .ends result s rest => (some result, s, rest)

end ZMachine.Console
