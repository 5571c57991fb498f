import ZMachine.Console
import ZMachine.Settings.Document
import ZMachine.Text.Quote

/-!
# The command line

The program takes a story file and options for the settings file, the seed and
tracing. It reads the settings and the story, plays the story on the console
with the program's input, and reports what it printed and how it ended.

`prepare` does everything up to the first instruction, so that a program that
talks to its player can go on from there by itself.
-/

set_option autoImplicit false

namespace ZMachine.CommandLine

/-! ## Options -/

/-- What the arguments ask for. -/
structure Options where
  story : String
  config : Option String := none
  seed : Option UInt64 := none
  trace : Bool := false
  deriving DecidableEq, Repr, Inhabited

/-- Why the arguments cannot be used. -/
inductive OptionError where
  | configWithoutFile
  | seedWithoutNumber
  | invalidSeed (text : String)
  | unknown (option : String)
  deriving DecidableEq, Repr, Inhabited

/-- The wording of an option error. -/
def OptionError.message : OptionError → String
  | .configWithoutFile => "--config needs a file name"
  | .seedWithoutNumber => "--seed needs a number"
  | .invalidSeed text => s!"Invalid seed: {text}"
  | .unknown option => s!"Unknown option: {option}"

/-- A seed: decimal digits, with or without a plus sign, of at most sixty-four
bits. -/
def seed? (text : String) : Option UInt64 :=
  let ds :=
    match text.toList with
    | '+' :: ds => ds
    | ds => ds
  if ds.isEmpty || !ds.all Char.isDigit then none
  else
    let n := ds.foldl (fun n d => n * 10 + (d.toNat - '0'.toNat)) 0
    if n < 0x10000000000000000 then some (UInt64.ofNat n) else none

/-- Take the options behind the story file; a later one wins over an earlier. -/
def takeOptions : Options → List String → Except OptionError Options
  | options, [] => .ok options
  | options, "--config" :: rest =>
      match rest with
      | [] => .error .configWithoutFile
      | path :: rest => takeOptions { options with config := some path } rest
  | options, "--seed" :: rest =>
      match rest with
      | [] => .error .seedWithoutNumber
      | text :: rest =>
          match seed? text with
          | some seed => takeOptions { options with seed := some seed } rest
          | none => .error (.invalidSeed text)
  | options, "--trace" :: rest => takeOptions { options with trace := true } rest
  | _, option :: _ => .error (.unknown option)

/-! ## Reports -/

/-- The settings file that is used when no other is named. -/
def defaultConfig : String := "zvm.toml"

/-- How a run of the program ended: its exit code, what it printed, and the files
it left. -/
structure Report where
  code : Nat
  stdout : String
  stderr : String
  files : Files
  deriving DecidableEq, Repr, Inhabited

/-- What the program says when it is called without arguments. -/
def usage (program : String) : String :=
  "zvm - Z-machine interpreter for story files (versions 1-5, 7, 8)\n\n"
    ++ s!"Usage: {program} <story_file> [--config file] [--seed n] [--trace]\n"
    ++ "Examples:\n"
    ++ s!"  {program} zork1.z3\n"
    ++ s!"  {program} trinity.z4 --seed 42\n\n"
    ++ s!"Settings are read from --config, or from {defaultConfig} when present.\n"
    ++ "--trace logs every instruction (run with RUST_LOG=trace to see it).\n"

/-- The last line of a program that ended with an error. -/
def errorLine (message : String) : String :=
  s!"Error: {Text.quoteMessage message}\n"

/-- What is said when the story file cannot be opened or read. -/
def storyProblem (path : String) : FileError → String
  | .notFound =>
      s!"Error: Story file not found: {path}\n\nPlease check:\n"
        ++ "• File path is correct\n• You're running from the right directory\n"
  | .isDirectory =>
      s!"Error: Cannot read story file '{path}': {FileError.isDirectory.message}\n"
  | e => s!"Error: Cannot open story file '{path}': {e.message}\n"

/-! ## Getting ready -/

/-- Read a settings file. -/
def readSettings (toml : Toml.Library) (files : Files) (path : String) :
    Except String Settings :=
  match files.readText path with
  | .error e => .error s!"Cannot read config '{path}': {e.message}"
  | .ok text =>
      match Settings.read text toml with
      | .ok settings => .ok settings
      | .error fault => .error fault.message

/-- The settings that the options and the files give. A seed among the options
wins over that of the file. -/
def settingsFor (toml : Toml.Library) (files : Files) (options : Options) :
    Except String Settings := do
  let settings ←
    match options.config with
    | some path => readSettings toml files path
    | none =>
        if files.contains defaultConfig then readSettings toml files defaultConfig else pure {}
  return if options.seed.isSome then { settings with seed := options.seed } else settings

/-- A machine at its first instruction, and where its files stand. -/
structure Ready where
  session : Session Console.World
  places : Console.Places

/-- Load a story for the console. -/
def loadStory (toml : Toml.Library) (generator : Random.Generator) (files : Files)
    (options : Options) (settings : Settings) (entropy : UInt64) (story : Array Byte) :
    Except Fault Ready := do
  let memory ← Memory.load story
  let machine ← Machine.load story settings entropy generator
  let name := (Path.stem? options.story).getD "story"
  let places : Console.Places := {
    story := options.story
    saveDirectory := Path.parent options.story
    pristine := memory.pristineDynamic
    toml }
  return ⟨Session.start machine name { files }, places⟩

/-- Do everything up to the first instruction, or report why that cannot be. -/
def prepare (program : String) (args : List String) (files : Files) (entropy : UInt64)
    (toml : Toml.Library := .standard) (generator : Random.Generator := .standard) :
    Except Report Ready :=
  match args with
  | [] => .error ⟨0, usage program, "", files⟩
  | story :: rest =>
      match takeOptions { story } rest with
      | .error e => .error ⟨1, "", errorLine e.message, files⟩
      | .ok options =>
          match settingsFor toml files options with
          | .error message => .error ⟨1, "", errorLine message, files⟩
          | .ok settings =>
              match files.readBytes story with
              | .error e => .error ⟨1, "", storyProblem story e, files⟩
              | .ok bytes =>
                  match loadStory toml generator files options settings entropy bytes with
                  | .error fault => .error ⟨1, "", errorLine fault.message, files⟩
                  | .ok ready => .ok ready

/-- What is said when playing breaks off. -/
def failureText (e : Console.Failure) : String :=
  s!"\nError during execution: {e.message}\n{errorLine e.message}"

/-! ## Running -/

/-- Run the program with all of its input at hand, for at most `fuel` steps. -/
def run (fuel : Nat) (program : String) (args : List String) (files : Files)
    (input : List Byte) (entropy : UInt64) (toml : Toml.Library := .standard)
    (generator : Random.Generator := .standard) : Report :=
  match prepare program args files entropy toml generator with
  | .error report => report
  | .ok ready =>
      let (ending, session, _) :=
        Console.play (Console.host ready.places) true fuel ready.session input
      let world := session.world
      match ending with
      | some (.error e) => ⟨1, world.screen, failureText e, world.files⟩
      | _ => ⟨0, world.screen, "", world.files⟩

end ZMachine.CommandLine
