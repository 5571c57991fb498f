/-!
# Paths of files

Paths are texts whose parts are divided by slashes. The extension of a file
name begins at its last dot, unless that is the first character.
-/

set_option autoImplicit false

namespace ZMachine.Path

/-- Whether a path begins at the root. -/
def isAbsolute (path : String) : Bool :=
  path.startsWith "/"

/-- The steps that a path leads through, one for each of its parts. A slash at
the end is a step to the place already reached. -/
def steps (path : String) : List String :=
  (path.splitOn "/").filter (· ≠ "") ++ if path.endsWith "/" then ["."] else []

/-- Where the steps of a path begin: at the root, or where the program runs. -/
def origin (path : String) : List String :=
  if isAbsolute path then ["/"] else []

/-- Whether a place is the root, where the program runs, or a directory above. -/
def isAbove (place : List String) : Bool :=
  place.all fun part => part = "/" || part = ".."

/-- Whether a place is reached without leaving the directory where the program runs. -/
def isInside (place : List String) : Bool :=
  place.head? ≠ some "/" && place.head? ≠ some ".."

/-- The place that one step from a place leads to. One dot stays there, and two
dots lead to the directory above. -/
def step (place : List String) (part : String) : List String :=
  if part = "." then place
  else if part = ".." && !isAbove place then place.dropLast
  else place ++ [part]

/-- The place that a path leads to. -/
def place (path : String) : List String :=
  (steps path).foldl step (origin path)

/-- A path with its last part taken off, and that part. -/
def splitLast (path : String) : String × Option String :=
  let trimmed := ((path.dropEndWhile (· = '/')).toString)
  match (trimmed.splitOn "/").reverse with
  | [] => ("", none)
  | last :: front =>
      let directory := "/".intercalate front.reverse
      let directory := if directory = "" && isAbsolute path then "/" else directory
      (directory, if last = "" || last = "." || last = ".." then none else some last)

/-- The file name at the end of a path. -/
def fileName? (path : String) : Option String :=
  (splitLast path).2

/-- The directory part of a path. -/
def parent (path : String) : String :=
  (splitLast path).1

/-- A file name without its extension. -/
def stemOf (name : String) : String :=
  let cs := name.toList.reverse
  let front := (cs.dropWhile (· ≠ '.')).drop 1
  if front.isEmpty then name else String.ofList front.reverse

/-- The file name of a path without its extension. -/
def stem? (path : String) : Option String :=
  (fileName? path).map stemOf

/-- A path behind a directory. -/
def join (directory path : String) : String :=
  if isAbsolute path || directory = "" then path
  else if directory.endsWith "/" then directory ++ path
  else directory ++ "/" ++ path

/-- A path with another extension. -/
def withExtension (path extension : String) : String :=
  match splitLast path with
  | (directory, some name) => join directory (stemOf name ++ "." ++ extension)
  | (_, none) => path

end ZMachine.Path
