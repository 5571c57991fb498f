import ZMachine.Number
import ZMachine.Toml.Value

/-!
# Writing documents

A document is written as one line for each key. A string is in double quotes if
nothing in it needs an escape there, else in single quotes, else in three of
either kind. A string that no quotes can hold as it is has escapes.
-/

set_option autoImplicit false

namespace ZMachine.Toml

/-! ## Strings -/

/-- Whether a character can only be written as an escape. -/
def needsEscape (c : Char) : Bool :=
  (c < ' ' && c ≠ '\t' && c ≠ '\n') || c = '\x7f'

/-- The most times that a character stands in a row, given how often it has just
stood and the most so far. -/
def longestRunFrom (c : Char) : (current longest : Nat) → List Char → Nat
  | _, longest, [] => longest
  | current, longest, d :: rest =>
      if d = c then longestRunFrom c (current + 1) (max longest (current + 1)) rest
      else longestRunFrom c 0 longest rest

/-- The most times that a character stands in a row. -/
def longestRun (c : Char) (cs : List Char) : Nat :=
  longestRunFrom c 0 0 cs

/-- How a string is quoted. -/
inductive Quoting where
  /-- In double quotes, with escapes. -/
  | basic
  /-- In single quotes, as it is. -/
  | literal
  /-- In three double quotes, with escapes; line ends stand as they are. -/
  | basicLines
  /-- In three single quotes, as it is. -/
  | literalLines
  deriving DecidableEq, Repr, Inhabited

/-- The first way of quoting that can hold a string as it is; with escapes, if
there is none. -/
def Quoting.choose (cs : List Char) : Quoting :=
  let lines := cs.contains '\n'
  if cs.any needsEscape then if lines then .basicLines else .basic
  else
    let plain := !cs.contains '\\'
    let double := longestRun '"' cs
    let single := longestRun '\'' cs
    if plain && double = 0 && !lines then .basic
    else if single = 0 && !lines then .literal
    else if plain && double ≤ 2 then .basicLines
    else if single ≤ 2 then .literalLines
    else if lines then .basicLines
    else .basic

/-- The quotes of a way of quoting. -/
def Quoting.mark : Quoting → String
  | .basic => "\""
  | .literal => "'"
  | .basicLines => "\"\"\""
  | .literalLines => "'''"

/-- A character other than a quote in a string with escapes; `lines` tells
whether line ends stand as they are. -/
def escapeChar (lines : Bool) (c : Char) : List Char :=
  if c = '\x08' then ['\\', 'b']
  else if c = '\t' then ['\\', 't']
  else if c = '\n' then if lines then [c] else ['\\', 'n']
  else if c = '\x0c' then ['\\', 'f']
  else if c = '\r' then ['\\', 'r']
  else if c = '\\' then ['\\', '\\']
  else if needsEscape c then '\\' :: 'u' :: (hex 4 c.toNat).toUpper.toList
  else [c]

/-- The body of a string with escapes, behind some quotes in a row that stand as
they are. Two of these may do so where the string is in three quotes. -/
def escapeFrom (lines : Bool) : (quotes : Nat) → List Char → List Char
  | _, [] => []
  | quotes, c :: rest =>
      if c = '"' then
        if lines && quotes < 2 then c :: escapeFrom lines (quotes + 1) rest
        else '\\' :: c :: escapeFrom lines 0 rest
      else escapeChar lines c ++ escapeFrom lines 0 rest

/-- The body of a string in a way of quoting. -/
def Quoting.body : Quoting → List Char → List Char
  | .basic, cs => escapeFrom false 0 cs
  | .basicLines, cs => escapeFrom true 0 cs
  | _, cs => cs

/-- Whether a way of quoting lets a string span lines. -/
def Quoting.spansLines : Quoting → Bool
  | .basicLines => true
  | .literalLines => true
  | _ => false

/-- A string between its quotes. A string that spans lines begins on a line of
its own. -/
def quoted (s : String) : String :=
  let cs := s.toList
  let q := Quoting.choose cs
  let opening := if q.spansLines && cs.contains '\n' then q.mark ++ "\n" else q.mark
  opening ++ String.ofList (q.body cs) ++ q.mark

/-! ## Values and documents -/

mutual
/-- A value in print. -/
def Value.render : Value → String
  | .string s => quoted s
  | .integer n => signedDecimal n
  | .float text => text
  | .boolean b => if b then "true" else "false"
  | .time text => text
  | .array items => "[" ++ ", ".intercalate (renderItems items) ++ "]"
  | .table _ entries => "\x7b " ++ ", ".intercalate (renderEntries entries) ++ " \x7d"
  | .tables elements => "[" ++ ", ".intercalate (renderElements elements) ++ "]"

/-- The items of an array in print. -/
def renderItems : List Value → List String
  | [] => []
  | item :: rest => item.render :: renderItems rest

/-- Keys with their values in print. -/
def renderEntries : List (String × Value) → List String
  | [] => []
  | (key, value) :: rest => (key ++ " = " ++ value.render) :: renderEntries rest

/-- Tables in print. -/
def renderElements : List (List (String × Value)) → List String
  | [] => []
  | entries :: rest =>
      ("\x7b " ++ ", ".intercalate (renderEntries entries) ++ " \x7d") :: renderElements rest
end

/-- A document in print, one line for each key. -/
def write (entries : Entries) : String :=
  String.join ((renderEntries entries).map (· ++ "\n"))

end ZMachine.Toml
