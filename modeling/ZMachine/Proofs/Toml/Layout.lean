import ZMachine.Toml.Library

/-!
# The layout of documents

A document of the kind that is written here has one line for each key, in order, with the key
and its value on either side of an equals sign. A number is written in decimal digits, an
array of numbers between brackets, and a text without quotes, backslashes and control
characters between double quotes (`Denotes`, `Lines`).

This is all that is relied on of a library for documents (`Library.Documented`): it writes
keys and values in this layout, and it reads a line in front of others that it reads. That it
reads whole documents follows by induction on their lines (`Documented.reads`).
-/

set_option autoImplicit false

namespace ZMachine.Toml

/-! ## Values -/

/-- A character that stands in a text between double quotes as it is: it is no control
character, no double quote and no backslash. -/
def IsPlain (c : Char) : Prop :=
  ' ' ≤ c ∧ c ≠ '\x7f' ∧ c ≠ '"' ∧ c ≠ '\\'

/-- Numbers as the items of an array. -/
def numbers (ns : List Nat) : List Value :=
  ns.map fun n : Nat => .integer n

/-- The text of an array of numbers. -/
def numbersText (ns : List Nat) : String :=
  "[" ++ ", ".intercalate (ns.map toString) ++ "]"

/-- The text of a string that needs no escapes. -/
def quotedText (s : String) : String :=
  "\"" ++ s ++ "\""

/-- A text is how a value is written, on one line and with neither escapes nor signs. -/
inductive Denotes : String → Value → Prop where
  | text {s : String} (plain : ∀ c ∈ s.toList, IsPlain c) : Denotes (quotedText s) (.string s)
  | number {n : Nat} (fit : n ≤ maxInteger) : Denotes (toString n) (.integer n)
  | numbers {ns : List Nat} (fit : ∀ n ∈ ns, n ≤ maxInteger) :
      Denotes (numbersText ns) (.array (numbers ns))

/-! ## Lines -/

/-- A key that is written without quotes. -/
def IsBare (key : String) : Prop :=
  key.toList.isEmpty = false ∧ key.toList.all isKeyChar = true

instance (key : String) : Decidable (IsBare key) :=
  inferInstanceAs (Decidable (_ ∧ _))

/-- A line with a key and the text of its value. -/
def keyLine (key text : String) : String :=
  key ++ " = " ++ text ++ "\n"

/-- A text has one line for each of some keys, none of them twice, in order. -/
inductive Lines : String → Entries → Prop where
  | nil : Lines "" []
  | cons {key text rest : String} {v : Value} {entries : Entries} (bare : IsBare key)
      (value : Denotes text v) (absent : key ∉ entries.map (·.1)) (more : Lines rest entries) :
      Lines (keyLine key text ++ rest) ((key, v) :: entries)

/-! ## Libraries -/

/-- What is relied on of a library for documents. -/
structure Library.Documented (toml : Library) : Prop where
  /-- Keys and values are written one line for each, in order. -/
  writes {text : String} {entries : Entries} :
    Lines text entries → toml.write entries = .ok text
  /-- There are no keys in an empty text. -/
  reads_nothing : toml.read "" = .ok []
  /-- A line gives its key its value, in front of what the lines behind it give. -/
  reads_line {key text rest : String} {v : Value} {entries : Entries} :
    IsBare key → Denotes text v → key ∉ entries.map (·.1) → Lines rest entries →
      toml.read rest = .ok entries →
      toml.read (keyLine key text ++ rest) = .ok ((key, v) :: entries)

namespace Library.Documented

variable {toml : Library} (documented : toml.Documented) {text : String} {entries : Entries}
  (lines : Lines text entries)

include documented lines

/-- A document is read line by line. -/
theorem reads : toml.read text = .ok entries := by
  induction lines with
  | nil => exact documented.reads_nothing
  | cons bare value absent more ih => exact documented.reads_line bare value absent more ih

theorem writeAs_eq_ok (kind : String) : toml.writeAs kind entries = .ok text := by
  rw [writeAs, documented.writes lines]

theorem readAs_eq_ok (kind : String) {α : Type} {ofEntries : Entries → Except Error α} {a : α}
    (given : ofEntries entries = .ok a) : toml.readAs kind ofEntries text = .ok a := by
  have read : toml.read text >>= ofEntries = .ok a := by
    rw [documented.reads lines]
    exact given
  rw [readAs, read]

end Library.Documented

end ZMachine.Toml
