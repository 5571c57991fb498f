/-!
# Documents of keys and values

Settings and saved games are kept in documents in the TOML format: keys with
values, possibly in named tables. This module has the values, and the rules by
which keys and table headers build up a document: a key may be given only once,
and a table may be opened only once.
-/

set_option autoImplicit false

namespace ZMachine.Toml

/-- Why a document cannot be read. -/
inductive Error where
  | unexpectedEnd
  | unexpected (found : Char)
  | badEscape
  | badScalar (text : String)
  | numberRange (text : String)
  | tooDeep
  | duplicateKey (key : String)
  | missingField (key : String)
  | wrongType (key : String)
  deriving DecidableEq, Repr, Inhabited

/-- The wording of an error. -/
def Error.message : Error → String
  | .unexpectedEnd => "the document ends too early"
  | .unexpected found => s!"unexpected character {found}"
  | .badEscape => "unknown escape in a string"
  | .badScalar text => s!"not a value: {text}"
  | .numberRange text => s!"number out of range: {text}"
  | .tooDeep => "nested too deeply"
  | .duplicateKey key => s!"duplicate key {key}"
  | .missingField key => s!"missing field {key}"
  | .wrongType key => s!"field {key} has a value of the wrong kind"

/-- How a table came about. -/
inductive TableKind where
  /-- On the way to the table that a header opened. -/
  | implicit
  /-- Opened by a header. -/
  | header
  /-- On the way of a dotted key. -/
  | dotted
  /-- Written out as a value. -/
  | inline
  deriving DecidableEq, Repr, Inhabited

/-- A value of a document. Numbers with a fraction and times are kept as written. -/
inductive Value where
  | string (text : String)
  | integer (number : Int)
  | float (text : String)
  | boolean (value : Bool)
  | time (text : String)
  | array (items : List Value)
  | table (kind : TableKind) (entries : List (String × Value))
  | tables (elements : List (List (String × Value)))
  deriving Repr, Inhabited

/-- The keys and values of a table, in the order in which they were given. -/
abbrev Entries := List (String × Value)

/-! ## Building up a document -/

/-- The value of a key. -/
def find (entries : Entries) (key : String) : Option Value :=
  (entries.find? (·.1 = key)).map (·.2)

/-- The entries with the value of a key that is there replaced. -/
def replace (entries : Entries) (key : String) (value : Value) : Entries :=
  entries.map fun e => if e.1 = key then (key, value) else e

/-- Give a key a value. The keys before the last of a dotted key name tables,
which are made where they are missing. The way may lead through tables that only
headers brought about, but such a table is not open to a value of its own: the
table that takes the value is the current one or one made by dotted keys. -/
def assign : (isOpen : Bool) → (path : List String) → Value → Entries → Except Error Entries
  | _, [], _, entries => .ok entries
  | isOpen, [key], value, entries =>
      if isOpen && (find entries key).isNone then .ok (entries ++ [(key, value)])
      else .error (.duplicateKey key)
  | _, key :: path, value, entries =>
      match find entries key with
      | none => do
          let inner ← assign true path value []
          return entries ++ [(key, .table .dotted inner)]
      | some (.table .dotted inner) => do
          let inner ← assign true path value inner
          return replace entries key (.table .dotted inner)
      | some (.table .implicit inner) => do
          let inner ← assign false path value inner
          return replace entries key (.table .implicit inner)
      | some (.tables elements) => do
          let inner ← assign false path value (elements.getLastD [])
          return replace entries key (.tables (elements.dropLast ++ [inner]))
      | some _ => .error (.duplicateKey key)

/-- Change the entries of the table that a path leads to, making the tables on
the way. An array of tables stands for its last element. -/
def descend (change : String → Entries → Except Error Entries) :
    (path : List String) → Entries → Except Error Entries
  | [], entries => .ok entries
  | [key], entries => change key entries
  | key :: path, entries =>
      match find entries key with
      | none => do
          let inner ← descend change path []
          return entries ++ [(key, .table .implicit inner)]
      | some (.table .inline _) => .error (.duplicateKey key)
      | some (.table kind inner) => do
          let inner ← descend change path inner
          return replace entries key (.table kind inner)
      | some (.tables elements) => do
          let inner ← descend change path (elements.getLastD [])
          return replace entries key (.tables (elements.dropLast ++ [inner]))
      | some _ => .error (.duplicateKey key)

/-- Open a table under a key. -/
def openTable (key : String) (entries : Entries) : Except Error Entries :=
  match find entries key with
  | none => .ok (entries ++ [(key, .table .header [])])
  | some (.table .implicit inner) => .ok (replace entries key (.table .header inner))
  | some _ => .error (.duplicateKey key)

/-- Add an element to the array of tables under a key. -/
def openElement (key : String) (entries : Entries) : Except Error Entries :=
  match find entries key with
  | none => .ok (entries ++ [(key, .tables [[]])])
  | some (.tables elements) => .ok (replace entries key (.tables (elements ++ [[]])))
  | some _ => .error (.duplicateKey key)

/-- Give a key a value within the table under a key. -/
def assignWithin (path : List String) (value : Value) (key : String) (entries : Entries) :
    Except Error Entries :=
  match find entries key with
  | some (.table kind inner) => do
      let inner ← assign true path value inner
      return replace entries key (.table kind inner)
  | some (.tables elements) => do
      let inner ← assign true path value (elements.getLastD [])
      return replace entries key (.tables (elements.dropLast ++ [inner]))
  | _ => .error (.duplicateKey key)

/-- A document in the course of being read. -/
structure Document where
  entries : Entries := []
  /-- The path of the table that keys are given in; the document itself at first. -/
  current : List String := []
  deriving Repr, Inhabited

/-- Give a key a value in the current table. -/
def Document.assign (d : Document) (path : List String) (value : Value) :
    Except Error Document := do
  let entries ←
    if d.current.isEmpty then Toml.assign true path value d.entries
    else descend (assignWithin path value) d.current d.entries
  return { d with entries }

/-- Make the table at a path the current one. -/
def Document.openTable (d : Document) (path : List String) : Except Error Document := do
  return ⟨← descend Toml.openTable path d.entries, path⟩

/-- Make a new element of the array of tables at a path the current table. -/
def Document.openElement (d : Document) (path : List String) : Except Error Document := do
  return ⟨← descend Toml.openElement path d.entries, path⟩

/-! ## Fields of known kinds -/

/-- The largest integer of a document. -/
def maxInteger : Nat := 0x7FFFFFFFFFFFFFFF

/-- A number of at most `last`. -/
def Value.natUpTo? (last : Nat) : Value → Option Nat
  | .integer n => if 0 ≤ n ∧ n ≤ last then some n.toNat else none
  | _ => none

/-- A text. -/
def Value.string? : Value → Option String
  | .string s => some s
  | _ => none

/-- A truth value. -/
def Value.boolean? : Value → Option Bool
  | .boolean b => some b
  | _ => none

/-- An array of numbers of at most `last`. -/
def Value.nats? (last : Nat) : Value → Option (List Nat)
  | .array items => items.mapM (Value.natUpTo? last)
  | _ => none

/-- Whether a value is an array or a table that holds nothing. -/
def Value.isEmpty : Value → Bool
  | .array items => items.isEmpty
  | .table _ entries => entries.isEmpty
  | _ => false

/-- The value of a field, if the field is there. -/
def optional {α : Type} (entries : Entries) (key : String) (kind : Value → Option α) :
    Except Error (Option α) :=
  match find entries key with
  | none => .ok none
  | some value =>
      match kind value with
      | some a => .ok (some a)
      | none => .error (.wrongType key)

/-- The value of a field that has to be there. -/
def required {α : Type} (entries : Entries) (key : String) (kind : Value → Option α) :
    Except Error α := do
  match ← optional entries key kind with
  | some a => return a
  | none => throw (.missingField key)

end ZMachine.Toml
