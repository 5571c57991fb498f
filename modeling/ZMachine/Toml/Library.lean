import ZMachine.Fault
import ZMachine.Toml.Read
import ZMachine.Toml.Write

/-!
# Libraries for documents

Documents are read and written by a library that is no part of the machine. Whatever reads
or writes one takes the library as an argument, and knows it by two functions between texts
and the keys and values in them. The reader and the printer at hand make one such library,
the one that the program runs with.
-/

set_option autoImplicit false

namespace ZMachine.Toml

/-- A library that reads and writes documents. -/
structure Library where
  /-- The keys and values of a text. -/
  read : String → Except Error Entries
  /-- A text with some keys and values. -/
  write : Entries → Except Error String
  deriving Inhabited

/-! ## Documents of one kind -/

/-- Read what a document of some kind holds. -/
def Library.readAs {α : Type} (toml : Library) (kind : String)
    (ofEntries : Entries → Except Error α) (text : String) : Except Fault α :=
  match toml.read text >>= ofEntries with
  | .ok a => .ok a
  | .error e => .error (.invalidDocument kind e.message)

/-- Write a document of some kind. -/
def Library.writeAs (toml : Library) (kind : String) (entries : Entries) : Except Fault String :=
  match toml.write entries with
  | .ok text => .ok text
  | .error e => .error (.unwritableDocument kind e.message)

/-! ## The library at hand -/

mutual
/-- An integer in a value that no document can hold. -/
def Value.unfit? : Value → Option Int
  | .integer n => if fits n then none else some n
  | .array items => unfitItem? items
  | .table _ entries => unfitField? entries
  | .tables elements => unfitElement? elements
  | _ => none

/-- The first such integer in the items of an array. -/
def unfitItem? : List Value → Option Int
  | [] => none
  | item :: rest => item.unfit? <|> unfitItem? rest

/-- The first such integer behind some keys. -/
def unfitField? : List (String × Value) → Option Int
  | [] => none
  | (_, value) :: rest => value.unfit? <|> unfitField? rest

/-- The first such integer in some tables. -/
def unfitElement? : List (List (String × Value)) → Option Int
  | [] => none
  | entries :: rest => unfitField? entries <|> unfitElement? rest
end

/-- The reader and the printer at hand. What no document can hold is not written. -/
def Library.standard : Library where
  read := Toml.read
  write entries :=
    match unfitField? entries with
    | some n => .error (.numberRange (signedDecimal n))
    | none => .ok (Toml.write entries)

end ZMachine.Toml
