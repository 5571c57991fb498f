import ZMachine.Number

/-!
# Alphabets

Story text is written in three alphabets of twenty-six characters, reached by
shifting. Their z-characters are numbered from 6. The first place of the third
alphabet is not a character: it announces a code written out in full.
-/

set_option autoImplicit false

namespace ZMachine

/-- One of the three alphabets. -/
inductive Alphabet where
  | a0
  | a1
  | a2
  deriving DecidableEq, Repr, Inhabited

namespace Alphabet

/-- The number of an alphabet. -/
def index : Alphabet → Nat
  | a0 => 0
  | a1 => 1
  | a2 => 2

/-- The alphabet with a number, counted round. -/
def ofIndex (i : Nat) : Alphabet :=
  match i % 3 with
  | 0 => a0
  | 1 => a1
  | _ => a2

/-- The alphabet some places further, counted round. -/
def rotate (a : Alphabet) (places : Nat) : Alphabet :=
  ofIndex (a.index + places)

/-- The characters of the alphabets from version 2 on. -/
def row : Alphabet → List Char
  | a0 => "abcdefghijklmnopqrstuvwxyz".toList
  | a1 => "ABCDEFGHIJKLMNOPQRSTUVWXYZ".toList
  | a2 => " \n0123456789.,!?_#'\"/\\-:()".toList

/-- The third alphabet of version 1, which has no newline. -/
def firstRow : List Char :=
  " 0123456789.,!?_#'\"/\\<-:()".toList

/-- The characters of an alphabet in a version. -/
def rowIn (version : Nat) (a : Alphabet) : List Char :=
  if a = a2 ∧ version = 1 then firstRow else a.row

/-- The character that a z-character of 6 or more stands for. -/
def charAt (version : Nat) (a : Alphabet) (z : Byte) : Char :=
  (a.rowIn version).getD (z.toNat - 6) ' '

end Alphabet

end ZMachine
