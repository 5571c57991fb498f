import ZMachine.Header.Field
import ZMachine.Text.Alphabet
import ZMachine.Text.Zscii

/-!
# The text codec of a story

How a story's strings are read depends on its version and on where its
abbreviations stand. A story may also name an alphabet or a character table of
its own; both are recognised and refused when they would be needed.
-/

set_option autoImplicit false

namespace ZMachine

/-- What the reading of a story's strings depends on. Tables that the story does
not have stand at 0. -/
structure Codec where
  version : Nat
  abbreviations : Nat
  alphabetTable : Nat
  unicodeTable : Nat
  deriving DecidableEq, Repr, Inhabited

namespace Codec

/-- The codec of an image. -/
def read (m : Memory) : Except Fault Codec := do
  let abbreviations ← if 2 ≤ m.version then m.wordField .abbreviations else pure 0
  let alphabetTable ← if 5 ≤ m.version then m.wordField .alphabetTable else pure 0
  let unicodeTable ← if 5 ≤ m.version then m.unicodeTable else pure 0
  return {
    version := m.version
    abbreviations := abbreviations.toNat
    alphabetTable := alphabetTable.toNat
    unicodeTable }

/-- The character that a code prints as, if it prints at all. -/
def charOfCode (c : Codec) (code : Word) : Except Fault (Option Char) :=
  let n := code.toNat
  if n = 0 then .ok none
  else if n = 9 then .ok (some '\t')
  else if n = 11 then .ok (some ' ')
  else if n = 13 then .ok (some '\n')
  else if 32 ≤ n ∧ n ≤ 126 then .ok (some (Char.ofNat n))
  else if Zscii.isExtra code then
    if c.unicodeTable = 0 then .ok (some (Zscii.extras.getD (n - Zscii.firstExtra) '?'))
    else .error (.customUnicode c.unicodeTable)
  else .ok (some '?')

end Codec

end ZMachine
