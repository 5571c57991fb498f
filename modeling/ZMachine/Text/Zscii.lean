import ZMachine.Number

/-!
# The story's character code

Codes 32 to 126 are those of ASCII, codes 155 to 223 are letters and signs
beyond it, and a few control codes have a meaning. A character without a code
is typed as a space.
-/

set_option autoImplicit false

namespace ZMachine.Zscii

/-- The characters of the codes from 155 on. -/
def extras : List Char :=
  [0xe4, 0xf6, 0xfc, 0xc4, 0xd6, 0xdc, 0xdf, 0xbb, 0xab, 0xeb, 0xef, 0xff, 0xcb, 0xcf,
    0xe1, 0xe9, 0xed, 0xf3, 0xfa, 0xfd, 0xc1, 0xc9, 0xcd, 0xd3, 0xda, 0xdd, 0xe0, 0xe8,
    0xec, 0xf2, 0xf9, 0xc0, 0xc8, 0xcc, 0xd2, 0xd9, 0xe2, 0xea, 0xee, 0xf4, 0xfb, 0xc2,
    0xca, 0xce, 0xd4, 0xdb, 0xe5, 0xc5, 0xf8, 0xd8, 0xe3, 0xf1, 0xf5, 0xc3, 0xd1, 0xd5,
    0xe6, 0xc6, 0xe7, 0xc7, 0xfe, 0xf0, 0xde, 0xd0, 0xa3, 0x153, 0x152, 0xa1, 0xbf].map
    Char.ofNat

/-- The code of the first extra character. -/
def firstExtra : Nat := 155

/-- The code of the last extra character. -/
def lastExtra : Nat := 223

/-- Whether a code belongs to an extra character. -/
def isExtra (code : Word) : Bool :=
  firstExtra ≤ code.toNat && code.toNat ≤ lastExtra

/-- The code of a character typed by the player or sent to memory. -/
def ofChar (c : Char) : Byte :=
  if ' ' ≤ c ∧ c ≤ '~' then UInt8.ofNat c.toNat
  else if c = '\n' ∨ c = '\r' then 13
  else if c = '\x7f' ∨ c = '\x08' then 8
  else if c = '\x1b' then 27
  else
    match extras.idxOf? c with
    | some i => UInt8.ofNat (firstExtra + i)
    | none => 32

/-- The codes of a text. -/
def ofString (s : String) : List Byte :=
  s.toList.map ofChar

end ZMachine.Zscii
