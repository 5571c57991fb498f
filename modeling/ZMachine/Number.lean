/-!
# Number formats

Addresses, opcodes and object numbers appear in messages and listings as padded
lower-case hexadecimal; branch offsets appear in decimal with an explicit sign.
Words are also read as signed numbers here, with bit 15 as the sign, or with
bit 13 for the short form used by branch offsets.
-/

set_option autoImplicit false

namespace ZMachine

/-- A byte of story memory. -/
abbrev Byte := UInt8

/-- A sixteen-bit word, stored high byte first. -/
abbrev Word := UInt16

/-- Sizes and places are numbers of sixty-four bits, and so are their sums. -/
def sizeLimit : Nat := 0x10000000000000000

/-! ## Text of numbers -/

/-- A text filled up on the left to a least width. -/
def padLeft (width : Nat) (fill : Char) (s : String) : String :=
  String.ofList (List.replicate (width - s.length) fill) ++ s

/-- Lower-case hexadecimal with at least `width` digits. -/
def hex (width n : Nat) : String :=
  padLeft width '0' (String.ofList (Nat.toDigits 16 n))

/-- Hexadecimal with a leading `0x`. -/
def hexAddress (width n : Nat) : String :=
  "0x" ++ hex width n

/-- Decimal text of a natural number. -/
def decimal (n : Nat) : String :=
  String.ofList (Nat.toDigits 10 n)

/-- Decimal text of an integer, with a sign only when it is negative. -/
def signedDecimal : Int → String
  | .ofNat n => decimal n
  | .negSucc n => "-" ++ decimal (n + 1)

/-- Decimal text of an integer that always carries its sign. -/
def explicitSigned : Int → String
  | .ofNat n => "+" ++ decimal n
  | .negSucc n => "-" ++ decimal (n + 1)

/-! ## Words and their bytes -/

/-- The word whose high and low bytes are given. -/
def wordOfBytes (high low : Byte) : Word :=
  (high.toUInt16 <<< 8) ||| low.toUInt16

/-- The high byte of a word. -/
def highByte (w : Word) : Byte :=
  (w >>> 8).toUInt8

/-- The low byte of a word. -/
def lowByte (w : Word) : Byte :=
  w.toUInt8

/-- A word read as a signed number, with bit 15 as the sign. -/
def signed (w : Word) : Int :=
  if w.toNat < 0x8000 then w.toNat else (w.toNat : Int) - 0x10000

/-- The word that a number leaves in sixteen bits. -/
def wordOfInt (n : Int) : Word :=
  UInt16.ofNat (n % 0x10000).toNat

/-- The low fourteen bits of a word read as a signed number, with bit 13 as the sign. -/
def signed14 (w : Word) : Int :=
  let low := w.toNat % 0x4000
  if low < 0x2000 then low else (low : Int) - 0x4000

end ZMachine
