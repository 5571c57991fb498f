import ZMachine.Text.Codec

/-!
# Writing strings

Words of the dictionary have a fixed number of z-characters. A text is written
as the z-characters of its characters, cut off or padded to that number, and
packed three to a word with the end mark on the last.
-/

set_option autoImplicit false

namespace ZMachine

namespace Text

/-- The z-character that fills up a short word. -/
def padding : Byte := 5

/-- The z-character that shifts to the second alphabet for one character. -/
def shiftUpper (version : Nat) : Byte :=
  if 3 ≤ version then 4 else 2

/-- The z-character that shifts to the third alphabet for one character. -/
def shiftSigns (version : Nat) : Byte :=
  if 3 ≤ version then 5 else 3

/-- The place of a character in an alphabet, the first place of the third apart. -/
def placeIn (row : List Char) (c : Char) : Option Nat :=
  ((row.drop 1).idxOf? c).map (· + 1)

/-- The z-characters of a character: one for a space or a small letter, two for
a capital or a sign, four for any other character, whose code is written out. -/
def zcharsOfChar (version : Nat) (c : Char) : List Byte :=
  if c = ' ' then [0]
  else if c = '\n' ∧ version = 1 then [1]
  else if 'a' ≤ c ∧ c ≤ 'z' then [UInt8.ofNat (c.toNat - 'a'.toNat + 6)]
  else if 'A' ≤ c ∧ c ≤ 'Z' then
    [shiftUpper version, UInt8.ofNat (c.toNat - 'A'.toNat + 6)]
  else
    match placeIn (Alphabet.a2.rowIn version) c with
    | some i => [shiftSigns version, UInt8.ofNat (i + 6)]
    | none =>
        let code := Zscii.ofChar c
        [shiftSigns version, 6, code >>> 5, code &&& 0x1F]

/-- The z-characters of a text, cut off or padded to a number. -/
def zcharsOfText (version : Nat) (text : String) (count : Nat) : List Byte :=
  ((text.toList.flatMap (zcharsOfChar version)).take count).rightpad count padding

/-- Pack z-characters three to a word, with the end mark on the last word. One or
two z-characters left over are dropped. -/
def packWords : List Byte → List Word
  | x :: y :: z :: rest =>
      let word := (x.toUInt16 <<< 10) ||| (y.toUInt16 <<< 5) ||| z.toUInt16
      if rest.length < 3 then [word ||| 0x8000] else word :: packWords rest
  | _ => []

/-- The bytes of words, high bytes first. -/
def bytesOfWords (words : List Word) : List Byte :=
  words.flatMap fun w => [highByte w, lowByte w]

end Text

/-- The bytes of a text written with a number of z-characters. -/
def Codec.encode (c : Codec) (text : String) (count : Nat) : List Byte :=
  Text.bytesOfWords (Text.packWords (Text.zcharsOfText c.version text count))

end ZMachine
