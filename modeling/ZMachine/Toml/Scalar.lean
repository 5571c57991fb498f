import ZMachine.Toml.Value

/-!
# Numbers, truth values and times

A value that is not quoted is a run of letters, digits and a few signs. It is an
integer in one of four bases, a number with a fraction or an exponent, a truth
value, or a date or time. Underscores may stand between two digits.
-/

set_option autoImplicit false

namespace ZMachine.Toml

/-- Whether a character belongs to an unquoted value. -/
def isScalarChar (c : Char) : Bool :=
  c.isAlphanum || c = '+' || c = '-' || c = '_' || c = '.' || c = ':'

/-! ## Integers -/

/-- The value of a digit in a base. -/
def digitValue (base : Nat) (c : Char) : Option Nat :=
  let n :=
    if '0' ≤ c ∧ c ≤ '9' then c.toNat - '0'.toNat
    else if 'a' ≤ c ∧ c ≤ 'z' then c.toNat - 'a'.toNat + 10
    else if 'A' ≤ c ∧ c ≤ 'Z' then c.toNat - 'A'.toNat + 10
    else base
  if n < base then some n else none

/-- The value of digits that follow others of value `value`. An underscore has to
stand between digits: `digit` tells whether the last character was one. -/
def digitsFrom (base : Nat) : (value : Nat) → (digit : Bool) → List Char → Option Nat
  | value, digit, [] => if digit then some value else none
  | value, digit, c :: rest =>
      if c = '_' then if digit then digitsFrom base value false rest else none
      else
        match digitValue base c with
        | some d => digitsFrom base (value * base + d) true rest
        | none => none

/-- The value of one or more digits. -/
def digits (base : Nat) (cs : List Char) : Option Nat :=
  digitsFrom base 0 false cs

/-- The value of a decimal number, which has no needless zero in front. -/
def decimalDigits : List Char → Option Nat
  | '0' :: _ :: _ => none
  | cs => digits 10 cs

/-- The integer that a text denotes. -/
def integer? : List Char → Option Int
  | '0' :: 'x' :: rest => (digits 16 rest).map Int.ofNat
  | '0' :: 'o' :: rest => (digits 8 rest).map Int.ofNat
  | '0' :: 'b' :: rest => (digits 2 rest).map Int.ofNat
  | '+' :: rest => (decimalDigits rest).map Int.ofNat
  | '-' :: rest => (decimalDigits rest).map fun n => -Int.ofNat n
  | cs => (decimalDigits cs).map Int.ofNat

/-- Whether an integer fits in sixty-four bits with a sign. -/
def fits (n : Int) : Bool :=
  -0x8000000000000000 ≤ n && n < 0x8000000000000000

/-! ## Numbers with a fraction or an exponent -/

/-- Whether a character is a digit or stands between digits. -/
def isDigitOrUnderscore (c : Char) : Bool :=
  c.isDigit || c = '_'

/-- A number without sign: so many times a power of ten. -/
structure Decimal where
  coefficient : Nat
  power : Int
  deriving DecidableEq, Repr, Inhabited

/-- The power of ten that the end of a number gives: zero, or what follows the
mark of an exponent. -/
def power? : List Char → Option Int
  | [] => some 0
  | mark :: cs =>
      if mark = 'e' ∨ mark = 'E' then
        match cs with
        | '+' :: rest => (digits 10 rest).map Int.ofNat
        | '-' :: rest => (digits 10 rest).map fun n => -Int.ofNat n
        | rest => (digits 10 rest).map Int.ofNat
      else none

/-- The number that a text without sign denotes by a fraction, an exponent or both. -/
def decimal? (cs : List Char) : Option Decimal := do
  let whole ← decimalDigits (cs.takeWhile isDigitOrUnderscore)
  match cs.dropWhile isDigitOrUnderscore with
  | [] => none
  | '.' :: rest =>
      let fraction := rest.takeWhile isDigitOrUnderscore
      let places := (fraction.filter Char.isDigit).length
      let part ← digits 10 fraction
      let power ← power? (rest.dropWhile isDigitOrUnderscore)
      some ⟨whole * Nat.pow 10 places + part, power - places⟩
  | rest =>
      let power ← power? rest
      some ⟨whole, power⟩

/-- The least number that rounds to infinity in double precision: half a step
above the largest number there is. It has 309 digits. -/
def doubleBound : Nat :=
  (Nat.pow 2 54 - 1) * Nat.pow 2 970

/-- Whether a number rounds to infinity in double precision. How many digits it
has before the point decides, unless it has as many as the bound. -/
def Decimal.isInfinite (d : Decimal) : Bool :=
  let places := (Nat.toDigits 10 d.coefficient).length + d.power
  d.coefficient ≠ 0 &&
    (309 < places ||
      (places = 309 &&
        doubleBound * Nat.pow 10 (-d.power).toNat ≤ d.coefficient * Nat.pow 10 d.power.toNat))

/-- A text without its sign, and whether it has a minus sign. -/
def signed : List Char → Bool × List Char
  | '+' :: rest => (false, rest)
  | '-' :: rest => (true, rest)
  | cs => (false, cs)

/-- The value of a number with a fraction or an exponent, or of one that is none.
A positive number that is too large is refused; below, there is no bound. -/
def float? (cs : List Char) : Option (Except Error Value) :=
  let (negative, body) := signed cs
  let text := String.ofList cs
  if body = "inf".toList ∨ body = "nan".toList then some (.ok (.float text))
  else
    (decimal? body).map fun d =>
      if d.isInfinite && !negative then .error (.numberRange text) else .ok (.float text)

/-! ## Dates and times -/

/-- Read a number of exactly two digits between bounds. -/
def twoDigits (first last : Nat) : List Char → Option (Nat × List Char)
  | a :: b :: rest => do
      let n := 10 * (← digitValue 10 a) + (← digitValue 10 b)
      if first ≤ n ∧ n ≤ last then some (n, rest) else none
  | _ => none

/-- The number of days in a month. -/
def daysIn (year month : Nat) : Nat :=
  if month = 2 then
    if year % 4 = 0 ∧ (year % 100 ≠ 0 ∨ year % 400 = 0) then 29 else 28
  else if month = 4 ∨ month = 6 ∨ month = 9 ∨ month = 11 then 30
  else 31

/-- What follows a date. -/
def afterDate (cs : List Char) : Option (List Char) := do
  let (century, cs) ← twoDigits 0 99 cs
  let (year, cs) ← twoDigits 0 99 cs
  match cs with
  | '-' :: cs =>
      let (month, cs) ← twoDigits 1 12 cs
      match cs with
      | '-' :: cs =>
          let (_, cs) ← twoDigits 1 (daysIn (100 * century + year) month) cs
          some cs
      | _ => none
  | _ => none

/-- What follows a fraction of a second. -/
def afterFraction : List Char → Option (List Char)
  | '.' :: cs =>
      if (cs.takeWhile Char.isDigit).isEmpty then none else some (cs.dropWhile Char.isDigit)
  | cs => some cs

/-- What follows a time of day. -/
def afterTime (cs : List Char) : Option (List Char) := do
  let (_, cs) ← twoDigits 0 23 cs
  match cs with
  | ':' :: cs =>
      let (_, cs) ← twoDigits 0 59 cs
      match cs with
      | ':' :: cs =>
          let (_, cs) ← twoDigits 0 60 cs
          afterFraction cs
      | _ => none
  | _ => none

/-- Whether a text is nothing or the offset of a time zone. -/
def isOffset : List Char → Bool
  | [] => true
  | ['Z'] => true
  | ['z'] => true
  | sign :: cs =>
      (sign = '+' || sign = '-') &&
        match twoDigits 0 23 cs with
        | some (_, ':' :: cs) => ((twoDigits 0 59 cs).map (·.2)) == some []
        | _ => false

/-- Whether a text is a date, a time, or both. -/
def isTime (cs : List Char) : Bool :=
  match afterDate cs with
  | some [] => true
  | some (c :: rest) => (c = 'T' || c = 't' || c = ' ') && (afterTime rest).any isOffset
  | none => afterTime cs == some []

/-! ## Any unquoted value -/

/-- The value that an unquoted text denotes. -/
def scalar (cs : List Char) : Except Error Value :=
  let text := String.ofList cs
  if text = "true" then .ok (.boolean true)
  else if text = "false" then .ok (.boolean false)
  else
    match integer? cs with
    | some n => if fits n then .ok (.integer n) else .error (.numberRange text)
    | none =>
        match float? cs with
        | some result => result
        | none => if isTime cs then .ok (.time text) else .error (.badScalar text)

/-- The characters of an unquoted value at the front of a text. A date may be
divided from its time by a blank. -/
def scalarChars (cs : List Char) : List Char :=
  let token := cs.takeWhile isScalarChar
  match afterDate token, cs.dropWhile isScalarChar with
  | some [], ' ' :: c :: rest =>
      if c.isDigit then token ++ ' ' :: (c :: rest).takeWhile isScalarChar else token
  | _, _ => token

end ZMachine.Toml
