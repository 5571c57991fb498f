import ZMachine.Fault

/-!
# Signed arithmetic on words

Addition, subtraction and multiplication wrap and are those of the word type.
Division rounds toward negative infinity, the remainder is what the floored
quotient leaves, and both refuse a zero divisor. Comparisons are signed.

Division is carried out on numbers of thirty-two bits, which leave room for what
comes up on the way. The Euclidean quotient is the one whose remainder is never
negative; for a negative divisor that does not go in evenly it is one above the
floored quotient and is corrected.
-/

set_option autoImplicit false

namespace ZMachine

/-! ## Numbers of thirty-two bits -/

/-- A word as a signed number of thirty-two bits. -/
def widen (w : Word) : Int32 :=
  Int32.ofInt (signed w)

/-- The word in the low half of a number. -/
def narrow (n : Int32) : Word :=
  wordOfInt n.toInt

/-- The quotient whose remainder is not negative. -/
def euclideanQuotient (a b : Int32) : Int32 :=
  Int32.ofInt (a.toInt / b.toInt)

/-- The remainder that the Euclidean quotient leaves. -/
def euclideanRemainder (a b : Int32) : Int32 :=
  Int32.ofInt (a.toInt % b.toInt)

/-- What leads from the Euclidean quotient to the floored one. -/
def floorCorrection (a b : Int32) : Int32 :=
  if b < 0 ∧ euclideanRemainder a b ≠ 0 then -1 else 0

/-! ## The operations -/

/-- Signed quotient, rounded toward negative infinity. -/
def divide (a b : Word) : Except Fault Word :=
  if b = 0 then .error .divisionByZero
  else
    let quotient := euclideanQuotient (widen a) (widen b)
    .ok (narrow (quotient + floorCorrection (widen a) (widen b)))

/-- What the floored quotient leaves of the dividend. -/
def remainder (a b : Word) : Except Fault Word :=
  if b = 0 then .error .moduloByZero
  else do
    let quotient ← divide a b
    return narrow (widen a - widen b * widen quotient)

/-- Signed comparison. -/
def signedLess (a b : Word) : Bool :=
  signed a < signed b

end ZMachine
