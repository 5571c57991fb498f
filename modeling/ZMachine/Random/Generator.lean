import ZMachine.Random.Stream

/-!
# Generators of random numbers

Random numbers come from a generator that is no part of the machine. A seed starts a
sequence, and a generator finds its place in a sequence by a number. The stream at hand
makes one such generator, the one that the program runs with.
-/

set_option autoImplicit false

namespace ZMachine.Random

/-- A generator of random numbers. -/
structure Generator where
  /-- The number from 1 to a range that the sequence of a seed has at a place, and the
  place behind it. -/
  pick : (seed : UInt64) → (range : Word) → (place : Nat) → Word × Nat
  /-- The seed of the next unpredictable sequence. -/
  reseed : UInt64 → UInt64
  deriving Inhabited

/-- How many words in a row may be passed over before one is taken as it is. -/
def patience : Nat := 256

/-- The generator at hand: a place is the number of words taken from the stream. -/
def Generator.standard : Generator where
  pick seed range place :=
    let (value, stream) := (Stream.ofSeed seed place).pick range.toUInt32 patience
    (UInt16.ofNat value, stream.taken)
  reseed := nextSeed

end ZMachine.Random
