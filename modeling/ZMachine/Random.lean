import ZMachine.Random.Generator

/-!
# The story's random numbers

A story asks for a number up to a positive range, for a predictable sequence
with a negative range, or for an unpredictable one with zero. A machine remembers
which of the two kinds is running and how far it has come, and holds the seed
with which the next unpredictable sequence will start. The numbers themselves
are the business of a generator, which is an argument here.
-/

set_option autoImplicit false

namespace ZMachine

/-- How the current sequence was started. -/
inductive RandomMode where
  | predictable (seed : UInt64)
  | uniform
  deriving DecidableEq, Repr, Inhabited

/-- The random numbers of a machine. -/
structure Random where
  generator : Random.Generator
  mode : RandomMode
  /-- The seed of the current sequence. -/
  seed : UInt64
  /-- How far the current sequence has come. -/
  place : Nat
  /-- The seed of the next unpredictable sequence. -/
  entropy : UInt64
  deriving Inhabited

namespace Random

/-- Start a predictable sequence, keeping the entropy for later. -/
def seeded (generator : Generator) (seed entropy : UInt64) : Random :=
  ⟨generator, .predictable seed, seed, 0, entropy⟩

/-- Start an unpredictable sequence from the entropy at hand. -/
def unseeded (generator : Generator) (entropy : UInt64) : Random :=
  ⟨generator, .uniform, entropy, 0, generator.reseed entropy⟩

/-- A predictable sequence when a seed is given, else an unpredictable one. -/
def start (seed : Option UInt64) (entropy : UInt64) (generator : Generator := .standard) :
    Random :=
  match seed with
  | some seed => seeded generator seed entropy
  | none => unseeded generator entropy

/-- The answer to a request: a number from 1 to a positive range, or 0 after
starting a new sequence. A negative range seeds with its magnitude. -/
def request (r : Random) (range : Word) : Word × Random :=
  let n := signed range
  if 0 < n then
    let (value, place) := r.generator.pick r.seed range r.place
    (value, { r with place })
  else if n = 0 then (0, unseeded r.generator r.entropy)
  else (0, seeded r.generator (UInt64.ofNat n.natAbs) r.entropy)

end Random

end ZMachine
