import ZMachine.Number

/-!
# A stream of random words

The stream is the ChaCha block function with twelve rounds run over a block
counter. Its eight key words come from a sixty-four-bit seed by a congruential
step followed by a data-dependent rotation. A stream is its key and the number
of words already taken, so equal seeds give equal streams.
-/

set_option autoImplicit false

namespace ZMachine.Random

/-- Rotation to the left; the count is below 32. -/
def rotateLeft (w : UInt32) (n : UInt32) : UInt32 :=
  (w <<< n) ||| (w >>> ((32 - n) % 32))

/-- Rotation to the right; the count is below 32. -/
def rotateRight (w : UInt32) (n : UInt32) : UInt32 :=
  (w >>> n) ||| (w <<< ((32 - n) % 32))

/-! ## Key words from a seed -/

/-- The congruential step of seed expansion. -/
def nextSeed (state : UInt64) : UInt64 :=
  state * 6364136223846793005 + 11634580027462260723

/-- The key word that a state of seed expansion gives. -/
def keyWord (state : UInt64) : UInt32 :=
  let mixed := (((state >>> 18) ^^^ state) >>> 27).toUInt32
  rotateRight mixed (state >>> 59).toUInt32

/-- The next `n` key words of seed expansion. -/
def keyWords : Nat → UInt64 → List UInt32
  | 0, _ => []
  | n + 1, state =>
      let state := nextSeed state
      keyWord state :: keyWords n state

/-! ## The block function -/

/-- The sixteen words of a block's state. -/
abbrev Block := Array UInt32

/-- One quarter round on the words at four places. -/
def quarterRound (b : Block) (i j k l : Nat) : Block :=
  let p := b.getD i 0 + b.getD j 0
  let s := rotateLeft (b.getD l 0 ^^^ p) 16
  let r := b.getD k 0 + s
  let q := rotateLeft (b.getD j 0 ^^^ r) 12
  let p := p + q
  let s := rotateLeft (s ^^^ p) 8
  let r := r + s
  let q := rotateLeft (q ^^^ r) 7
  (((b.setIfInBounds i p).setIfInBounds j q).setIfInBounds k r).setIfInBounds l s

/-- A column round followed by a diagonal round. -/
def doubleRound (b : Block) : Block :=
  let b := quarterRound b 0 4 8 12
  let b := quarterRound b 1 5 9 13
  let b := quarterRound b 2 6 10 14
  let b := quarterRound b 3 7 11 15
  let b := quarterRound b 0 5 10 15
  let b := quarterRound b 1 6 11 12
  let b := quarterRound b 2 7 8 13
  quarterRound b 3 4 9 14

/-- The block of output words at a place of the stream. -/
def block (key : List UInt32) (counter : Nat) : Block :=
  let start : Block :=
    ([0x61707865, 0x3320646e, 0x79622d32, 0x6b206574] ++ key ++
      [UInt32.ofNat counter, UInt32.ofNat (counter / 0x100000000), 0, 0]).toArray
  let mixed := Nat.repeat doubleRound 6 start
  Array.zipWith (· + ·) mixed start

/-! ## Streams -/

/-- A stream of words: its key and how many words have been taken. -/
structure Stream where
  key : List UInt32
  taken : Nat
  deriving DecidableEq, Repr, Inhabited

/-- The stream of a seed at a place. -/
def Stream.ofSeed (seed : UInt64) (taken : Nat) : Stream :=
  ⟨keyWords 8 seed, taken⟩

/-- The next word and the stream after it. -/
def Stream.next (s : Stream) : UInt32 × Stream :=
  ((block s.key (s.taken / 16)).getD (s.taken % 16) 0, { s with taken := s.taken + 1 })

/-- A number from `1` to `n`, each equally likely. A word is scaled to the range
and passed over when its fraction falls in the last, incomplete share; at most
`tries` words are passed over. -/
def Stream.pick (n : UInt32) : Nat → Stream → Nat × Stream
  | 0, s => (1, s)
  | tries + 1, s =>
      let (word, rest) := s.next
      let product := word.toNat * n.toNat
      let zone := 0xFFFFFFFF - (0x100000000 - n.toNat) % n.toNat
      if product % 0x100000000 ≤ zone then (1 + product / 0x100000000, rest)
      else Stream.pick n tries rest

end ZMachine.Random
