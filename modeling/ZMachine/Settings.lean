import ZMachine.Number

/-!
# Settings

What the player may choose about the machine: the seed of its random numbers,
the screen it advertises to the story, the interpreter it claims to be, and
whether a transcript is kept from the start. Every setting has a default.
-/

set_option autoImplicit false

namespace ZMachine

/-- The player's choices about a machine. -/
structure Settings where
  /-- The seed of the random numbers; unpredictable when absent. -/
  seed : Option UInt64 := none
  screenWidth : Byte := 80
  /-- The height in lines; 255 means that the screen never needs paging. -/
  screenHeight : Byte := 255
  /-- The interpreter number; 6 is an IBM PC. -/
  interpreterNumber : Byte := 6
  /-- The interpreter version letter; 71 is `G`. -/
  interpreterVersion : Byte := 71
  /-- Whether the transcript is kept from the start. -/
  transcript : Bool := false
  deriving DecidableEq, Repr, Inhabited

end ZMachine
