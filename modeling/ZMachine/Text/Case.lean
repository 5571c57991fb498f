import ZMachine.Text.Case.Tables

/-!
# Small letters

A line typed by the player is put into small letters before it is stored. Each
capital letter becomes its small letter. The dotted capital I becomes an i and
a combining dot, and a capital sigma that ends a word takes its final form.
-/

set_option autoImplicit false

namespace ZMachine.Text

/-- Whether a code point lies in one of the ranges. -/
def inRanges (ranges : List (Nat × Nat)) (n : Nat) : Bool :=
  ranges.any fun (first, last) => first ≤ n && n ≤ last

/-- Whether a character is a letter with a case. -/
def isCased (c : Char) : Bool :=
  inRanges casedRanges c.toNat

/-- Whether a character leaves the word around it uninterrupted. -/
def isIgnorable (c : Char) : Bool :=
  inRanges ignorableRanges c.toNat

/-- The small letter of a single character. -/
def smallLetter (c : Char) : Char :=
  let n := c.toNat
  match capitalRanges.find? fun (first, last, step, _) =>
      first ≤ n && n ≤ last && (n - first) % step == 0 with
  | some (_, _, _, shift) => Char.ofNat (n + shift).toNat
  | none => c

/-- Whether the nearest character that is not passed over has a case. -/
def meetsLetter (cs : List Char) : Bool :=
  match cs.dropWhile isIgnorable with
  | c :: _ => isCased c
  | [] => false

/-- Small letters of a text, given the characters before it in reverse. -/
def lowercaseFrom : (before : List Char) → List Char → List Char
  | _, [] => []
  | before, c :: rest =>
      let small :=
        if c = 'Σ' then
          if meetsLetter before && !meetsLetter rest then ['ς'] else ['σ']
        else if c = 'İ' then ['i', '\u0307']
        else [smallLetter c]
      small ++ lowercaseFrom (c :: before) rest

/-- A text in small letters. -/
def lowercase (s : String) : String :=
  String.ofList (lowercaseFrom [] s.toList)

end ZMachine.Text
