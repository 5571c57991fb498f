import ZMachine.Number
import ZMachine.Text.Case
import ZMachine.Text.Quote.Tables

/-!
# Quoted messages

A message that ends the program is shown between double quotes, with quotes,
backslashes, line ends and everything that would not show as a character of its
own written as escapes.
-/

set_option autoImplicit false

namespace ZMachine.Text

/-- Whether a character shows as one of its own. -/
def isVisible (c : Char) : Bool :=
  !inRanges hiddenRanges c.toNat && !inRanges extendingRanges c.toNat

/-- A character of a quoted message. -/
def quoteChar (c : Char) : String :=
  if c = '"' then "\\\""
  else if c = '\\' then "\\\\"
  else if c = '\n' then "\\n"
  else if c = '\r' then "\\r"
  else if c = '\t' then "\\t"
  else if c = '\x00' then "\\0"
  else if isVisible c then String.singleton c
  else "\\u\x7b" ++ hex 1 c.toNat ++ "\x7d"

/-- A message between double quotes. -/
def quoteMessage (s : String) : String :=
  "\"" ++ String.join (s.toList.map quoteChar) ++ "\""

end ZMachine.Text
