import ZMachine.Toml.Scalar

/-!
# Reading documents

A document is a sequence of lines: a key with a value, a table header, or
nothing but blanks and a comment. Strings are quoted in four ways, arrays may
span lines, and tables may be written out as values. Every reader takes a list
of characters and gives what it has read and the characters behind it.
-/

set_option autoImplicit false

namespace ZMachine.Toml

/-- The error of meeting the front of a text. -/
def unexpected {α : Type} : List Char → Except Error α
  | [] => .error .unexpectedEnd
  | c :: _ => .error (.unexpected c)

/-! ## Blanks and comments -/

/-- Whether a character is a blank within a line. -/
def isBlank (c : Char) : Bool :=
  c = ' ' || c = '\t'

/-- Whether a character may not stand in a comment or a string as it is. -/
def isControl (c : Char) : Bool :=
  (c < ' ' && c ≠ '\t') || c = '\x7f'

/-- Pass over the blanks of a line. -/
def skipBlanks (cs : List Char) : List Char :=
  cs.dropWhile isBlank

/-- Pass over blanks, line ends and comments. -/
def skipLines : (comment : Bool) → List Char → Except Error (List Char)
  | _, [] => .ok []
  | comment, c :: rest =>
      if c = '\n' then skipLines false rest
      else if c = '\r' then
        match rest with
        | '\n' :: _ => skipLines false rest
        | _ => .error (.unexpected c)
      else if comment then
        if isControl c then .error (.unexpected c) else skipLines true rest
      else if isBlank c then skipLines false rest
      else if c = '#' then skipLines true rest
      else .ok (c :: rest)

/-- Pass over the rest of a line, which may hold blanks and a comment only. -/
def endLine : (comment : Bool) → List Char → Except Error (List Char)
  | _, [] => .ok []
  | comment, c :: rest =>
      if c = '\n' then .ok rest
      else if c = '\r' then
        match rest with
        | '\n' :: rest => .ok rest
        | _ => .error (.unexpected c)
      else if comment then
        if isControl c then .error (.unexpected c) else endLine true rest
      else if isBlank c then endLine false rest
      else if c = '#' then endLine true rest
      else .error (.unexpected c)

/-! ## Strings -/

/-- The character that an escape of one letter stands for. -/
def escapedChar : Char → Option Char
  | 'b' => some '\x08'
  | 't' => some '\t'
  | 'n' => some '\n'
  | 'f' => some '\x0c'
  | 'r' => some '\r'
  | '"' => some '"'
  | '\\' => some '\\'
  | _ => none

/-- The character with a number written in hexadecimal digits. -/
def charOfHex (ds : List Char) : Option Char := do
  let values ← ds.mapM (digitValue 16)
  let n := values.foldl (fun n d => n * 16 + d) 0
  if n.isValidChar then some (Char.ofNat n) else none

/-- Read a quoted string up to its closing quote, behind characters already read
in reverse. -/
def basicString : (found : List Char) → List Char → Except Error (String × List Char)
  | found, '"' :: rest => .ok (String.ofList found.reverse, rest)
  | found, '\\' :: 'u' :: a :: b :: c :: d :: rest =>
      match charOfHex [a, b, c, d] with
      | some x => basicString (x :: found) rest
      | none => .error .badEscape
  | found, '\\' :: 'U' :: a :: b :: c :: d :: e :: f :: g :: h :: rest =>
      match charOfHex [a, b, c, d, e, f, g, h] with
      | some x => basicString (x :: found) rest
      | none => .error .badEscape
  | found, '\\' :: c :: rest =>
      match escapedChar c with
      | some x => basicString (x :: found) rest
      | none => .error .badEscape
  | found, c :: rest =>
      if isControl c || c = '\\' then .error (.unexpected c) else basicString (c :: found) rest
  | _, [] => .error .unexpectedEnd

/-- Read a string in single quotes, which has no escapes. -/
def literalString : (found : List Char) → List Char → Except Error (String × List Char)
  | found, '\'' :: rest => .ok (String.ofList found.reverse, rest)
  | found, c :: rest =>
      if isControl c then .error (.unexpected c) else literalString (c :: found) rest
  | _, [] => .error .unexpectedEnd

/-! ## Strings of several lines -/

/-- Take the characters of a string of several lines up to its three closing
quotes, as they are written. Up to two quotes may stand before these. -/
def multilineBody : (found : List Char) → List Char → Except Error (List Char × List Char)
  | found, '\\' :: c :: rest => multilineBody (c :: '\\' :: found) rest
  | found, '"' :: '"' :: '"' :: '"' :: '"' :: rest => .ok (('"' :: '"' :: found).reverse, rest)
  | found, '"' :: '"' :: '"' :: '"' :: rest => .ok (('"' :: found).reverse, rest)
  | found, '"' :: '"' :: '"' :: rest => .ok (found.reverse, rest)
  | found, c :: rest => multilineBody (c :: found) rest
  | _, [] => .error .unexpectedEnd

/-- The same for a string without escapes, in single quotes. -/
def multilineLiteral : (found : List Char) → List Char → Except Error (List Char × List Char)
  | found, '\'' :: '\'' :: '\'' :: '\'' :: '\'' :: rest =>
      .ok (('\'' :: '\'' :: found).reverse, rest)
  | found, '\'' :: '\'' :: '\'' :: '\'' :: rest => .ok (('\'' :: found).reverse, rest)
  | found, '\'' :: '\'' :: '\'' :: rest => .ok (found.reverse, rest)
  | found, c :: rest => multilineLiteral (c :: found) rest
  | _, [] => .error .unexpectedEnd

/-- The characters of a string of several lines, with line ends made uniform. -/
def uniformLines : List Char → Except Error (List Char)
  | '\r' :: '\n' :: rest => return '\n' :: (← uniformLines rest)
  | c :: rest =>
      if isControl c && c ≠ '\n' then .error (.unexpected c)
      else return c :: (← uniformLines rest)
  | [] => .ok []

/-- Whether a character stands between a joining backslash and the text it joins. -/
def isGap (c : Char) : Bool :=
  isBlank c || c = '\n'

/-- Undo the escapes of a string of several lines. A backslash at the end of a
line joins it to the next character that is no blank. -/
def unescapeLines : List Char → Except Error (List Char)
  | '\\' :: 'u' :: a :: b :: c :: d :: rest =>
      match charOfHex [a, b, c, d] with
      | some x => return x :: (← unescapeLines rest)
      | none => .error .badEscape
  | '\\' :: 'U' :: a :: b :: c :: d :: e :: f :: g :: h :: rest =>
      match charOfHex [a, b, c, d, e, f, g, h] with
      | some x => return x :: (← unescapeLines rest)
      | none => .error .badEscape
  | '\\' :: c :: rest =>
      match escapedChar c with
      | some x => return x :: (← unescapeLines rest)
      | none =>
          if ((c :: rest).dropWhile isBlank).head? = some '\n' then
            have : ((c :: rest).dropWhile isGap).length ≤ (c :: rest).length :=
              (List.dropWhile_sublist isGap).length_le
            unescapeLines ((c :: rest).dropWhile isGap)
          else .error .badEscape
  | c :: rest => if c = '\\' then .error .badEscape else return c :: (← unescapeLines rest)
  | [] => .ok []
termination_by cs => cs.length
decreasing_by
  all_goals simp only [List.length_cons] at *
  all_goals omega

/-- The text of a string of several lines; a line end right behind the opening
quotes does not count. -/
def multilineText (escapes : Bool) (body : List Char) : Except Error String := do
  let lines ← uniformLines body
  let lines :=
    match lines with
    | '\n' :: rest => rest
    | cs => cs
  if escapes then return String.ofList (← unescapeLines lines)
  return String.ofList lines

/-! ## Keys -/

/-- Whether a character may stand in a key without quotes. -/
def isKeyChar (c : Char) : Bool :=
  c.isAlphanum || c = '_' || c = '-'

/-- Read a key without dots. -/
def simpleKey : List Char → Except Error (String × List Char)
  | '"' :: rest => basicString [] rest
  | '\'' :: rest => literalString [] rest
  | cs =>
      if (cs.takeWhile isKeyChar).isEmpty then unexpected cs
      else .ok (String.ofList (cs.takeWhile isKeyChar), cs.dropWhile isKeyChar)

/-- How many parts a key may have, and how many arrays and tables written out as
values may stand within each other. -/
def maxDepth : Nat := 79

/-- Read a key of at most so many parts, which are divided by dots. -/
def keyParts : (room : Nat) → List Char → Except Error (List String × List Char)
  | 0, _ => .error .tooDeep
  | room + 1, cs => do
      let (key, rest) ← simpleKey cs
      match skipBlanks rest with
      | '.' :: rest =>
          let (keys, rest) ← keyParts room (skipBlanks rest)
          return (key :: keys, rest)
      | rest => return ([key], rest)

/-- Read a key, whose parts are divided by dots. -/
def keyPath (cs : List Char) : Except Error (List String × List Char) :=
  keyParts maxDepth cs

/-- Pass over a character that has to come next. -/
def expect (c : Char) : List Char → Except Error (List Char)
  | d :: rest => if d = c then .ok rest else .error (.unexpected d)
  | [] => .error .unexpectedEnd

/-! ## Values -/

mutual
/-- Read a value, in which `room` arrays and tables may stand within each other. -/
def value : (fuel room : Nat) → List Char → Except Error (Value × List Char)
  | 0, _, cs => unexpected cs
  | fuel + 1, room, cs =>
      match cs with
      | '"' :: '"' :: '"' :: rest => do
          let (body, rest) ← multilineBody [] rest
          return (.string (← multilineText true body), rest)
      | '\'' :: '\'' :: '\'' :: rest => do
          let (body, rest) ← multilineLiteral [] rest
          return (.string (← multilineText false body), rest)
      | '"' :: rest => do
          let (text, rest) ← basicString [] rest
          return (.string text, rest)
      | '\'' :: rest => do
          let (text, rest) ← literalString [] rest
          return (.string text, rest)
      | '[' :: rest =>
          match room with
          | 0 => .error .tooDeep
          | room + 1 => arrayItems fuel room [] rest
      | '\x7b' :: rest =>
          match room with
          | 0 => .error .tooDeep
          | room + 1 => inlineEntries fuel room {} rest
      | cs =>
          let token := scalarChars cs
          if token.isEmpty then unexpected cs
          else do return (← scalar token, cs.drop token.length)

/-- Read the items of an array up to its end, behind those already read in
reverse. A comma may follow the last. -/
def arrayItems :
    (fuel room : Nat) → (found : List Value) → List Char → Except Error (Value × List Char)
  | 0, _, _, cs => unexpected cs
  | fuel + 1, room, found, cs => do
      match ← skipLines false cs with
      | ']' :: rest => return (.array found.reverse, rest)
      | cs =>
          let (item, rest) ← value fuel room cs
          match ← skipLines false rest with
          | ',' :: rest => arrayItems fuel room (item :: found) rest
          | ']' :: rest => return (.array (item :: found).reverse, rest)
          | rest => unexpected rest

/-- Read the entries of a table written out as a value, behind those already
read. It stands on one line, and no comma follows the last entry. -/
def inlineEntries :
    (fuel room : Nat) → (found : Document) → List Char → Except Error (Value × List Char)
  | 0, _, _, cs => unexpected cs
  | fuel + 1, room, found, cs =>
      match skipBlanks cs, found.entries with
      | '\x7d' :: rest, [] => .ok (.table .inline [], rest)
      | cs, _ => do
          let (path, rest) ← keyPath cs
          let rest ← expect '=' rest
          let (item, rest) ← value fuel room (skipBlanks rest)
          let found ← found.assign path item
          match skipBlanks rest with
          | ',' :: rest => inlineEntries fuel room found rest
          | '\x7d' :: rest => return (.table .inline found.entries, rest)
          | rest => unexpected rest
end

/-! ## Documents -/

/-- Read the lines of a document, into what has been read so far. -/
def statements : (fuel : Nat) → Document → List Char → Except Error Document
  | 0, _, cs => unexpected cs
  | fuel + 1, d, cs => do
      match ← skipLines false cs with
      | [] => return d
      | '[' :: '[' :: rest =>
          let (path, rest) ← keyPath (skipBlanks rest)
          let rest ← endLine false (← expect ']' (← expect ']' rest))
          statements fuel (← d.openElement path) rest
      | '[' :: rest =>
          let (path, rest) ← keyPath (skipBlanks rest)
          let rest ← endLine false (← expect ']' rest)
          statements fuel (← d.openTable path) rest
      | cs =>
          let (path, rest) ← keyPath cs
          let rest ← expect '=' rest
          let (item, rest) ← value fuel maxDepth (skipBlanks rest)
          let rest ← endLine false rest
          statements fuel (← d.assign path item) rest

/-- The characters of a document without the mark of its encoding. -/
def withoutMark : List Char → List Char
  | '\uFEFF' :: rest => rest
  | cs => cs

/-- Read a document. -/
def read (text : String) : Except Error Entries := do
  let cs := withoutMark text.toList
  return (← statements (cs.length + 1) {} cs).entries

end ZMachine.Toml
