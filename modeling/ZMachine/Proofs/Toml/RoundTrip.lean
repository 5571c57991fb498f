import ZMachine.Proofs.Toml.Layout

/-!
# The library at hand

The reader and the printer at hand do what is relied on of a library for documents: they
write keys and values in the layout of one line for each key, and read such lines
(`standard_documented`).

Every reader is shown to pass over exactly what is laid out for it, whatever follows. Of
what follows a value only the first character matters: it has to be one at which no value
goes on.
-/

set_option autoImplicit false

namespace ZMachine.Toml

/-! ## Numbers -/

theorem digitValue_of_isDigit {c : Char} (digit : c.isDigit = true) :
    digitValue 10 c = some (c.toNat - '0'.toNat) := by
  simp only [Char.isDigit, Bool.and_eq_true, decide_eq_true_eq] at digit
  have low : '0' ≤ c := digit.1
  have high : c ≤ '9' := digit.2
  have small : c.toNat - '0'.toNat < 10 := by
    have : c.toNat ≤ '9'.toNat := UInt32.le_iff_toNat_le.mp high
    simp only [Char.reduceToNat] at this ⊢
    omega
  simp only [digitValue, low, high, and_self, if_true]
  exact if_pos small

/-- Digits are read as the number that they denote. -/
theorem digitsFrom_digits {cs : List Char} (digits : ∀ c ∈ cs, c.isDigit = true) {value : Nat}
    {seen : Bool} (begun : seen = true ∨ cs ≠ []) :
    digitsFrom 10 value seen cs = some (Nat.ofDigitChars 10 cs value) := by
  induction cs generalizing value seen with
  | nil =>
      have begun : seen = true := begun.resolve_right fun filled => filled rfl
      simp [digitsFrom, begun]
  | cons c cs ih =>
      have digit := digits c List.mem_cons_self
      have other : c ≠ '_' := by
        rintro rfl
        cases digit
      rw [digitsFrom, if_neg other, digitValue_of_isDigit digit, Nat.ofDigitChars_cons,
        Nat.mul_comm]
      exact ih (fun d within => digits d (List.mem_cons_of_mem c within)) (.inl rfl)

/-- No number but zero begins with a zero. -/
theorem eq_zero_of_toDigits {n : Nat} (begins : (Nat.toDigits 10 n).head? = some '0') : n = 0 := by
  induction n using Nat.base_induction 10 (by decide) with
  | single m small =>
      rw [Nat.toDigits_of_lt_base small] at begins
      exact Nat.digitChar_eq_zero.mp (Option.some.inj begins)
  | digit m k small positive ih =>
      rw [← Nat.toDigits_append_toDigits (by decide) positive small] at begins
      cases written : Nat.toDigits 10 m with
      | nil => exact absurd written Nat.toDigits_ne_nil
      | cons c ds =>
          rw [written] at begins ih
          exact absurd (ih begins) (Nat.ne_of_gt positive)

theorem isDigit_of_mem_toDigits {n : Nat} {c : Char} (within : c ∈ Nat.toDigits 10 n) :
    c.isDigit = true :=
  Nat.isDigit_of_mem_toDigits (by decide) (by decide) within

theorem mem_of_front {cs rest tail : List Char} {c : Char} (filled : cs ≠ [])
    (front : cs ++ rest = c :: tail) : c ∈ cs := by
  cases cs with
  | nil => exact absurd rfl filled
  | cons d ds =>
      obtain ⟨rfl, _⟩ := List.cons.inj front
      exact List.mem_cons_self

theorem isDigit_of_front {n : Nat} {rest tail : List Char} {c : Char}
    (front : Nat.toDigits 10 n ++ rest = c :: tail) : c.isDigit = true :=
  isDigit_of_mem_toDigits (mem_of_front Nat.toDigits_ne_nil front)

/-- The decimal digits of a number are read as the number. -/
theorem decimalDigits_toDigits (n : Nat) : decimalDigits (Nat.toDigits 10 n) = some n := by
  unfold decimalDigits
  split
  · rename_i c rest written
    have zero : n = 0 := eq_zero_of_toDigits (by rw [written]; rfl)
    rw [zero, Nat.toDigits_zero] at written
    cases written
  · rw [digits, digitsFrom_digits (fun c => isDigit_of_mem_toDigits) (.inr Nat.toDigits_ne_nil),
      Nat.ofDigitChars_toDigits (by decide) (by decide)]

/-- The first characters of a number are none of the marks of other bases and of signs. -/
theorem integer?_toDigits (n : Nat) : integer? (Nat.toDigits 10 n) = some (n : Int) := by
  have digit : ∀ {c : Char}, c ∈ Nat.toDigits 10 n → c.isDigit = true := isDigit_of_mem_toDigits
  unfold integer?
  split
  · rename_i written
    cases digit (c := 'x') (by simp [written])
  · rename_i written
    cases digit (c := 'o') (by simp [written])
  · rename_i written
    cases digit (c := 'b') (by simp [written])
  · rename_i written
    cases digit (c := '+') (by simp [written])
  · rename_i written
    cases digit (c := '-') (by simp [written])
  · rw [decimalDigits_toDigits]
    rfl

/-- No word with a letter in it is a number. -/
theorem ofList_toDigits_ne {n : Nat} {word : String} {c : Char} (within : c ∈ word.toList)
    (letter : c.isDigit = false) : String.ofList (Nat.toDigits 10 n) ≠ word := by
  rintro rfl
  rw [String.toList_ofList] at within
  cases letter.symm.trans (isDigit_of_mem_toDigits within)

theorem fits_number {n : Nat} (fit : n ≤ maxInteger) : fits (n : Int) = true := by
  simp only [maxInteger] at fit
  simp only [fits, Bool.and_eq_true, decide_eq_true_eq]
  omega

/-- The digits of a number that a document can hold are the number. -/
theorem scalar_toDigits {n : Nat} (fit : n ≤ maxInteger) :
    scalar (Nat.toDigits 10 n) = .ok (.integer n) := by
  have isTrue : String.ofList (Nat.toDigits 10 n) ≠ "true" :=
    ofList_toDigits_ne (c := 't') (by simp) rfl
  have isFalse : String.ofList (Nat.toDigits 10 n) ≠ "false" :=
    ofList_toDigits_ne (c := 'f') (by simp) rfl
  simp only [scalar, if_neg isTrue, if_neg isFalse, integer?_toDigits, fits_number fit, if_true]

/-! ## What follows a value -/

/-- No value goes on at the front of a text: it begins with a comma, the end of an array or
the end of a line. -/
inductive Stops : List Char → Prop where
  | comma (rest : List Char) : Stops (',' :: rest)
  | bracket (rest : List Char) : Stops (']' :: rest)
  | line (rest : List Char) : Stops ('\n' :: rest)

/-- The characters of a number end where the number stops. -/
theorem scalarChars_toDigits {n : Nat} {rest : List Char} (stops : Stops rest) :
    scalarChars (Nat.toDigits 10 n ++ rest) = Nat.toDigits 10 n := by
  have scalars : ∀ c ∈ Nat.toDigits 10 n, isScalarChar c = true := by
    intro c within
    simp [isScalarChar, Char.isAlphanum, isDigit_of_mem_toDigits within]
  have taken : (Nat.toDigits 10 n ++ rest).takeWhile isScalarChar = Nat.toDigits 10 n := by
    rw [List.takeWhile_append_of_pos scalars]
    cases stops <;> simp [isScalarChar, Char.isAlphanum]
  have left : (Nat.toDigits 10 n ++ rest).dropWhile isScalarChar = rest := by
    rw [List.dropWhile_append_of_pos scalars]
    cases stops <;> rfl
  unfold scalarChars
  simp only [taken, left]
  -- A date that a blank divides from its time would not stop here.
  split
  · cases stops
  · rfl

/-! ## Blanks and line ends -/

/-- Reading goes on at the front of a text: it begins with none of the characters that are
passed over between the parts of a document. -/
def Begins (c : Char) : Prop :=
  c ≠ '\n' ∧ c ≠ '\r' ∧ isBlank c = false ∧ c ≠ '#'

instance (c : Char) : Decidable (Begins c) :=
  inferInstanceAs (Decidable (_ ∧ _))

theorem Begins.skipLines {c : Char} (begins : Begins c) (rest : List Char) :
    skipLines false (c :: rest) = .ok (c :: rest) := by
  obtain ⟨line, carriage, blank, comment⟩ := begins
  simp [Toml.skipLines, line, carriage, blank, comment]

theorem Begins.comma : Begins ',' := by
  decide

theorem Begins.bracket : Begins ']' := by
  decide

theorem begins_of_isKeyChar {c : Char} (inKey : isKeyChar c = true) : Begins c := by
  refine ⟨?_, ?_, ?_, ?_⟩
  · rintro rfl
    cases inKey
  · rintro rfl
    cases inKey
  · simp only [isBlank, Bool.or_eq_false_iff, decide_eq_false_iff_not]
    constructor <;> rintro rfl <;> cases inKey
  · rintro rfl
    cases inKey

/-- Reading goes on at a text of letters and digits. -/
theorem skipLines_of_isKeyChar {cs : List Char} (filled : cs ≠ [])
    (chars : ∀ c ∈ cs, isKeyChar c = true) (rest : List Char) :
    skipLines false (cs ++ rest) = .ok (cs ++ rest) := by
  cases front : cs ++ rest with
  | nil => exact absurd (List.append_eq_nil_iff.mp front).1 filled
  | cons c tail => exact (begins_of_isKeyChar (chars c (mem_of_front filled front))).skipLines tail

theorem isKeyChar_of_isDigit {c : Char} (digit : c.isDigit = true) : isKeyChar c = true := by
  simp [isKeyChar, Char.isAlphanum, digit]

theorem skipLines_toDigits (n : Nat) (rest : List Char) :
    skipLines false (Nat.toDigits 10 n ++ rest) = .ok (Nat.toDigits 10 n ++ rest) :=
  skipLines_of_isKeyChar Nat.toDigits_ne_nil
    (fun _ within => isKeyChar_of_isDigit (isDigit_of_mem_toDigits within)) rest

/-! ## Values -/

/-- A number is read up to where it stops. -/
theorem value_number {n : Nat} (fit : n ≤ maxInteger) {rest : List Char} (stops : Stops rest)
    (fuel room : Nat) :
    value (fuel + 1) room (Nat.toDigits 10 n ++ rest) = .ok (.integer n, rest) := by
  have filled : (Nat.toDigits 10 n).isEmpty = false := by
    simp [Nat.toDigits_ne_nil]
  rw [value]
  · simp only [scalarChars_toDigits stops, filled, scalar_toDigits fit, Bool.false_eq_true,
      if_false, List.drop_left]
    rfl
  -- The other ways in which a value can begin are no digits.
  all_goals
    intro tail front
    cases isDigit_of_front front

/-! ### Arrays of numbers -/

section Items

variable {fuel room : Nat} {found : List Value} {rest : List Char}

theorem arrayItems_blank :
    arrayItems (fuel + 1) room found (' ' :: rest) = arrayItems (fuel + 1) room found rest := by
  rw [arrayItems, arrayItems]
  rfl

theorem arrayItems_end :
    arrayItems (fuel + 1) room found (']' :: rest) = .ok (.array found.reverse, rest) := by
  rw [arrayItems]
  rfl

/-- A number is an item, and what follows it tells whether more items come. -/
theorem arrayItems_number {n : Nat} (fit : n ≤ maxInteger) (stops : Stops rest) :
    arrayItems (fuel + 2) room found (Nat.toDigits 10 n ++ rest) = (do
      match ← skipLines false rest with
      | ',' :: rest => arrayItems (fuel + 1) room (.integer n :: found) rest
      | ']' :: rest => return (.array (.integer n :: found).reverse, rest)
      | rest => unexpected rest) := by
  rw [arrayItems, skipLines_toDigits]
  simp only [bind, Except.bind]
  split
  · rename_i front
    cases isDigit_of_front front
  · have given := value_number fit stops fuel room
    generalize value (fuel + 1) room (Nat.toDigits 10 n ++ rest) = item at given ⊢
    subst given
    rfl

end Items

/-- The text of numbers that are divided by commas. -/
def numberRow (ns : List Nat) : List Char :=
  [',', ' '].intercalate (ns.map (Nat.toDigits 10))

/-- Numbers are read up to the end of their array. -/
theorem arrayItems_numbers {ns : List Nat} (fit : ∀ n ∈ ns, n ≤ maxInteger) (rest : List Char)
    {fuel : Nat} (enough : ns.length < fuel) (room : Nat) (found : List Value) :
    arrayItems fuel room found (numberRow ns ++ ']' :: rest) =
      .ok (.array (found.reverse ++ numbers ns), rest) := by
  induction ns generalizing fuel found with
  | nil =>
      obtain ⟨fuel, rfl⟩ := Nat.exists_eq_succ_of_ne_zero (Nat.ne_of_gt enough)
      simpa [numberRow, numbers] using arrayItems_end
  | cons n ns ih =>
      obtain ⟨fuel, rfl⟩ : ∃ more, fuel = more + 2 :=
        ⟨fuel - 2, by rw [List.length_cons] at enough; omega⟩
      obtain ⟨first, others⟩ := List.forall_mem_cons.mp fit
      cases ns with
      | nil =>
          rw [numberRow, List.map_singleton, List.intercalate_singleton,
            arrayItems_number first (.bracket _), Begins.bracket.skipLines, numbers,
            List.map_singleton, ← List.reverse_cons]
          rfl
      | cons m ns =>
          have row : numberRow (n :: m :: ns) ++ ']' :: rest =
              Nat.toDigits 10 n ++ ',' :: ' ' :: (numberRow (m :: ns) ++ ']' :: rest) := by
            simp [numberRow]
          have enough' : (m :: ns).length < fuel + 1 := by
            simp only [List.length_cons] at enough ⊢
            omega
          have more := ih others enough' (.integer n :: found)
          rw [row, arrayItems_number first (.comma _), Begins.comma.skipLines]
          simp only [bind, Except.bind]
          rw [arrayItems_blank, more]
          simp [numbers]

/-- An array of numbers is read up to its end. -/
theorem value_numbers {ns : List Nat} (fit : ∀ n ∈ ns, n ≤ maxInteger) (rest : List Char)
    {fuel : Nat} (enough : ns.length + 1 < fuel) (room : Nat) :
    value fuel (room + 1) ('[' :: (numberRow ns ++ ']' :: rest)) =
      .ok (.array (numbers ns), rest) := by
  obtain ⟨fuel, rfl⟩ := Nat.exists_eq_succ_of_ne_zero (Nat.ne_zero_of_lt enough)
  rw [value]
  exact arrayItems_numbers fit rest (Nat.lt_of_succ_lt_succ enough) room []

/-! ### Texts -/

theorem IsPlain.not_control {c : Char} (plain : IsPlain c) : isControl c = false := by
  obtain ⟨shown, delete, _, _⟩ := plain
  simp [isControl, Char.not_lt.mpr shown, delete]

theorem IsPlain.ne_quote {c : Char} (plain : IsPlain c) : c ≠ '"' :=
  plain.2.2.1

theorem IsPlain.ne_backslash {c : Char} (plain : IsPlain c) : c ≠ '\\' :=
  plain.2.2.2

theorem IsPlain.ne {c d : Char} (plain : IsPlain c) (low : d < ' ') : c ≠ d := by
  rintro rfl
  exact absurd plain.1 (Char.not_le.mpr low)

theorem IsPlain.needsEscape {c : Char} (plain : IsPlain c) : needsEscape c = false := by
  obtain ⟨shown, delete, _, _⟩ := plain
  simp [Toml.needsEscape, Char.not_lt.mpr shown, delete]

/-- A plain character is written as it is. -/
theorem IsPlain.escapeChar {c : Char} (plain : IsPlain c) (lines : Bool) :
    escapeChar lines c = [c] := by
  have other : ∀ d, d < ' ' → c ≠ d := fun d low => plain.ne low
  simp [Toml.escapeChar, other, plain.ne_backslash, plain.needsEscape]

/-- Plain characters are read up to the closing quote. -/
theorem basicString_plain {cs : List Char} (plain : ∀ c ∈ cs, IsPlain c) (rest found : List Char) :
    basicString found (cs ++ '"' :: rest) = .ok (String.ofList (found.reverse ++ cs), rest) := by
  induction cs generalizing found with
  | nil => simp [basicString]
  | cons c cs ih =>
      obtain ⟨first, others⟩ := List.forall_mem_cons.mp plain
      have quote := first.ne_quote
      have backslash := first.ne_backslash
      rw [List.cons_append, basicString]
      · simp [first.not_control, backslash, ih others]
      -- The other ways to go on begin with a quote or a backslash.
      all_goals
        intros
        contradiction

/-- A text of plain characters is read up to its closing quote. -/
theorem value_text {cs : List Char} (plain : ∀ c ∈ cs, IsPlain c) {rest : List Char}
    (stops : Stops rest) (fuel room : Nat) :
    value (fuel + 1) room ('"' :: (cs ++ '"' :: rest)) = .ok (.string (String.ofList cs), rest) := by
  rw [value]
  · rw [basicString_plain plain]
    rfl
  · intro tail front
    cases cs with
    | nil => cases stops <;> cases front
    | cons c cs =>
        obtain ⟨rfl, _⟩ := List.cons.inj front
        exact (plain '"' List.mem_cons_self).ne_quote rfl

/-! ## Values in print -/

theorem render_number (n : Nat) : (Value.integer n).render = toString n := by
  rw [Value.render, Nat.toString_eq_ofList_toDigits]
  rfl

theorem render_numbers (ns : List Nat) : (Value.array (numbers ns)).render = numbersText ns := by
  have items : renderItems (numbers ns) = ns.map toString := by
    induction ns with
    | nil => rfl
    | cons n ns ih =>
        rw [numbers, List.map_cons, renderItems, render_number, List.map_cons]
        exact congrArg _ ih
  rw [Value.render, items]
  rfl

theorem toList_numbersText (ns : List Nat) :
    (numbersText ns).toList = '[' :: (numberRow ns ++ [']']) := by
  simp [numbersText, numberRow, Function.comp_def]

theorem escapeFrom_plain {cs : List Char} (plain : ∀ c ∈ cs, IsPlain c) :
    escapeFrom false 0 cs = cs := by
  induction cs with
  | nil => rfl
  | cons c cs ih =>
      obtain ⟨first, others⟩ := List.forall_mem_cons.mp plain
      rw [escapeFrom, if_neg first.ne_quote, first.escapeChar, ih others]
      rfl

theorem longestRunFrom_of_notMem {c : Char} {cs : List Char} (absent : c ∉ cs)
    (current longest : Nat) : longestRunFrom c current longest cs = longest := by
  induction cs generalizing current with
  | nil => rfl
  | cons d cs ih =>
      rw [List.mem_cons, not_or] at absent
      rw [longestRunFrom, if_neg (Ne.symm absent.1)]
      exact ih absent.2 0

/-- A text of plain characters stands between double quotes. -/
theorem choose_plain {cs : List Char} (plain : ∀ c ∈ cs, IsPlain c) :
    Quoting.choose cs = .basic := by
  have lines : '\n' ∉ cs := fun within => (plain _ within).ne (by decide) rfl
  have escapes : cs.any needsEscape = false := by
    simpa using fun c within => (plain c within).needsEscape
  have backslashes : '\\' ∉ cs := fun within => (plain _ within).ne_backslash rfl
  have quotes : longestRun '"' cs = 0 :=
    longestRunFrom_of_notMem (fun within => (plain _ within).ne_quote rfl) 0 0
  simp [Quoting.choose, lines, escapes, backslashes, quotes]

theorem render_text {s : String} (plain : ∀ c ∈ s.toList, IsPlain c) :
    (Value.string s).render = quotedText s := by
  rw [Value.render, quoted]
  simp only [choose_plain plain, Quoting.spansLines, Quoting.body, escapeFrom_plain plain,
    String.ofList_toList]
  rfl

theorem toList_quotedText (s : String) : (quotedText s).toList = '"' :: (s.toList ++ ['"']) := by
  simp [quotedText]

theorem length_le_numberRow (ns : List Nat) : ns.length ≤ (numberRow ns).length := by
  induction ns with
  | nil => exact Nat.zero_le _
  | cons n ns ih =>
      have digits : 0 < (Nat.toDigits 10 n).length := Nat.length_toDigits_pos
      cases ns with
      | nil =>
          simp only [numberRow, List.map_cons, List.map_nil, List.intercalate_singleton]
          exact digits
      | cons m ns =>
          simp only [numberRow, List.map_cons, List.intercalate_cons_cons, List.length_append,
            List.length_cons] at ih ⊢
          omega

/-- A value is printed as it is laid out. -/
theorem Denotes.render_eq {text : String} {v : Value} (value : Denotes text v) :
    v.render = text := by
  cases value with
  | text plain => exact render_text plain
  | number fit => exact render_number _
  | numbers fit => exact render_numbers _

theorem unfitItem?_numbers {ns : List Nat} (fit : ∀ n ∈ ns, n ≤ maxInteger) :
    unfitItem? (numbers ns) = none := by
  induction ns with
  | nil => rfl
  | cons n ns ih =>
      obtain ⟨first, others⟩ := List.forall_mem_cons.mp fit
      rw [numbers, List.map_cons, unfitItem?, Value.unfit?, fits_number first]
      exact ih others

/-- The numbers of a value that is laid out are ones that a document can hold. -/
theorem Denotes.unfit?_eq {text : String} {v : Value} (value : Denotes text v) :
    v.unfit? = none := by
  cases value with
  | text plain => rfl
  | number fit => rw [Value.unfit?, fits_number fit, if_pos rfl]
  | numbers fit => rw [Value.unfit?, unfitItem?_numbers fit]

/-- **Values.** The text of a value is read as the value, and its reading ends where the
text does. -/
theorem Denotes.value_eq {text : String} {v : Value} (value : Denotes text v) {rest : List Char}
    (stops : Stops rest) {fuel : Nat} (enough : text.toList.length ≤ fuel) (room : Nat) :
    Toml.value fuel (room + 1) (text.toList ++ rest) = .ok (v, rest) := by
  cases value with
  | @text s plain =>
      rw [toList_quotedText] at enough ⊢
      obtain ⟨fuel, rfl⟩ := Nat.exists_eq_succ_of_ne_zero (Nat.ne_zero_of_lt enough)
      have given := value_text plain stops fuel (room + 1)
      rw [String.ofList_toList] at given
      simpa using given
  | @number n fit =>
      rw [Nat.toString_eq_repr, Nat.toList_repr] at enough ⊢
      have digits : 0 < (Nat.toDigits 10 n).length := Nat.length_toDigits_pos
      obtain ⟨fuel, rfl⟩ := Nat.exists_eq_succ_of_ne_zero (Nat.ne_zero_of_lt
        (Nat.lt_of_lt_of_le digits enough))
      exact value_number fit stops fuel (room + 1)
  | @numbers ns fit =>
      rw [toList_numbersText] at enough ⊢
      have row := length_le_numberRow ns
      have enough' : ns.length + 1 < fuel := by
        simp only [List.length_cons, List.length_append, List.length_nil] at enough
        omega
      simpa using value_numbers fit rest enough' room

/-! ## Keys -/

theorem IsBare.ne_nil {key : String} (bare : IsBare key) : key.toList ≠ [] :=
  List.isEmpty_eq_false_iff.mp bare.1

theorem IsBare.chars {key : String} (bare : IsBare key) : ∀ c ∈ key.toList, isKeyChar c = true :=
  List.all_eq_true.mp bare.2

theorem IsBare.front {key : String} (bare : IsBare key) {rest tail : List Char} {c : Char}
    (front : key.toList ++ rest = c :: tail) : isKeyChar c = true :=
  bare.chars c (mem_of_front bare.ne_nil front)

/-- A bare key is read up to the blank behind it. -/
theorem IsBare.simpleKey {key : String} (bare : IsBare key) (rest : List Char) :
    simpleKey (key.toList ++ ' ' :: rest) = .ok (key, ' ' :: rest) := by
  have taken : (key.toList ++ ' ' :: rest).takeWhile isKeyChar = key.toList := by
    rw [List.takeWhile_append_of_pos bare.chars]
    simp [isKeyChar, Char.isAlphanum]
  have left : (key.toList ++ ' ' :: rest).dropWhile isKeyChar = ' ' :: rest := by
    rw [List.dropWhile_append_of_pos bare.chars]
    rfl
  rw [Toml.simpleKey]
  · rw [taken, left, String.ofList_toList]
    simp [bare.ne_nil]
  -- The other keys begin with a quote.
  all_goals
    intro tail front
    cases bare.front front

/-- A bare key is a key of one part. -/
theorem IsBare.keyPath {key : String} (bare : IsBare key) (rest : List Char) :
    keyPath (key.toList ++ ' ' :: '=' :: rest) = .ok ([key], '=' :: rest) := by
  rw [Toml.keyPath, show maxDepth = 78 + 1 from rfl, keyParts, bare.simpleKey]
  rfl

/-! ## Documents -/

theorem write_cons (key : String) (v : Value) (entries : Entries) :
    write ((key, v) :: entries) = keyLine key v.render ++ write entries := by
  simp [write, renderEntries, keyLine]

/-- Keys and values are printed in their layout. -/
theorem Lines.write_eq {text : String} {entries : Entries} (lines : Lines text entries) :
    write entries = text := by
  induction lines with
  | nil => rfl
  | cons bare value absent more ih => rw [write_cons, value.render_eq, ih]

theorem Lines.unfitField?_eq {text : String} {entries : Entries} (lines : Lines text entries) :
    unfitField? entries = none := by
  induction lines with
  | nil => rfl
  | cons bare value absent more ih => rw [unfitField?, value.unfit?_eq, ih]; rfl

theorem toList_line (key text rest : String) :
    (keyLine key text ++ rest).toList =
      key.toList ++ ' ' :: '=' :: ' ' :: (text.toList ++ '\n' :: rest.toList) := by
  simp [keyLine]

theorem find_eq_none {entries : Entries} {key : String} (absent : key ∉ entries.map (·.1)) :
    find entries key = none := by
  have none : entries.find? (·.1 = key) = none := by
    rw [List.find?_eq_none]
    intro e within same
    exact absent (List.mem_map.mpr ⟨e, within, of_decide_eq_true same⟩)
  rw [find, none]
  rfl

/-- The text of a value begins right behind the blank. -/
theorem Denotes.skipBlanks {text : String} {v : Value} (value : Denotes text v)
    (rest : List Char) : skipBlanks (' ' :: (text.toList ++ rest)) = text.toList ++ rest := by
  cases value with
  | text plain =>
      rw [toList_quotedText]
      rfl
  | @number n fit =>
      rw [Nat.toString_eq_repr, Nat.toList_repr]
      cases front : Nat.toDigits 10 n ++ rest with
      | nil => exact absurd (List.append_eq_nil_iff.mp front).1 Nat.toDigits_ne_nil
      | cons c tail =>
          have blank : isBlank c = false :=
            (begins_of_isKeyChar (isKeyChar_of_isDigit (isDigit_of_front front))).2.2.1
          rw [Toml.skipBlanks, List.dropWhile_cons_of_pos rfl,
            List.dropWhile_cons_of_neg (by simp [blank])]
  | numbers fit =>
      rw [toList_numbersText]
      rfl

/-- **One line.** The line of a bare key with a value gives the key its value, and reading
goes on behind it. -/
theorem statements_line {key text : String} {v : Value} (bare : IsBare key)
    (value : Denotes text v) {entries : Entries} (absent : key ∉ entries.map (·.1)) {fuel : Nat}
    (enough : text.toList.length ≤ fuel) (rest : List Char) :
    statements (fuel + 1) ⟨entries, []⟩
        (key.toList ++ ' ' :: '=' :: ' ' :: (text.toList ++ '\n' :: rest)) =
      statements fuel ⟨entries ++ [(key, v)], []⟩ rest := by
  have given := value.value_eq (.line rest) enough 78
  have assigned : Document.assign ⟨entries, []⟩ [key] v = .ok ⟨entries ++ [(key, v)], []⟩ := by
    simp [Document.assign, assign, find_eq_none absent, bind, Except.bind, pure, Except.pure]
  rw [statements, skipLines_of_isKeyChar bare.ne_nil bare.chars]
  simp only [bind, Except.bind]
  split
  · rename_i front
    exact absurd (List.append_eq_nil_iff.mp front).1 bare.ne_nil
  · rename_i front
    cases bare.front front
  · rename_i front
    cases bare.front front
  · simp only [bare.keyPath, expect, if_true, value.skipBlanks, maxDepth, given, endLine, assigned]

/-- **All lines.** The lines of a document give its keys their values, in order. -/
theorem Lines.statements_eq {text : String} {entries : Entries} (lines : Lines text entries)
    (before : Entries) (apart : ∀ e ∈ entries, e.1 ∉ before.map (·.1)) {fuel : Nat}
    (enough : text.toList.length < fuel) :
    statements fuel ⟨before, []⟩ text.toList = .ok ⟨before ++ entries, []⟩ := by
  induction lines generalizing before fuel with
  | nil =>
      obtain ⟨fuel, rfl⟩ := Nat.exists_eq_succ_of_ne_zero (Nat.ne_zero_of_lt enough)
      rw [statements, List.append_nil]
      rfl
  | @cons key text rest v entries bare value other more ih =>
      obtain ⟨absent, apart⟩ := List.forall_mem_cons.mp apart
      rw [toList_line] at enough ⊢
      simp only [List.length_append, List.length_cons] at enough
      obtain ⟨fuel, rfl⟩ := Nat.exists_eq_succ_of_ne_zero (Nat.ne_zero_of_lt enough)
      have apart' : ∀ e ∈ entries, e.1 ∉ (before ++ [(key, v)]).map (·.1) := by
        intro e within
        rw [List.map_append, List.mem_append, not_or]
        refine ⟨apart e within, fun among => other ?_⟩
        have same : e.1 = key := List.mem_singleton.mp among
        rw [← same]
        exact List.mem_map_of_mem within
      rw [statements_line bare value absent (by omega), ih _ apart' (by omega),
        List.append_assoc]
      rfl

/-- A document in its layout does not begin with the mark of an encoding. -/
theorem Lines.withoutMark_eq {text : String} {entries : Entries} (lines : Lines text entries) :
    withoutMark text.toList = text.toList := by
  cases lines with
  | nil => rfl
  | cons bare value absent more =>
      rw [toList_line, withoutMark]
      intro tail front
      cases bare.front front

/-- A document is read from its layout. -/
theorem Lines.read_eq {text : String} {entries : Entries} (lines : Lines text entries) :
    read text = .ok entries := by
  have whole := lines.statements_eq [] (by simp) (Nat.lt_succ_self _)
  rw [read, lines.withoutMark_eq]
  simp only [whole]
  rfl

/-- **The library at hand.** What is relied on of a library for documents, the reader and the
printer at hand do. -/
theorem standard_documented : Library.standard.Documented where
  writes lines := by
    simp only [Library.standard, lines.unfitField?_eq, lines.write_eq]
  reads_nothing := Lines.nil.read_eq
  reads_line bare value absent more _ := (Lines.cons bare value absent more).read_eq

end ZMachine.Toml
