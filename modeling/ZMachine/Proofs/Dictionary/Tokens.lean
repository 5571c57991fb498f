import Mathlib.Logic.ExistsUnique
import ZMachine.Dictionary

/-!
# Where the words of a line stand

The words of a line are told apart by blanks and separators. Each of them stands in the
line where it says that it does: as many characters come before it as its start tells,
and its own characters follow (`split_stands`). None of them is empty.

They can also be told apart in one pass over the characters, which keeps a word open for as
long as it goes on (`tokenize_eq_pass`).

The words stand one behind the other (`split_ordered`), and between them they have every
character that is not a blank (`split_covers`). Each is a separator by itself, or a run of
other characters that goes on neither before it nor behind it (`split_kinds`). So a line is
its words and the blanks between them (`tokenize_partitions_line`).
-/

set_option autoImplicit false

namespace ZMachine

/-- The word stands in a line that begins with character number `start`. -/
def Token.StandsIn (token : Token) (start : Nat) (line : List Char) : Prop :=
  ∃ before after, line = before ++ token.text.toList ++ after ∧
    token.start = start + before.length ∧ token.text.toList ≠ []

/-- The character with a number belongs to the word. -/
def Token.Covers (token : Token) (i : Nat) : Prop :=
  token.start ≤ i ∧ i < token.start + token.text.length

namespace Token

variable {token : Token} {start : Nat} {line : List Char}

/-- A word stands where it does when more comes before it. -/
theorem StandsIn.behind (first : List Char)
    (stands : token.StandsIn (start + first.length) line) :
    token.StandsIn start (first ++ line) := by
  obtain ⟨before, after, rfl, place, some⟩ := stands
  refine ⟨first ++ before, after, ?_, ?_, some⟩
  · simp only [List.append_assoc]
  · rw [place, List.length_append, Nat.add_assoc]

theorem StandsIn.start_le (stands : token.StandsIn start line) : start ≤ token.start := by
  obtain ⟨before, _, _, place, _⟩ := stands
  rw [place]
  exact Nat.le_add_right _ _

/-- A word ends inside its line. -/
theorem StandsIn.inside (stands : token.StandsIn start line) :
    token.start + token.text.length ≤ start + line.length := by
  obtain ⟨before, after, rfl, place, _⟩ := stands
  rw [place, List.length_append, List.length_append, String.length_toList]
  omega

/-- A word consists of the characters of the line that belong to it. -/
theorem StandsIn.text_eq (stands : token.StandsIn 0 line) :
    token.text.toList = (line.drop token.start).take token.text.length := by
  obtain ⟨before, after, rfl, place, _⟩ := stands
  rw [Nat.zero_add] at place
  rw [place, List.append_assoc, List.drop_left, ← String.length_toList, List.take_left]

/-- A character of the line that belongs to a word is found in it. -/
theorem StandsIn.getElem?_text {chars : List Char} (stands : token.StandsIn 0 chars) {i : Nat}
    (covers : token.Covers i) : token.text.toList[i - token.start]? = chars[i]? := by
  obtain ⟨low, high⟩ := covers
  rw [stands.text_eq, List.getElem?_take, if_pos (by omega), List.getElem?_drop,
    Nat.add_sub_cancel' low]

theorem StandsIn.length_pos (stands : token.StandsIn start line) : 0 < token.text.length := by
  obtain ⟨_, _, _, _, some⟩ := stands
  rw [← String.length_toList]
  exact List.length_pos_iff.mpr some

/-- The word is a separator by itself. -/
def IsSeparator (separators : List Char) (token : Token) : Prop :=
  ∃ c ∈ separators, Dictionary.isBlank c = false ∧ token.text = String.singleton c

/-- The word is a run of characters that are neither blanks nor separators, and there is
no such character right before it or right behind it. -/
def IsRun (separators : List Char) (start : Nat) (line : List Char) (token : Token) : Prop :=
  ∃ before after, line = before ++ token.text.toList ++ after ∧
    token.start = start + before.length ∧ token.text.toList ≠ [] ∧
    (∀ c ∈ token.text.toList, Dictionary.isInner separators c = true) ∧
    (∀ c ∈ before.getLast?, Dictionary.isInner separators c = false) ∧
    (∀ c ∈ after.head?, Dictionary.isInner separators c = false)

/-- A run stays one when more comes before it, if what comes there does not end with a
character that could belong to it. -/
theorem IsRun.behind {separators : List Char} (first : List Char)
    (run : token.IsRun separators (start + first.length) line)
    (gap : ∀ a ∈ first.getLast?, ∀ b ∈ line.head?, Dictionary.isInner separators b = true →
      Dictionary.isInner separators a = false) :
    token.IsRun separators start (first ++ line) := by
  obtain ⟨before, after, rfl, place, some, inner, left, right⟩ := run
  refine ⟨first ++ before, after, ?_, ?_, some, inner, ?_, right⟩
  · simp only [List.append_assoc]
  · rw [place, List.length_append, Nat.add_assoc]
  · intro a last
    rcases before with _ | ⟨b, before⟩
    · obtain ⟨b, rest, text⟩ := List.exists_cons_of_ne_nil some
      rw [List.append_nil] at last
      refine gap a last b ?_ (inner b ?_)
      · rw [List.nil_append, text]
        rfl
      · rw [text]
        exact List.mem_cons_self
    · rw [List.getLast?_append, List.getLast?_cons, Option.some_or, ← List.getLast?_cons] at last
      exact left a last

end Token

namespace Dictionary

/-- **Splitting a line.** Every word stands in the line where it says. -/
theorem split_stands {separators : List Char} {start : Nat} {line : List Char} {token : Token}
    (member : token ∈ split separators start line) : token.StandsIn start line := by
  fun_induction split separators start line with
  | case1 => cases member
  | case2 start c rest blank ih => exact .behind [c] (ih member)
  | case3 start c rest solid separator ih =>
      rcases List.mem_cons.mp member with rfl | later
      · exact ⟨[], rest, by simp, rfl, by simp⟩
      · exact .behind [c] (ih later)
  | case4 start c rest solid inner word ih =>
      have parts : c :: rest = word ++ rest.dropWhile (isInner separators) :=
        congrArg (c :: ·) List.takeWhile_append_dropWhile.symm
      rw [parts]
      rcases List.mem_cons.mp member with rfl | later
      · refine ⟨[], rest.dropWhile (isInner separators), ?_, rfl, ?_⟩
        · rw [List.nil_append, String.toList_ofList]
        · rw [String.toList_ofList]
          exact List.cons_ne_nil _ _
      · exact .behind word (ih later)

/-- Blanks before the words of a line move them. -/
theorem split_blanks {separators : List Char} {start : Nat} {blanks line : List Char}
    (blank : ∀ c ∈ blanks, isBlank c = true) :
    split separators start (blanks ++ line) = split separators (start + blanks.length) line := by
  induction blanks generalizing start with
  | nil => rfl
  | cons c rest ih =>
      obtain ⟨first, others⟩ := List.forall_mem_cons.mp blank
      rw [List.cons_append, split, if_pos first, ih others, List.length_cons, Nat.add_assoc,
        Nat.add_comm 1]

/-- The words of a line stand in it. -/
theorem tokenize_stands {d : Dictionary} {line : String} {token : Token}
    (member : token ∈ d.tokenize line) : token.StandsIn 0 line.toList :=
  split_stands member

/-! ## One pass over the line -/

/-- The state of a pass over the characters of a line: the words that have ended, and the word
that is open, if one is. -/
structure Pass where
  ended : List Token := []
  current : Option Token := none

/-- The words once the open one has ended. -/
def Pass.close (p : Pass) : List Token :=
  p.ended ++ p.current.toList

/-- Pass over the character with a number. A blank ends the open word, and a separator ends it
and is a word by itself; any other character is added to the open word, or opens one. -/
def Pass.step (separators : List Char) (p : Pass) : Char × Nat → Pass
  | (c, i) =>
      if isBlank c then { ended := p.close }
      else if separators.contains c then { ended := p.close ++ [⟨String.singleton c, i⟩] }
      else
        let word := p.current.getD ⟨"", i⟩
        { p with current := some { word with text := word.text.push c } }

/-- The words that a pass is still to come to: the open word goes on as far as it can. -/
def Pass.coming (separators : List Char) (start : Nat) (line : List Char) :
    (current : Option Token) → List Token
  | none => split separators start line
  | some word =>
      let more := line.takeWhile (isInner separators)
      { word with text := word.text ++ String.ofList more } ::
        split separators (start + more.length) (line.dropWhile (isInner separators))

section Coming

variable {separators rest : List Char} {c : Char} (start : Nat) (current : Option Token)

theorem Pass.coming_blank (blank : isBlank c = true) :
    coming separators start (c :: rest) current =
      current.toList ++ split separators (start + 1) rest := by
  have stops : isInner separators c = false := by
    rw [isInner, blank]
    rfl
  have next : split separators start (c :: rest) = split separators (start + 1) rest := by
    rw [split, if_pos blank]
  cases current with
  | none => exact next
  | some word =>
      simp only [coming, List.takeWhile_cons, List.dropWhile_cons, stops]
      simpa using next

theorem Pass.coming_separator (solid : ¬ isBlank c = true)
    (separator : separators.contains c = true) :
    coming separators start (c :: rest) current =
      current.toList ++ ⟨String.singleton c, start⟩ :: split separators (start + 1) rest := by
  have stops : isInner separators c = false := by
    rw [isInner, separator]
    exact Bool.and_false _
  have next : split separators start (c :: rest) =
      ⟨String.singleton c, start⟩ :: split separators (start + 1) rest := by
    rw [split, if_neg solid, if_pos separator]
  cases current with
  | none => exact next
  | some word =>
      simp only [coming, List.takeWhile_cons, List.dropWhile_cons, stops]
      simpa using next

theorem Pass.coming_inner (solid : ¬ isBlank c = true)
    (inner : ¬ separators.contains c = true) :
    coming separators start (c :: rest) current =
      coming separators (start + 1) rest
        (some ⟨(current.getD ⟨"", start⟩).text.push c, (current.getD ⟨"", start⟩).start⟩) := by
  have goesOn : isInner separators c = true := by
    rw [isInner, Bool.eq_false_iff.mpr solid, Bool.eq_false_iff.mpr inner]
    rfl
  cases current with
  | none =>
      rw [coming, split, if_neg solid, if_neg inner]
      simp [coming, String.ofList_cons, Nat.add_assoc, Nat.add_comm 1]
  | some word =>
      simp only [coming, List.takeWhile_cons, List.dropWhile_cons, goesOn, if_true]
      simp [String.ofList_cons, ← String.append_assoc, Nat.add_assoc, Nat.add_comm 1]

end Coming

/-- What a pass has come to and what it is still to come to are its words. The open word is
part of what is still to come. -/
theorem Pass.close_foldl (separators line : List Char) (start : Nat) (p : Pass) :
    ((line.zipIdx start).foldl (Pass.step separators) p).close =
      p.ended ++ Pass.coming separators start line p.current := by
  induction line generalizing start p with
  | nil =>
      rcases p with ⟨ended, _ | word⟩
      · simp [Pass.close, Pass.coming, split]
      · simp [Pass.close, Pass.coming, split]
  | cons c rest ih =>
      rw [List.zipIdx_cons, List.foldl_cons, ih]
      rw [Pass.step]
      by_cases blank : isBlank c
      · rw [if_pos blank, Pass.coming_blank start p.current blank, Pass.close, List.append_assoc]
        rfl
      · by_cases separator : separators.contains c
        · rw [if_neg blank, if_pos separator, Pass.coming_separator start p.current blank separator,
            Pass.close]
          simp [Pass.coming]
        · rw [if_neg blank, if_neg separator, Pass.coming_inner start p.current blank separator]

/-- **One pass.** The words of a line are those of one pass over its characters. -/
theorem tokenize_eq_pass (d : Dictionary) (line : String) :
    d.tokenize line = (line.toList.zipIdx.foldl (Pass.step d.separators) {}).close :=
  (Pass.close_foldl d.separators line.toList 0 {}).symm

/-! ## Every character in its word -/

/-- The words stand one behind the other. -/
theorem split_ordered (separators : List Char) (start : Nat) (line : List Char) :
    (split separators start line).Pairwise fun a b => a.start + a.text.length ≤ b.start := by
  fun_induction split separators start line with
  | case1 => exact .nil
  | case2 start c rest blank ih => exact ih
  | case3 start c rest solid separator ih =>
      refine .cons (fun token member => ?_) ih
      rw [String.length_singleton]
      exact (split_stands member).start_le
  | case4 start c rest solid inner word ih =>
      refine .cons (fun token member => ?_) ih
      rw [String.length_ofList]
      exact (split_stands member).start_le

/-- Every character that is not a blank belongs to a word. -/
theorem split_covers (separators : List Char) (start : Nat) (chars : List Char) {c : Char}
    (solid : isBlank c = false) :
    ∀ i, chars[i]? = some c → ∃ token ∈ split separators start chars, token.Covers (start + i) := by
  fun_induction split separators start chars with
  | case1 =>
      intro i found
      cases found
  | case2 start first rest blank ih =>
      intro i found
      rcases i with _ | i
      · cases found
        rw [blank] at solid
        cases solid
      · obtain ⟨token, member, covers⟩ := ih i found
        exact ⟨token, member, by rwa [Nat.add_right_comm] at covers⟩
  | case3 start first rest _ separator ih =>
      intro i found
      rcases i with _ | i
      · refine ⟨_, List.mem_cons_self, Nat.le_refl _, ?_⟩
        rw [String.length_singleton]
        exact Nat.lt_succ_self _
      · obtain ⟨token, member, covers⟩ := ih i found
        exact ⟨token, List.mem_cons_of_mem _ member, by rwa [Nat.add_right_comm] at covers⟩
  | case4 start first rest _ inner word ih =>
      intro i found
      by_cases within : i < word.length
      · refine ⟨_, List.mem_cons_self, Nat.le_add_right _ _, ?_⟩
        rw [String.length_ofList]
        exact Nat.add_lt_add_left within start
      · have beyond : word.length ≤ i := Nat.not_lt.mp within
        have parts : first :: rest = word ++ rest.dropWhile (isInner separators) :=
          congrArg (first :: ·) List.takeWhile_append_dropWhile.symm
        rw [parts, List.getElem?_append_right beyond] at found
        obtain ⟨token, member, covers⟩ := ih _ found
        refine ⟨token, List.mem_cons_of_mem _ member, ?_⟩
        rwa [Nat.add_assoc, Nat.add_sub_cancel' beyond] at covers

/-- **Kinds of words.** Each word is a separator by itself, or a run of characters that
are neither blanks nor separators, as long as it can be. -/
theorem split_kinds {separators : List Char} {start : Nat} {line : List Char} {token : Token}
    (member : token ∈ split separators start line) :
    token.IsSeparator separators ∨ token.IsRun separators start line := by
  fun_induction split separators start line with
  | case1 => cases member
  | case2 start c rest blank ih =>
      refine (ih member).imp_right fun run => run.behind [c] ?_
      intro a last b _ _
      obtain rfl : c = a := Option.some.inj last
      rw [isInner, blank]
      rfl
  | case3 start c rest solid separator ih =>
      rcases List.mem_cons.mp member with rfl | later
      · exact .inl ⟨c, List.contains_iff_mem.mp separator, Bool.eq_false_iff.mpr solid, rfl⟩
      · refine (ih later).imp_right fun run => run.behind [c] ?_
        intro a last b _ _
        obtain rfl : c = a := Option.some.inj last
        rw [isInner, separator]
        exact Bool.and_false _
  | case4 start c rest solid inner word ih =>
      have parts : c :: rest = word ++ rest.dropWhile (isInner separators) :=
        congrArg (c :: ·) List.takeWhile_append_dropWhile.symm
      -- What follows the word does not begin with a character that would belong to it.
      have stops : ∀ b ∈ (rest.dropWhile (isInner separators)).head?,
          isInner separators b = false := by
        intro b first
        have := List.head?_dropWhile_not (isInner separators) rest
        rw [first] at this
        exact this
      rw [parts]
      rcases List.mem_cons.mp member with rfl | later
      · refine .inr ⟨[], rest.dropWhile (isInner separators), ?_, rfl, ?_, ?_, nofun, stops⟩
        · rw [List.nil_append, String.toList_ofList]
        · rw [String.toList_ofList]
          exact List.cons_ne_nil _ _
        · intro b among
          rw [String.toList_ofList] at among
          rcases List.mem_cons.mp among with rfl | among
          · rw [isInner, Bool.eq_false_iff.mpr solid, Bool.eq_false_iff.mpr inner]
            rfl
          · exact List.all_eq_true.mp List.all_takeWhile b among
      · refine (ih later).imp_right fun run => run.behind word ?_
        intro a _ b first inner
        rw [stops b first] at inner
        cases inner

/-- Two words that have a character in common are the same. -/
theorem eq_of_covers {tokens : List Token} {a b : Token} {i : Nat}
    (ordered : tokens.Pairwise fun a b => a.start + a.text.length ≤ b.start) (first : a ∈ tokens)
    (second : b ∈ tokens) (covers : a.Covers i) (covers' : b.Covers i) : a = b := by
  obtain ⟨low, high⟩ := covers
  obtain ⟨low', high'⟩ := covers'
  induction ordered with
  | nil => cases first
  | @cons token rest before _ ih =>
      rcases List.mem_cons.mp first with rfl | inRest
      · rcases List.mem_cons.mp second with rfl | inRest'
        · rfl
        · have := before b inRest'
          omega
      · rcases List.mem_cons.mp second with rfl | inRest'
        · have := before a inRest
          omega
        · exact ih inRest inRest'

/-- No blank belongs to a word. -/
theorem not_isBlank_of_covers {separators chars : List Char} {token : Token} {i : Nat} {c : Char}
    (member : token ∈ split separators 0 chars) (covers : token.Covers i)
    (found : chars[i]? = some c) : isBlank c = false := by
  rw [← (split_stands member).getElem?_text covers] at found
  have among := List.mem_of_getElem? found
  rcases split_kinds member with ⟨separator, _, solid, text⟩ | ⟨_, _, _, _, _, inner, _⟩
  · rw [text, String.toList_singleton, List.mem_singleton] at among
    rwa [among]
  · have inside := inner c among
    rw [isInner, Bool.and_eq_true] at inside
    exact Bool.not_eq_true' _ ▸ inside.1

/-- A separator that belongs to a word is that word. -/
theorem eq_separator_of_covers {separators chars : List Char} {token : Token} {i : Nat} {c : Char}
    (member : token ∈ split separators 0 chars) (covers : token.Covers i)
    (found : chars[i]? = some c) (separator : c ∈ separators) :
    token = ⟨String.singleton c, i⟩ := by
  rw [← (split_stands member).getElem?_text covers] at found
  have among := List.mem_of_getElem? found
  rcases split_kinds member with ⟨other, _, _, text⟩ | ⟨_, _, _, _, _, inner, _⟩
  · rw [text, String.toList_singleton, List.mem_singleton] at among
    obtain ⟨low, high⟩ := covers
    rw [text, String.length_singleton] at high
    obtain ⟨_, start⟩ := token
    obtain rfl : start = i := by
      change start ≤ i at low
      change i < start + 1 at high
      omega
    rw [among]
    exact congrArg (Token.mk · start) text
  · have inside := inner c among
    rw [isInner, List.contains_iff_mem.mpr separator] at inside
    simp at inside

/-- **A line is its words and blanks.** The words of a line stand one behind the other, each
with the characters that the line has from its start on. Every character but a blank belongs
to exactly one of them, and no blank belongs to any. A separator that is no blank is a word
by itself, and every other word is a run of characters that are neither blanks nor
separators which cannot be made longer. -/
theorem tokenize_partitions_line (d : Dictionary) (line : String) :
    let tokens := d.tokenize line
    (tokens.Pairwise fun a b => a.start < b.start ∧ a.start + a.text.length ≤ b.start) ∧
    (∀ token ∈ tokens, 0 < token.text.length ∧
      token.text.toList = (line.toList.drop token.start).take token.text.length) ∧
    (∀ i c, line.toList[i]? = some c → isBlank c = false →
      ∃! token, token ∈ tokens ∧ token.Covers i) ∧
    (∀ i c, line.toList[i]? = some c → isBlank c = true →
      ∀ token ∈ tokens, ¬ token.Covers i) ∧
    (∀ i c, line.toList[i]? = some c → isBlank c = false → c ∈ d.separators →
      ⟨String.singleton c, i⟩ ∈ tokens) ∧
    (∀ token ∈ tokens, token.IsSeparator d.separators ∨
      token.IsRun d.separators 0 line.toList) := by
  intro tokens
  have ordered := split_ordered d.separators 0 line.toList
  have covered : ∀ i c, line.toList[i]? = some c → isBlank c = false →
      ∃ token ∈ tokens, token.Covers i := by
    intro i c found solid
    obtain ⟨token, member, covers⟩ := split_covers d.separators 0 line.toList solid i found
    rw [Nat.zero_add] at covers
    exact ⟨token, member, covers⟩
  refine ⟨?_, ?_, ?_, ?_, ?_, fun token => split_kinds⟩
  · refine ordered.imp_of_mem fun first _ behind => ?_
    have := (split_stands first).length_pos
    omega
  · intro token member
    exact ⟨(split_stands member).length_pos, (split_stands member).text_eq⟩
  · intro i c found solid
    obtain ⟨token, member, covers⟩ := covered i c found solid
    refine ⟨token, ⟨member, covers⟩, ?_⟩
    rintro other ⟨member', covers'⟩
    exact eq_of_covers ordered member' member covers' covers
  · intro i c found blank token member covers
    rw [not_isBlank_of_covers member covers found] at blank
    cases blank
  · intro i c found solid separator
    obtain ⟨token, member, covers⟩ := covered i c found solid
    rwa [← eq_separator_of_covers member covers found separator]

end Dictionary

end ZMachine
