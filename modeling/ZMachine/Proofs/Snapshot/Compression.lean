import ZMachine.Proofs.Operation
import ZMachine.Snapshot.Document

/-!
# Compressed memory is recovered

Compressed data is a row of pieces: a byte that is not zero changes one byte of the
pristine copy, and a zero with the byte behind it passes over a run. Expanding applies
the pieces to the pristine copy in order, so writing differences down and reading them
again applies the differences (`expandFrom_addDifferences`). The difference of two
memories applied to one of them gives the other, whatever the lengths of the runs.

Data need not come from compressing. Any row of bytes describes a number of bytes,
unless it ends inside a piece, and it is expanded exactly if it does not end there and
describes no more than there is (`expandFrom_fails_iff`).
-/

set_option autoImplicit false

namespace ZMachine

namespace Compression

variable {pristine : Array Byte}

/-! ## Any data -/

/-- Whether the data ends in a zero behind which the length of the run is missing. -/
def unfinished : List Byte → Bool
  | [] => false
  | d :: rest =>
      if d = 0 then
        match rest with
        | [] => true
        | _ :: rest => unfinished rest
      else unfinished rest

/-- How many bytes of memory the whole pieces of the data stand for. -/
def described : List Byte → Nat
  | [] => 0
  | d :: rest =>
      if d = 0 then
        match rest with
        | [] => 0
        | n :: rest => n.toNat + 1 + described rest
      else 1 + described rest

theorem unfinished_change {d : Byte} {rest : List Byte} (changed : d ≠ 0) :
    unfinished (d :: rest) = unfinished rest := by
  rw [unfinished.eq_def]
  simp [changed]

theorem described_change {d : Byte} {rest : List Byte} (changed : d ≠ 0) :
    described (d :: rest) = 1 + described rest := by
  rw [described.eq_def]
  simp [changed]

/-- **Totality.** What is recovered has the size of the pristine copy. -/
theorem expandFrom_size {out recovered : Array Byte} {data : List Byte}
    (room : out.size ≤ pristine.size) (given : expandFrom pristine out data = .ok recovered) :
    recovered.size = pristine.size := by
  fun_induction expandFrom pristine out data with
  | case1 out =>
      cases given
      simp only [Array.size_append, Array.size_extract]
      omega
  | case2 out => cases given
  | case3 out n rest stop beyond => cases given
  | case4 out n rest stop inside ih =>
      refine ih ?_ given
      simp only [Array.size_append, Array.size_extract]
      omega
  | case5 out d rest changed none => cases given
  | case6 out d rest changed base found ih =>
      obtain ⟨inside, _⟩ := Array.getElem?_eq_some_iff.mp found
      refine ih ?_ given
      rw [Array.size_push]
      omega

/-- **Failure.** Data is refused exactly if it ends inside a piece or describes more
bytes than are left. -/
theorem expandFrom_fails_iff {out : Array Byte} {data : List Byte}
    (room : out.size ≤ pristine.size) :
    (∃ e, expandFrom pristine out data = .error e) ↔
      unfinished data = true ∨ pristine.size < out.size + described data := by
  fun_induction expandFrom pristine out data with
  | case1 out =>
      simp [unfinished, described]
      omega
  | case2 out => simp [unfinished]
  | case3 out n rest stop beyond =>
      have more : pristine.size < out.size + (n.toNat + 1 + described rest) := by omega
      simp [described, more]
  | case4 out n rest stop inside ih =>
      have size : (out ++ pristine.extract out.size stop).size = stop := by
        simp only [Array.size_append, Array.size_extract]
        omega
      rw [ih (by omega), size]
      have total : stop + described rest = out.size + (n.toNat + 1 + described rest) := by omega
      simp [unfinished, described, total]
  | case5 out d rest changed none =>
      have full : pristine.size ≤ out.size := Array.getElem?_eq_none_iff.mp none
      have more : pristine.size < out.size + (1 + described rest) := by omega
      simp [described_change changed, more]
  | case6 out d rest changed base found ih =>
      obtain ⟨inside, _⟩ := Array.getElem?_eq_some_iff.mp found
      rw [ih (by rw [Array.size_push]; omega), Array.size_push]
      have total : out.size + 1 + described rest = out.size + (1 + described rest) := by omega
      rw [unfinished_change changed, described_change changed, total]

/-! ## Written differences -/

/-- What is written of a run stands behind what was written before. -/
theorem toList_addRun (out : Array Byte) (count : Nat) :
    (addRun out count).toList = out.toList ++ (addRun #[] count).toList := by
  induction count using Nat.strongRecOn generalizing out with
  | ind count ih =>
      rw [addRun, addRun.eq_def #[]]
      by_cases none : count = 0
      · simp [none]
      by_cases short : count ≤ 256
      · simp [none, short]
      · simp only [if_neg none, if_neg short]
        rw [ih (count - 256) (by omega), ih (count - 256) (by omega) (Array.push _ _)]
        simp

theorem toList_addDifferences (out : Array Byte) (unchanged : Nat) (ds : List Byte) :
    (addDifferences out unchanged ds).toList =
      out.toList ++ (addDifferences #[] unchanged ds).toList := by
  induction ds generalizing out unchanged with
  | nil => exact toList_addRun out unchanged
  | cons d rest ih =>
      simp only [addDifferences]
      by_cases same : d = 0
      · simp only [if_pos same]
        exact ih out (unchanged + 1)
      · simp only [if_neg same]
        rw [ih, ih ((addRun #[] unchanged).push d), Array.toList_push, toList_addRun]
        simp

/-- Bytes already recovered, with the next ones of the pristine copy behind them. -/
def copied (pristine out : Array Byte) (count : Nat) : Array Byte :=
  out ++ pristine.extract out.size (out.size + count)

theorem size_copied {out : Array Byte} {count : Nat} (room : out.size + count ≤ pristine.size) :
    (copied pristine out count).size = out.size + count := by
  simp only [copied, Array.size_append, Array.size_extract]
  omega

theorem copied_zero (out : Array Byte) : copied pristine out 0 = out := by
  apply Array.ext'
  simp [copied]

theorem copied_succ {out : Array Byte} {count : Nat} (room : out.size + count < pristine.size) :
    copied pristine out (count + 1) =
      (copied pristine out count).push pristine[out.size + count] := by
  rw [copied, copied, ← Nat.add_assoc, Array.extract_succ_right (by omega) room, Array.append_push]

theorem copied_copied {out : Array Byte} {first second : Nat}
    (room : out.size + first ≤ pristine.size) :
    copied pristine (copied pristine out first) second = copied pristine out (first + second) := by
  have size := size_copied room
  rw [copied, size]
  simp only [copied, Array.append_assoc]
  rw [Array.extract_append_extract]
  congr 2 <;> omega

/-- Reading a run. -/
theorem expandFrom_run {out : Array Byte} {n : Byte}
    (room : out.size + (n.toNat + 1) ≤ pristine.size) (rest : List Byte) :
    expandFrom pristine out (0 :: n :: rest) =
      expandFrom pristine (copied pristine out (n.toNat + 1)) rest := by
  have inside : ¬ pristine.size < out.size + n.toNat + 1 := by omega
  simp only [expandFrom, if_true, if_neg inside]
  rfl

/-- A written run, whatever its length, is read as that many bytes of the pristine
copy. -/
theorem expandFrom_addRun {out : Array Byte} {count : Nat} (room : out.size + count ≤ pristine.size)
    (rest : List Byte) :
    expandFrom pristine out ((addRun #[] count).toList ++ rest) =
      expandFrom pristine (copied pristine out count) rest := by
  induction count using Nat.strongRecOn generalizing out with
  | ind count ih =>
      rw [addRun]
      by_cases none : count = 0
      · simp [none, copied_zero]
      by_cases short : count ≤ 256
      · have length : (UInt8.ofNat (count - 1)).toNat + 1 = count := by
          rw [UInt8.toNat_ofNat']
          omega
        have read := expandFrom_run (n := UInt8.ofNat (count - 1)) (length.symm ▸ room) rest
        rw [length] at read
        simpa [none, short] using read
      · have part : out.size + 256 ≤ pristine.size := by omega
        have length : (255 : Byte).toNat + 1 = 256 := rfl
        have read := expandFrom_run (n := 255) (length.symm ▸ part)
          ((addRun #[] (count - 256)).toList ++ rest)
        have room' : (copied pristine out 256).size + (count - 256) ≤ pristine.size := by
          rw [size_copied part]
          omega
        have again := ih (count - 256) (by omega) room'
        simp only [if_neg none, if_neg short]
        have total : 256 + (count - 256) = count := by omega
        rw [length, again, copied_copied part, total] at read
        rw [toList_addRun, List.append_assoc]
        exact read

/-- Reading a change. -/
theorem expandFrom_change {out : Array Byte} {d : Byte} (changed : d ≠ 0)
    (inside : out.size < pristine.size) (rest : List Byte) :
    expandFrom pristine out (d :: rest) =
      expandFrom pristine (out.push (pristine[out.size] ^^^ d)) rest := by
  rw [expandFrom.eq_def]
  simp only [if_neg changed, Array.getElem?_eq_getElem inside]

/-- **Differences.** Written differences, behind a run of bytes without any, are read by
applying them to the pristine copy. -/
theorem expandFrom_addDifferences {out : Array Byte} {unchanged : Nat} {ds : List Byte}
    (fits : out.size + unchanged + ds.length = pristine.size) :
    expandFrom pristine out (addDifferences #[] unchanged ds).toList =
      .ok (copied pristine out unchanged ++
        List.zipWith (· ^^^ ·) (pristine.toList.drop (out.size + unchanged)) ds) := by
  induction ds generalizing out unchanged with
  | nil =>
      have room : out.size + unchanged ≤ pristine.size := by
        rw [List.length_nil] at fits
        omega
      have read := expandFrom_addRun room []
      rw [List.append_nil] at read
      rw [addDifferences, read, expandFrom, size_copied room]
      apply congrArg Except.ok
      apply Array.ext'
      rw [List.length_nil] at fits
      simp [← fits]
  | cons d rest ih =>
      rw [List.length_cons] at fits
      have room : out.size + unchanged < pristine.size := by omega
      have size := size_copied (Nat.le_of_lt room)
      have next : pristine.toList.drop (out.size + unchanged) =
          pristine[out.size + unchanged] :: pristine.toList.drop (out.size + unchanged + 1) := by
        rw [List.drop_eq_getElem_cons (by simpa using room), Array.getElem_toList]
      rw [addDifferences, next, List.zipWith_cons_cons]
      by_cases same : d = 0
      · rw [if_pos same, ih (by omega), copied_succ room, same, UInt8.xor_zero]
        apply congrArg Except.ok
        apply Array.ext'
        simp [Nat.add_assoc]
      · have written : (addDifferences ((addRun #[] unchanged).push d) 0 rest).toList =
            (addRun #[] unchanged).toList ++ d :: (addDifferences #[] 0 rest).toList := by
          rw [toList_addDifferences, Array.toList_push, List.append_assoc]
          rfl
        have inside : (copied pristine out unchanged).size < pristine.size := size ▸ room
        rw [if_neg same, written, expandFrom_addRun (Nat.le_of_lt room),
          expandFrom_change same inside, ih (by rw [Array.size_push, size]; omega), copied_zero]
        apply congrArg Except.ok
        apply Array.ext'
        simp [size]

/-- The difference of two bytes gives either from the other. -/
theorem xor_difference (a b : Byte) : b ^^^ (a ^^^ b) = a := by
  rw [UInt8.xor_comm, UInt8.xor_assoc, UInt8.xor_self, UInt8.xor_zero]

/-- **Recovery.** Memory of the pristine size is compressed and recovered. -/
theorem expand_compress {current : Array Byte} (same : current.size = pristine.size) :
    ∃ compressed, compress current pristine = .ok compressed ∧
      expand compressed pristine = .ok current := by
  refine ⟨_, by rw [compress, if_pos same], ?_⟩
  rw [expand, expandFrom_addDifferences (by simp [same]), copied_zero]
  apply congrArg Except.ok
  apply Array.ext'
  apply List.ext_getElem
  · simp [same]
  · intro k _ _
    simp only [List.size_toArray, List.length_nil, Nat.add_zero, List.drop_zero,
      Array.toList_zipWith, List.toArray_appendList, List.nil_append, List.getElem_zipWith,
      Array.getElem_toList]
    exact xor_difference _ _

end Compression

/-- A snapshot with memory of the pristine size is compressed and recovered whole. -/
theorem SavedGame.expand_compress {pristine : Array Byte} {s : Snapshot}
    (same : s.memory.size = pristine.size) :
    ∃ game, SavedGame.compress s pristine = .ok game ∧ game.expand pristine = .ok s := by
  obtain ⟨compressed, written, read⟩ := Compression.expand_compress same
  refine ⟨⟨s.sourceName, s.pc, s.frame, s.alphabet, s.stack, compressed⟩, ?_, ?_⟩
  · rw [SavedGame.compress, written]
    rfl
  · rw [SavedGame.expand, read]
    rfl

namespace Compression

/-- **Nothing is lost.** Memory is compressed exactly if it has the size of the pristine
copy, and is then recovered as it was; so is a snapshot of such memory. Any data at all is
either refused or expanded to the size of the pristine copy, and it is refused exactly if
it ends in a zero without the length of its run or describes more bytes than there are. -/
theorem lossless_and_total (current pristine data : Array Byte) (snapshot : Snapshot) :
    ((∃ compressed, compress current pristine = .ok compressed) ↔
      current.size = pristine.size) ∧
    (∀ compressed, compress current pristine = .ok compressed →
      expand compressed pristine = .ok current) ∧
    ((∃ e, expand data pristine = .error e) ∨
      ∃ memory, expand data pristine = .ok memory ∧ memory.size = pristine.size) ∧
    ((∃ e, expand data pristine = .error e) ↔
      unfinished data.toList = true ∨ pristine.size < described data.toList) ∧
    (snapshot.memory.size = pristine.size →
      ∃ game, SavedGame.compress snapshot pristine = .ok game ∧
        game.expand pristine = .ok snapshot) := by
  have sized : ∀ compressed, compress current pristine = .ok compressed →
      current.size = pristine.size := by
    intro compressed written
    rw [compress] at written
    split at written
    · assumption
    · cases written
  refine ⟨⟨fun ⟨compressed, written⟩ => sized compressed written, fun same => ?_⟩, ?_, ?_, ?_,
    SavedGame.expand_compress⟩
  · obtain ⟨compressed, written, _⟩ := expand_compress same
    exact ⟨compressed, written⟩
  · intro compressed written
    obtain ⟨compressed', written', read⟩ := expand_compress (sized compressed written)
    cases written'.symm.trans written
    exact read
  · rcases given : expand data pristine with e | memory
    · exact .inl ⟨e, rfl⟩
    · exact .inr ⟨memory, rfl, expandFrom_size (Nat.zero_le _) given⟩
  · have fails : (∃ e, expand data pristine = .error e) ↔
        unfinished data.toList = true ∨ pristine.size < 0 + described data.toList :=
      expandFrom_fails_iff (Nat.zero_le pristine.size)
    rwa [Nat.zero_add] at fails

/-- A snapshot in which a long run of bytes is unchanged between two changes. -/
def longRun : Snapshot where
  pc := 0x40
  frame := 0
  memory := #[1] ++ Array.replicate 300 7 ++ #[2]
  stack := #[0, 0, 0, 0]
  alphabet := .a0
  sourceName := "tale"

/-- The long run is recovered, and a zero without its run is refused. -/
theorem longRun_recovered :
    (∃ game, SavedGame.compress longRun (Array.replicate 302 7) = .ok game ∧
      game.expand (Array.replicate 302 7) = .ok longRun) ∧
    ∃ e, expand #[5, 0] (Array.replicate 302 7) = .error e := by
  obtain ⟨_, _, _, refused, recovered⟩ :=
    lossless_and_total #[] (Array.replicate 302 7) #[5, 0] longRun
  exact ⟨recovered (by simp [longRun]), refused.mpr (.inl (by decide))⟩

end Compression

end ZMachine
