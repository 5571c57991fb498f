import ZMachine.Proofs.Number
import ZMachine.Text.Decode
import ZMachine.Text.Encode

/-!
# Packing z-characters

Three z-characters of five bits share a word, whose top bit is left for the end
mark. Packing z-characters and collecting them again gives them back, and the end
mark stands on the last word and on no other (`gather_words`).

Collecting looks only at the bytes up to its bound, so a string inside a larger
array is read as if it stood alone (`gather_extract`).
-/

set_option autoImplicit false

namespace ZMachine.Text

/-! ## One word -/

section Word

variable {x y z : Byte} (hx : x.toNat < 32) (hy : y.toNat < 32) (hz : z.toNat < 32)

/-- The z-characters of a word are its three groups of five bits. -/
theorem zcharsOfWord_eq (w : Word) :
    zcharsOfWord w = [UInt8.ofNat (w.toNat / 1024 % 32), UInt8.ofNat (w.toNat / 32 % 32),
      UInt8.ofNat (w.toNat % 32)] := by
  have low : ∀ v : Word, (v &&& 0x1F).toUInt8 = UInt8.ofNat (v.toNat % 32) := by
    intro v
    have masked : (v &&& 0x1F).toNat = v.toNat % 32 :=
      (UInt16.toNat_and v 0x1F).trans (Nat.and_two_pow_sub_one_eq_mod v.toNat 5)
    apply UInt8.toNat_inj.mp
    rw [UInt16.toNat_toUInt8, masked, UInt8.toNat_ofNat']
  simp only [zcharsOfWord, low]
  simp [Nat.shiftRight_eq_div_pow]

include hx hy hz

theorem toNat_packed :
    ((x.toUInt16 <<< 10) ||| (y.toUInt16 <<< 5) ||| z.toUInt16).toNat =
      x.toNat * 1024 + y.toNat * 32 + z.toNat := by
  have inner : ((y.toUInt16 <<< 5) ||| z.toUInt16).toNat = y.toNat * 32 + z.toNat := by
    rw [toNat_shiftLeft_or (by decide)]
    · simp
    · simp
      omega
    · simpa using hz
  rw [UInt16.or_assoc, toNat_shiftLeft_or (by decide), inner]
  · simp
    omega
  · simp
    omega
  · rw [inner]
    simp
    omega

/-- Marking the end of a string adds the top bit. -/
theorem toNat_marked :
    ((x.toUInt16 <<< 10) ||| (y.toUInt16 <<< 5) ||| z.toUInt16 ||| 0x8000).toNat =
      0x8000 + (x.toNat * 1024 + y.toNat * 32 + z.toNat) := by
  have packed := toNat_packed hx hy hz
  have mark : (0x8000 : Word) = (1 : Word) <<< (15 : Word) := rfl
  rw [UInt16.or_comm, mark, toNat_shiftLeft_or (by decide), packed]
  · rfl
  · decide
  · rw [packed]
    simp
    omega

omit hx in
/-- A word whose low fifteen bits hold three z-characters gives them back. -/
theorem zcharsOfWord_of_toNat {w : Word}
    (held : w.toNat % 0x8000 = x.toNat * 1024 + y.toNat * 32 + z.toNat) :
    zcharsOfWord w = [x, y, z] := by
  have first : w.toNat / 1024 % 32 = x.toNat := by omega
  have second : w.toNat / 32 % 32 = y.toNat := by omega
  have third : w.toNat % 32 = z.toNat := by omega
  rw [zcharsOfWord_eq, first, second, third]
  simp

end Word

/-! ## Packing -/

/-- Every z-character takes five bits. -/
def Narrow (zs : List Byte) : Prop :=
  ∀ z ∈ zs, z.toNat < 32

/-- The end mark stands on the last word and on no other. -/
def EndMarked (words : List Word) : Prop :=
  ∀ (k : Nat) (w : Word), words[k]? = some w → endsString w = decide (k + 1 = words.length)

theorem endMarked_cons {w : Word} {rest : List Word} :
    EndMarked (w :: rest) ↔ endsString w = decide (rest = []) ∧ EndMarked rest := by
  constructor
  · intro marked
    refine ⟨?_, fun k v found => ?_⟩
    · have := marked 0 w rfl
      simpa [List.length_eq_zero_iff, eq_comm] using this
    · have := marked (k + 1) v found
      simpa using this
  · rintro ⟨first, marked⟩ k v found
    cases k with
    | zero =>
        obtain rfl : w = v := Option.some.inj found
        simpa [List.length_eq_zero_iff, eq_comm] using first
    | succ k => simpa using marked k v found

/-- **Packing.** Whole words of z-characters are packed into as many words, which
hold the z-characters in order, and only the last is marked. -/
theorem packWords_whole {zs : List Byte} (narrow : Narrow zs) {count : Nat}
    (whole : zs.length = 3 * count) :
    (packWords zs).length = count ∧ (packWords zs).flatMap zcharsOfWord = zs ∧
      EndMarked (packWords zs) := by
  induction count generalizing zs with
  | zero =>
      obtain rfl : zs = [] := List.length_eq_zero_iff.mp whole
      exact ⟨rfl, rfl, fun _ _ found => by cases found⟩
  | succ count ih =>
      match zs, whole with
      | x :: y :: z :: rest, whole =>
          have hx := narrow x (by simp)
          have hy := narrow y (by simp)
          have hz := narrow z (by simp)
          have narrow' : Narrow rest := fun v member => narrow v (by simp [member])
          have whole' : rest.length = 3 * count := by
            simp only [List.length_cons] at whole
            omega
          obtain ⟨length, held, marked⟩ := ih narrow' whole'
          rw [packWords]
          split
          · rename_i short
            obtain rfl : rest = [] := List.length_eq_zero_iff.mp (by omega)
            have value := toNat_marked hx hy hz
            refine ⟨?_, ?_, ?_⟩
            · simp only [List.length_singleton, List.length_nil] at whole' ⊢
              omega
            · rw [List.flatMap_singleton, zcharsOfWord_of_toNat (x := x) hy hz (by omega)]
            · rw [endMarked_cons]
              refine ⟨?_, fun _ _ found => by cases found⟩
              simp only [endsString, value]
              simp
          · rename_i long
            have value := toNat_packed hx hy hz
            have more : packWords rest ≠ [] := by
              intro empty
              rw [empty] at length
              simp only [List.length_nil] at length
              omega
            refine ⟨by rw [List.length_cons, length], ?_, ?_⟩
            · rw [List.flatMap_cons, held, zcharsOfWord_of_toNat (x := x) hy hz (by omega)]
              rfl
            · rw [endMarked_cons]
              refine ⟨?_, marked⟩
              simp only [endsString, value, more, decide_false, decide_eq_false_iff_not]
              omega

/-! ## Collecting -/

/-- One or two z-characters that do not fill a word are dropped. -/
theorem packWords_take (zs : List Byte) :
    packWords (zs.take (3 * (zs.length / 3))) = packWords zs := by
  fun_induction packWords zs with
  | case1 x y z rest word short =>
      have none : (x :: y :: z :: rest).take (3 * ((x :: y :: z :: rest).length / 3)) = [x, y, z] := by
        have : 3 * ((x :: y :: z :: rest).length / 3) = 3 := by
          simp only [List.length_cons]
          omega
        rw [this]
        rfl
      rw [none]
      rfl
  | case2 x y z rest word long ih =>
      have more : 3 * ((x :: y :: z :: rest).length / 3) = 3 * (rest.length / 3) + 3 := by
        simp only [List.length_cons]
        omega
      have long' : ¬ (rest.take (3 * (rest.length / 3))).length < 3 := by
        rw [List.length_take]
        omega
      rw [more, List.take_succ_cons, List.take_succ_cons, List.take_succ_cons, packWords,
        if_neg long', ih]
  | case3 zs short =>
      have few : zs.length < 3 := by
        match zs, short with
        | [], _ => exact Nat.succ_pos _
        | [_], _ => exact Nat.succ_lt_succ (Nat.succ_pos _)
        | [_, _], _ => exact Nat.lt_succ_self _
        | x :: y :: z :: rest, short => exact absurd rfl (short x y z rest)
      rw [Nat.div_eq_of_lt few]
      rfl

theorem length_bytesOfWords (words : List Word) :
    (bytesOfWords words).length = 2 * words.length := by
  induction words with
  | nil => rfl
  | cons w rest ih =>
      simp only [bytesOfWords, List.flatMap_cons, List.length_append, List.length_cons] at ih ⊢
      rw [ih]
      simp
      omega

/-- The words stand in the bytes from a place on. -/
def StandAt (bytes : Array Byte) (place : Nat) (words : List Word) : Prop :=
  ∀ (k : Nat) (w : Word), words[k]? = some w →
    bytes[place + 2 * k]? = some (highByte w) ∧ bytes[place + 2 * k + 1]? = some (lowByte w)

theorem standAt_bytesOfWords (words : List Word) :
    StandAt (bytesOfWords words).toArray 0 words := by
  intro k w found
  simp only [List.getElem?_toArray, Nat.zero_add]
  induction words generalizing k with
  | nil => cases found
  | cons v rest ih =>
      cases k with
      | zero =>
          obtain rfl : v = w := Option.some.inj found
          exact ⟨rfl, rfl⟩
      | succ k => exact ih k found

theorem StandAt.tail {bytes : Array Byte} {place : Nat} {w : Word} {rest : List Word}
    (stand : StandAt bytes place (w :: rest)) : StandAt bytes (place + 2) rest := by
  intro k v found
  have := stand (k + 1) v found
  rwa [show place + 2 * (k + 1) = place + 2 + 2 * k by omega] at this

/-- **Collecting.** Words of which only the last is marked are collected whole. -/
theorem gather_words {bytes : Array Byte} {start offset : Nat} {words : List Word}
    (stand : StandAt bytes (start + offset) words) (marked : EndMarked words) (found : Array Byte) :
    gather bytes (some (offset + 2 * words.length)) start offset found =
      ⟨found ++ (words.flatMap zcharsOfWord).toArray, offset + 2 * words.length, true⟩ := by
  induction words generalizing offset found with
  | nil =>
      rw [gather]
      simp
  | cons w rest ih =>
      obtain ⟨high, low⟩ := stand 0 w rfl
      obtain ⟨inside, high⟩ := Array.getElem?_eq_some_iff.mp high
      obtain ⟨inside', low⟩ := Array.getElem?_eq_some_iff.mp low
      simp only [Nat.mul_zero, Nat.add_zero] at inside inside' high low
      have unbounded : ¬ (some (offset + 2 * (w :: rest).length)).any (· ≤ offset) = true := by
        simp
      have appended : found ++ zcharsOfWord w = found ++ (zcharsOfWord w).toArray :=
        Array.ext' (by simp)
      obtain ⟨first, marked⟩ := endMarked_cons.mp marked
      rw [gather, if_neg unbounded, dif_pos inside']
      simp only [high, low, wordOfBytes_bytes, first]
      by_cases last : rest = []
      · subst last
        simp [appended]
      · have after : StandAt bytes (start + (offset + 2)) rest := stand.tail
        have total : offset + 2 * (w :: rest).length = offset + 2 + 2 * rest.length := by
          rw [List.length_cons]
          omega
        rw [decide_eq_false last, total, ih after marked, appended]
        simp

/-- Collecting up to an even bound looks only at the bytes before the bound. -/
theorem gather_extract {bytes : Array Byte} {start limit offset : Nat} (found : Array Byte)
    (inside : start + limit ≤ bytes.size) (even : limit % 2 = 0) (aligned : offset % 2 = 0) :
    gather (bytes.extract start (start + limit)) (some limit) 0 offset found =
      gather bytes (some limit) start offset found := by
  -- Before an even bound a whole word is left, so both sides read the same one.
  have room : ∀ {offset : Nat}, offset % 2 = 0 →
      ¬ Option.any (fun x => decide (x ≤ offset)) (some limit) = true →
      0 + offset + 1 < (bytes.extract start (start + limit)).size := by
    intro offset aligned unbounded
    simp only [Option.any_some, decide_eq_true_eq, Nat.not_le] at unbounded
    rw [Array.size_extract]
    omega
  fun_induction gather bytes (some limit) start offset found with
  | case1 offset found bounded => rw [gather, if_pos bounded]
  | case2 offset found unbounded inside' word found' last =>
      rw [gather, if_neg unbounded, dif_pos (room aligned unbounded)]
      simp only [Array.getElem_extract, Nat.zero_add, ← Nat.add_assoc]
      rw [if_pos last]
  | case3 offset found unbounded inside' word found' more ih =>
      rw [gather, if_neg unbounded, dif_pos (room aligned unbounded)]
      simp only [Array.getElem_extract, Nat.zero_add, ← Nat.add_assoc]
      rw [if_neg more]
      exact ih (by omega)
  | case4 offset found unbounded outside =>
      have := room aligned unbounded
      rw [Array.size_extract] at this
      omega

end ZMachine.Text
