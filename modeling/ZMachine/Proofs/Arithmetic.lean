import Mathlib.Data.Rat.Floor
import ZMachine.Arithmetic

/-!
# Floored division

The quotient of two words is found in two steps: the Euclidean quotient, and a correction
where the divisor is negative and does not go in evenly. Together they give the floor of the
exact quotient (`floor_div_eq`), and what that leaves of the dividend lies between zero and
the divisor (`floor_leaves`).

The steps are taken on numbers of thirty-two bits. Words are so small against them that no
step leaves their range (`calculatesExactly`), so that the numbers computed are those of
integer arithmetic. Only the last step, which goes back to a word, can lose something: the
quotient of the least word by minus one is one more than a word can hold.
-/

set_option autoImplicit false

namespace ZMachine

/-! ## Words and the numbers they stand for -/

theorem signed_bounds (w : Word) : -0x8000 ≤ signed w ∧ signed w < 0x8000 := by
  have bound := w.toNat_lt
  rw [signed]
  split <;> omega

/-- A number in the range of a signed word is kept by one. -/
theorem signed_wordOfInt {n : Int} (low : -0x8000 ≤ n) (high : n < 0x8000) :
    signed (wordOfInt n) = n := by
  have narrow : (n % 0x10000).toNat < 2 ^ 16 := by omega
  have held : (wordOfInt n).toNat = (n % 0x10000).toNat := UInt16.toNat_ofNat_of_lt' narrow
  rw [signed, held]
  split <;> omega

theorem signed_eq_zero {w : Word} : signed w = 0 ↔ w = 0 := by
  have bound := w.toNat_lt
  rw [← UInt16.toNat_inj, UInt16.toNat_zero, signed]
  split <;> omega

/-- The size of a signed word. -/
theorem abs_signed_le (w : Word) : |signed w| ≤ 0x8000 := by
  obtain ⟨low, high⟩ := signed_bounds w
  exact abs_le.mpr ⟨low, by omega⟩

/-! ## Numbers of thirty-two bits -/

theorem toInt_widen (w : Word) : (widen w).toInt = signed w := by
  obtain ⟨low, high⟩ := signed_bounds w
  exact Int32.toInt_ofInt_of_le (by omega) (by omega)

/-- The Euclidean quotient of words is no larger than the dividend, so thirty-two bits hold
it. -/
theorem toInt_euclideanQuotient (a b : Word) :
    (euclideanQuotient (widen a) (widen b)).toInt = signed a / signed b := by
  have bound := (Int.abs_ediv_le_abs (signed a) (signed b)).trans (abs_signed_le a)
  obtain ⟨low, high⟩ := abs_le.mp bound
  rw [euclideanQuotient, toInt_widen, toInt_widen]
  exact Int32.toInt_ofInt_of_le (by omega) (by omega)

theorem toInt_euclideanRemainder {a b : Word} (nonzero : signed b ≠ 0) :
    (euclideanRemainder (widen a) (widen b)).toInt = signed a % signed b := by
  have low := Int.emod_nonneg (signed a) nonzero
  have high := (Int.emod_lt_abs (signed a) nonzero).trans_le (abs_signed_le b)
  rw [euclideanRemainder, toInt_widen, toInt_widen]
  exact Int32.toInt_ofInt_of_le (by omega) (by omega)

/-- The correction is made when the divisor is negative and does not go in evenly. -/
theorem toInt_floorCorrection {a b : Word} (nonzero : signed b ≠ 0) :
    (floorCorrection (widen a) (widen b)).toInt =
      if signed b < 0 ∧ signed a % signed b ≠ 0 then -1 else 0 := by
  have negative : widen b < 0 ↔ signed b < 0 := by
    rw [Int32.lt_iff_toInt_lt, toInt_widen, Int32.toInt_zero]
  have uneven : euclideanRemainder (widen a) (widen b) ≠ 0 ↔ signed a % signed b ≠ 0 := by
    rw [ne_eq, ← Int32.toInt_inj, toInt_euclideanRemainder nonzero, Int32.toInt_zero]
  simp only [floorCorrection, negative, uneven]
  split <;> rfl

/-- A division of two words stays within thirty-two bits: each number that is computed on the
way is the one of integer arithmetic, whatever quotient the remainder is taken for. -/
structure CalculatesExactly (a b : Word) : Prop where
  dividend : (widen a).toInt = signed a
  divisor : (widen b).toInt = signed b
  quotient : (euclideanQuotient (widen a) (widen b)).toInt = signed a / signed b
  rest : (euclideanRemainder (widen a) (widen b)).toInt = signed a % signed b
  corrected : (euclideanQuotient (widen a) (widen b) + floorCorrection (widen a) (widen b)).toInt =
    (euclideanQuotient (widen a) (widen b)).toInt + (floorCorrection (widen a) (widen b)).toInt
  product (q : Word) : (widen b * widen q).toInt = (widen b).toInt * (widen q).toInt
  difference (q : Word) :
    (widen a - widen b * widen q).toInt = (widen a).toInt - (widen b * widen q).toInt

theorem calculatesExactly {a b : Word} (nonzero : signed b ≠ 0) : CalculatesExactly a b := by
  have quotient := toInt_euclideanQuotient a b
  have product : ∀ q : Word, |signed b * signed q| ≤ 0x8000 * 0x8000 := by
    intro q
    rw [abs_mul]
    exact mul_le_mul (abs_signed_le b) (abs_signed_le q) (abs_nonneg _) (by decide)
  have exact_product : ∀ q : Word, (widen b * widen q).toInt = signed b * signed q := by
    intro q
    obtain ⟨low, high⟩ := abs_le.mp (product q)
    rw [Int32.toInt_mul, toInt_widen, toInt_widen]
    exact Int.bmod_eq_of_le_mul_two (by omega) (by omega)
  refine ⟨toInt_widen a, toInt_widen b, quotient, toInt_euclideanRemainder nonzero, ?_, ?_, ?_⟩
  · have bound := (Int.abs_ediv_le_abs (signed a) (signed b)).trans (abs_signed_le a)
    obtain ⟨low, high⟩ := abs_le.mp bound
    rw [Int32.toInt_add, quotient, toInt_floorCorrection nonzero]
    exact Int.bmod_eq_of_le_mul_two (by split <;> omega) (by split <;> omega)
  · intro q
    rw [exact_product, toInt_widen, toInt_widen]
  · intro q
    obtain ⟨low, high⟩ := abs_le.mp (product q)
    obtain ⟨low', high'⟩ := signed_bounds a
    rw [Int32.toInt_sub, exact_product, toInt_widen]
    exact Int.bmod_eq_of_le_mul_two (by omega) (by omega)

/-! ## The floor of a quotient -/

section Floor

variable {x y : Int}

/-- A quotient that leaves something between zero and the divisor is the floor. -/
theorem floor_eq_of_leaves {f : Int}
    (leaves : 0 ≤ x - y * f ∧ x - y * f < y ∨ y < x - y * f ∧ x - y * f ≤ 0) :
    ⌊(x : ℚ) / y⌋ = f := by
  rw [Int.floor_eq_iff]
  obtain ⟨low, high⟩ | ⟨low, high⟩ := leaves
  · have positive : (0 : ℚ) < y := by exact_mod_cast low.trans_lt high
    rw [le_div_iff₀ positive, div_lt_iff₀ positive]
    norm_cast
    constructor <;> linarith
  · have negative : (y : ℚ) < 0 := by exact_mod_cast low.trans_le high
    rw [le_div_iff_of_neg negative, div_lt_iff_of_neg negative]
    norm_cast
    constructor <;> linarith

/-- The corrected Euclidean quotient leaves something between zero and the divisor. -/
theorem corrected_leaves (nonzero : y ≠ 0) {f : Int}
    (corrected : f = x / y + if y < 0 ∧ x % y ≠ 0 then -1 else 0) :
    0 ≤ x - y * f ∧ x - y * f < y ∨ y < x - y * f ∧ x - y * f ≤ 0 := by
  have parts := Int.mul_ediv_add_emod x y
  have low := Int.emod_nonneg x nonzero
  have high := Int.emod_lt_abs x nonzero
  by_cases negative : y < 0
  · rw [abs_of_neg negative] at high
    by_cases even : x % y = 0
    · rw [if_neg (fun both => both.2 even), add_zero] at corrected
      subst corrected
      omega
    · rw [if_pos ⟨negative, even⟩] at corrected
      subst corrected
      rw [mul_add]
      omega
  · rw [abs_of_nonneg (not_lt.mp negative)] at high
    rw [if_neg (fun both => negative both.1), add_zero] at corrected
    subst corrected
    omega

/-- **The floor of a quotient** is the Euclidean quotient with its correction. -/
theorem floor_div_eq (nonzero : y ≠ 0) :
    ⌊(x : ℚ) / y⌋ = x / y + if y < 0 ∧ x % y ≠ 0 then -1 else 0 :=
  floor_eq_of_leaves (corrected_leaves nonzero rfl)

/-- What the floored quotient leaves lies between zero and the divisor. -/
theorem floor_leaves (nonzero : y ≠ 0) :
    0 ≤ x - y * ⌊(x : ℚ) / y⌋ ∧ x - y * ⌊(x : ℚ) / y⌋ < y ∨
      y < x - y * ⌊(x : ℚ) / y⌋ ∧ x - y * ⌊(x : ℚ) / y⌋ ≤ 0 :=
  corrected_leaves nonzero (floor_div_eq nonzero)

end Floor

/-- The floor of a quotient of words is in the range of a signed word, but for the least word
divided by minus one. -/
theorem floor_bounds {a b : Word} (nonzero : signed b ≠ 0)
    (fits : ¬ (signed a = -0x8000 ∧ signed b = -1)) :
    -0x8000 ≤ ⌊(signed a : ℚ) / signed b⌋ ∧ ⌊(signed a : ℚ) / signed b⌋ < 0x8000 := by
  obtain ⟨low, high⟩ := signed_bounds a
  rw [Int.le_floor, Int.floor_lt]
  rcases Int.lt_or_gt_of_ne nonzero with negative | positive
  · have negative' : (signed b : ℚ) < 0 := by exact_mod_cast negative
    rw [le_div_iff_of_neg negative', div_lt_iff_of_neg negative']
    norm_cast
    omega
  · have positive' : (0 : ℚ) < signed b := by exact_mod_cast positive
    rw [le_div_iff₀ positive', div_lt_iff₀ positive']
    norm_cast
    omega

/-! ## Quotient and remainder -/

section Division

variable {a b : Word} (nonzero : b ≠ 0)
include nonzero

/-- The quotient is the word that the floor leaves in sixteen bits. -/
theorem divide_eq : divide a b = .ok (wordOfInt ⌊(signed a : ℚ) / signed b⌋) := by
  have nonzero' : signed b ≠ 0 := signed_eq_zero.not.mpr nonzero
  have exactly := calculatesExactly (a := a) nonzero'
  simp only [divide, if_neg nonzero, narrow]
  rw [exactly.corrected, exactly.quotient, toInt_floorCorrection nonzero', floor_div_eq nonzero']

/-- The remainder is taken for the quotient as a word. -/
theorem remainder_eq {q : Word} (quotient : divide a b = .ok q) :
    remainder a b = .ok (wordOfInt (signed a - signed b * signed q)) := by
  have nonzero' : signed b ≠ 0 := signed_eq_zero.not.mpr nonzero
  have exactly := calculatesExactly (a := a) nonzero'
  have difference := exactly.difference q
  rw [exactly.product, toInt_widen, toInt_widen, toInt_widen] at difference
  rw [remainder, if_neg nonzero, quotient, ← difference]
  rfl

end Division

/-- What lies between zero and a number is smaller, and zero or of the same sign. -/
theorem smaller_of_between {r y : Int} (between : 0 ≤ r ∧ r < y ∨ y < r ∧ r ≤ 0) :
    |r| < |y| ∧ (r = 0 ∨ r.sign = y.sign) := by
  obtain ⟨low, high⟩ | ⟨low, high⟩ := between
  · refine ⟨by rwa [abs_of_nonneg low, abs_of_pos (low.trans_lt high)], ?_⟩
    rcases low.eq_or_lt with zero | positive
    · exact .inl zero.symm
    · have above : 0 < y := positive.trans high
      exact .inr (by rw [Int.sign_eq_one_of_pos positive, Int.sign_eq_one_of_pos above])
  · refine ⟨by rwa [abs_of_nonpos high, abs_of_neg (low.trans_le high), neg_lt_neg_iff], ?_⟩
    rcases high.eq_or_lt with zero | negative
    · exact .inl zero
    · have below : y < 0 := low.trans negative
      exact .inr (by rw [Int.sign_eq_neg_one_of_neg negative, Int.sign_eq_neg_one_of_neg below])

/-- **Division floors.** Quotient and remainder are refused for a zero divisor and for no
other. For any other, no step of the calculation leaves thirty-two bits; the quotient is the
floor of the exact one, and the remainder is what the floor leaves of the dividend: smaller
than the divisor, and zero or of its sign. The one floor that no signed word can hold, that
of the least word by minus one, wraps to the least word and leaves nothing. -/
theorem division_floors (a b : Word) :
    ((∃ e, divide a b = .error e) ↔ b = 0) ∧ ((∃ e, remainder a b = .error e) ↔ b = 0) ∧
    (b ≠ 0 → CalculatesExactly a b ∧ ∃ q r, divide a b = .ok q ∧ remainder a b = .ok r ∧
      (¬ (signed a = -32768 ∧ signed b = -1) →
        signed q = ⌊(signed a : ℚ) / signed b⌋ ∧
        signed a = signed b * ⌊(signed a : ℚ) / signed b⌋ + signed r ∧
        |signed r| < |signed b| ∧ (signed r = 0 ∨ (signed r).sign = (signed b).sign)) ∧
      (signed a = -32768 ∧ signed b = -1 → q = 0x8000 ∧ r = 0)) := by
  by_cases zero : b = 0
  · subst zero
    exact ⟨iff_of_true ⟨_, rfl⟩ rfl, iff_of_true ⟨_, rfl⟩ rfl, fun no => absurd rfl no⟩
  have quotient := divide_eq (a := a) zero
  have rest := remainder_eq zero quotient
  have nonzero : signed b ≠ 0 := signed_eq_zero.not.mpr zero
  have succeeds : ∀ {x : Except Fault Word} {w : Word}, x = .ok w → ¬ ∃ e, x = .error e := by
    rintro x w rfl ⟨e, fails⟩
    cases fails
  refine ⟨iff_of_false (succeeds quotient) zero, iff_of_false (succeeds rest) zero, fun _ =>
    ⟨calculatesExactly nonzero, _, _, quotient, rest, ?_, ?_⟩⟩
  · intro fits
    obtain ⟨low, high⟩ := floor_bounds nonzero fits
    have held := signed_wordOfInt low high
    have between := floor_leaves (x := signed a) nonzero
    obtain ⟨smaller, sign⟩ := smaller_of_between between
    obtain ⟨least, most⟩ := abs_le.mp (smaller.le.trans (abs_signed_le b))
    have below : signed a - signed b * ⌊(signed a : ℚ) / signed b⌋ < 0x8000 := by
      have size := signed_bounds b
      omega
    rw [held, signed_wordOfInt least below]
    exact ⟨rfl, (add_sub_cancel _ _).symm, smaller, sign⟩
  · rintro ⟨least, one⟩
    have floor : ⌊(signed a : ℚ) / signed b⌋ = 32768 := by
      rw [least, one]
      norm_num
    rw [floor, least, one]
    decide

/-- Seven by minus two is minus four, and minus one is left: the Euclidean quotient, minus
three, is corrected. -/
theorem seven_by_minus_two :
    (0xFFFE : Word) ≠ 0 ∧ ∃ q r, divide 7 0xFFFE = .ok q ∧ remainder 7 0xFFFE = .ok r ∧
      signed q = -4 ∧ signed r = -1 := by
  have nonzero : (0xFFFE : Word) ≠ 0 := by decide
  have seven : signed 7 = 7 := by decide
  have minus_two : signed 0xFFFE = -2 := by decide
  obtain ⟨_, q, r, quotient, rest, floored, _⟩ := (division_floors 7 0xFFFE).2.2 nonzero
  obtain ⟨floor, parts, _⟩ := floored (by rw [seven]; decide)
  have value : ⌊(signed 7 : ℚ) / signed 0xFFFE⌋ = -4 := by
    rw [seven, minus_two]
    norm_num
  rw [value, seven, minus_two] at parts
  exact ⟨nonzero, q, r, quotient, rest, floor.trans value, by omega⟩

end ZMachine
