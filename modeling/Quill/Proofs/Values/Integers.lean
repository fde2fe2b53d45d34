import Mathlib.Tactic.Linarith
import Quill.Value.Comparison

/-!
# Integers are exact or refused

An operator on integers gives the exact result if this is an integer, and a fault if it is none. For
powers this is a property of repeated squaring, which multiplies integers only: a factor that does
not fit makes no product fit that it is a part of, as long as the other factors are not zero. The
one exception to this would be a square of 2 ^ 63, and there is none.
-/

namespace Quill

namespace Integer

/-- Whether there is an integer with the value. -/
def Fits (value : Int) : Prop :=
  -2 ^ 63 ≤ value ∧ value < 2 ^ 63

theorem fits_toInt (n : Int64) : Fits n.toInt :=
  ⟨n.le_toInt, n.toInt_lt⟩

theorem ofInt?_toInt (n : Int64) : ofInt? n.toInt = some n :=
  ofInt?_eq_some_iff.mpr rfl

theorem ofInt?_eq_none_iff {value : Int} : ofInt? value = none ↔ ¬Fits value := by
  unfold ofInt? Fits
  rw [Int64.toInt_minValue, Int64.toInt_maxValue, ite_eq_right_iff]
  simp only [reduceCtorEq, imp_false]
  omega

theorem ofInt?_of_not_fits {value : Int} (unfit : ¬Fits value) : ofInt? value = none :=
  ofInt?_eq_none_iff.mpr unfit

theorem not_fits_of_natAbs {value : Int} (large : 2 ^ 63 < value.natAbs) : ¬Fits value := by
  rintro ⟨low, high⟩
  omega

theorem natAbs_of_not_fits {value : Int} (unfit : ¬Fits value) : 2 ^ 63 ≤ value.natAbs := by
  unfold Fits at unfit
  omega

/-! ## Powers -/

/-- What does not fit does not fit any better after a multiplication that makes it grow. -/
theorem not_fits_mul {value factor : Int} (unfit : ¬Fits value) (grows : 2 ≤ factor.natAbs) :
    ¬Fits (value * factor) := by
  apply not_fits_of_natAbs
  rw [Int.natAbs_mul]
  calc 2 ^ 63 < 2 ^ 63 * 2 := by decide
    _ ≤ value.natAbs * factor.natAbs := Nat.mul_le_mul (natAbs_of_not_fits unfit) grows

/-- The least magnitude of an integer is not a square. So a square that does not fit lies beyond
it, and no multiple of the square fits. -/
theorem not_fits_mul_square {base factor : Int} (unfit : ¬Fits (base * base))
    (nonzero : factor ≠ 0) : ¬Fits (factor * (base * base)) := by
  have large := natAbs_of_not_fits unfit
  rw [Int.natAbs_mul] at large
  have root : 3037000500 ≤ base.natAbs := by
    by_contra! small
    have := Nat.mul_le_mul (Nat.le_of_lt_succ small) (Nat.le_of_lt_succ small)
    omega
  apply not_fits_of_natAbs
  rw [Int.natAbs_mul, Int.natAbs_mul]
  calc 2 ^ 63 < 1 * (3037000500 * 3037000500) := by decide
    _ ≤ factor.natAbs * (base.natAbs * base.natAbs) :=
      Nat.mul_le_mul (Int.natAbs_pos.mpr nonzero) (Nat.mul_le_mul root root)

/-- No multiple of a power of such a square fits either. -/
theorem not_fits_mul_pow_square {base factor : Int} (unfit : ¬Fits (base * base))
    (nonzero : factor ≠ 0) {exponent : Nat} (positive : 0 < exponent) :
    ¬Fits (factor * (base * base) ^ exponent) := by
  have square : base * base ≠ 0 := fun zero => by
    rw [zero] at unfit
    exact unfit (fits_toInt 0)
  rw [← Nat.sub_add_cancel positive, pow_succ, ← mul_assoc]
  exact not_fits_mul_square unfit (mul_ne_zero nonzero (pow_ne_zero _ square))

theorem two_le_natAbs_pow {base : Int} (grows : 2 ≤ base.natAbs) {exponent : Nat}
    (positive : 0 < exponent) : 2 ≤ (base ^ exponent).natAbs := by
  rw [Int.natAbs_pow]
  exact Nat.le_trans grows (Nat.le_self_pow (Nat.ne_of_gt positive) _)

/-- The factor that the product takes up at an exponent. -/
def factorAt (base : Int) (exponent : Nat) : Int :=
  if exponent % 2 = 1 then base else 1

theorem factorAt_ne_zero {base : Int} (nonzero : base ≠ 0) (exponent : Nat) :
    factorAt base exponent ≠ 0 := by
  unfold factorAt
  split <;> omega

/-- A power is one of the square, with the exponent halved, times what the product takes up. -/
theorem pow_eq_mul_pow_square (base : Int) (exponent : Nat) :
    base ^ exponent = factorAt base exponent * (base * base) ^ (exponent / 2) := by
  rw [factorAt, ← pow_two, ← pow_mul]
  split
  · rw [← pow_succ', show 2 * (exponent / 2) + 1 = exponent by omega]
  · rw [one_mul, show 2 * (exponent / 2) = exponent by omega]

theorem take_eq (product base : Int64) (exponent : Nat) :
    (if exponent % 2 = 1 then mul? product base else some product) =
      ofInt? (product.toInt * factorAt base.toInt exponent) := by
  unfold factorAt
  split
  · rfl
  · rw [mul_one, ofInt?_toInt]

/-- Repeated squaring finds the exact result or none, also where a square on the way does not
fit. -/
theorem mulPow?_eq {product base : Int64} (nonzero : product.toInt ≠ 0)
    (grows : 2 ≤ base.toInt.natAbs) (exponent : Nat) :
    mulPow? product base exponent = ofInt? (product.toInt * base.toInt ^ exponent) := by
  induction exponent using Nat.strongRecOn generalizing product base with
  | ind exponent ih =>
    rw [mulPow?]
    split
    · rename_i zero
      rw [zero, pow_zero, mul_one, ofInt?_toInt]
    split
    · rename_i one
      rw [one, pow_one, mul?]
    have half : 0 < exponent / 2 := by omega
    have nonzero : product.toInt * factorAt base.toInt exponent ≠ 0 :=
      mul_ne_zero nonzero (factorAt_ne_zero (by omega) exponent)
    have grows : 2 ≤ (base.toInt * base.toInt).natAbs := by
      rw [Int.natAbs_mul]
      exact Nat.mul_le_mul (Nat.le_of_succ_le grows) grows
    rw [take_eq, pow_eq_mul_pow_square, ← mul_assoc]
    cases taken : ofInt? (product.toInt * factorAt base.toInt exponent) with
    | none =>
      have unfit := ofInt?_eq_none_iff.mp taken
      exact (ofInt?_of_not_fits (not_fits_mul unfit (two_le_natAbs_pow grows half))).symm
    | some next =>
      rw [← ofInt?_eq_some_iff.mp taken] at nonzero ⊢
      rw [Option.bind_some, mul?]
      cases squared : ofInt? (base.toInt * base.toInt) with
      | none =>
        have unfit := ofInt?_eq_none_iff.mp squared
        exact (ofInt?_of_not_fits (not_fits_mul_pow_square unfit nonzero half)).symm
      | some square =>
        rw [← ofInt?_eq_some_iff.mp squared] at grows ⊢
        exact ih (exponent / 2) (by omega) nonzero grows

/-- A power is exact or refused, whatever the exponent is. -/
theorem pow?_eq (a : Int64) (exponent : Nat) : pow? a exponent = ofInt? (a.toInt ^ exponent) := by
  rw [pow?]
  split
  · rename_i trivial
    obtain ⟨rfl | rfl, positive⟩ := trivial
    · rw [Int64.toInt_zero, zero_pow (Nat.ne_of_gt positive)]
      rfl
    · rw [Int64.toInt_one, one_pow]
      rfl
  rename_i other
  split
  · rename_i minus
    subst minus
    split
    · rename_i even
      rw [show (-1 : Int64).toInt = -1 by rfl, (Nat.even_iff.mpr even).neg_one_pow]
      rfl
    · rename_i odd
      rw [show (-1 : Int64).toInt = -1 by rfl, (Nat.odd_iff.mpr (by omega)).neg_one_pow]
      rfl
  rename_i minus
  have one : (1 : Int64).toInt ≠ 0 := by decide
  by_cases zero : exponent = 0
  · subst zero
    rw [if_pos (Nat.zero_le _), mulPow?, if_pos rfl, pow_zero]
    rfl
  have grows : 2 ≤ a.toInt.natAbs := by
    have notZero : a.toInt ≠ 0 := fun same => other ⟨.inl (Int64.toInt_inj.mp same), by omega⟩
    have notOne : a.toInt ≠ 1 := fun same => other ⟨.inr (Int64.toInt_inj.mp same), by omega⟩
    have notMinus : a.toInt ≠ -1 := fun same => minus (Int64.toInt_inj.mp same)
    omega
  split
  · rw [mulPow?_eq one grows, Int64.toInt_one, one_mul]
  · rename_i huge
    symm
    apply ofInt?_of_not_fits
    apply not_fits_of_natAbs
    rw [Int.natAbs_pow]
    have far : 64 ≤ exponent := by
      unfold maxExponent UInt32.size at huge
      omega
    calc 2 ^ 63 < 2 ^ 64 := by decide
      _ ≤ 2 ^ exponent := Nat.pow_le_pow_right (by decide) far
      _ ≤ a.toInt.natAbs ^ exponent := Nat.pow_le_pow_left grows exponent

/-! ## Quotients -/

/-- One single quotient of integers is none, although the divisor is not zero. -/
theorem fits_tdiv_iff (a b : Int64) :
    Fits (a.toInt.tdiv b.toInt) ↔ ¬(a = Int64.minValue ∧ b = -1) := by
  have same (n m : Int64) : n.toInt = m.toInt ↔ n = m := Int64.toInt_inj
  rw [← same, ← same, Int64.toInt_minValue, show (-1 : Int64).toInt = -1 by rfl]
  constructor
  · rintro ⟨-, high⟩ ⟨least, minus⟩
    rw [least, minus] at high
    exact absurd high (by decide)
  · intro other
    obtain ⟨low, high⟩ := fits_toInt a
    have magnitude := Int.natAbs_tdiv a.toInt b.toInt
    unfold Fits
    by_cases unit : b.toInt.natAbs = 1
    · obtain one | minus : b.toInt = 1 ∨ b.toInt = -1 := by omega
      · rw [one, Int.tdiv_one]
        omega
      · rw [minus, Int.tdiv_neg, Int.tdiv_one]
        omega
    · have half : a.toInt.natAbs / b.toInt.natAbs ≤ a.toInt.natAbs / 2 := by
        obtain zero | large : b.toInt.natAbs = 0 ∨ 2 ≤ b.toInt.natAbs := by omega
        · rw [zero, Nat.div_zero]
          exact Nat.zero_le _
        · exact Nat.div_le_div_left large (by decide)
      change _ = a.toInt.natAbs / b.toInt.natAbs at magnitude
      omega

end Integer

namespace Value

open Integer (Fits)

/-- The outcome of an operation is the integer with the value `exact`, or a fault if there is no
such integer. -/
structure Exact (exact : Int) (outcome : Except Fault Value) : Prop where
  /-- There is a value exactly if the integer exists, and then it is the integer. -/
  ok_iff : ∀ value, outcome = .ok value ↔ ∃ n : Int64, value = int n ∧ n.toInt = exact
  /-- There is a fault exactly if the integer does not exist, and then it is an overflow. -/
  error_iff : ∀ fault, outcome = .error fault ↔ fault = .integerOverflow ∧ ¬Fits exact

/-- What operators do with a result that may not fit. -/
theorem exact_ofInt? (exact : Int) :
    Exact exact (match Integer.ofInt? exact with
      | some n => .ok (int n)
      | none => .error .integerOverflow) := by
  cases found : Integer.ofInt? exact with
  | some n =>
    obtain rfl := Integer.ofInt?_eq_some_iff.mp found
    constructor
    · intro value
      constructor
      · rintro ⟨⟩
        exact ⟨n, rfl, rfl⟩
      · rintro ⟨m, rfl, same⟩
        rw [Int64.toInt_inj.mp same]
    · intro fault
      constructor
      · rintro ⟨⟩
      · rintro ⟨-, unfit⟩
        exact absurd (Integer.fits_toInt n) unfit
  | none =>
    have unfit := Integer.ofInt?_eq_none_iff.mp found
    constructor
    · intro value
      constructor
      · rintro ⟨⟩
      · rintro ⟨n, -, rfl⟩
        exact absurd (Integer.fits_toInt n) unfit
    · intro fault
      constructor
      · rintro ⟨⟩
        exact ⟨rfl, unfit⟩
      · rintro ⟨rfl, -⟩
        rfl

/-- Sums, differences, products, powers with natural exponents, quotients and negations of integers
are exact if they are integers, and faults if they are not. A quotient is truncated towards zero.
Division fails for the divisor zero in one way, and for one other pair of integers in the way of all
results that do not fit. -/
theorem integer_operators_exact (a b : Int64) :
    Exact (a.toInt + b.toInt) (binary .add (int a) (int b)) ∧
      Exact (a.toInt - b.toInt) (binary .sub (int a) (int b)) ∧
      Exact (a.toInt * b.toInt) (binary .mul (int a) (int b)) ∧
      (0 ≤ b.toInt → Exact (a.toInt ^ b.toInt.toNat) (binary .pow (int a) (int b))) ∧
      (b ≠ 0 → Exact (a.toInt.tdiv b.toInt) (binary .div (int a) (int b))) ∧
      (binary .div (int a) (int b) = .error .divisionByZero ↔ b = 0) ∧
      (binary .div (int a) (int b) = .error .integerOverflow ↔ a = Int64.minValue ∧ b = -1) ∧
      Exact (-a.toInt) (unary .negate (int a)) ∧
      (unary .negate (int a) = .error .integerOverflow ↔ a = Int64.minValue) := by
  have quotient (divisor : b ≠ 0) :
      Exact (a.toInt.tdiv b.toInt) (binary .div (int a) (int b)) := by
    change Exact _ (if b = 0 then _ else _)
    rw [if_neg divisor]
    exact exact_ofInt? _
  have negation : Exact (-a.toInt) (unary .negate (int a)) := by
    rw [← Int.mul_neg_one]
    exact exact_ofInt? _
  have none : binary .div (int a) (int 0) = .error .divisionByZero := rfl
  refine ⟨exact_ofInt? _, exact_ofInt? _, exact_ofInt? _, ?_, quotient, ?_, ?_,
    negation, ?_⟩
  · intro natural
    have exponent : Integer.toNat? b = some b.toInt.toNat := if_pos natural
    have power := exact_ofInt? (a.toInt ^ b.toInt.toNat)
    rw [← Integer.pow?_eq] at power
    change Exact _ (integerArithmetic .pow a b)
    simp only [integerArithmetic, exponent]
    exact power
  · by_cases divisor : b = 0
    · subst divisor
      exact iff_of_true none rfl
    · rw [(quotient divisor).error_iff]
      simp [divisor]
  · by_cases divisor : b = 0
    · subst divisor
      rw [none]
      exact iff_of_false (by rintro ⟨⟩) fun ⟨_, minus⟩ => absurd minus (by decide)
    · rw [(quotient divisor).error_iff, Integer.fits_tdiv_iff, not_not]
      exact and_iff_right rfl
  · rw [negation.error_iff, ← Int64.toInt_inj, Int64.toInt_minValue]
    have ⟨low, high⟩ := Integer.fits_toInt a
    unfold Fits
    simp only [true_and]
    omega

/-- The power of minus two that is the least integer, which repeated squaring has to find without a
square that does not fit. -/
theorem integer_operators_exact_least :
    0 ≤ (63 : Int64).toInt ∧ (63 : Int64) ≠ 0 ∧
      Exact (-2 ^ 63) (binary .pow (int (-2)) (int 63)) ∧
      Exact 0 (binary .div (int (-2)) (int 63)) := by
  obtain ⟨-, -, -, power, quotient, -⟩ := integer_operators_exact (-2) 63
  exact ⟨by decide, by decide, power (by decide), quotient (by decide)⟩

end Value

end Quill
