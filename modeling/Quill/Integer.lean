/-!
# Integers of the language

Integers are the whole numbers that fit into 64 bits with a sign. Every operation computes the
exact result first and then asks whether it fits; nothing ever wraps around.
-/

namespace Quill.Integer

/-- The integer with the given value, if the value fits. -/
def ofInt? (value : Int) : Option Int64 :=
  if Int64.minValue.toInt ≤ value ∧ value ≤ Int64.maxValue.toInt then
    some (Int64.ofInt value)
  else
    none

/-- An integer is produced exactly if the value fits, and then it has this value. -/
theorem ofInt?_eq_some_iff {value : Int} {n : Int64} :
    ofInt? value = some n ↔ n.toInt = value := by
  unfold ofInt?
  rw [Int64.toInt_minValue, Int64.toInt_maxValue]
  constructor
  · intro made
    split at made
    · rename_i fits
      cases made
      exact Int64.toInt_ofInt_of_le fits.1 (Int.lt_of_le_sub_one fits.2)
    · simp at made
  · intro same
    have low := n.le_toInt
    have high := Int.le_sub_one_of_lt n.toInt_lt
    rw [← same, if_pos ⟨low, high⟩, Int64.ofInt_toInt]

/-- The number of things that an integer counts, if it is not negative. -/
def toNat? (n : Int64) : Option Nat :=
  if 0 ≤ n.toInt then some n.toInt.toNat else none

/-- The largest exponent that a power may be asked for. -/
def maxExponent : Nat :=
  UInt32.size - 1

/-- The exponent that an integer stands for, if it lies between zero and the largest one. -/
def toExponent? (n : Int64) : Option Nat :=
  (toNat? n).filter (· ≤ maxExponent)

/-- The sum, if it fits. -/
def add? (a b : Int64) : Option Int64 :=
  ofInt? (a.toInt + b.toInt)

/-- The difference, if it fits. -/
def sub? (a b : Int64) : Option Int64 :=
  ofInt? (a.toInt - b.toInt)

/-- The product, if it fits. -/
def mul? (a b : Int64) : Option Int64 :=
  ofInt? (a.toInt * b.toInt)

/-- The quotient with its fraction cut off, if it fits. The divisor must not be zero. -/
def div? (a b : Int64) : Option Int64 :=
  ofInt? (a.toInt.tdiv b.toInt)

/-- The product of an integer and a power, if it fits. The power is found by repeated squaring: as
long as the exponent is greater than one it is halved and the base is squared, and the product takes
up the base wherever the exponent is odd. -/
def mulPow? (product base : Int64) (exponent : Nat) : Option Int64 :=
  if exponent = 0 then some product
  else if exponent = 1 then mul? product base
  else
    (if exponent % 2 = 1 then mul? product base else some product).bind fun product =>
      (mul? base base).bind fun square => mulPow? product square (exponent / 2)

/-- The power with a natural exponent, if it fits. The bases whose powers never grow take any
exponent. All others leave the range of integers long before the largest exponent is reached. -/
def pow? (a : Int64) (exponent : Nat) : Option Int64 :=
  if (a = 0 ∨ a = 1) ∧ 0 < exponent then some a
  else if a = -1 then some (if exponent % 2 = 0 then 1 else -1)
  else if exponent ≤ maxExponent then mulPow? 1 a exponent
  else none

/-- The place in a list of the given length that an index points at. A negative index counts from
the end. -/
def place? (index : Int64) (length : Nat) : Option Nat :=
  let place := if index.toInt < 0 then length + index.toInt else index.toInt
  if 0 ≤ place ∧ place < length then some place.toNat else none

/-- The nearest float. -/
def toFloat (n : Int64) : Float :=
  n.toFloat

end Quill.Integer
