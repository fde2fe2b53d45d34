/-!
# Binary floating-point numbers taken apart

A finite double is a sign, a natural mantissa and a power of two. All decimal texts of floats are
computed from these three numbers in exact integer arithmetic.
-/

namespace Quill.Decimal

/-- The number `mantissa * 2 ^ exponent`, with a sign that also a zero has. -/
structure Binary where
  /-- Whether the number is on the negative side. -/
  negative : Bool
  /-- The digits of the number in base two, as a natural number. -/
  mantissa : Nat
  /-- The power of two that the mantissa is scaled by. -/
  exponent : Int
  /-- Whether the next smaller double is only half as far away as the next larger one. -/
  closeBelow : Bool
deriving DecidableEq, Repr

/-- What a double stands for. -/
inductive Parts where
  /-- No number at all. -/
  | nan
  /-- Beyond all numbers on one side. -/
  | infinite (negative : Bool)
  /-- A number. -/
  | finite (number : Binary)
deriving DecidableEq, Repr

/-- Takes a double apart along the fields of its 64-bit format. -/
def Parts.ofFloat (x : Float) : Parts :=
  let negative := decide (x.toBits >>> 63 = 1)
  let scale := (x.toBits >>> 52 &&& 0x7ff).toNat
  let fraction := (x.toBits &&& 0xfffffffffffff).toNat
  if scale = 2047 then
    if fraction = 0 then .infinite negative else .nan
  else if scale = 0 then
    .finite ⟨negative, fraction, -1074, false⟩
  else
    let mantissa := 0x10000000000000 + fraction
    .finite ⟨negative, mantissa, (scale : Int) - 1075, fraction = 0 && scale > 1⟩

/-- The magnitude of the number as a fraction with a positive denominator. -/
def Binary.fraction (number : Binary) : Nat × Nat :=
  match number.exponent with
  | .ofNat up => (number.mantissa * Nat.pow 2 up, 1)
  | .negSucc down => (number.mantissa, Nat.pow 2 (down + 1))

/-- The magnitude of the number if it is a natural number. -/
def Binary.natural? (number : Binary) : Option Nat :=
  let (top, bottom) := number.fraction
  if top % bottom = 0 then some (top / bottom) else none

/-- The denominator of a number is never zero. -/
theorem Binary.fraction_pos (number : Binary) : 0 < number.fraction.2 := by
  unfold fraction
  split
  · exact Nat.one_pos
  · exact Nat.two_pow_pos _

end Quill.Decimal
