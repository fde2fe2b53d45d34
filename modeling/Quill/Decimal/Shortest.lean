import Quill.Decimal.Binary

/-!
# The fewest digits that read back

Every double owns an interval of reals: those that are nearer to it than to any other double. The
two ends belong to it exactly if its mantissa is even. A decimal number in the interval reads back
as the double, so the shortest decimal text comes from the coarsest power of ten of which some
multiple lies in the interval. Only the two multiples around the double itself have to be tried:
if any multiple is in the interval, one of these is.
-/

namespace Quill.Decimal

/-- The number `digits * 10 ^ exponent`. -/
structure Scaled where
  /-- The significant digits, read as one natural number. -/
  digits : Nat
  /-- The power of ten of the last digit. -/
  exponent : Int
deriving DecidableEq, Repr

/-- The reals that round to a double, as numerators over one denominator. -/
structure Interval where
  /-- The numerator of the lower end. -/
  low : Nat
  /-- The numerator of the double itself. -/
  middle : Nat
  /-- The numerator of the upper end. -/
  high : Nat
  /-- The denominator of all three. -/
  denominator : Nat
  /-- Whether the ends belong to the interval. -/
  closed : Bool
deriving DecidableEq, Repr

/-- The interval of a double: half of the way to each of its neighbours. -/
def Interval.around (number : Binary) : Interval :=
  let (top, bottom) := number.fraction
  let unit := match number.exponent with
    | .ofNat up => Nat.pow 2 up
    | .negSucc _ => 1
  { low := 4 * top - (if number.closeBelow then unit else 2 * unit)
    middle := 4 * top
    high := 4 * top + 2 * unit
    denominator := 4 * bottom
    closed := number.mantissa % 2 = 0 }

/-- The interval with the unit of measure changed to a power of ten. -/
def Interval.inUnits (interval : Interval) : Int → Interval
  | .ofNat up => { interval with denominator := interval.denominator * Nat.pow 10 up }
  | .negSucc down =>
    { interval with
      low := interval.low * Nat.pow 10 (down + 1)
      middle := interval.middle * Nat.pow 10 (down + 1)
      high := interval.high * Nat.pow 10 (down + 1) }

/-- Whether a whole number of units lies in the interval. -/
def Interval.holds (interval : Interval) (units : Nat) : Bool :=
  let point := units * interval.denominator
  if interval.closed then
    interval.low ≤ point && point ≤ interval.high
  else
    interval.low < point && point < interval.high

/-- The whole number of units in the interval that is nearest to its middle, the larger one of two
that are equally near. -/
def Interval.whole? (interval : Interval) : Option Nat :=
  let below := interval.middle / interval.denominator
  let rest := interval.middle % interval.denominator
  match interval.holds below, interval.holds (below + 1) with
  | true, true => some (if 2 * rest < interval.denominator then below else below + 1)
  | true, false => some below
  | false, true => some (below + 1)
  | false, false => none

/-- Tries powers of ten downwards, starting at `exponent`, until one has a multiple in the
interval. The last power is taken without a test. -/
def Interval.coarsest (interval : Interval) : (steps : Nat) → (exponent : Int) → Scaled
  | 0, exponent =>
    let finest := interval.inUnits exponent
    ⟨finest.middle / finest.denominator, exponent⟩
  | steps + 1, exponent =>
    match (interval.inUnits exponent).whole? with
    | some digits => ⟨digits, exponent⟩
    | none => interval.coarsest steps (exponent - 1)

/-- The decimal number of fewest digits that reads back as the double, and the nearest one of
those. The search starts at a power of ten above the interval and tries every power down to
`10 ^ (-324)`, which is finer than half the distance between any two doubles. -/
def shortest (number : Binary) : Scaled :=
  if number.mantissa = 0 then
    ⟨0, 0⟩
  else
    let interval := Interval.around number
    let above := (Nat.toDigits 10 (interval.high / interval.denominator)).length
    interval.coarsest (above + 325) above

end Quill.Decimal
