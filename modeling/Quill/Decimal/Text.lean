import Quill.Decimal.Shortest

/-!
# Floats as text

A float is always written with positional digits and never with an exponent. A token shows the
fewest digits that read back. A value shows its exact digits and one decimal place if it is a
whole number, so that it cannot be taken for an integer, and the fewest digits otherwise.
-/

namespace Quill.Decimal

/-- The positional digits of a decimal number, without a point if it is written as a whole one. -/
def Scaled.positional (number : Scaled) : String :=
  let digits := Nat.toDigits 10 number.digits
  match number.exponent with
  | .ofNat zeros => String.ofList (digits ++ List.replicate zeros '0')
  | .negSucc places =>
    let padded := List.replicate (places + 2 - digits.length) '0' ++ digits
    let whole := padded.take (padded.length - (places + 1))
    let fraction := padded.drop (padded.length - (places + 1))
    String.ofList (whole ++ '.' :: fraction)

/-- The sign in front of a magnitude. -/
def signed (negative : Bool) (magnitude : String) : String :=
  if negative then "-" ++ magnitude else magnitude

/-- The fewest digits that read back as the float. -/
def shortestText (x : Float) : String :=
  match Parts.ofFloat x with
  | .nan => "NaN"
  | .infinite negative => signed negative "inf"
  | .finite number => signed number.negative (shortest number).positional

/-- The float with a decimal point in it whenever it is a number. -/
def pointedText (x : Float) : String :=
  match Parts.ofFloat x with
  | .nan => "NaN"
  | .infinite negative => signed negative "inf"
  | .finite number =>
    signed number.negative <|
      match number.natural? with
      | some whole => toString whole ++ ".0"
      | none => (shortest number).positional

end Quill.Decimal
