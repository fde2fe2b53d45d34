/-!
# Decimal digits

Only the ten digits of ASCII count as digits here, whatever other digits Unicode knows.
-/

namespace Quill.Text

/-- Whether a character is a decimal digit. -/
def isDigit (c : Char) : Bool :=
  '0' ≤ c && c ≤ '9'

/-- The natural number that decimal digits stand for. -/
def natural (digits : List Char) : Nat :=
  digits.foldl (fun value digit => 10 * value + (digit.toNat - '0'.toNat)) 0

/-- The natural number that a text of nothing but digits stands for. -/
def unsigned? (text : List Char) : Option Nat :=
  if text.isEmpty || text.any (!isDigit ·) then none else some (natural text)

/-- The whole number that a text stands for: digits, with at most one sign in front of them. -/
def whole? : List Char → Option Int
  | '-' :: digits => (unsigned? digits).map fun magnitude => -(magnitude : Int)
  | '+' :: digits => (unsigned? digits).map Int.ofNat
  | digits => (unsigned? digits).map Int.ofNat

end Quill.Text
