import Quill.Integer
import Quill.Value.Basic

/-!
# Arithmetic on values

What an arithmetic operator does depends on its left operand. Integers are computed exactly or
refused, a float on either side makes both sides floats, strings can be joined and repeated, and
lists can be joined, repeated, indexed and shortened.
-/

namespace Quill.Value

/-- The result of an operator on two integers. -/
def integerArithmetic (op : BinaryOp) (a b : Int64) : Except Fault Value :=
  let exact (result : Option Int64) : Except Fault Value :=
    match result with
    | some value => .ok (int value)
    | none => .error .integerOverflow
  match op with
  | .add => exact (Integer.add? a b)
  | .sub => exact (Integer.sub? a b)
  | .mul => exact (Integer.mul? a b)
  | .div => if b = 0 then .error .divisionByZero else exact (Integer.div? a b)
  | .pow =>
    match Integer.toNat? b with
    | some exponent => exact (Integer.pow? a exponent)
    | none => .ok (float ((Integer.toFloat a).pow (Integer.toFloat b)))
  | _ => .error (.illegalOperation .int op .int)

/-- The result of an operator on two floats. -/
def floatArithmetic (op : BinaryOp) (a b : Float) : Except Fault Value :=
  match op with
  | .add => .ok (float (a + b))
  | .sub => .ok (float (a - b))
  | .mul => .ok (float (a * b))
  | .div => if b == 0.0 then .error .divisionByZero else .ok (float (a / b))
  | .pow => .ok (float (a.pow b))
  | _ => .error (.illegalOperation .float op .float)

/-- The greatest length of a repeated string, in bytes, and of a repeated list, in elements. -/
def maxRepetitionLength : Nat :=
  16777216

/-- How often something of the given length is to be repeated. Nothing at all stays nothing,
however often it is repeated. -/
def repetitions (count : Int64) (length : Nat) : Except Fault Nat :=
  match Integer.toNat? count with
  | none => .error (.negativeRepetition count)
  | some times =>
    if length = 0 then .ok 0
    else if times * length ≤ maxRepetitionLength then .ok times
    else .error (.repetitionTooLarge count)

/-- The result of an operator with a string on its left. -/
def stringArithmetic (op : BinaryOp) (text : String) (right : Value) : Except Fault Value :=
  match op, right with
  | .add, str other => .ok (str (text ++ other))
  | .mul, int count => do
    let times ← repetitions count text.utf8ByteSize
    .ok (str (times.repeat (· ++ text) ""))
  | _, _ => .error (.illegalOperation .str op right.kind)

/-- The place that an index of a list points at. -/
def listPlace (index : Int64) (length : Nat) : Except Fault Nat :=
  match Integer.place? index length with
  | some place => .ok place
  | none => .error (.indexOutOfRange index length)

/-- The result of an operator with a list on its left. -/
def listArithmetic (op : BinaryOp) (elements : List Value) (right : Value) : Except Fault Value :=
  match op, right with
  | .add, list others => .ok (list (elements ++ others))
  | .add, other => .ok (list (elements ++ [other]))
  | .mul, int count => do
    let times ← repetitions count elements.length
    .ok (list (times.repeat (elements ++ ·) []))
  | .sub, int index => do
    let place ← listPlace index elements.length
    .ok (list (elements.eraseIdx place))
  | .div, int index => do
    let place ← listPlace index elements.length
    .ok (elements[place]?.getD null)
  | _, _ => .error (.illegalOperation .list op right.kind)

/-- The result of an arithmetic operator. -/
def arithmetic (left : Value) (op : BinaryOp) (right : Value) : Except Fault Value :=
  match left, right with
  | int a, int b => integerArithmetic op a b
  | int a, float b => floatArithmetic op (Integer.toFloat a) b
  | float a, int b => floatArithmetic op a (Integer.toFloat b)
  | float a, float b => floatArithmetic op a b
  | str text, _ => stringArithmetic op text right
  | list elements, _ => listArithmetic op elements right
  | _, _ => .error (.illegalOperation left.kind op right.kind)

/-- Negating a value is multiplying it by minus one. -/
def negate (value : Value) : Except Fault Value :=
  value.arithmetic .mul (int (-1))

end Quill.Value
