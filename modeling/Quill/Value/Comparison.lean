import Quill.Value.Arithmetic

/-!
# Comparison and logic on values

Two numbers are ordered by their values and two strings by their characters. All other pairs of
values are only equal or unequal, by their structure. A comparison with a float that is no number
fails to hold, except that this float is unequal to everything. The logical operators combine the
truth of their operands. All results are truth values.
-/

namespace Quill.Value

/-- The order of two floats, if they have one. -/
def orderFloats (a b : Float) : Option Ordering :=
  if a < b then some .lt
  else if a == b then some .eq
  else if b < a then some .gt
  else none

/-- How two values that can be ordered compare. The outer answer is missing for values that are
only equal or unequal, the inner one for floats that have no order. -/
def order (left right : Value) : Option (Option Ordering) :=
  match left, right with
  | int a, int b => some (some (compare a.toInt b.toInt))
  | int a, float b => some (orderFloats (Integer.toFloat a) b)
  | float a, int b => some (orderFloats a (Integer.toFloat b))
  | float a, float b => some (orderFloats a b)
  | str a, str b => some (some (compare a b))
  | _, _ => none

/-- Whether a comparison holds for values in the given order, if the operator is a comparison. -/
def holds (op : BinaryOp) (ordering : Ordering) : Option Bool :=
  match op with
  | .less => some (ordering = .lt)
  | .greater => some (ordering = .gt)
  | .lessEqual => some (ordering ≠ .gt)
  | .greaterEqual => some (ordering ≠ .lt)
  | .equal => some (ordering = .eq)
  | .notEqual => some (ordering ≠ .eq)
  | _ => none

/-- The result of a comparison. -/
def comparison (left : Value) (op : BinaryOp) (right : Value) : Except Fault Value :=
  match order left right with
  | some (some ordering) =>
    match holds op ordering with
    | some truth => .ok (ofBool truth)
    | none => .error (.illegalOperation left.kind op right.kind)
  | some none => .ok (ofBool (op = .notEqual))
  | none =>
    match op with
    | .equal => .ok (ofBool (left.same right))
    | .notEqual => .ok (ofBool (!left.same right))
    | _ => .error (.illegalOperation left.kind op right.kind)

/-- The result of a logical connective. -/
def connective (left : Value) (op : BinaryOp) (right : Value) : Except Fault Value :=
  match op with
  | .and => .ok (ofBool (left.isTrue && right.isTrue))
  | .or => .ok (ofBool (left.isTrue || right.isTrue))
  | _ => .error (.illegalOperation left.kind op right.kind)

/-- The opposite truth value. -/
def not (value : Value) : Value :=
  ofBool (!value.isTrue)

/-- The result of an operator in front of its operand. -/
def unary (op : UnaryOp) (operand : Value) : Except Fault Value :=
  match op with
  | .plus => .ok operand
  | .negate => operand.negate
  | .not => .ok operand.not

/-- The result of an operator between its operands. -/
def binary (op : BinaryOp) (left right : Value) : Except Fault Value :=
  if op.isLogical then left.connective op right
  else if op.isComparison then left.comparison op right
  else left.arithmetic op right

end Quill.Value
