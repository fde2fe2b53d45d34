/-!
# Operators

The operators of expressions, and the way that messages spell them. The spelling is also one that
programs may use.
-/

namespace Quill

/-- An operator between two operands. -/
inductive BinaryOp where
  | add | sub | mul | div | pow
  | less | greater | lessEqual | greaterEqual | equal | notEqual
  | and | or
deriving DecidableEq, Repr

/-- An operator in front of its operand. -/
inductive UnaryOp where
  /-- Leaves the operand as it is. -/
  | plus
  /-- Multiplies the operand by minus one. -/
  | negate
  /-- Turns true values into false ones and the other way round. -/
  | not
deriving DecidableEq, Repr

namespace BinaryOp

/-- All operators. -/
def all : List BinaryOp :=
  [add, sub, mul, div, pow, less, greater, lessEqual, greaterEqual, equal, notEqual, and, or]

/-- The spelling of the operator. -/
def text : BinaryOp → String
  | add => "+"
  | sub => "-"
  | mul => "*"
  | div => "/"
  | pow => "^"
  | less => "<"
  | greater => ">"
  | lessEqual => "<="
  | greaterEqual => ">="
  | equal => "=="
  | notEqual => "!="
  | and => "and"
  | or => "or"

/-- Whether the operator compares its operands. -/
def isComparison : BinaryOp → Bool
  | less | greater | lessEqual | greaterEqual | equal | notEqual => true
  | _ => false

/-- Whether the operator combines truth values. -/
def isLogical : BinaryOp → Bool
  | and | or => true
  | _ => false

/-- Whether the operator adds or subtracts. -/
def isAdditive : BinaryOp → Bool
  | add | sub => true
  | _ => false

/-- Whether the operator multiplies or divides. -/
def isMultiplicative : BinaryOp → Bool
  | mul | div => true
  | _ => false

/-- No operator is missing from the list of all. -/
theorem mem_all (op : BinaryOp) : op ∈ all := by
  cases op <;> decide

end BinaryOp

/-- The spelling of the operator. -/
def UnaryOp.text : UnaryOp → String
  | .plus => "+"
  | .negate => "-"
  | .not => "not"

end Quill
