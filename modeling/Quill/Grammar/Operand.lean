import Quill.Grammar.Atom

/-!
# Operators and their operands

From the loosest to the tightest: the logical connectives, `not` and the comparisons, addition and
subtraction, multiplication and division, exponentiation, signs, and calls. Operators of one level
group to the left, only exponentiation groups to the right.
-/

namespace Quill.Grammar

open Quill.Parser

/-- Further argument lists behind something that is called. -/
def calls (bound : Nat) (rules : Rules) : (rounds : Nat) → Located → Parser Located
  | 0, callee => pure callee
  | rounds + 1, callee => do
    match ← take? (·.isMark .openParen) with
    | none => return callee
    | some _ =>
      let (arguments, closing) ← enumeration bound (rules .expression) .closeParen
      calls bound rules rounds (.call callee arguments (callee.note.through closing.span))

/-- An atom with any number of argument lists. -/
def call (bound : Nat) (rules : Rules) : Parser Located := do
  let callee ← atom bound rules
  calls bound rules bound callee

/-- Takes an integer of the largest magnitude. -/
def largestMagnitude? : Parser (Option Token) :=
  take? fun kind =>
    match kind with
    | .int magnitude => magnitude = Lexeme.maxMagnitude
    | _ => false

/-- A sign and its operand, or a call. A minus sign in front of the largest magnitude makes one
constant of the two, as there is no integer that could be negated. -/
def unary (bound : Nat) (rules : Rules) : Parser Located := do
  match ← take? (·.isMark .plus) with
  | some sign =>
    let operand ← rules .unary
    return .unary .plus operand (sign.span.through operand.note)
  | none =>
    match ← take? (·.isMark .minus) with
    | none => call bound rules
    | some sign =>
      match ← largestMagnitude? with
      | some digits =>
        return .literal (.int Int64.minValue) (sign.span.through digits.span)
      | none =>
        let operand ← rules .unary
        return .unary .negate operand (sign.span.through operand.note)

/-- Exponents: the right side of the operator is again a power. -/
def power (bound : Nat) (rules : Rules) : Parser Located := do
  let base ← unary bound rules
  match ← take? (·.isMark .caret) with
  | none => return base
  | some _ =>
    let exponent ← rules .power
    return .binary .pow base exponent (base.note.through exponent.note)

/-- Takes an operator of one level. -/
def operator? (level : BinaryOp → Bool) : Parser (Option BinaryOp)
  | [] => .ok (none, [])
  | token :: rest =>
    match token.kind.binaryOp? with
    | some op => if level op then .ok (some op, rest) else .ok (none, token :: rest)
    | none => .ok (none, token :: rest)

/-- Operators of one level and their right operands behind a first operand. -/
def chainFrom (operand : Parser Located) (level : BinaryOp → Bool) :
    (rounds : Nat) → Located → Parser Located
  | 0, left => pure left
  | rounds + 1, left => do
    match ← operator? level with
    | none => return left
    | some op =>
      let right ← operand
      chainFrom operand level rounds (.binary op left right (left.note.through right.note))

/-- Operands with operators of one level between them, grouped to the left. -/
def chain (bound : Nat) (operand : Parser Located) (level : BinaryOp → Bool) :
    Parser Located := do
  let first ← operand
  chainFrom operand level bound first

/-- Products and quotients. -/
def term (bound : Nat) (rules : Rules) : Parser Located :=
  chain bound (power bound rules) BinaryOp.isMultiplicative

/-- Sums and differences. -/
def sum (bound : Nat) (rules : Rules) : Parser Located :=
  chain bound (term bound rules) BinaryOp.isAdditive

/-- Comparisons, or `not` in front of one. -/
def comparison (bound : Nat) (rules : Rules) : Parser Located := do
  match ← take? (·.isKeyword .notWord) with
  | some word =>
    let operand ← rules .comparison
    return .unary .not operand (word.span.through operand.note)
  | none => chain bound (sum bound rules) BinaryOp.isComparison

/-- Comparisons with logical connectives between them. -/
def connection (bound : Nat) (rules : Rules) : Parser Located :=
  chain bound (comparison bound rules) BinaryOp.isLogical

end Quill.Grammar
