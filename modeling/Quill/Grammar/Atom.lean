import Quill.Grammar.Construct
import Quill.Token.Lexeme

/-!
# Atoms

An atom is an expression that no operator can pull apart: a constant, a name, a list, an
expression in parentheses, or a construct that begins with a word.
-/

namespace Quill.Grammar

open Quill.Parser

/-- A name that has been taken: a variable, or a member of the object with that name, which may be
assigned to. -/
def named (rules : Rules) (name : String) (span : Span) : Parser Located := do
  match ← take? (·.isMark .dot) with
  | none => return .read name span
  | some _ =>
    let (member, memberSpan) ← identifier
    match ← take? (·.isMark .assign) with
    | none => return .member name member (span.through memberSpan)
    | some _ =>
      let value ← rules .expression
      return .assignMember name member value (span.through value.note)

/-- A constant integer. The largest magnitude that a token can have is too large for one. -/
def integer (magnitude : Nat) (span : Span) : Parser Located :=
  if magnitude < Lexeme.maxMagnitude then
    pure (.literal (.int (Int64.ofNat magnitude)) span)
  else
    fail (.integerTooLarge magnitude) span

/-- An atom. Parentheses leave no trace in the expression between them. -/
def atom (bound : Nat) (rules : Rules) : Parser Located := do
  let token ← next
  match token.kind with
  | .int magnitude => integer magnitude token.span
  | .float value => return .literal (.float value) token.span
  | .str value => return .literal (.str value) token.span
  | .identifier name => named rules name token.span
  | .mark .openParen =>
    let inner ← rules .expression
    let _ ← mark .closeParen
    return inner
  | .mark .openBracket =>
    let (elements, closing) ← enumeration bound (rules .expression) .closeBracket
    return .list elements (token.span.through closing.span)
  | .keyword .ifWord => choice bound rules token
  | .keyword .forWord => forLoop bound rules token
  | .keyword .whileWord => whileLoop bound rules token
  | .keyword .funcWord => function bound rules token
  | .keyword .objectWord => template bound rules token
  | .keyword .newWord =>
    let (name, nameSpan) ← identifier
    return .instantiate name (token.span.through nameSpan)
  | .endOfInput => fail (.expected .expression) token.span
  | other => fail (.unexpected other) token.span

end Quill.Grammar
