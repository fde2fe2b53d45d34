import Quill.Expr.Basic
import Quill.Grammar.Error

/-!
# Reading tokens

A parser takes tokens from the front of a list and leaves the others. The readers here look at one
token or step over it; every rule of the grammar is put together from them. A parser that has to
repeat itself takes a bound on the number of its rounds. Each round takes a token, so the number
of tokens is always bound enough, and a bound of zero means that no token is left.
-/

namespace Quill

/-- An expression with the span of every node. -/
abbrev Located := Expr Span

/-- Reads something from the front of a list of tokens. -/
abbrev Parser (Result : Type) := StateT (List Token) (Except SyntaxError) Result

namespace Parser

/-- Fails because a token was wanted and none is left. -/
def ended {Result : Type} : Parser Result :=
  fun _ => .error .ended

/-- Fails at a span with the given cause. -/
def fail {Result : Type} (cause : SyntaxError.Cause) (span : Span) : Parser Result :=
  fun _ => .error ⟨cause, span⟩

/-- The next token, which stays where it is. -/
def peek : Parser Token
  | [] => .error .ended
  | token :: rest => .ok (token, token :: rest)

/-- Takes the next token. -/
def next : Parser Token
  | [] => .error .ended
  | token :: rest => .ok (token, rest)

/-- Takes the next token if there is one of the given kind. -/
def take? (wanted : Token.Kind → Bool) : Parser (Option Token)
  | [] => .ok (none, [])
  | token :: rest => if wanted token.kind then .ok (some token, rest) else .ok (none, token :: rest)

/-- Takes the next token, which has to be of the given kind. -/
def expect (wanted : Token.Kind → Bool) (what : Expectation) : Parser Token
  | [] => .error .ended
  | token :: rest =>
    if wanted token.kind then .ok (token, rest) else .error ⟨.expected what, token.span⟩

/-- Takes a mark. -/
def mark (sign : Mark) : Parser Token :=
  expect (·.isMark sign) (.mark sign)

/-- Takes a reserved word. -/
def keyword (word : Keyword) : Parser Token :=
  expect (·.isKeyword word) (.keyword word)

/-- Takes a name. -/
def identifier : Parser (String × Span)
  | [] => .error .ended
  | ⟨.identifier name, span⟩ :: rest => .ok ((name, span), rest)
  | token :: _ => .error ⟨.expected .identifier, token.span⟩

/-- Whether the next token separates statements. -/
def atSeparator : Parser Bool
  | [] => .ok (false, [])
  | token :: rest => .ok (token.kind.isSeparator, token :: rest)

/-- Takes all separators that follow, and tells whether there were any. -/
def separators : Parser Bool := do
  let found ← atSeparator
  modify fun tokens => tokens.dropWhile (·.kind.isSeparator)
  return found

/-- Items with commas between them and the closing mark behind the last one, which is returned as
well. There is at least one item. -/
def items {Item : Type} (item : Parser Item) (closing : Mark) :
    (bound : Nat) → Parser (List Item × Token)
  | 0 => ended
  | bound + 1 => do
    let first ← item
    let token ← next
    if token.kind.isMark .comma then
      let (rest, last) ← items item closing bound
      return (first :: rest, last)
    else if token.kind.isMark closing then
      return ([first], token)
    else
      fail (.expected (.commaOr closing)) token.span

/-- Any number of items with commas between them, up to and including the closing mark. -/
def enumeration {Item : Type} (bound : Nat) (item : Parser Item) (closing : Mark) :
    Parser (List Item × Token) := do
  match ← take? (·.isMark closing) with
  | some token => return ([], token)
  | none => items item closing bound

end Parser

namespace Grammar

/-- The rules that other rules refer back to. -/
inductive Rule where
  /-- An expression of any kind. -/
  | expression
  /-- A comparison, or the negation of one. -/
  | comparison
  /-- An operand of a multiplication. -/
  | power
  /-- An operand of an exponentiation. -/
  | unary
deriving DecidableEq, Repr

/-- The parsers of all the rules. A rule takes at least one token before it refers back to one of
them, so they only ever see shorter lists of tokens. -/
abbrev Rules := Rule → Parser Located

end Grammar

end Quill
