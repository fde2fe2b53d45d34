import Quill.Token.Basic

/-!
# Syntax errors

A syntax error names its cause and the token where reading had to stop.
-/

namespace Quill

/-- What the grammar wanted to see. -/
inductive Expectation where
  /-- Anything that has a value. -/
  | expression
  /-- A name. -/
  | identifier
  /-- One particular mark. -/
  | mark (mark : Mark)
  /-- One particular word. -/
  | keyword (word : Keyword)
  /-- Another item of an enumeration or its end. -/
  | commaOr (closing : Mark)
  /-- Either form of the body of a function. -/
  | functionBody
  /-- The end of a line. -/
  | newLine
deriving DecidableEq, Repr

/-- How messages name an expectation. -/
def Expectation.describe : Expectation → String
  | expression => "an expression"
  | identifier => "identifier"
  | mark sign => "'" ++ sign.text ++ "'"
  | keyword word => "'" ++ word.text ++ "'"
  | commaOr closing => "',' or '" ++ closing.text ++ "'"
  | functionBody => "'->' or a new line"
  | newLine => "a new line"

namespace SyntaxError

/-- Why tokens are not a program. -/
inductive Cause where
  /-- Something else was wanted. -/
  | expected (what : Expectation)
  /-- No expression begins with this token. -/
  | unexpected (kind : Token.Kind)
  /-- The tokens ran out. -/
  | endOfTokens
  /-- The magnitude only fits behind a minus sign. -/
  | integerTooLarge (magnitude : Nat)
  /-- A complete program is followed by more tokens. -/
  | trailing
deriving Repr

/-- The cause in words. -/
def Cause.message : Cause → String
  | expected what => "Expected " ++ what.describe
  | unexpected kind => "Unexpected token " ++ kind.describe
  | endOfTokens => "Unexpected end of input"
  | integerTooLarge magnitude => "Integer literal " ++ toString magnitude ++ " is too large"
  | trailing => "Expected operator or end of input"

end SyntaxError

/-- A cause at the place where it arose. -/
structure SyntaxError where
  /-- What is wrong. -/
  cause : SyntaxError.Cause
  /-- The token where reading stopped. -/
  span : Span
deriving Repr

namespace SyntaxError

/-- The error in one line. -/
def message (error : SyntaxError) : String :=
  "Invalid Syntax Error at " ++ error.span.place ++ ": " ++ error.cause.message

/-- The place of an error that no token can be blamed for. -/
def nowhere : Span :=
  ⟨⟨0, "<unknown>", ""⟩, .start, .start⟩

/-- The tokens ran out before the program was complete. -/
def ended : SyntaxError :=
  ⟨.endOfTokens, nowhere⟩

end SyntaxError

end Quill
