import Quill.Grammar.Cursor

/-!
# Statements and blocks

Statements stand one after the other with line feeds or semicolons between them. The body of a
construct that goes on in its line is a single statement; one that begins on a new line is a block
of statements, which the construct around it has to close.
-/

namespace Quill.Grammar

open Quill.Parser

/-- Whether the value of a `return` cannot begin with this token, so that it has none. -/
def endsStatement : Token.Kind → Bool
  | .newline | .semicolon | .endOfInput => true
  | .keyword .endWord | .keyword .elifWord | .keyword .elseWord => true
  | _ => false

/-- A statement: a jump out of a function or a loop, or any expression. -/
def statement (rules : Rules) : Parser Located := do
  let token ← peek
  match token.kind with
  | .keyword .returnWord =>
    let _ ← next
    if endsStatement (← peek).kind then
      return .returnWith none token.span
    else
      let value ← rules .expression
      return .returnWith (some value) (token.span.through value.note)
  | .keyword .continueWord =>
    let _ ← next
    return .continueLoop token.span
  | .keyword .breakWord =>
    let _ ← next
    return .breakLoop token.span
  | _ => rules .expression

/-- Whether a list of statements ends in front of the token: at the end of the input, and at what
closes the construct around it. -/
def endsList (closing : Token.Kind → Bool) : Token.Kind → Bool
  | .endOfInput => true
  | kind => closing kind

/-- Statements up to the end of the input, a closing token, or a statement that no separator
follows. What comes next is for the caller to judge. -/
def statementList (rules : Rules) (closing : Token.Kind → Bool) :
    (bound : Nat) → Parser (List Located)
  | 0 => ended
  | bound + 1 => do
    let token ← peek
    if endsList closing token.kind then
      return []
    else
      let first ← statement rules
      if ← separators then
        let rest ← statementList rules closing bound
        return first :: rest
      else
        return [first]

/-- The span from the first to the last of some expressions, or the given one if there are none. -/
def spanOf (elements : List Located) (otherwise : Span) : Span :=
  match elements.head?, elements.getLast? with
  | some first, some last => first.note.through last.note
  | _, _ => otherwise

/-- Statements with any separators around them. A sequence without statements has the span of the
token behind it. -/
def statements (bound : Nat) (rules : Rules) (closing : Token.Kind → Bool) : Parser Located := do
  let _ ← separators
  let first ← peek
  let elements ← statementList rules closing bound
  return .list elements (spanOf elements first.span)

/-- The body of a construct, and whether it is a block. -/
def body (bound : Nat) (rules : Rules) (closing : Token.Kind → Bool) :
    Parser (Located × Bool) := do
  if ← atSeparator then
    return (← statements bound rules closing, true)
  else
    return (← statement rules, false)

/-- The end of a construct with the given body: a block is closed by a word of its own. -/
def closingSpan (body : Located) (block : Bool) : Parser Span := do
  if block then
    return (← keyword .endWord).span
  else
    return body.note

end Quill.Grammar
