import Quill.Grammar.Operand

/-!
# Programs

An expression is an assignment or a connection of comparisons, and a program is a sequence of
statements up to the end of the input. The rules refer to one another in circles. The circle is
cut by the number of tokens: rules for at most `n + 1` tokens are built from the rules for at most
`n`, and where no token is left there is nothing to read.
-/

namespace Quill.Grammar

open Quill.Parser

/-- Takes a name and the assignment mark behind it. -/
def target? : Parser (Option (String × Span))
  | ⟨.identifier name, span⟩ :: ⟨.mark .assign, _⟩ :: rest => .ok (some (name, span), rest)
  | tokens => .ok (none, tokens)

/-- An assignment, with or without its word, or a connection. -/
def expression (bound : Nat) (rules : Rules) : Parser Located := do
  match ← take? (·.isKeyword .varWord) with
  | some word =>
    let (name, _) ← identifier
    let _ ← mark .assign
    let value ← rules .expression
    return .assign name value (word.span.through value.note)
  | none =>
    match ← target? with
    | some (name, span) =>
      let value ← rules .expression
      return .assign name value (span.through value.note)
    | none => connection bound rules

/-- The parser of one rule, built from parsers for shorter lists of tokens. -/
def ofRule (bound : Nat) (rules : Rules) : Rules
  | .expression => expression bound rules
  | .comparison => comparison bound rules
  | .power => power bound rules
  | .unary => unary bound rules

/-- The parsers of all rules for lists of at most the given number of tokens. -/
def rulesUpTo : Nat → Rules
  | 0, _ => ended
  | bound + 1, rule => ofRule bound (rulesUpTo bound) rule

/-- A program: statements, and nothing behind them but the end of the input. -/
def program (bound : Nat) : Parser Located := do
  let root ← statements bound (rulesUpTo bound) fun _ => false
  let token ← peek
  if token.kind matches .endOfInput then
    return root
  else
    fail .trailing token.span

/-- The program that tokens stand for, a list of its statements. -/
def parse (tokens : List Token) : Except SyntaxError Located :=
  Prod.fst <$> (program tokens.length).run tokens

end Quill.Grammar
