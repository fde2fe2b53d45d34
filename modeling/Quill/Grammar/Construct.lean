import Quill.Grammar.Block

/-!
# Constructs that begin with a word

Choices, loops, functions and templates of objects. Each rule begins behind the word that
announces the construct, and takes the token of that word for the start of its span.
-/

namespace Quill.Grammar

open Quill.Parser

/-- Whether the token closes a block. -/
def closesBlock (kind : Token.Kind) : Bool :=
  kind.isKeyword .endWord

/-- Whether the token closes a block of a choice. -/
def closesBranch (kind : Token.Kind) : Bool :=
  kind.isKeyword .elifWord || kind.isKeyword .elseWord || kind.isKeyword .endWord

/-- The alternatives of a choice, from a condition on, and the span that the last of them ends
with. The closing word is only there for a last alternative that is a block. -/
def branches (bound : Nat) (rules : Rules) : (rounds : Nat) → Parser (Branches Span × Span)
  | 0 => ended
  | rounds + 1 => do
    let condition ← rules .expression
    let _ ← keyword .thenWord
    let (branch, block) ← body bound rules closesBranch
    let token ← peek
    if token.kind.isKeyword .elifWord then
      let _ ← next
      let (rest, stop) ← branches bound rules rounds
      return (.orElse condition branch block rest, stop)
    else if token.kind.isKeyword .elseWord then
      let _ ← next
      let (last, lastBlock) ← body bound rules closesBlock
      let stop ← closingSpan last lastBlock
      return (.orElse condition branch block (.otherwise last lastBlock), stop)
    else
      let stop ← closingSpan branch block
      return (.orElse condition branch block .done, stop)

/-- A choice. -/
def choice (bound : Nat) (rules : Rules) (word : Token) : Parser Located := do
  let (alternatives, stop) ← branches bound rules bound
  return .choice alternatives (word.span.through stop)

/-- The steps that a loop counts in, if it says so. -/
def loopStep (rules : Rules) : Parser (Option Located) := do
  match ← take? (·.isKeyword .stepWord) with
  | some _ => some <$> rules .expression
  | none => return none

/-- A loop that counts. -/
def forLoop (bound : Nat) (rules : Rules) (word : Token) : Parser Located := do
  let (counter, _) ← identifier
  let _ ← mark .assign
  let start ← rules .expression
  let _ ← keyword .toWord
  let stop ← rules .expression
  let step ← loopStep rules
  let _ ← keyword .thenWord
  let (round, block) ← body bound rules closesBlock
  let last ← closingSpan round block
  return .forLoop counter start stop step round block (word.span.through last)

/-- A loop under a condition. -/
def whileLoop (bound : Nat) (rules : Rules) (word : Token) : Parser Located := do
  let condition ← rules .expression
  let _ ← keyword .thenWord
  let (round, block) ← body bound rules closesBlock
  let last ← closingSpan round block
  return .whileLoop condition round block (word.span.through last)

/-- The name of a function, if it has one. -/
def functionName : Parser (Option String) := do
  match (← peek).kind with
  | .identifier name =>
    let _ ← next
    return some name
  | _ => return none

/-- A function with an expression or a block for its body. -/
def function (bound : Nat) (rules : Rules) (word : Token) : Parser Located := do
  let name ← functionName
  let _ ← mark .openParen
  let (parameters, _) ← enumeration bound (Prod.fst <$> identifier) .closeParen
  match ← take? (·.isMark .arrow) with
  | some _ =>
    let value ← rules .expression
    return .function name parameters value true (word.span.through value.note)
  | none =>
    if ← atSeparator then
      let block ← statements bound rules closesBlock
      let last ← keyword .endWord
      return .function name parameters block false (word.span.through last.span)
    else
      fail (.expected .functionBody) (← peek).span

/-- A template of objects. -/
def template (bound : Nat) (rules : Rules) (word : Token) : Parser Located := do
  let (name, _) ← identifier
  if ← atSeparator then
    let block ← statements bound rules closesBlock
    let last ← keyword .endWord
    return .template name block (word.span.through last.span)
  else
    fail (.expected .newLine) (← peek).span

end Quill.Grammar
