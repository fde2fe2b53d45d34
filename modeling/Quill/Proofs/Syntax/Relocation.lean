import Quill.Proofs.Lexing.Joining
import Quill.Proofs.Syntax.Respanning

/-!
# Moving readings

Tokens that are moved to other places are read as the same phrases, at those places.
-/

namespace Quill.Relocation

open Quill.Grammar Quill.Token

/-- Moves every node of an expression. -/
abbrev expr (move : Relocation) (expr : Located) : Located :=
  expr.mapNotes move.span

/-- Moves a phrase together with what it was read as. -/
def phrase (move : Relocation) : Phrase → Phrase
  | .expression expr => .expression (move.expr expr)
  | .chain level expr => .chain level (move.expr expr)
  | .chainFrom level left expr => .chainFrom level (move.expr left) (move.expr expr)
  | .comparison expr => .comparison (move.expr expr)
  | .power expr => .power (move.expr expr)
  | .unary expr => .unary (move.expr expr)
  | .call expr => .call (move.expr expr)
  | .calls callee expr => .calls (move.expr callee) (move.expr expr)
  | .atom expr => .atom (move.expr expr)
  | .named name span expr => .named name (move.span span) (move.expr expr)
  | .enumeration closing elements last =>
    .enumeration closing (elements.map move.expr) (move.token last)
  | .items closing elements last => .items closing (elements.map move.expr) (move.token last)
  | .functionName name => .functionName name
  | .parameters names last => .parameters names (move.token last)
  | .names names last => .names names (move.token last)
  | .statement expr => .statement (move.expr expr)
  | .statementList closing elements => .statementList closing (elements.map move.expr)
  | .statements closing expr => .statements closing (move.expr expr)
  | .body closing expr block => .body closing (move.expr expr) block
  | .ending body block stop => .ending (move.expr body) block (move.span stop)
  | .step step => .step (step.map move.expr)
  | .branches branches stop => .branches (branches.mapNotes move.span) (move.span stop)

variable (move : Relocation)

/-- Moving is a way to change spans. -/
def respanning : Respanning :=
  ⟨move.span, move.through_span⟩

theorem respanning_phrase (phrase : Phrase) :
    move.respanning.phrase phrase = move.phrase phrase := by
  cases phrase <;> rfl

/-- A reading of tokens is a reading of the moved tokens. -/
theorem reads_phrase {phrase : Phrase} {before after : List Token}
    (reads : Reads phrase before after) :
    Reads (move.phrase phrase) (before.map move.token) (after.map move.token) := by
  rw [← respanning_phrase]
  exact move.respanning.reads_phrase reads

end Quill.Relocation
