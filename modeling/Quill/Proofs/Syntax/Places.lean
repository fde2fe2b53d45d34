import Quill.Proofs.Syntax.Printing
import Quill.Proofs.Syntax.Reading

/-!
# Readings at places

What it means that an expression can be read where it stands. Between the operators of a level that
is not simply a reading of the expression, as operators may follow that take it for their left
operand: it is what any such continuation makes of it. A place that binds more tightly is also one
that binds less tightly, as long as the token that follows does not pull the expression away.
-/

namespace Quill.Grammar

open Quill.Token

/-- How tightly the token binds something in front of it: what stands there must have at least this
rank to be left alone. -/
def pull : Kind → Nat
  | .mark .dot | .mark .assign => Rank.atom + 1
  | .mark .openParen => Rank.call
  | .mark .caret => Rank.sign
  | .mark .star | .mark .slash => Rank.term
  | .mark .plus | .mark .minus => Rank.sum
  | .mark .equal | .mark .notEqual | .mark .less | .mark .lessEqual | .mark .greater
  | .mark .greaterEqual => Rank.comparison
  | .keyword .andWord | .keyword .orWord | .keyword .elifWord | .keyword .elseWord =>
    Rank.connection
  | _ => 0

/-- How tightly the next token binds something in front of it. A program never ends in front of the
token that stands for its end. -/
def pullAhead : List Token → Nat
  | [] => Rank.atom + 1
  | token :: _ => pull token.kind

/-- The highest rank that something which begins with the token can have. Where it is zero, no
expression begins with the token. -/
def opening : Kind → Nat
  | .keyword .notWord => Rank.negation
  | .mark .plus | .mark .minus => Rank.sign
  | .newline | .semicolon | .endOfInput => 0
  | .mark .openParen | .mark .openBracket => Rank.atom
  | .mark _ => 0
  | .keyword .ifWord | .keyword .forWord | .keyword .whileWord | .keyword .funcWord
  | .keyword .objectWord | .keyword .newWord => Rank.atom
  | .keyword _ => 0
  | .float _ | .int _ | .str _ | .identifier _ => Rank.atom

/-- The highest rank that something which begins with the next token can have. -/
def openingAhead : List Token → Nat
  | [] => 0
  | token :: _ => opening token.kind

namespace Level

/-- The rank of the left operands of the level. -/
def rank : Level → Nat
  | logical => Rank.connection
  | comparison => Rank.comparison
  | additive => Rank.sum
  | multiplicative => Rank.term

end Level

/-- The expression can be read as a left operand of the level: whatever is read behind it as
operators and right operands of the level can be read together with it. -/
def Chains (level : Level) (expr : Located) (before after : List Token) : Prop :=
  ∀ result final, Reads (.chainFrom level expr result) after final →
    Reads (.chain level result) before final

/-- The expression can be read as something that argument lists follow. -/
def Called (expr : Located) (before after : List Token) : Prop :=
  ∀ result final, Reads (.calls expr result) after final → Reads (.call result) before final

/-- The expression can be read at a place of the given rank. -/
def ReadsAt (expr : Located) (before after : List Token) : (rank : Nat) → Prop
  | 0 => Reads (.expression expr) before after
  | 1 => Chains .logical expr before after
  | 2 => Reads (.comparison expr) before after
  | 3 => Chains .comparison expr before after
  | 4 => Chains .additive expr before after
  | 5 => Chains .multiplicative expr before after
  | 6 => Reads (.power expr) before after
  | 7 => Reads (.unary expr) before after
  | 8 => Called expr before after
  | _ => Reads (.atom expr) before after

/-- The expression can be read at a place of the given rank, and begins with nothing that would be
taken for something else there. -/
structure Placed (rank : Nat) (expr : Located) (before after : List Token) : Prop where
  /-- An expression of the rank can begin like this. -/
  opens : max 1 rank ≤ openingAhead before
  /-- The integer that only fits behind a minus sign does not come first. -/
  noLargest : ahead isLargest before = false
  /-- No assignment begins like this. -/
  noTarget : 0 < rank → targetAhead before = false
  /-- The expression can be read. -/
  reads : ReadsAt expr before after rank

variable {rank : Nat} {expr : Located} {before after : List Token}

theorem not_ahead_of_opening {wanted : Kind → Bool} (least : Nat)
    (low : ∀ kind, wanted kind = true → opening kind < least)
    (opens : least ≤ openingAhead before) : ahead wanted before = false := by
  cases before with
  | nil => rfl
  | cons token rest =>
    cases wants : wanted token.kind with
    | false => exact wants
    | true =>
      have below := low token.kind wants
      simp only [openingAhead] at opens
      omega

theorem not_ahead_of_pull {wanted : Kind → Bool} (most : Nat)
    (high : ∀ kind, wanted kind = true → most < pull kind)
    (free : pullAhead after ≤ most) : ahead wanted after = false := by
  cases after with
  | nil => rfl
  | cons token rest =>
    cases wants : wanted token.kind with
    | false => exact wants
    | true =>
      have above := high token.kind wants
      simp only [pullAhead] at free
      omega

/-- An operator of a level binds what is in front of it as tightly as the rank of the level says. -/
theorem pull_of_level {level : Level} {kind : Kind} (has : level.has kind = true) :
    pull kind = level.rank := by
  cases kind with
  | mark sign => cases sign <;> cases level <;> first | rfl | exact absurd has (by decide)
  | keyword word => cases word <;> cases level <;> first | rfl | exact absurd has (by decide)
  | _ => cases has

theorem no_operator {level : Level} (free : pullAhead after < level.rank) :
    ahead level.has after = false := by
  refine not_ahead_of_pull (level.rank - 1) (fun kind has => ?_) (by omega)
  rw [pull_of_level has]
  omega

theorem no_mark {sign : Mark} {most : Nat} (high : most < pull (.mark sign))
    (free : pullAhead after ≤ most) : ahead (·.isMark sign) after = false := by
  refine not_ahead_of_pull most (fun kind marked => ?_) free
  cases kind <;> simp_all [Kind.isMark]

theorem no_keyword {word : Keyword} {most : Nat} (high : most < pull (.keyword word))
    (free : pullAhead after ≤ most) : ahead (·.isKeyword word) after = false := by
  refine not_ahead_of_pull most (fun kind worded => ?_) free
  cases kind <;> simp_all [Kind.isKeyword]

theorem chains_of_operand (level : Level) (start : Reads (.operand level expr) before after) :
    Chains level expr before after :=
  fun _ _ more => .chain start more

/-- Where no operator of the level follows, a left operand is all there is. -/
theorem Chains.reads {level : Level} (chains : Chains level expr before after)
    (free : pullAhead after < level.rank) : Reads (.chain level expr) before after :=
  chains expr after (.chainEnd (no_operator free))

/-- A rank lower, the place binds less tightly. It only matters that the next token does not pull
the expression away from it. -/
theorem Placed.pred (placed : Placed (rank + 1) expr before after) (low : rank < Rank.atom)
    (free : pullAhead after ≤ rank) (positive : 0 < rank) : Placed rank expr before after := by
  obtain ⟨opens, noLargest, noTarget, reads⟩ := placed
  refine ⟨by omega, noLargest, fun _ => noTarget (by omega), ?_⟩
  simp only [Rank.atom] at low
  have below {bound : Nat} (above : rank < bound) : pullAhead after < bound := by omega
  match rank, low, positive with
  | 8, _, _ => exact fun _ _ more => .call reads more
  | 7, _, _ =>
    have called : Reads (.call expr) before after :=
      reads expr after (.callsEnd (no_mark (by decide) free))
    refine .unsigned ?_ ?_ called
    · refine not_ahead_of_opening 8 (fun kind marked => ?_) (by omega)
      cases kind <;> simp_all [Kind.isMark, opening, Rank.sign]
    · refine not_ahead_of_opening 8 (fun kind marked => ?_) (by omega)
      cases kind <;> simp_all [Kind.isMark, opening, Rank.sign]
  | 6, _, _ => exact .base reads (no_mark (by decide) free)
  | 5, _, _ => exact chains_of_operand .multiplicative reads
  | 4, _, _ => exact chains_of_operand .additive (Chains.reads reads (below (by decide)))
  | 3, _, _ => exact chains_of_operand .comparison (Chains.reads reads (below (by decide)))
  | 2, _, _ =>
    refine .comparison ?_ (Chains.reads reads (below (by decide)))
    refine not_ahead_of_opening 3 (fun kind word => ?_) (by omega)
    cases kind <;> simp_all [Kind.isKeyword, opening, Rank.negation]
  | 1, _, _ => exact chains_of_operand .logical reads

theorem Placed.lower {high : Nat} (placed : Placed high expr before after)
    (most : high ≤ Rank.atom) (low : rank ≤ high) (positive : 0 < rank)
    (free : pullAhead after ≤ rank) : Placed rank expr before after := by
  induction high with
  | zero => omega
  | succ high ih =>
    by_cases same : rank = high + 1
    · rw [same]
      exact placed
    · refine ih (placed.pred (by omega) (by omega) (by omega)) (by omega) (by omega)

/-- Neither an operator nor anything else follows that would belong to an expression in front of
it. -/
structure Free (after : List Token) : Prop where
  /-- Nothing follows that binds more tightly than a logical connective. -/
  weak : pullAhead after ≤ Rank.connection
  /-- No logical connective follows. -/
  noOperator : ahead Level.logical.has after = false

theorem free_of_pullAhead (none : pullAhead after = 0) : Free after :=
  ⟨by omega, no_operator (by simp only [Level.rank, Rank.connection]; omega)⟩

/-- What stands at any place is an expression, where nothing follows that belongs to it. -/
theorem Placed.expression (placed : Placed rank expr before after) (most : rank ≤ Rank.atom)
    (free : Free after) (positive : 0 < rank) : Reads (.expression expr) before after := by
  obtain ⟨opens, -, noTarget, reads⟩ :=
    placed.lower most positive Nat.one_pos free.weak
  refine .connection ?_ (noTarget Nat.one_pos) (reads expr after (.chainEnd free.noOperator))
  refine not_ahead_of_opening 1 (fun kind word => ?_) (by omega)
  cases kind <;> simp_all [Kind.isKeyword, opening]

theorem Placed.zero (placed : Placed rank expr before after) (most : rank ≤ Rank.atom)
    (none : pullAhead after = 0) : Placed 0 expr before after := by
  cases rank with
  | zero => exact placed
  | succ rank =>
    refine ⟨?_, placed.noLargest, by simp, ?_⟩
    · have opens := placed.opens
      omega
    · exact placed.expression most (free_of_pullAhead none) (by omega)

/-- An expression in parentheses is an atom. -/
theorem Placed.parens (openSpan : Span) {closeSpan : Span}
    (placed : Placed 0 expr before (⟨.mark .closeParen, closeSpan⟩ :: after)) :
    Placed Rank.atom expr (⟨.mark .openParen, openSpan⟩ :: before) after :=
  ⟨Nat.le_refl _, rfl, fun _ => rfl, .parens placed.reads⟩

end Quill.Grammar
