import Quill.Proofs.Syntax.Completeness
import Quill.Proofs.Syntax.Constructs
import Quill.Proofs.Syntax.Tails

/-!
# Expressions on their own

What has been read anywhere in a program as an operand, an atom or an expression is also a statement
on its own. In front of the end of the input, it makes no difference how tightly the place binds
that it was read at.
-/

namespace Quill.Grammar

open Quill.Token Quill.Parser

variable {phrase : Phrase} {before after : List Token}

/-- How tightly what the phrase begins with binds at least. -/
def Phrase.opening : Phrase → Nat
  | .chain .logical _ | .comparison _ => Rank.negation
  | .chain _ _ | .power _ | .unary _ => Rank.sign
  | .call _ | .atom _ => Rank.atom
  | _ => 0

/-- A phrase begins with a token that can begin it. -/
theorem Reads.opens (reads : Reads phrase before after) :
    phrase.opening ≤ openingAhead before := by
  induction reads with
  | @chain level first expr _ _ _ _ _ ih =>
    refine Nat.le_trans ?_ ih
    cases level <;> exact Nat.le_refl _
  | comparison _ _ ih => exact Nat.le_trans (show Rank.negation ≤ Rank.sign by decide) ih
  | unsigned _ _ _ ih => exact Nat.le_trans (show Rank.sign ≤ Rank.atom by decide) ih
  | base _ _ ih | power _ _ ih | call _ _ ih => exact ih
  | negation | plus | smallest | minus | int | float | str | named | parens | list | choice
  | forLoop | whileLoop | functionOf | functionBlock | template | instantiate => exact Nat.le_refl _
  | _ => exact Nat.zero_le _

/-- What is left behind the phrase if it begins in front of the assignment mark, or with the name in
front of it. -/
def Phrase.LeavesTarget (before after : List Token) : Phrase → Prop
  | .chainFrom .. | .calls .. | .named .. =>
    ahead (·.isMark .assign) before = true → after = before
  | .chain .. | .comparison _ | .power _ | .unary _ | .call _ | .atom _ =>
    targetAhead before = true → after = before.tail
  | _ => True

theorem leavesTarget_operand {level : Level} {expr : Located} :
    (Phrase.operand level expr).LeavesTarget before after ↔
      (targetAhead before = true → after = before.tail) := by
  cases level <;> rfl

theorem ahead_tail_of_target (target : targetAhead before = true) :
    ahead (·.isMark .assign) before.tail = true := by
  unfold targetAhead at target
  split at target
  · rfl
  · cases target

theorem not_assign_of_binaryOp? {kind : Kind} {op : BinaryOp}
    (operator : kind.binaryOp? = some op) : kind.isMark .assign = false := by
  cases kind with
  | mark sign => cases sign <;> first | rfl | cases operator
  | _ => rfl

/-- No operand goes on behind a name that the assignment mark follows. -/
theorem Reads.leavesTarget (reads : Reads phrase before after) :
    phrase.LeavesTarget before after := by
  induction reads with
  | chain _ _ ihStart ihMore =>
    intro target
    obtain rfl := leavesTarget_operand.mp ihStart target
    exact ihMore (ahead_tail_of_target target)
  | call _ _ ihStart ihMore =>
    intro target
    obtain rfl := ihStart target
    exact ihMore (ahead_tail_of_target target)
  | power _ _ ihStart =>
    intro target
    have marked := ahead_tail_of_target target
    rw [← ihStart target] at marked
    cases marked
  | comparison _ _ ih | base _ _ ih | unsigned _ _ _ ih => exact ih
  | named _ ih =>
    intro target
    rw [targetAhead_name] at target
    exact ih target
  | chainEnd | callsEnd | «variable» => exact fun _ => rfl
  | chainMore operator =>
    intro marked
    exact absurd marked (by simp [ahead, not_assign_of_binaryOp? operator])
  | _ => first | trivial | exact fun target => by cases target

/-! ## Statements of one expression -/

variable {least : Nat} {expr : Located} {last : Span}

theorem not_mark_of_opening {sign : Mark} (low : opening (.mark sign) < least)
    (opens : least ≤ openingAhead before) : ahead (·.isMark sign) before = false :=
  not_ahead_of_opening least (fun _ marked => isMark_iff.mp marked ▸ low) opens

theorem not_keyword_of_opening {word : Keyword} (low : opening (.keyword word) < least)
    (opens : least ≤ openingAhead before) : ahead (·.isKeyword word) before = false :=
  not_ahead_of_opening least (fun _ worded => isKeyword_iff.mp worded ▸ low) opens

theorem call_of_atom (reads : Reads (.atom expr) before [⟨.endOfInput, last⟩]) :
    Reads (.call expr) before [⟨.endOfInput, last⟩] :=
  .call reads (.callsEnd rfl)

theorem unary_of_call (reads : Reads (.call expr) before [⟨.endOfInput, last⟩]) :
    Reads (.unary expr) before [⟨.endOfInput, last⟩] := by
  have opens : Rank.atom ≤ openingAhead before := reads.opens
  exact .unsigned (not_mark_of_opening (by decide) opens) (not_mark_of_opening (by decide) opens)
    reads

theorem power_of_unary (reads : Reads (.unary expr) before [⟨.endOfInput, last⟩]) :
    Reads (.power expr) before [⟨.endOfInput, last⟩] :=
  .base reads rfl

theorem chain_of_operand {level : Level}
    (reads : Reads (.operand level expr) before [⟨.endOfInput, last⟩]) :
    Reads (.chain level expr) before [⟨.endOfInput, last⟩] :=
  .chain reads (.chainEnd rfl)

theorem comparison_of_chain (reads : Reads (.chain .comparison expr) before [⟨.endOfInput, last⟩]) :
    Reads (.comparison expr) before [⟨.endOfInput, last⟩] := by
  have opens : Rank.sign ≤ openingAhead before := reads.opens
  exact .comparison (not_keyword_of_opening (by decide) opens) reads

theorem expression_of_chain (reads : Reads (.chain .logical expr) before [⟨.endOfInput, last⟩]) :
    Reads (.expression expr) before [⟨.endOfInput, last⟩] := by
  have opens : Rank.negation ≤ openingAhead before := reads.opens
  refine .connection (not_keyword_of_opening (by decide) opens) ?_ reads
  cases target : targetAhead before with
  | false => rfl
  | true =>
    have marked := ahead_tail_of_target target
    rw [← reads.leavesTarget target] at marked
    cases marked

/-- An expression is a statement, and no statement ends where it begins. -/
theorem statement_of_expression (reads : Reads (.expression expr) before after) :
    Reads (.statement expr) before after ∧ ahead endsStatement before = false := by
  cases reads with
  | declaration assigned => exact ⟨.statement rfl (.declaration assigned), rfl⟩
  | assignment assigned => exact ⟨.statement rfl (.assignment assigned), rfl⟩
  | connection noWord noTarget connected =>
    have opens : Rank.negation ≤ openingAhead before := connected.opens
    exact reads_plain (.connection noWord noTarget connected)
      (Nat.lt_of_lt_of_le (by decide) opens)

/-- No statement ends where one begins. -/
theorem goesOn_of_statement (reads : Reads (.statement expr) before after) :
    ahead endsStatement before = false := by
  cases reads with
  | statement _ plain => exact (statement_of_expression plain).2
  | _ => rfl

/-- What a phrase was read as that is, or is part of, an expression or a statement. -/
def Phrase.read? : Phrase → Option Located
  | .expression expr | .chain _ expr | .comparison expr | .power expr | .unary expr | .call expr
  | .atom expr | .statement expr => some expr
  | _ => none

/-- In front of the end of the input, it does not matter which phrase it was. -/
theorem statement_of_reads (read : phrase.read? = some expr)
    (reads : Reads phrase before [⟨.endOfInput, last⟩]) :
    Reads (.statement expr) before [⟨.endOfInput, last⟩] := by
  have ofComparison (reads : Reads (.comparison expr) before [⟨.endOfInput, last⟩]) :=
    (statement_of_expression (expression_of_chain (chain_of_operand reads))).1
  have ofSum (reads : Reads (.chain .additive expr) before [⟨.endOfInput, last⟩]) :=
    ofComparison (comparison_of_chain (chain_of_operand reads))
  have ofPower (reads : Reads (.power expr) before [⟨.endOfInput, last⟩]) :=
    ofSum (chain_of_operand (chain_of_operand reads))
  cases phrase with
  | statement =>
    cases read
    exact reads
  | expression =>
    cases read
    exact (statement_of_expression reads).1
  | chain level =>
    cases read
    cases level with
    | logical => exact (statement_of_expression (expression_of_chain reads)).1
    | comparison => exact ofComparison (comparison_of_chain reads)
    | additive => exact ofSum reads
    | multiplicative => exact ofSum (chain_of_operand reads)
  | comparison =>
    cases read
    exact ofComparison reads
  | power =>
    cases read
    exact ofPower reads
  | unary =>
    cases read
    exact ofPower (power_of_unary reads)
  | call =>
    cases read
    exact ofPower (power_of_unary (unary_of_call reads))
  | atom =>
    cases read
    exact ofPower (power_of_unary (unary_of_call (call_of_atom reads)))
  | _ => cases read

/-- The tokens are the expression as a statement if the input ends behind them. -/
def Alone (tokens : List Token) (expr : Located) : Prop :=
  ∀ span, Reads (.statement expr) (tokens ++ [⟨.endOfInput, span⟩]) [⟨.endOfInput, span⟩]

/-- What a phrase takes is what it was read as on its own, too. -/
theorem Reads.alone {tokens : List Token} (reads : Reads phrase (tokens ++ after) after)
    (read : phrase.read? = some expr) : Alone tokens expr := by
  intro span
  have opens : phrase.endsOpen = true := by
    cases phrase with
    | _ => first | rfl | cases read
  exact statement_of_reads read (reads.resumed (.inr ⟨opens, rfl, fun _ => rfl⟩))

/-- What is a statement on its own is a program of one statement. -/
theorem Alone.parse {tokens : List Token} (alone : Alone tokens expr) (span : Span) :
    ∃ note, Grammar.parse (tokens ++ [⟨.endOfInput, span⟩]) = .ok (.list [expr] note) := by
  have reads := alone span
  have goesOn := goesOn_of_statement reads
  have absent (wanted : Kind → Bool)
      (ends : ∀ kind, wanted kind = true → endsStatement kind = true) :
      ahead wanted (tokens ++ [⟨.endOfInput, span⟩]) = false := by
    cases found : ahead wanted (tokens ++ [⟨.endOfInput, span⟩]) with
    | false => rfl
    | true => rw [ahead_mono ends found] at goesOn; cases goesOn
  have opened : ahead (endsList fun _ => false) (tokens ++ [⟨.endOfInput, span⟩]) = false := by
    refine absent _ fun kind ends => ?_
    cases kind <;> first | rfl | cases ends
  have skipped := dropWhile_of_ahead (absent (·.isSeparator) fun kind ends => by
    cases kind <;> first | rfl | cases ends)
  obtain ⟨next, rest, shape⟩ := reads.exists_cons rfl
  rw [shape] at opened reads skipped ⊢
  exact ⟨_, parse_eq_ok (.statements skipped (.lastStatement opened reads rfl))⟩

end Quill.Grammar
