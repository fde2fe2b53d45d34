import Quill.Proofs.Syntax.Soundness
import Quill.Proofs.Syntax.Reparsing
import Quill.Proofs.Syntax.Tails

/-!
# Parentheses in programs

Every parenthesis that a phrase opens is closed in it, and it closes none that it does not open.
Only the lists that end with a closing parenthesis close the one in front of them.
-/

namespace Quill.Token

/-- How deep in parentheses the place behind the token is, given how deep the place in front is. A
parenthesis that is not open cannot be closed. -/
def deepen (depth : Nat) : Kind → Option Nat
  | .mark .openParen => some (depth + 1)
  | .mark .closeParen => if depth = 0 then none else some (depth - 1)
  | _ => some depth

/-- How deep in parentheses the place behind the tokens is. -/
def nesting (depth : Nat) (kinds : List Kind) : Option Nat :=
  kinds.foldlM deepen depth

/-- Every parenthesis is closed that is opened, and no other one. -/
def Matched (kinds : List Kind) : Prop :=
  nesting 0 kinds = some 0

instance (kinds : List Kind) : Decidable (Matched kinds) :=
  inferInstanceAs (Decidable (nesting 0 kinds = some 0))

variable {depth deep : Nat} {kind : Kind} {kinds front back : List Kind}

theorem nesting_cons (depth : Nat) (kind : Kind) (kinds : List Kind) :
    nesting depth (kind :: kinds) = (deepen depth kind).bind (nesting · kinds) :=
  rfl

theorem nesting_append (depth : Nat) (front back : List Kind) :
    nesting depth (front ++ back) = (nesting depth front).bind (nesting · back) :=
  List.foldlM_append

/-- Behind more open parentheses, more of them stay open. -/
theorem deepen_add (found : deepen depth kind = some deep) (more : Nat) :
    deepen (depth + more) kind = some (deep + more) := by
  unfold deepen at found ⊢
  split at found
  · cases found
    simp [Nat.add_right_comm]
  · split at found
    · cases found
    · cases found
      rw [if_neg (by omega)]
      congr 1
      omega
  · cases found
    rfl

theorem nesting_add (found : nesting depth kinds = some deep) (more : Nat) :
    nesting (depth + more) kinds = some (deep + more) := by
  induction kinds generalizing depth with
  | nil =>
    cases found
    rfl
  | cons kind kinds ih =>
    rw [nesting_cons] at found ⊢
    obtain ⟨next, stepped, rest⟩ := Option.bind_eq_some_iff.mp found
    rw [deepen_add stepped]
    exact ih rest

theorem Matched.append (first : Matched front) (second : Matched back) :
    Matched (front ++ back) := by
  rw [Matched, nesting_append, first]
  exact second

end Quill.Token

namespace Quill.Grammar

open Quill.Token

/-- Between the two places, as many parentheses that are open in front are closed, and no others
that are not opened. -/
def Nests (closed : Nat) (before after : List Token) : Prop :=
  ∃ taken, before = taken ++ after ∧
    ∀ depth, nesting (depth + closed) (kindsOf taken) = some depth

namespace Nests

variable {closed more : Nat} {before middle after rest : List Token} {token : Token}

theorem refl (after : List Token) : Nests 0 after after :=
  ⟨[], rfl, fun _ => rfl⟩

theorem append (first : Nests closed before middle) (second : Nests more middle after) :
    Nests (more + closed) before after := by
  obtain ⟨taken, rfl, nests⟩ := first
  obtain ⟨taken', rfl, nests'⟩ := second
  refine ⟨taken ++ taken', (List.append_assoc ..).symm, fun depth => ?_⟩
  rw [kindsOf, List.map_append, nesting_append, ← Nat.add_assoc, nests]
  exact nests' depth

/-- A token that is no parenthesis changes nothing. -/
theorem cons (plain : ∀ depth, deepen depth token.kind = some depth)
    (nests : Nests closed rest after) : Nests closed (token :: rest) after := by
  obtain ⟨taken, rfl, nests⟩ := nests
  refine ⟨token :: taken, rfl, fun depth => ?_⟩
  rw [kindsOf, List.map_cons, nesting_cons, plain]
  exact nests depth

theorem opens {span : Span} (nests : Nests 1 rest after) :
    Nests 0 (⟨.mark .openParen, span⟩ :: rest) after := by
  obtain ⟨taken, rfl, nests⟩ := nests
  exact ⟨⟨.mark .openParen, span⟩ :: taken, rfl, nests⟩

theorem close (span : Span) (after : List Token) :
    Nests 1 (⟨.mark .closeParen, span⟩ :: after) after :=
  ⟨[⟨.mark .closeParen, span⟩], rfl, fun _ => rfl⟩

theorem matched {taken : List Token} (nests : Nests 0 (taken ++ after) after) :
    Matched (kindsOf taken) := by
  obtain ⟨taken', split, nests⟩ := nests
  obtain rfl := List.append_cancel_right split
  exact nests 0

/-- A token that is no parenthesis stands between. -/
theorem andThen (first : Nests closed before (token :: middle))
    (plain : ∀ depth, deepen depth token.kind = some depth) (second : Nests more middle after) :
    Nests (more + closed) before after :=
  first.append (.cons plain second)

theorem separators (tokens : List Token) :
    Nests 0 tokens (tokens.dropWhile (·.kind.isSeparator)) := by
  induction tokens with
  | nil => exact refl []
  | cons token tokens ih =>
    cases separates : token.kind.isSeparator with
    | false =>
      simp only [List.dropWhile_cons, separates]
      exact refl _
    | true =>
      simp only [List.dropWhile_cons, separates]
      refine .cons (fun depth => ?_) ih
      cases kind : token.kind with
      | newline | semicolon => rfl
      | _ =>
        rw [kind] at separates
        cases separates

end Nests

theorem deepen_of_binaryOp? {kind : Kind} {op : BinaryOp} (operator : kind.binaryOp? = some op)
    (depth : Nat) : deepen depth kind = some depth := by
  cases kind with
  | mark sign => cases sign <;> first | rfl | cases operator
  | _ => rfl

/-- What is true of the parentheses of a phrase: it closes those that it opens, and if it ends with
a parenthesis that closes a list, the one in front of the list, too. -/
def Phrase.Nested (before after : List Token) : Phrase → Prop
  | .enumeration closing _ _ | .items closing _ _ =>
    closing ≠ .openParen → Nests (if closing = .closeParen then 1 else 0) before after
  | .parameters _ _ | .names _ _ => Nests 1 before after
  | _ => Nests 0 before after

theorem nested_operand {level : Level} {expr : Located} {before after : List Token} :
    (Phrase.operand level expr).Nested before after ↔ Nests 0 before after := by
  cases level <;> rfl

theorem nests_closing {closing : Mark} (span : Span) (after : List Token)
    (other : closing ≠ .openParen) :
    Nests (if closing = .closeParen then 1 else 0) (⟨.mark closing, span⟩ :: after) after := by
  by_cases parens : closing = .closeParen
  · subst parens
    exact .close span after
  · rw [if_neg parens]
    refine .cons (fun depth => ?_) (.refl after)
    cases closing <;> first | rfl | contradiction

/-- A phrase closes the parentheses that it opens. -/
theorem Reads.nested {phrase : Phrase} {before after : List Token}
    (reads : Reads phrase before after) : phrase.Nested before after := by
  induction reads with
  | declaration _ ih => exact .cons (fun _ => rfl) (.cons (fun _ => rfl) (.cons (fun _ => rfl) ih))
  | assignment _ ih => exact .cons (fun _ => rfl) (.cons (fun _ => rfl) ih)
  | chain _ _ ihStart ihMore => exact (nested_operand.mp ihStart).append ihMore
  | chainEnd | callsEnd | «variable» | stepNone | noName | noStatements | endOfLine => exact .refl _
  | chainMore operator _ _ _ ihOperand ihMore =>
    exact .cons (deepen_of_binaryOp? operator) ((nested_operand.mp ihOperand).append ihMore)
  | negation _ ih | plus _ ih | minus _ _ ih | named _ ih | choice _ ih | stepSome _ ih
  | returnSome _ _ ih => exact .cons (fun _ => rfl) ih
  | connection _ _ _ ih | comparison _ _ ih | base _ _ ih | unsigned _ _ _ ih | elements _ _ ih
  | parameters _ ih | statement _ _ ih | lastStatement _ _ _ ih | block _ _ ih
  | single _ _ ih => exact ih
  | power _ _ ihStart ihRaised => exact ihStart.andThen (fun _ => rfl) ihRaised
  | call _ _ ihStart ihMore => exact ihStart.append ihMore
  | smallest | instantiate => exact .cons (fun _ => rfl) (.cons (fun _ => rfl) (.refl _))
  | member => exact .cons (fun _ => rfl) (.cons (fun _ => rfl) (.refl _))
  | callsMore _ _ ihPassed ihMore => exact (Nests.opens (ihPassed (by decide))).append ihMore
  | int | float | str | name | returnNone | continueLoop | breakLoop | endOfBlock =>
    exact .cons (fun _ => rfl) (.refl _)
  | memberAssignment _ ih =>
    exact .cons (fun _ => rfl) (.cons (fun _ => rfl) (.cons (fun _ => rfl) ih))
  | parens _ ih => exact .opens (ih.append (.close _ _))
  | list _ ih => exact .cons (fun _ => rfl) (ih (by decide))
  | forLoop _ _ _ _ _ ihStart ihStop ihStep ihBody ihEnd =>
    refine .cons (fun _ => rfl) (.cons (fun _ => rfl) (.cons (fun _ => rfl) ?_))
    exact ihStart.andThen (fun _ => rfl) (ihStop.append
      (ihStep.andThen (fun _ => rfl) (ihBody.append ihEnd)))
  | whileLoop _ _ _ ihCondition ihBody ihEnd =>
    exact .cons (fun _ => rfl) (ihCondition.andThen (fun _ => rfl) (ihBody.append ihEnd))
  | functionOf _ _ _ ihCalled ihPassed ihValued =>
    exact .cons (fun _ => rfl) (ihCalled.append (.opens (ihPassed.andThen (fun _ => rfl) ihValued)))
  | functionBlock _ _ _ _ ihCalled ihPassed ihBlocked =>
    exact .cons (fun _ => rfl) (ihCalled.append (.opens (ihPassed.append
      (ihBlocked.andThen (fun _ => rfl) (.refl _)))))
  | template _ _ ih =>
    exact .cons (fun _ => rfl) (.cons (fun _ => rfl) (ih.andThen (fun _ => rfl) (.refl _)))
  | noElements => exact nests_closing _ _
  | lastItem _ _ ih => exact fun other => ih.append (nests_closing _ _ other)
  | moreItems _ _ ihItem ihMore => exact fun other => ihItem.andThen (fun _ => rfl) (ihMore other)
  | noParameters => exact .close _ _
  | lastName => exact .cons (fun _ => rfl) (.close _ _)
  | moreNames _ ih => exact .cons (fun _ => rfl) (.cons (fun _ => rfl) ih)
  | moreStatements _ _ _ _ ihFirst ihMore =>
    exact ihFirst.append ((Nests.separators _).append ihMore)
  | @statements _ _ _ before _ _ skipped _ ih =>
    exact (skipped ▸ Nests.separators before).append ih
  | elif _ _ _ ihCondition ihBody ihMore =>
    exact ihCondition.andThen (fun _ => rfl) (ihBody.andThen (fun _ => rfl) ihMore)
  | otherwise _ _ _ _ ihCondition ihBody ihOther ihEnd =>
    exact ihCondition.andThen (fun _ => rfl) (ihBody.andThen (fun _ => rfl) (ihOther.append ihEnd))
  | lastBranch _ _ _ _ _ _ ihCondition ihBody ihEnd =>
    exact ihCondition.andThen (fun _ => rfl) (ihBody.append ihEnd)

/-- The tokens of a program are matched. -/
theorem matched_of_parse {front : List Token} {span : Span} {root : Located}
    (unended : ends front = 0) (parsed : parse (front ++ [⟨.endOfInput, span⟩]) = .ok root) :
    Matched (kindsOf front) := by
  obtain ⟨last, rest, reads⟩ := parse_eq_ok_iff.mp parsed
  obtain ⟨rfl, rfl, -⟩ := reads.up_to_end unended
  exact reads.nested.matched

end Quill.Grammar
