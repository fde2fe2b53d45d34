import Quill.Proofs.Syntax.Alone

/-!
# Returns without a value

A `return` has no value exactly if the token behind it ends a statement. A program therefore has as
many returns without a value as there are such places among its tokens.
-/

namespace Quill

mutual

/-- How many returns without a value there are in the expression. -/
def Expr.bareReturns {Note : Type} : Expr Note → Nat
  | .literal _ _ | .read _ _ | .member _ _ _ | .instantiate _ _ | .breakLoop _ | .continueLoop _ =>
    0
  | .returnWith none _ => 1
  | .returnWith (some value) _ | .assign _ value _ | .assignMember _ _ value _ => value.bareReturns
  | .unary _ operand _ => operand.bareReturns
  | .binary _ left right _ => left.bareReturns + right.bareReturns
  | .list elements _ => Expr.allBareReturns elements
  | .choice branches _ => branches.bareReturns
  | .forLoop _ start stop none body _ _ =>
    start.bareReturns + stop.bareReturns + body.bareReturns
  | .forLoop _ start stop (some step) body _ _ =>
    start.bareReturns + stop.bareReturns + step.bareReturns + body.bareReturns
  | .whileLoop condition body _ _ => condition.bareReturns + body.bareReturns
  | .function _ _ body _ _ | .template _ body _ => body.bareReturns
  | .call callee arguments _ => callee.bareReturns + Expr.allBareReturns arguments

/-- How many returns without a value there are in the expressions. -/
def Expr.allBareReturns {Note : Type} : List (Expr Note) → Nat
  | [] => 0
  | element :: rest => element.bareReturns + Expr.allBareReturns rest

/-- How many returns without a value there are in the alternatives. -/
def Branches.bareReturns {Note : Type} : Branches Note → Nat
  | .done => 0
  | .otherwise body _ => body.bareReturns
  | .orElse condition body _ rest => condition.bareReturns + body.bareReturns + rest.bareReturns

end

section

variable {Note Other : Type} (f : Note → Other)

mutual

@[simp] theorem Expr.bareReturns_mapNotes :
    (expr : Expr Note) → (expr.mapNotes f).bareReturns = expr.bareReturns
  | .literal _ _ | .read _ _ | .member _ _ _ | .instantiate _ _ | .breakLoop _ | .continueLoop _
  | .returnWith none _ => rfl
  | .returnWith (some value) _ | .assign _ value _ | .assignMember _ _ value _ =>
    Expr.bareReturns_mapNotes value
  | .unary _ operand _ => Expr.bareReturns_mapNotes operand
  | .binary _ left right _ =>
    congrArg₂ (· + ·) (Expr.bareReturns_mapNotes left) (Expr.bareReturns_mapNotes right)
  | .list elements _ => Expr.allBareReturns_mapAllNotes elements
  | .choice branches _ => Branches.bareReturns_mapNotes branches
  | .forLoop _ start stop none body _ _ => by
    simp only [Expr.mapNotes, Expr.bareReturns, Expr.bareReturns_mapNotes start,
      Expr.bareReturns_mapNotes stop, Expr.bareReturns_mapNotes body]
  | .forLoop _ start stop (some step) body _ _ => by
    simp only [Expr.mapNotes, Expr.bareReturns, Expr.bareReturns_mapNotes start,
      Expr.bareReturns_mapNotes stop, Expr.bareReturns_mapNotes step,
      Expr.bareReturns_mapNotes body]
  | .whileLoop condition body _ _ =>
    congrArg₂ (· + ·) (Expr.bareReturns_mapNotes condition) (Expr.bareReturns_mapNotes body)
  | .function _ _ body _ _ | .template _ body _ => Expr.bareReturns_mapNotes body
  | .call callee arguments _ =>
    congrArg₂ (· + ·) (Expr.bareReturns_mapNotes callee)
      (Expr.allBareReturns_mapAllNotes arguments)

theorem Expr.allBareReturns_mapAllNotes :
    (elements : List (Expr Note)) →
      Expr.allBareReturns (Expr.mapAllNotes f elements) = Expr.allBareReturns elements
  | [] => rfl
  | element :: rest =>
    congrArg₂ (· + ·) (Expr.bareReturns_mapNotes element) (Expr.allBareReturns_mapAllNotes rest)

theorem Branches.bareReturns_mapNotes :
    (branches : Branches Note) → (branches.mapNotes f).bareReturns = branches.bareReturns
  | .done => rfl
  | .otherwise body _ => Expr.bareReturns_mapNotes body
  | .orElse condition body _ rest => by
    simp only [Branches.mapNotes, Branches.bareReturns, Expr.bareReturns_mapNotes condition,
      Expr.bareReturns_mapNotes body, Branches.bareReturns_mapNotes rest]

end

end

/-- Programs that differ in their spans only have as many returns without a value. -/
theorem Expr.bareReturns_eq_of_bare {Note Other : Type} {expr : Expr Note} {other : Expr Other}
    (same : expr.bare = other.bare) : expr.bareReturns = other.bareReturns := by
  rw [← Expr.bareReturns_mapNotes (fun _ => ()) expr,
    ← Expr.bareReturns_mapNotes (fun _ => ()) other]
  exact congrArg Expr.bareReturns same

namespace Grammar

open Quill.Token

/-- How often the word of a `return` stands in front of a token that ends a statement. -/
def bareReturns : List Token → Nat
  | [] => 0
  | token :: rest =>
    bareReturns rest + if token.kind.isKeyword .returnWord && ahead endsStatement rest then 1 else 0

@[simp] theorem bareReturns_cons (token : Token) (rest : List Token) :
    bareReturns (token :: rest) = bareReturns rest +
      if token.kind.isKeyword .returnWord && ahead endsStatement rest then 1 else 0 :=
  rfl

/-- Of the tokens behind a place, only the first one matters to those in front. -/
theorem bareReturns_append (front : List Token) (token : Token) (rest : List Token) :
    bareReturns (front ++ token :: rest) =
      bareReturns (front ++ [token]) + bareReturns (token :: rest) := by
  induction front with
  | nil =>
    have last : bareReturns [token] = 0 := by simp [bareReturns, ahead]
    rw [List.nil_append, List.nil_append, last, Nat.zero_add]
  | cons first front ih =>
    have same : ahead endsStatement (front ++ [token]) =
        ahead endsStatement (front ++ token :: rest) :=
      ((sameNext_cons token rest []).append front).ahead
    rw [List.cons_append, List.cons_append, bareReturns_cons, bareReturns_cons, ih, same]
    omega

theorem bareReturns_dropWhile (tokens : List Token) :
    bareReturns (tokens.dropWhile (·.kind.isSeparator)) = bareReturns tokens := by
  induction tokens with
  | nil => rfl
  | cons token rest ih =>
    obtain ⟨kind, span⟩ := token
    cases kind <;> simp_all [Kind.isSeparator, Kind.isKeyword]

/-- How many returns without a value there are in what has been read already of the phrase. -/
def Phrase.bareReturnsTaken : Phrase → Nat
  | .chainFrom _ left _ | .calls left _ => left.bareReturns
  | _ => 0

/-- How many returns without a value there are in what the phrase is read as. -/
def Phrase.bareReturns : Phrase → Nat
  | .expression expr | .chain _ expr | .chainFrom _ _ expr | .comparison expr | .power expr
  | .unary expr | .call expr | .calls _ expr | .atom expr | .named _ _ expr | .statement expr
  | .statements _ expr | .body _ expr _ | .step (some expr) => expr.bareReturns
  | .enumeration _ elements _ | .items _ elements _ | .statementList _ elements =>
    Expr.allBareReturns elements
  | .branches alternatives _ => alternatives.bareReturns
  | .functionName _ | .parameters .. | .names .. | .ending .. | .step none => 0

@[simp] theorem bareReturnsTaken_operand (level : Level) (expr : Located) :
    (Phrase.operand level expr).bareReturnsTaken = 0 := by
  cases level <;> rfl

@[simp] theorem bareReturns_operand (level : Level) (expr : Located) :
    (Phrase.operand level expr).bareReturns = expr.bareReturns := by
  cases level <;> rfl

theorem not_return_of_binaryOp? {kind : Kind} {op : BinaryOp}
    (operator : kind.binaryOp? = some op) : kind.isKeyword .returnWord = false := by
  cases kind with
  | keyword word => cases word <;> first | rfl | cases operator
  | _ => rfl

/-- Each `return` in front of the end of a statement is read as one without a value, and no other
one is. -/
theorem Reads.bareReturns_eq {phrase : Phrase} {before after : List Token}
    (reads : Reads phrase before after) :
    phrase.bareReturnsTaken + bareReturns before = phrase.bareReturns + bareReturns after := by
  induction reads with
  | chain _ _ start more =>
    rw [bareReturnsTaken_operand, bareReturns_operand] at start
    simp only [Phrase.bareReturnsTaken, Phrase.bareReturns] at more ⊢
    omega
  | chainMore operator _ _ _ operand more =>
    rw [bareReturnsTaken_operand, bareReturns_operand] at operand
    simp only [Phrase.bareReturnsTaken, Phrase.bareReturns, Expr.bareReturns, bareReturns_cons,
      not_return_of_binaryOp? operator, Bool.false_and, Bool.false_eq_true, if_false] at more ⊢
    omega
  | @statements _ _ _ before _ _ skipped _ listed =>
    rw [← bareReturns_dropWhile before, skipped]
    exact listed
  | @moreStatements _ _ _ _ middle _ _ _ _ _ first more =>
    rw [bareReturns_dropWhile] at more
    simp only [Phrase.bareReturnsTaken, Phrase.bareReturns, Expr.allBareReturns] at first more ⊢
    omega
  | @forLoop _ _ _ _ _ _ _ _ _ _ step =>
    cases step <;>
    · simp_all [Phrase.bareReturnsTaken, Phrase.bareReturns, Expr.bareReturns, Kind.isKeyword]
      omega
  -- Whether there is a value has been decided by the look at the next token that is counted, too.
  | returnNone noValue =>
    simp [Phrase.bareReturnsTaken, Phrase.bareReturns, Expr.bareReturns, Kind.isKeyword, noValue,
      Nat.add_comm]
  | returnSome hasValue _ returned =>
    simpa [Phrase.bareReturnsTaken, Phrase.bareReturns, Expr.bareReturns, hasValue] using returned
  | power | callsMore | whileLoop | moreItems | elif | otherwise | lastBranch =>
    simp_all [Phrase.bareReturnsTaken, Phrase.bareReturns, Expr.bareReturns, Expr.allBareReturns,
      Branches.bareReturns, Kind.isKeyword]
    omega
  | _ =>
    simp_all [Phrase.bareReturnsTaken, Phrase.bareReturns, Expr.bareReturns, Expr.allBareReturns,
      Kind.isKeyword]

end Grammar

end Quill
