import Quill.Expr.Basic
import Quill.Token.Lexeme

/-!
# Printing programs

The tokens that an expression is printed as, with no more parentheses than its place requires.
Places are ranked by how tightly they bind what stands in them. An expression has a rank of its own,
and where that is lower than the one of its place it is put in parentheses. Constructs that go on to
the end of their statement have the lowest rank, which only a whole statement has: everywhere else
they are put in parentheses.
-/

namespace Quill

/-- Where an expression stands. -/
inductive Place where
  /-- It is the list of the statements of a block. -/
  | block
  /-- It is a whole statement of a block or of a program. -/
  | statement
  /-- It is a part of an expression or of a line, and must bind as tightly as the rank says. -/
  | operand (rank : Nat)
deriving DecidableEq, Repr

/-- How tightly the place binds what stands in it. -/
def Place.rank : Place → Nat
  | block | statement => 0
  | operand rank => rank

@[simp] theorem Place.rank_statement : Place.statement.rank = 0 :=
  rfl

@[simp] theorem Place.rank_operand (rank : Nat) : (Place.operand rank).rank = rank :=
  rfl

namespace Rank

/-- Where any operator may stand without parentheses, from logical connectives on. -/
def connection : Nat := 1

/-- Where `not` may stand. -/
def negation : Nat := 2

/-- Where comparisons may stand, but no `not`. -/
def comparison : Nat := 3

/-- Where sums and differences may stand. -/
def sum : Nat := 4

/-- Where products and quotients may stand. -/
def term : Nat := 5

/-- Where powers may stand. -/
def power : Nat := 6

/-- Where signs may stand. -/
def sign : Nat := 7

/-- Where something may stand that argument lists follow. -/
def call : Nat := 8

/-- Where only atoms may stand. -/
def atom : Nat := 9

end Rank

/-- The place of the body of a construct. -/
def Place.body (block : Bool) : Place :=
  if block then .block else .operand Rank.connection

/-! ## Operators -/

namespace BinaryOp

/-- The token of the operator. -/
def token : BinaryOp → Token.Kind
  | add => .mark .plus
  | sub => .mark .minus
  | mul => .mark .star
  | div => .mark .slash
  | pow => .mark .caret
  | less => .mark .less
  | greater => .mark .greater
  | lessEqual => .mark .lessEqual
  | greaterEqual => .mark .greaterEqual
  | equal => .mark .equal
  | notEqual => .mark .notEqual
  | and => .keyword .andWord
  | or => .keyword .orWord

/-- How tightly the operator binds. -/
def rank : BinaryOp → Nat
  | and | or => Rank.connection
  | less | greater | lessEqual | greaterEqual | equal | notEqual => Rank.comparison
  | add | sub => Rank.sum
  | mul | div => Rank.term
  | pow => Rank.power

theorem rank_le (op : BinaryOp) : op.rank ≤ Rank.power := by
  cases op <;> decide

/-- How tightly its left operand has to bind. -/
def leftRank : BinaryOp → Nat
  | pow => Rank.sign
  | op => op.rank

/-- How tightly its right operand has to bind. -/
def rightRank : BinaryOp → Nat
  | pow => Rank.power
  | op => op.rank + 1

theorem leftRank_le (op : BinaryOp) : op.leftRank ≤ Rank.sign := by
  cases op <;> decide

theorem rightRank_le (op : BinaryOp) : op.rightRank ≤ Rank.power := by
  cases op <;> decide

end BinaryOp

namespace UnaryOp

/-- The token of the operator. -/
def token : UnaryOp → Token.Kind
  | plus => .mark .plus
  | negate => .mark .minus
  | not => .keyword .notWord

/-- How tightly the operator binds, and its operand has to. -/
def rank : UnaryOp → Nat
  | plus | negate => Rank.sign
  | not => Rank.negation

theorem rank_le (op : UnaryOp) : op.rank ≤ Rank.sign := by
  cases op <;> decide

end UnaryOp

/-! ## Expressions -/

/-- The tokens of something that binds as tightly as the first rank says, in parentheses if its
place needs more than that. -/
def enclose (own needed : Nat) (tokens : List Token.Kind) : List Token.Kind :=
  if own < needed then .mark .openParen :: tokens ++ [.mark .closeParen] else tokens

theorem enclose_of_le {own needed : Nat} (enough : needed ≤ own) (tokens : List Token.Kind) :
    enclose own needed tokens = tokens :=
  if_neg (Nat.not_lt.mpr enough)

theorem enclose_of_lt {own needed : Nat} (loose : own < needed) (tokens : List Token.Kind) :
    enclose own needed tokens = .mark .openParen :: tokens ++ [.mark .closeParen] :=
  if_pos loose

@[simp] theorem enclose_zero (own : Nat) (tokens : List Token.Kind) :
    enclose own 0 tokens = tokens :=
  enclose_of_le (Nat.zero_le own) tokens

/-- The tokens of a constant, apart from the smallest integer. -/
def Literal.token : Literal → Token.Kind
  | .int value => .int value.toInt.toNat
  | .float value => .float value
  | .str value => .str value

/-- Whether the constant is the smallest integer, which has a sign. -/
def Literal.isSmallest : Literal → Bool
  | .int value => value = Int64.minValue
  | _ => false

/-- An integer that was read without a sign is printed as it was read. -/
theorem Literal.token_ofNat {magnitude : Nat} (small : magnitude < Lexeme.maxMagnitude) :
    Literal.token (.int (Int64.ofNat magnitude)) = .int magnitude := by
  have exact : (Int64.ofNat magnitude).toInt = magnitude := Int64.toInt_ofNat_of_lt small
  rw [Literal.token, exact, Int.toNat_natCast]

theorem Literal.isSmallest_ofNat {magnitude : Nat} (small : magnitude < Lexeme.maxMagnitude) :
    Literal.isSmallest (.int (Int64.ofNat magnitude)) = false := by
  have exact : (Int64.ofNat magnitude).toInt = magnitude := Int64.toInt_ofNat_of_lt small
  apply decide_eq_false
  intro same
  have negative : Int64.minValue.toInt = magnitude := same ▸ exact
  simp at negative

/-- Names with commas between them. -/
def nameTokens : List String → List Token.Kind
  | [] => []
  | [name] => [.identifier name]
  | name :: names => .identifier name :: .mark .comma :: nameTokens names

/-- The word that closes a block. -/
def endTokens (block : Bool) : List Token.Kind :=
  if block then [.keyword .endWord] else []

mutual

/-- The tokens of an expression. -/
def Expr.tokens (place : Place) : Expr Unit → List Token.Kind
  | .literal value _ =>
    if value.isSmallest then
      enclose Rank.sign place.rank [.mark .minus, .int Lexeme.maxMagnitude]
    else
      [value.token]
  | .unary op operand _ =>
    enclose op.rank place.rank (op.token :: operand.tokens (.operand op.rank))
  | .binary op left right _ =>
    enclose op.rank place.rank
      (left.tokens (.operand op.leftRank) ++
        op.token :: right.tokens (.operand op.rightRank))
  | .list elements _ =>
    if place = .block then
      .newline :: Expr.statementTokens elements ++ if elements.isEmpty then [] else [.newline]
    else
      .mark .openBracket :: Expr.itemTokens elements ++ [.mark .closeBracket]
  | .choice branches _ => enclose 0 place.rank (.keyword .ifWord :: branches.tokens)
  | .forLoop counter start stop none body block _ =>
    enclose 0 place.rank
      (.keyword .forWord :: .identifier counter :: .mark .assign ::
        start.tokens (.operand Rank.connection) ++ .keyword .toWord ::
        stop.tokens (.operand Rank.connection) ++ .keyword .thenWord ::
        body.tokens (.body block) ++ endTokens block)
  | .forLoop counter start stop (some step) body block _ =>
    enclose 0 place.rank
      (.keyword .forWord :: .identifier counter :: .mark .assign ::
        start.tokens (.operand Rank.connection) ++ .keyword .toWord ::
        stop.tokens (.operand Rank.connection) ++ .keyword .stepWord ::
        step.tokens (.operand Rank.connection) ++ .keyword .thenWord ::
        body.tokens (.body block) ++ endTokens block)
  | .whileLoop condition body block _ =>
    enclose 0 place.rank
      (.keyword .whileWord :: condition.tokens (.operand Rank.connection) ++
        .keyword .thenWord :: body.tokens (.body block) ++ endTokens block)
  | .read name _ => [.identifier name]
  | .assign name value _ =>
    enclose 0 place.rank
      (.identifier name :: .mark .assign :: value.tokens (.operand Rank.connection))
  | .member object name _ => [.identifier object, .mark .dot, .identifier name]
  | .assignMember object name value _ =>
    enclose 0 place.rank
      (.identifier object :: .mark .dot :: .identifier name :: .mark .assign ::
        value.tokens (.operand Rank.connection))
  | .function name parameters body valued _ =>
    enclose 0 place.rank
      (.keyword .funcWord :: (name.map Token.Kind.identifier).toList ++
        .mark .openParen :: nameTokens parameters ++ .mark .closeParen ::
        (if valued then .mark .arrow :: body.tokens (.operand Rank.connection)
          else body.tokens .block ++ [.keyword .endWord]))
  | .call callee arguments _ =>
    enclose Rank.call place.rank
      (callee.tokens (.operand Rank.call) ++
        .mark .openParen :: Expr.itemTokens arguments ++ [.mark .closeParen])
  | .template name body _ =>
    .keyword .objectWord :: .identifier name :: body.tokens .block ++ [.keyword .endWord]
  | .instantiate name _ => [.keyword .newWord, .identifier name]
  | .returnWith none _ => [.keyword .returnWord]
  | .returnWith (some value) _ =>
    .keyword .returnWord :: value.tokens (.operand Rank.connection)
  | .breakLoop _ => [.keyword .breakWord]
  | .continueLoop _ => [.keyword .continueWord]

/-- Expressions with commas between them. -/
def Expr.itemTokens : List (Expr Unit) → List Token.Kind
  | [] => []
  | [element] => element.tokens (.operand Rank.connection)
  | element :: elements =>
    element.tokens (.operand Rank.connection) ++ .mark .comma :: Expr.itemTokens elements

/-- Statements, each of them on a line of its own. -/
def Expr.statementTokens : List (Expr Unit) → List Token.Kind
  | [] => []
  | [statement] => statement.tokens .statement
  | statement :: statements =>
    statement.tokens .statement ++ .newline :: Expr.statementTokens statements

/-- The alternatives of a choice. Only an alternative without another one behind it has to say where
its block ends. -/
def Branches.tokens : Branches Unit → List Token.Kind
  | .done => []
  | .otherwise body block => .keyword .elseWord :: body.tokens (.body block) ++ endTokens block
  | .orElse condition body block .done =>
    condition.tokens (.operand Rank.connection) ++ .keyword .thenWord ::
      body.tokens (.body block) ++ endTokens block
  | .orElse condition body block (.otherwise other otherBlock) =>
    condition.tokens (.operand Rank.connection) ++ .keyword .thenWord ::
      body.tokens (.body block) ++ Branches.tokens (.otherwise other otherBlock)
  | .orElse condition body block rest =>
    condition.tokens (.operand Rank.connection) ++ .keyword .thenWord ::
      body.tokens (.body block) ++ .keyword .elifWord :: rest.tokens

end

/-- The tokens of a program, whose statements stand on lines of their own. -/
def Expr.programTokens : Expr Unit → List Token.Kind
  | .list elements _ => Expr.statementTokens elements
  | expr => expr.tokens .statement

/-! ## Returns -/

mutual

/-- Whether every `return` without a value is a whole statement of a block or of a program. -/
def Expr.returnsStand (place : Place) : Expr Unit → Bool
  | .literal _ _ | .read _ _ | .member _ _ _ | .instantiate _ _ | .breakLoop _ | .continueLoop _ =>
    true
  | .unary _ operand _ => operand.returnsStand (.operand Rank.connection)
  | .binary _ left right _ =>
    left.returnsStand (.operand Rank.connection) && right.returnsStand (.operand Rank.connection)
  | .list elements _ =>
    Expr.allReturnsStand (if place = .block then .statement else .operand Rank.connection) elements
  | .choice branches _ => branches.returnsStand
  | .forLoop _ start stop none body block _ =>
    start.returnsStand (.operand Rank.connection) && stop.returnsStand (.operand Rank.connection) &&
      body.returnsStand (.body block)
  | .forLoop _ start stop (some step) body block _ =>
    start.returnsStand (.operand Rank.connection) && stop.returnsStand (.operand Rank.connection) &&
      step.returnsStand (.operand Rank.connection) && body.returnsStand (.body block)
  | .whileLoop condition body block _ =>
    condition.returnsStand (.operand Rank.connection) && body.returnsStand (.body block)
  | .assign _ value _ | .assignMember _ _ value _ => value.returnsStand (.operand Rank.connection)
  | .function _ _ body valued _ => body.returnsStand (.body !valued)
  | .call callee arguments _ =>
    callee.returnsStand (.operand Rank.connection) &&
      Expr.allReturnsStand (.operand Rank.connection) arguments
  | .template _ body _ => body.returnsStand .block
  | .returnWith none _ => place = .statement
  | .returnWith (some value) _ => value.returnsStand (.operand Rank.connection)

/-- The same for every expression of a list. -/
def Expr.allReturnsStand (place : Place) : List (Expr Unit) → Bool
  | [] => true
  | element :: elements => element.returnsStand place && Expr.allReturnsStand place elements

/-- The same for all alternatives of a choice. -/
def Branches.returnsStand : Branches Unit → Bool
  | .done => true
  | .otherwise body block => body.returnsStand (.body block)
  | .orElse condition body block rest =>
    condition.returnsStand (.operand Rank.connection) && body.returnsStand (.body block) &&
      rest.returnsStand

end

end Quill
