import Quill.Grammar.Program

/-!
# Readings

The grammar as a relation. A phrase is something that a rule of the grammar can read, together with
what it was read as, and a reading of it leads from the tokens before the phrase to those behind it.
Where a rule looks ahead, the reading says what it sees: that no operator of the level follows, that
no argument list follows, that a name is no target of an assignment. Nothing here counts rounds or
knows about failures, so readings are what statements about programs are proved from.
-/

namespace Quill.Grammar

open Quill.Token

/-- Whether the next token is of the given kind. There may be none. -/
def ahead (wanted : Kind → Bool) : List Token → Bool
  | [] => false
  | token :: _ => wanted token.kind

/-- Whether a name and the assignment mark come next. -/
def targetAhead : List Token → Bool
  | ⟨.identifier _, _⟩ :: ⟨.mark .assign, _⟩ :: _ => true
  | _ => false

/-- Whether the token is an integer of the largest magnitude. -/
def isLargest : Kind → Bool
  | .int magnitude => magnitude = Lexeme.maxMagnitude
  | _ => false

/-- Whether a statement that begins with the token is a jump. -/
def startsJump (kind : Kind) : Bool :=
  kind.isKeyword .returnWord || kind.isKeyword .continueWord || kind.isKeyword .breakWord

/-- The levels of operators that group to the left. -/
inductive Level where
  | logical | comparison | additive | multiplicative
deriving DecidableEq, Repr

/-- Whether the operator belongs to the level. -/
def Level.admits : Level → BinaryOp → Bool
  | logical => BinaryOp.isLogical
  | comparison => BinaryOp.isComparison
  | additive => BinaryOp.isAdditive
  | multiplicative => BinaryOp.isMultiplicative

/-- Whether the token is an operator of the level. -/
def Level.has (level : Level) (kind : Kind) : Bool :=
  kind.binaryOp?.any level.admits

/-- What the rules of the grammar read. -/
inductive Phrase where
  /-- An expression of any kind. -/
  | expression (expr : Located)
  /-- Operands with operators of one level between them. -/
  | chain (level : Level) (expr : Located)
  /-- Operators of one level and their right operands, behind a first operand. -/
  | chainFrom (level : Level) (left expr : Located)
  /-- A comparison, or the negation of one. -/
  | comparison (expr : Located)
  /-- An operand of a multiplication. -/
  | power (expr : Located)
  /-- An operand of an exponentiation. -/
  | unary (expr : Located)
  /-- An atom with any number of argument lists. -/
  | call (expr : Located)
  /-- Argument lists behind something that is called. -/
  | calls (callee expr : Located)
  /-- An expression that no operator can pull apart. -/
  | atom (expr : Located)
  /-- What follows a name that has been taken. -/
  | named (name : String) (span : Span) (expr : Located)
  /-- Any number of expressions with commas between them, and the mark that closes them. -/
  | enumeration (closing : Mark) (elements : List Located) (last : Token)
  /-- One or more expressions with commas between them, and the mark that closes them. -/
  | items (closing : Mark) (elements : List Located) (last : Token)
  /-- The name of a function, if it has one. -/
  | functionName (name : Option String)
  /-- The parameters of a function, and the mark that closes them. -/
  | parameters (names : List String) (last : Token)
  /-- One or more names with commas between them, and the mark that closes them. -/
  | names (names : List String) (last : Token)
  /-- A statement. -/
  | statement (expr : Located)
  /-- Statements with separators between them. -/
  | statementList (closing : Kind → Bool) (elements : List Located)
  /-- Statements with separators around them. -/
  | statements (closing : Kind → Bool) (expr : Located)
  /-- The body of a construct. -/
  | body (closing : Kind → Bool) (expr : Located) (block : Bool)
  /-- The end of a construct with the given body. -/
  | ending (body : Located) (block : Bool) (stop : Span)
  /-- The steps of a loop that counts. -/
  | step (step : Option Located)
  /-- The alternatives of a choice. -/
  | branches (branches : Branches Span) (stop : Span)

/-- What stands between the operators of a level. -/
def Phrase.operand : Level → Located → Phrase
  | .logical => .comparison
  | .comparison => .chain .additive
  | .additive => .chain .multiplicative
  | .multiplicative => .power

/-- What the parser of a rule reads. -/
def Phrase.ofRule : Rule → Located → Phrase
  | .expression => .expression
  | .comparison => .comparison
  | .power => .power
  | .unary => .unary

/-- The phrase can be read from the first tokens, and leaves the second ones. -/
inductive Reads : Phrase → List Token → List Token → Prop where
  | declaration {wordSpan nameSpan signSpan : Span} {name : String} {value : Located}
      {rest after : List Token} (assigned : Reads (.expression value) rest after) :
      Reads (.expression (.assign name value (wordSpan.through value.note)))
        (⟨.keyword .varWord, wordSpan⟩ :: ⟨.identifier name, nameSpan⟩ ::
          ⟨.mark .assign, signSpan⟩ :: rest) after
  | assignment {nameSpan signSpan : Span} {name : String} {value : Located}
      {rest after : List Token} (assigned : Reads (.expression value) rest after) :
      Reads (.expression (.assign name value (nameSpan.through value.note)))
        (⟨.identifier name, nameSpan⟩ :: ⟨.mark .assign, signSpan⟩ :: rest) after
  | connection {expr : Located} {before after : List Token}
      (noWord : ahead (·.isKeyword .varWord) before = false)
      (noTarget : targetAhead before = false)
      (connected : Reads (.chain .logical expr) before after) :
      Reads (.expression expr) before after
  | chain {level : Level} {first expr : Located} {before middle after : List Token}
      (start : Reads (.operand level first) before middle)
      (more : Reads (.chainFrom level first expr) middle after) :
      Reads (.chain level expr) before after
  | chainEnd {level : Level} {left : Located} {after : List Token}
      (noOperator : ahead level.has after = false) :
      Reads (.chainFrom level left left) after after
  | chainMore {level : Level} {sign : Token} {op : BinaryOp} {left right expr : Located}
      {rest middle after : List Token} (operator : sign.kind.binaryOp? = some op)
      (admitted : level.admits op = true)
      (operand : Reads (.operand level right) rest middle)
      (more : Reads
        (.chainFrom level (.binary op left right (left.note.through right.note)) expr)
        middle after) :
      Reads (.chainFrom level left expr) (sign :: rest) after
  | negation {wordSpan : Span} {operand : Located} {rest after : List Token}
      (negated : Reads (.comparison operand) rest after) :
      Reads (.comparison (.unary .not operand (wordSpan.through operand.note)))
        (⟨.keyword .notWord, wordSpan⟩ :: rest) after
  | comparison {expr : Located} {before after : List Token}
      (noWord : ahead (·.isKeyword .notWord) before = false)
      (compared : Reads (.chain .comparison expr) before after) :
      Reads (.comparison expr) before after
  | base {expr : Located} {before after : List Token} (start : Reads (.unary expr) before after)
      (noExponent : ahead (·.isMark .caret) after = false) :
      Reads (.power expr) before after
  | power {signSpan : Span} {base exponent : Located} {before rest after : List Token}
      (start : Reads (.unary base) before (⟨.mark .caret, signSpan⟩ :: rest))
      (raised : Reads (.power exponent) rest after) :
      Reads (.power (.binary .pow base exponent (base.note.through exponent.note))) before after
  | plus {signSpan : Span} {operand : Located} {rest after : List Token}
      (signed : Reads (.unary operand) rest after) :
      Reads (.unary (.unary .plus operand (signSpan.through operand.note)))
        (⟨.mark .plus, signSpan⟩ :: rest) after
  | smallest {signSpan digitsSpan : Span} {after : List Token} :
      Reads (.unary (.literal (.int Int64.minValue) (signSpan.through digitsSpan)))
        (⟨.mark .minus, signSpan⟩ :: ⟨.int Lexeme.maxMagnitude, digitsSpan⟩ :: after) after
  | minus {signSpan : Span} {operand : Located} {rest after : List Token}
      (noLargest : ahead isLargest rest = false)
      (signed : Reads (.unary operand) rest after) :
      Reads (.unary (.unary .negate operand (signSpan.through operand.note)))
        (⟨.mark .minus, signSpan⟩ :: rest) after
  | unsigned {expr : Located} {before after : List Token}
      (noPlus : ahead (·.isMark .plus) before = false)
      (noMinus : ahead (·.isMark .minus) before = false)
      (called : Reads (.call expr) before after) :
      Reads (.unary expr) before after
  | call {callee expr : Located} {before middle after : List Token}
      (start : Reads (.atom callee) before middle)
      (more : Reads (.calls callee expr) middle after) :
      Reads (.call expr) before after
  | callsEnd {callee : Located} {after : List Token}
      (noList : ahead (·.isMark .openParen) after = false) :
      Reads (.calls callee callee) after after
  | callsMore {openSpan : Span} {callee expr : Located} {arguments : List Located} {last : Token}
      {rest middle after : List Token}
      (passed : Reads (.enumeration .closeParen arguments last) rest middle)
      (more : Reads (.calls (.call callee arguments (callee.note.through last.span)) expr)
        middle after) :
      Reads (.calls callee expr) (⟨.mark .openParen, openSpan⟩ :: rest) after
  | int {magnitude : Nat} {span : Span} {after : List Token}
      (small : magnitude < Lexeme.maxMagnitude) :
      Reads (.atom (.literal (.int (Int64.ofNat magnitude)) span))
        (⟨.int magnitude, span⟩ :: after) after
  | float {value : Float} {span : Span} {after : List Token} :
      Reads (.atom (.literal (.float value) span)) (⟨.float value, span⟩ :: after) after
  | str {value : String} {span : Span} {after : List Token} :
      Reads (.atom (.literal (.str value) span)) (⟨.str value, span⟩ :: after) after
  | named {name : String} {span : Span} {expr : Located} {rest after : List Token}
      (continued : Reads (.named name span expr) rest after) :
      Reads (.atom expr) (⟨.identifier name, span⟩ :: rest) after
  | variable {name : String} {span : Span} {after : List Token}
      (noDot : ahead (·.isMark .dot) after = false) :
      Reads (.named name span (.read name span)) after after
  | member {name member : String} {span dotSpan memberSpan : Span} {after : List Token}
      (noAssign : ahead (·.isMark .assign) after = false) :
      Reads (.named name span (.member name member (span.through memberSpan)))
        (⟨.mark .dot, dotSpan⟩ :: ⟨.identifier member, memberSpan⟩ :: after) after
  | memberAssignment {name member : String} {span dotSpan memberSpan signSpan : Span}
      {value : Located} {rest after : List Token}
      (assigned : Reads (.expression value) rest after) :
      Reads (.named name span (.assignMember name member value (span.through value.note)))
        (⟨.mark .dot, dotSpan⟩ :: ⟨.identifier member, memberSpan⟩ ::
          ⟨.mark .assign, signSpan⟩ :: rest) after
  | parens {openSpan closeSpan : Span} {expr : Located} {rest after : List Token}
      (inner : Reads (.expression expr) rest (⟨.mark .closeParen, closeSpan⟩ :: after)) :
      Reads (.atom expr) (⟨.mark .openParen, openSpan⟩ :: rest) after
  | list {openSpan : Span} {elements : List Located} {last : Token} {rest after : List Token}
      (listed : Reads (.enumeration .closeBracket elements last) rest after) :
      Reads (.atom (.list elements (openSpan.through last.span)))
        (⟨.mark .openBracket, openSpan⟩ :: rest) after
  | choice {wordSpan stop : Span} {branches : Branches Span} {rest after : List Token}
      (chosen : Reads (.branches branches stop) rest after) :
      Reads (.atom (.choice branches (wordSpan.through stop)))
        (⟨.keyword .ifWord, wordSpan⟩ :: rest) after
  | forLoop {wordSpan nameSpan signSpan toSpan thenSpan last : Span} {counter : String}
      {start stop body : Located} {step : Option Located} {block : Bool}
      {rest fromStop fromStep fromBody afterBody after : List Token}
      (started : Reads (.expression start) rest (⟨.keyword .toWord, toSpan⟩ :: fromStop))
      (stopped : Reads (.expression stop) fromStop fromStep)
      (stepped : Reads (.step step) fromStep (⟨.keyword .thenWord, thenSpan⟩ :: fromBody))
      (repeated : Reads (.body closesBlock body block) fromBody afterBody)
      (ended : Reads (.ending body block last) afterBody after) :
      Reads (.atom (.forLoop counter start stop step body block (wordSpan.through last)))
        (⟨.keyword .forWord, wordSpan⟩ :: ⟨.identifier counter, nameSpan⟩ ::
          ⟨.mark .assign, signSpan⟩ :: rest) after
  | stepNone {after : List Token} (noStep : ahead (·.isKeyword .stepWord) after = false) :
      Reads (.step none) after after
  | stepSome {wordSpan : Span} {step : Located} {rest after : List Token}
      (stepped : Reads (.expression step) rest after) :
      Reads (.step (some step)) (⟨.keyword .stepWord, wordSpan⟩ :: rest) after
  | whileLoop {wordSpan thenSpan last : Span} {condition body : Located} {block : Bool}
      {rest fromBody afterBody after : List Token}
      (conditional : Reads (.expression condition) rest
        (⟨.keyword .thenWord, thenSpan⟩ :: fromBody))
      (repeated : Reads (.body closesBlock body block) fromBody afterBody)
      (ended : Reads (.ending body block last) afterBody after) :
      Reads (.atom (.whileLoop condition body block (wordSpan.through last)))
        (⟨.keyword .whileWord, wordSpan⟩ :: rest) after
  | functionOf {wordSpan openSpan arrowSpan : Span} {name : Option String} {names : List String}
      {last : Token} {value : Located} {header rest fromBody after : List Token}
      (called : Reads (.functionName name) header (⟨.mark .openParen, openSpan⟩ :: rest))
      (passed : Reads (.parameters names last) rest (⟨.mark .arrow, arrowSpan⟩ :: fromBody))
      (valued : Reads (.expression value) fromBody after) :
      Reads (.atom (.function name names value true (wordSpan.through value.note)))
        (⟨.keyword .funcWord, wordSpan⟩ :: header) after
  | functionBlock {wordSpan openSpan endSpan : Span} {name : Option String}
      {names : List String} {last : Token} {block : Located}
      {header rest fromBody after : List Token}
      (called : Reads (.functionName name) header (⟨.mark .openParen, openSpan⟩ :: rest))
      (passed : Reads (.parameters names last) rest fromBody)
      (newLine : ahead (·.isSeparator) fromBody = true)
      (blocked : Reads (.statements closesBlock block) fromBody
        (⟨.keyword .endWord, endSpan⟩ :: after)) :
      Reads (.atom (.function name names block false (wordSpan.through endSpan)))
        (⟨.keyword .funcWord, wordSpan⟩ :: header) after
  | noName {after : List Token} (present : after ≠ [])
      (noIdentifier : ahead (fun kind => kind matches .identifier _) after = false) :
      Reads (.functionName none) after after
  | name {nameSpan : Span} {name : String} {after : List Token} :
      Reads (.functionName (some name)) (⟨.identifier name, nameSpan⟩ :: after) after
  | template {wordSpan nameSpan endSpan : Span} {name : String} {block : Located}
      {rest after : List Token} (newLine : ahead (·.isSeparator) rest = true)
      (blocked : Reads (.statements closesBlock block) rest
        (⟨.keyword .endWord, endSpan⟩ :: after)) :
      Reads (.atom (.template name block (wordSpan.through endSpan)))
        (⟨.keyword .objectWord, wordSpan⟩ :: ⟨.identifier name, nameSpan⟩ :: rest) after
  | instantiate {wordSpan nameSpan : Span} {name : String} {after : List Token} :
      Reads (.atom (.instantiate name (wordSpan.through nameSpan)))
        (⟨.keyword .newWord, wordSpan⟩ :: ⟨.identifier name, nameSpan⟩ :: after) after
  | noElements {closing : Mark} {span : Span} {after : List Token} :
      Reads (.enumeration closing [] ⟨.mark closing, span⟩) (⟨.mark closing, span⟩ :: after) after
  | elements {closing : Mark} {elements : List Located} {last : Token} {before after : List Token}
      (noClosing : ahead (·.isMark closing) before = false)
      (listed : Reads (.items closing elements last) before after) :
      Reads (.enumeration closing elements last) before after
  | lastItem {closing : Mark} {span : Span} {element : Located} {before after : List Token}
      (other : closing ≠ .comma)
      (item : Reads (.expression element) before (⟨.mark closing, span⟩ :: after)) :
      Reads (.items closing [element] ⟨.mark closing, span⟩) before after
  | moreItems {closing : Mark} {commaSpan : Span} {element : Located} {elements : List Located}
      {last : Token} {before rest after : List Token}
      (item : Reads (.expression element) before (⟨.mark .comma, commaSpan⟩ :: rest))
      (more : Reads (.items closing elements last) rest after) :
      Reads (.items closing (element :: elements) last) before after
  | noParameters {span : Span} {after : List Token} :
      Reads (.parameters [] ⟨.mark .closeParen, span⟩) (⟨.mark .closeParen, span⟩ :: after) after
  | parameters {names : List String} {last : Token} {before after : List Token}
      (listed : Reads (.names names last) before after) :
      Reads (.parameters names last) before after
  | lastName {nameSpan span : Span} {name : String} {after : List Token} :
      Reads (.names [name] ⟨.mark .closeParen, span⟩)
        (⟨.identifier name, nameSpan⟩ :: ⟨.mark .closeParen, span⟩ :: after) after
  | moreNames {nameSpan commaSpan : Span} {name : String} {names : List String} {last : Token}
      {rest after : List Token} (more : Reads (.names names last) rest after) :
      Reads (.names (name :: names) last)
        (⟨.identifier name, nameSpan⟩ :: ⟨.mark .comma, commaSpan⟩ :: rest) after
  | returnNone {wordSpan : Span} {after : List Token} (noValue : ahead endsStatement after = true) :
      Reads (.statement (.returnWith none wordSpan)) (⟨.keyword .returnWord, wordSpan⟩ :: after)
        after
  | returnSome {wordSpan : Span} {value : Located} {rest after : List Token}
      (hasValue : ahead endsStatement rest = false)
      (returned : Reads (.expression value) rest after) :
      Reads (.statement (.returnWith (some value) (wordSpan.through value.note)))
        (⟨.keyword .returnWord, wordSpan⟩ :: rest) after
  | continueLoop {wordSpan : Span} {after : List Token} :
      Reads (.statement (.continueLoop wordSpan)) (⟨.keyword .continueWord, wordSpan⟩ :: after)
        after
  | breakLoop {wordSpan : Span} {after : List Token} :
      Reads (.statement (.breakLoop wordSpan)) (⟨.keyword .breakWord, wordSpan⟩ :: after) after
  | statement {expr : Located} {before after : List Token}
      (noJump : ahead startsJump before = false)
      (plain : Reads (.expression expr) before after) :
      Reads (.statement expr) before after
  | noStatements {closing : Kind → Bool} {after : List Token}
      (closed : ahead (endsList closing) after = true) :
      Reads (.statementList closing []) after after
  | lastStatement {closing : Kind → Bool} {expr : Located} {before after : List Token}
      (opened : ahead (endsList closing) before = false)
      (first : Reads (.statement expr) before after)
      (noSeparator : ahead (·.isSeparator) after = false) :
      Reads (.statementList closing [expr]) before after
  | moreStatements {closing : Kind → Bool} {expr : Located} {elements : List Located}
      {before middle after : List Token}
      (opened : ahead (endsList closing) before = false)
      (first : Reads (.statement expr) before middle)
      (separated : ahead (·.isSeparator) middle = true)
      (more : Reads (.statementList closing elements) (middle.dropWhile (·.kind.isSeparator))
        after) :
      Reads (.statementList closing (expr :: elements)) before after
  | statements {closing : Kind → Bool} {elements : List Located} {next : Token}
      {before rest after : List Token}
      (skipped : before.dropWhile (·.kind.isSeparator) = next :: rest)
      (listed : Reads (.statementList closing elements) (next :: rest) after) :
      Reads (.statements closing (.list elements (spanOf elements next.span))) before after
  | block {closing : Kind → Bool} {expr : Located} {before after : List Token}
      (newLine : ahead (·.isSeparator) before = true)
      (blocked : Reads (.statements closing expr) before after) :
      Reads (.body closing expr true) before after
  | single {closing : Kind → Bool} {expr : Located} {before after : List Token}
      (sameLine : ahead (·.isSeparator) before = false)
      (stated : Reads (.statement expr) before after) :
      Reads (.body closing expr false) before after
  | endOfBlock {body : Located} {span : Span} {after : List Token} :
      Reads (.ending body true span) (⟨.keyword .endWord, span⟩ :: after) after
  | endOfLine {body : Located} {after : List Token} :
      Reads (.ending body false body.note) after after
  | elif {thenSpan wordSpan stop : Span} {condition body : Located} {block : Bool}
      {branches : Branches Span} {before fromBody rest after : List Token}
      (conditional : Reads (.expression condition) before
        (⟨.keyword .thenWord, thenSpan⟩ :: fromBody))
      (chosen : Reads (.body closesBranch body block) fromBody
        (⟨.keyword .elifWord, wordSpan⟩ :: rest))
      (more : Reads (.branches branches stop) rest after) :
      Reads (.branches (.orElse condition body block branches) stop) before after
  | otherwise {thenSpan wordSpan stop : Span} {condition body other : Located}
      {block otherBlock : Bool} {before fromBody rest afterBody after : List Token}
      (conditional : Reads (.expression condition) before
        (⟨.keyword .thenWord, thenSpan⟩ :: fromBody))
      (chosen : Reads (.body closesBranch body block) fromBody
        (⟨.keyword .elseWord, wordSpan⟩ :: rest))
      (alternative : Reads (.body closesBlock other otherBlock) rest afterBody)
      (ended : Reads (.ending other otherBlock stop) afterBody after) :
      Reads (.branches (.orElse condition body block (.otherwise other otherBlock)) stop)
        before after
  | lastBranch {thenSpan stop : Span} {condition body : Located} {block : Bool}
      {before fromBody afterBody after : List Token}
      (conditional : Reads (.expression condition) before
        (⟨.keyword .thenWord, thenSpan⟩ :: fromBody))
      (chosen : Reads (.body closesBranch body block) fromBody afterBody)
      (present : afterBody ≠ [])
      (noElif : ahead (·.isKeyword .elifWord) afterBody = false)
      (noElse : ahead (·.isKeyword .elseWord) afterBody = false)
      (ended : Reads (.ending body block stop) afterBody after) :
      Reads (.branches (.orElse condition body block .done) stop) before after

/-- How many tokens the phrase takes at least. -/
def Phrase.least : Phrase → Nat
  | .chainFrom .. | .calls .. | .named .. | .functionName _ | .statementList .. | .statements ..
  | .body .. | .ending .. | .step _ => 0
  | _ => 1

@[simp] theorem Phrase.least_operand (level : Level) (expr : Located) :
    (Phrase.operand level expr).least = 1 := by
  cases level <;> rfl

theorem length_dropWhile_separators (tokens : List Token) :
    (tokens.dropWhile (·.kind.isSeparator)).length ≤ tokens.length :=
  (List.dropWhile_suffix _).length_le

/-- A reading takes at least as many tokens as its phrase has to have. -/
theorem Reads.length_le {phrase : Phrase} {before after : List Token}
    (reads : Reads phrase before after) : after.length + phrase.least ≤ before.length := by
  induction reads with
  | chain _ _ start more =>
    rw [Phrase.least_operand] at start
    simp only [Phrase.least] at more ⊢
    omega
  | chainMore _ _ _ _ operand more =>
    rw [Phrase.least_operand] at operand
    simp only [Phrase.least, List.length_cons] at more ⊢
    omega
  | @statements _ _ _ before _ _ skipped _ listed =>
    have shorter := length_dropWhile_separators before
    simp only [Phrase.least] at listed ⊢
    rw [skipped] at shorter
    omega
  | @moreStatements _ _ _ _ middle _ _ _ _ _ first more =>
    have shorter := length_dropWhile_separators middle
    simp only [Phrase.least] at first more ⊢
    omega
  | _ =>
    simp only [Phrase.least, List.length_cons] at *
    omega

/-- There is a token in front of a phrase that takes one. -/
theorem Reads.exists_cons {phrase : Phrase} {before after : List Token}
    (reads : Reads phrase before after) (takes : phrase.least = 1) :
    ∃ token rest, before = token :: rest := by
  have shorter := reads.length_le
  cases before with
  | nil =>
    simp only [List.length_nil] at shorter
    omega
  | cons token rest => exact ⟨token, rest, rfl⟩

/-- What is read as the statements of a program is a list of statements. -/
theorem Reads.exists_list {closing : Kind → Bool} {root : Located} {before after : List Token}
    (reads : Reads (.statements closing root) before after) :
    ∃ (elements : List Located) (span : Span) (middle : List Token), root = .list elements span ∧
      Reads (.statementList closing elements) middle after := by
  cases reads with
  | statements skipped listed => exact ⟨_, _, _, rfl, listed⟩

end Quill.Grammar
