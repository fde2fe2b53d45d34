import Quill.Proofs.Syntax.Reading

/-!
# Readings of respanned tokens

The grammar looks at the kinds of tokens only. If all spans are changed, in a way that goes together
with joining spans, the same phrases are read, with their spans changed in this way.
-/

namespace Quill

section

variable {First Second Third : Type} (f : First → Second) (g : Second → Third)

mutual

theorem Expr.mapNotes_mapNotes : (expr : Expr First) →
    (expr.mapNotes f).mapNotes g = expr.mapNotes (g ∘ f)
  | .literal _ _ | .read _ _ | .member _ _ _ | .instantiate _ _ | .returnWith none _
  | .breakLoop _ | .continueLoop _ => rfl
  | .unary op operand note => by
    simp only [Expr.mapNotes, Expr.mapNotes_mapNotes operand, Function.comp]
  | .binary op left right note => by
    simp only [Expr.mapNotes, Expr.mapNotes_mapNotes left, Expr.mapNotes_mapNotes right,
      Function.comp]
  | .list elements note => by
    simp only [Expr.mapNotes, Expr.mapAllNotes_mapAllNotes elements, Function.comp]
  | .choice branches note => by
    simp only [Expr.mapNotes, Branches.mapNotes_mapNotes branches, Function.comp]
  | .forLoop counter start stop none body block note => by
    simp only [Expr.mapNotes, Expr.mapNotes_mapNotes start, Expr.mapNotes_mapNotes stop,
      Expr.mapNotes_mapNotes body, Function.comp]
  | .forLoop counter start stop (some step) body block note => by
    simp only [Expr.mapNotes, Expr.mapNotes_mapNotes start, Expr.mapNotes_mapNotes stop,
      Expr.mapNotes_mapNotes step, Expr.mapNotes_mapNotes body, Function.comp]
  | .whileLoop condition body block note => by
    simp only [Expr.mapNotes, Expr.mapNotes_mapNotes condition, Expr.mapNotes_mapNotes body,
      Function.comp]
  | .assign name value note | .assignMember object name value note
  | .returnWith (some value) note => by
    simp only [Expr.mapNotes, Expr.mapNotes_mapNotes value, Function.comp]
  | .function name parameters body valued note => by
    simp only [Expr.mapNotes, Expr.mapNotes_mapNotes body, Function.comp]
  | .call callee arguments note => by
    simp only [Expr.mapNotes, Expr.mapNotes_mapNotes callee,
      Expr.mapAllNotes_mapAllNotes arguments, Function.comp]
  | .template name body note => by
    simp only [Expr.mapNotes, Expr.mapNotes_mapNotes body, Function.comp]

theorem Expr.mapAllNotes_mapAllNotes : (elements : List (Expr First)) →
    Expr.mapAllNotes g (Expr.mapAllNotes f elements) = Expr.mapAllNotes (g ∘ f) elements
  | [] => rfl
  | element :: rest => by
    simp only [Expr.mapAllNotes, Expr.mapNotes_mapNotes element,
      Expr.mapAllNotes_mapAllNotes rest]

theorem Branches.mapNotes_mapNotes : (branches : Branches First) →
    (branches.mapNotes f).mapNotes g = branches.mapNotes (g ∘ f)
  | .done => rfl
  | .otherwise body block => by simp only [Branches.mapNotes, Expr.mapNotes_mapNotes body]
  | .orElse condition body block rest => by
    simp only [Branches.mapNotes, Expr.mapNotes_mapNotes condition, Expr.mapNotes_mapNotes body,
      Branches.mapNotes_mapNotes rest]

end

end

namespace Grammar

open Quill.Token

/-- A way to change spans. Where a joined span is changed to follows from its two parts. -/
structure Respanning where
  /-- The span that a span is changed to. -/
  span : Span → Span
  /-- Joined spans are changed to joined spans. -/
  through_span : ∀ first last : Span,
    (span first).through (span last) = span (first.through last)

namespace Respanning

/-- Changes the span of a token. -/
def token (move : Respanning) (token : Token) : Token :=
  ⟨token.kind, move.span token.span⟩

/-- Changes the span of every node of an expression. -/
abbrev expr (move : Respanning) (expr : Located) : Located :=
  expr.mapNotes move.span

/-- Changes the spans in a phrase and in what it was read as. -/
def phrase (move : Respanning) : Phrase → Phrase
  | .expression expr => .expression (move.expr expr)
  | .chain level expr => .chain level (move.expr expr)
  | .chainFrom level left expr => .chainFrom level (move.expr left) (move.expr expr)
  | .comparison expr => .comparison (move.expr expr)
  | .power expr => .power (move.expr expr)
  | .unary expr => .unary (move.expr expr)
  | .call expr => .call (move.expr expr)
  | .calls callee expr => .calls (move.expr callee) (move.expr expr)
  | .atom expr => .atom (move.expr expr)
  | .named name span expr => .named name (move.span span) (move.expr expr)
  | .enumeration closing elements last =>
    .enumeration closing (elements.map move.expr) (move.token last)
  | .items closing elements last => .items closing (elements.map move.expr) (move.token last)
  | .functionName name => .functionName name
  | .parameters names last => .parameters names (move.token last)
  | .names names last => .names names (move.token last)
  | .statement expr => .statement (move.expr expr)
  | .statementList closing elements => .statementList closing (elements.map move.expr)
  | .statements closing expr => .statements closing (move.expr expr)
  | .body closing expr block => .body closing (move.expr expr) block
  | .ending body block stop => .ending (move.expr body) block (move.span stop)
  | .step step => .step (step.map move.expr)
  | .branches branches stop => .branches (branches.mapNotes move.span) (move.span stop)

variable (move : Respanning)

theorem phrase_operand (level : Level) (expr : Located) :
    move.phrase (.operand level expr) = .operand level (move.expr expr) := by
  cases level <;> rfl

theorem ahead_map {wanted : Kind → Bool} (tokens : List Token) :
    ahead wanted (tokens.map move.token) = ahead wanted tokens := by
  cases tokens <;> rfl

theorem targetAhead_map (tokens : List Token) :
    targetAhead (tokens.map move.token) = targetAhead tokens := by
  match tokens with
  | [] => rfl
  | [⟨kind, _⟩] => cases kind <;> rfl
  | ⟨kind, _⟩ :: ⟨next, _⟩ :: _ =>
    cases kind with
    | identifier name =>
      cases next with
      | mark sign => cases sign <;> rfl
      | _ => rfl
    | _ => rfl

theorem dropWhile_map (tokens : List Token) :
    (tokens.map move.token).dropWhile (·.kind.isSeparator) =
      (tokens.dropWhile (·.kind.isSeparator)).map move.token := by
  rw [List.dropWhile_map]
  rfl

theorem span_note (expr : Located) : move.span expr.note = (move.expr expr).note :=
  (Expr.note_mapNotes move.span expr).symm

theorem spanOf_map (elements : List Located) (otherwise : Span) :
    spanOf (elements.map move.expr) (move.span otherwise) =
      move.span (spanOf elements otherwise) := by
  unfold spanOf
  rw [List.head?_map, List.getLast?_map]
  cases elements.head? with
  | none => rfl
  | some first =>
    cases elements.getLast? with
    | none => rfl
    | some last => simp only [Option.map_some, ← span_note, move.through_span]

/-- A reading of tokens is a reading of the respanned tokens. -/
theorem reads_phrase {phrase : Phrase} {before after : List Token}
    (reads : Reads phrase before after) :
    Reads (move.phrase phrase) (before.map move.token) (after.map move.token) := by
  induction reads with
  | declaration _ assigned =>
    simp only [Respanning.phrase, Expr.mapNotes, ← move.through_span, span_note]
    exact .declaration assigned
  | assignment _ assigned =>
    simp only [Respanning.phrase, Expr.mapNotes, ← move.through_span, span_note]
    exact .assignment assigned
  | connection noWord noTarget _ connected =>
    exact .connection ((move.ahead_map _).trans noWord)
      ((move.targetAhead_map _).trans noTarget) connected
  | chain _ _ start more => exact .chain (move.phrase_operand .. ▸ start) more
  | chainEnd noOperator => exact .chainEnd ((move.ahead_map _).trans noOperator)
  | chainMore operator admitted _ _ operand more =>
    simp only [Respanning.phrase, Expr.mapNotes, ← move.through_span, span_note] at more
    exact .chainMore operator admitted (move.phrase_operand .. ▸ operand) more
  | negation _ negated =>
    simp only [Respanning.phrase, Expr.mapNotes, ← move.through_span, span_note]
    exact .negation negated
  | comparison noWord _ compared => exact .comparison ((move.ahead_map _).trans noWord) compared
  | base _ noExponent start => exact .base start ((move.ahead_map _).trans noExponent)
  | power _ _ start raised =>
    simp only [Respanning.phrase, Expr.mapNotes, ← move.through_span, span_note]
    exact .power start raised
  | plus _ signed =>
    simp only [Respanning.phrase, Expr.mapNotes, ← move.through_span, span_note]
    exact .plus signed
  | smallest =>
    simp only [Respanning.phrase, Expr.mapNotes, ← move.through_span]
    exact .smallest
  | minus noLargest _ signed =>
    simp only [Respanning.phrase, Expr.mapNotes, ← move.through_span, span_note]
    exact .minus ((move.ahead_map _).trans noLargest) signed
  | unsigned noPlus noMinus _ called =>
    exact .unsigned ((move.ahead_map _).trans noPlus) ((move.ahead_map _).trans noMinus) called
  | call _ _ start more => exact .call start more
  | callsEnd noList => exact .callsEnd ((move.ahead_map _).trans noList)
  | callsMore _ _ passed more =>
    simp only [Respanning.phrase, Expr.mapNotes, ← move.through_span, span_note,
      Expr.mapAllNotes_eq_map] at more
    exact .callsMore passed more
  | int small => exact .int small
  | float => exact .float
  | str => exact .str
  | named _ continued => exact .named continued
  | «variable» noDot => exact .variable ((move.ahead_map _).trans noDot)
  | member noAssign =>
    simp only [Respanning.phrase, Expr.mapNotes, ← move.through_span]
    exact .member ((move.ahead_map _).trans noAssign)
  | memberAssignment _ assigned =>
    simp only [Respanning.phrase, Expr.mapNotes, ← move.through_span, span_note]
    exact .memberAssignment assigned
  | parens _ inner => exact .parens inner
  | list _ listed =>
    simp only [Respanning.phrase, Expr.mapNotes, ← move.through_span, Expr.mapAllNotes_eq_map]
    exact .list listed
  | choice _ chosen =>
    simp only [Respanning.phrase, Expr.mapNotes, ← move.through_span]
    exact .choice chosen
  | forLoop _ _ _ _ _ started stopped stepped repeated ending =>
    simp only [Respanning.phrase, Expr.mapNotes_forLoop, ← move.through_span]
    exact .forLoop started stopped stepped repeated ending
  | stepNone noStep => exact .stepNone ((move.ahead_map _).trans noStep)
  | stepSome _ stepped => exact .stepSome stepped
  | whileLoop _ _ _ conditional repeated ending =>
    simp only [Respanning.phrase, Expr.mapNotes, ← move.through_span]
    exact .whileLoop conditional repeated ending
  | functionOf _ _ _ called passed valued =>
    simp only [Respanning.phrase, Expr.mapNotes, ← move.through_span, span_note]
    exact .functionOf called passed valued
  | functionBlock _ _ newLine _ called passed blocked =>
    simp only [Respanning.phrase, Expr.mapNotes, ← move.through_span]
    exact .functionBlock called passed ((move.ahead_map _).trans newLine) blocked
  | noName present noIdentifier =>
    exact .noName (by simpa using present) ((move.ahead_map _).trans noIdentifier)
  | name => exact .name
  | template newLine _ blocked =>
    simp only [Respanning.phrase, Expr.mapNotes, ← move.through_span]
    exact .template ((move.ahead_map _).trans newLine) blocked
  | instantiate =>
    simp only [Respanning.phrase, Expr.mapNotes, ← move.through_span]
    exact .instantiate
  | noElements => exact .noElements
  | elements noClosing _ listed => exact .elements ((move.ahead_map _).trans noClosing) listed
  | lastItem other _ item => exact .lastItem other item
  | moreItems _ _ item more => exact .moreItems item more
  | noParameters => exact .noParameters
  | parameters _ listed => exact .parameters listed
  | lastName => exact .lastName
  | moreNames _ more => exact .moreNames more
  | returnNone noValue => exact .returnNone ((move.ahead_map _).trans noValue)
  | returnSome hasValue _ returned =>
    simp only [Respanning.phrase, Expr.mapNotes, ← move.through_span, span_note]
    exact .returnSome ((move.ahead_map _).trans hasValue) returned
  | continueLoop => exact .continueLoop
  | breakLoop => exact .breakLoop
  | statement noJump _ plain => exact .statement ((move.ahead_map _).trans noJump) plain
  | noStatements closed => exact .noStatements ((move.ahead_map _).trans closed)
  | lastStatement opened _ noSeparator first =>
    exact .lastStatement ((move.ahead_map _).trans opened) first
      ((move.ahead_map _).trans noSeparator)
  | moreStatements opened _ separated _ first more =>
    exact .moreStatements ((move.ahead_map _).trans opened) first
      ((move.ahead_map _).trans separated) ((move.dropWhile_map _) ▸ more)
  | statements skipped _ listed =>
    simp only [Respanning.phrase, Expr.mapNotes, Expr.mapAllNotes_eq_map, ← spanOf_map]
    exact .statements ((move.dropWhile_map _).trans (congrArg _ skipped)) listed
  | block newLine _ blocked => exact .block ((move.ahead_map _).trans newLine) blocked
  | single sameLine _ stated => exact .single ((move.ahead_map _).trans sameLine) stated
  | endOfBlock => exact .endOfBlock
  | endOfLine =>
    simp only [Respanning.phrase, span_note]
    exact .endOfLine
  | elif _ _ _ conditional chosen more => exact .elif conditional chosen more
  | otherwise _ _ _ _ conditional chosen alternative ending =>
    exact .otherwise conditional chosen alternative ending
  | lastBranch _ _ present noElif noElse _ conditional chosen ending =>
    exact .lastBranch conditional chosen (by simpa using present)
      ((move.ahead_map _).trans noElif) ((move.ahead_map _).trans noElse) ending

end Respanning

end Grammar

end Quill
