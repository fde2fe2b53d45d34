import Quill.Proofs.Syntax.RoundTrip
import Quill.Proofs.Syntax.Tails

/-!
# What parsing keeps of the tokens

Separators, parentheses and the word of a declaration leave no trace in a program, and neither does
the end of the input. Every other token does, and each of them exactly once: deleting from the
tokens of a program what leaves no trace gives what is left of the tokens that the program is
printed as, in the same order. Printing goes through a program in the order of its source, so
nothing has been lost, repeated or moved by parsing.

The statement about programs comes from one about all phrases. Some of them are read behind
something that has been taken already, which counts for their beginning.
-/

namespace Quill.Grammar

open Quill.Token

/-- Whether the token leaves a trace in what is read. -/
def isEssential : Kind → Bool
  | .newline | .semicolon | .endOfInput => false
  | .mark .openParen | .mark .closeParen | .keyword .varWord => false
  | _ => true

/-- The tokens that leave a trace. -/
def essence (kinds : List Kind) : List Kind :=
  kinds.filter isEssential

@[simp] theorem essence_nil : essence [] = [] := rfl

@[simp] theorem essence_cons (kind : Kind) (kinds : List Kind) :
    essence (kind :: kinds) =
      if isEssential kind then kind :: essence kinds else essence kinds :=
  List.filter_cons

@[simp] theorem essence_append (first second : List Kind) :
    essence (first ++ second) = essence first ++ essence second :=
  List.filter_append _ _

/-- Parentheses leave no trace. -/
@[simp] theorem essence_enclose (own needed : Nat) (kinds : List Kind) :
    essence (enclose own needed kinds) = essence kinds := by
  by_cases loose : own < needed
  · rw [enclose_of_lt loose]
    simp [isEssential]
  · rw [enclose_of_le (Nat.not_lt.mp loose)]

/-- Separators leave no trace. -/
theorem essence_dropWhile (tokens : List Token) :
    essence ((tokens.dropWhile (·.kind.isSeparator)).map (·.kind)) =
      essence (tokens.map (·.kind)) := by
  induction tokens with
  | nil => rfl
  | cons token rest ih =>
    obtain ⟨kind, span⟩ := token
    cases kind <;> simp_all [Kind.isSeparator, isEssential]

/-- Apart from the place of a block, where an expression stands says only how many parentheses it
needs. -/
theorem essence_tokens (expr : Expr Unit) {place : Place} (line : place ≠ .block) :
    essence (expr.tokens place) = essence (expr.tokens .statement) := by
  cases expr with
  | literal value note =>
    cases smallest : value.isSmallest <;> simp [Expr.tokens, smallest]
  | forLoop counter start stop step body block note =>
    cases step <;> simp [Expr.tokens]
  | returnWith value note => cases value <;> simp [Expr.tokens]
  | list elements note => simp [Expr.tokens, line]
  | _ => simp [Expr.tokens]

@[simp] theorem essence_operand (expr : Expr Unit) (rank : Nat) :
    essence (expr.tokens (.operand rank)) = essence (expr.tokens .statement) :=
  essence_tokens expr (by simp)

/-! ## Phrases -/

/-- What an expression leaves of its tokens. -/
def traceOf (expr : Located) : List Kind :=
  essence (expr.bare.tokens .statement)

/-- What has been taken already of the phrase when it is read. -/
def Phrase.taken : Phrase → List Kind
  | .chainFrom _ left _ | .calls left _ => traceOf left
  | .named name _ _ => [.identifier name]
  | _ => []

/-- What the phrase leaves of its tokens. -/
def Phrase.trace : Phrase → List Kind
  | .expression expr | .chain _ expr | .chainFrom _ _ expr | .comparison expr | .power expr
  | .unary expr | .call expr | .calls _ expr | .atom expr | .named _ _ expr | .statement expr =>
    traceOf expr
  | .enumeration closing elements _ | .items closing elements _ =>
    essence (Expr.itemTokens (elements.map (·.bare)) ++ [.mark closing])
  | .functionName name => (name.map Kind.identifier).toList
  | .parameters listed _ | .names listed _ => essence (nameTokens listed)
  | .statementList _ elements => essence (Expr.statementTokens (elements.map (·.bare)))
  | .statements _ expr => essence (expr.bare.tokens .block)
  | .body _ expr block => essence (expr.bare.tokens (.body block))
  | .ending _ block _ => essence (endTokens block)
  | .step none => []
  | .step (some expr) => .keyword .stepWord :: traceOf expr
  | .branches alternatives _ => essence (alternatives.mapNotes fun _ => ()).tokens

@[simp] theorem taken_operand (level : Level) (expr : Located) :
    (Phrase.operand level expr).taken = [] := by
  cases level <;> rfl

@[simp] theorem trace_operand (level : Level) (expr : Located) :
    (Phrase.operand level expr).trace = traceOf expr := by
  cases level <;> rfl

theorem eq_token_of_binaryOp? {kind : Kind} {op : BinaryOp}
    (operator : kind.binaryOp? = some op) : kind = op.token := by
  cases kind with
  | keyword word =>
    cases word <;> simp only [Kind.binaryOp?, Option.some.injEq, reduceCtorEq] at operator <;>
      subst operator <;> rfl
  | mark sign =>
    cases sign <;> simp only [Kind.binaryOp?, Option.some.injEq, reduceCtorEq] at operator <;>
      subst operator <;> rfl
  | _ => cases operator

/-- An operator stands between what its operands leave. -/
theorem traceOf_binary (op : BinaryOp) (left right : Located) (span : Span) :
    traceOf (.binary op left right span) = traceOf left ++ op.token :: traceOf right := by
  have kept : isEssential op.token = true := by cases op <;> rfl
  simp [traceOf, Expr.bare, Expr.mapNotes, Expr.tokens, kept]

theorem traceOf_unary (op : UnaryOp) (operand : Located) (span : Span) :
    traceOf (.unary op operand span) = op.token :: traceOf operand := by
  have kept : isEssential op.token = true := by cases op <;> rfl
  simp [traceOf, Expr.bare, Expr.mapNotes, Expr.tokens, kept]

theorem traceOf_list (elements : List Located) (span : Span) :
    traceOf (.list elements span) =
      .mark .openBracket :: essence (Expr.itemTokens (elements.map (·.bare))) ++
        [.mark .closeBracket] := by
  simp [traceOf, Expr.bare, Expr.mapNotes, Expr.tokens, Expr.mapAllNotes_eq_map, isEssential]

theorem traceOf_call (callee : Located) (arguments : List Located) (span : Span) :
    traceOf (.call callee arguments span) =
      traceOf callee ++ essence (Expr.itemTokens (arguments.map (·.bare))) := by
  simp [traceOf, Expr.bare, Expr.mapNotes, Expr.tokens, Expr.mapAllNotes_eq_map, isEssential]

theorem traceOf_literal (value : Literal) (span : Span) :
    traceOf (.literal value span) =
      if value.isSmallest then [.mark .minus, .int Lexeme.maxMagnitude] else [value.token] := by
  have kept : isEssential value.token = true := by cases value <;> rfl
  cases smallest : value.isSmallest with
  | false => simp [traceOf, Expr.bare, Expr.mapNotes, Expr.tokens, smallest, kept]
  | true => simp [traceOf, Expr.bare, Expr.mapNotes, Expr.tokens, smallest, isEssential]

theorem traceOf_forLoop (counter : String) (start stop : Located) (step : Option Located)
    (body : Located) (block : Bool) (span : Span) :
    traceOf (.forLoop counter start stop step body block span) =
      .keyword .forWord :: .identifier counter :: .mark .assign :: traceOf start ++
        .keyword .toWord :: traceOf stop ++ (Phrase.step step).trace ++
          .keyword .thenWord :: essence (body.bare.tokens (.body block)) ++
            essence (endTokens block) := by
  cases step <;>
    simp [traceOf, Phrase.trace, Expr.bare, Expr.mapNotes, Expr.tokens, isEssential]

theorem essence_statementTokens (first : Expr Unit) (others : List (Expr Unit)) :
    essence (Expr.statementTokens (first :: others)) =
      essence (first.tokens .statement) ++ essence (Expr.statementTokens others) := by
  cases others <;> simp [Expr.statementTokens, isEssential]

theorem essence_itemTokens (first : Expr Unit) {others : List (Expr Unit)} (more : others ≠ []) :
    essence (Expr.itemTokens (first :: others)) =
      essence (first.tokens .statement) ++ .mark .comma :: essence (Expr.itemTokens others) := by
  cases others with
  | nil => exact absurd rfl more
  | cons next rest => simp [Expr.itemTokens, isEssential]

theorem essence_nameTokens (first : String) {others : List String} (more : others ≠ []) :
    essence (nameTokens (first :: others)) =
      .identifier first :: .mark .comma :: essence (nameTokens others) := by
  cases others with
  | nil => exact absurd rfl more
  | cons next rest => simp [nameTokens, isEssential]

/-- A block is written as its statements, with separators around them. -/
theorem essence_block (elements : List Located) (span : Span) :
    essence ((Expr.list elements span).bare.tokens .block) =
      essence (Expr.statementTokens (elements.map (·.bare))) := by
  cases elements <;>
    simp [Expr.bare, Expr.mapNotes, Expr.tokens, Expr.mapAllNotes_eq_map, isEssential]

theorem essence_functionName (name : Option String) :
    essence (name.map Kind.identifier).toList = (name.map Kind.identifier).toList := by
  cases name <;> simp [isEssential]

theorem Reads.items_ne_nil {closing : Mark} {elements : List Located} {last : Token}
    {before after : List Token} (reads : Reads (.items closing elements last) before after) :
    elements ≠ [] := by
  cases reads <;> simp

theorem Reads.names_ne_nil {listed : List String} {last : Token} {before after : List Token}
    (reads : Reads (.names listed last) before after) : listed ≠ [] := by
  cases reads <;> simp

/-- What has been taken of a phrase and what follows it are the phrase and what follows that. -/
theorem Reads.essence_eq {phrase : Phrase} {before after : List Token}
    (reads : Reads phrase before after) :
    phrase.taken ++ essence (before.map (·.kind)) =
      phrase.trace ++ essence (after.map (·.kind)) := by
  induction reads with
  | chain _ _ start more =>
    simp only [taken_operand, trace_operand, List.nil_append] at start
    simpa [Phrase.taken, Phrase.trace, start] using more
  | @chainMore _ sign op left right _ _ _ _ operator _ _ _ operand more =>
    simp only [taken_operand, trace_operand, List.nil_append] at operand
    have kept : isEssential op.token = true := by cases op <;> rfl
    simpa [Phrase.taken, Phrase.trace, traceOf_binary, eq_token_of_binaryOp? operator, kept,
      operand] using more
  | negation _ operand | plus _ operand | minus _ _ operand =>
    simp_all [Phrase.taken, Phrase.trace, traceOf_unary, UnaryOp.token, isEssential]
  | power _ _ base exponent =>
    simp_all [Phrase.taken, Phrase.trace, traceOf_binary, BinaryOp.token, isEssential]
  | smallest | float | str =>
    simp [Phrase.taken, Phrase.trace, traceOf_literal, Literal.isSmallest, Literal.token,
      isEssential]
  | int small =>
    simp [Phrase.taken, Phrase.trace, traceOf_literal, Literal.token_ofNat small,
      Literal.isSmallest_ofNat small, isEssential]
  | callsMore _ _ passed more =>
    simp_all [Phrase.taken, Phrase.trace, traceOf_call, isEssential]
  | list _ listed => simp_all [Phrase.taken, Phrase.trace, traceOf_list, isEssential]
  | forLoop => simp_all [Phrase.taken, Phrase.trace, traceOf_forLoop, isEssential]
  | noElements =>
    rw [List.map_cons, ← List.singleton_append, essence_append]
    simp [Phrase.taken, Phrase.trace, Expr.itemTokens]
  | lastItem _ _ item =>
    rw [List.map_cons, ← List.singleton_append, essence_append] at item
    simpa [Phrase.taken, Phrase.trace, Expr.itemTokens, traceOf] using item
  | moreItems _ more item others =>
    have later := more.items_ne_nil
    simp_all [Phrase.taken, Phrase.trace, essence_itemTokens, traceOf, isEssential]
  | moreNames more others =>
    have later := more.names_ne_nil
    simp_all [Phrase.taken, Phrase.trace, essence_nameTokens, isEssential]
  | lastStatement => simp_all [Phrase.taken, Phrase.trace, Expr.statementTokens, traceOf]
  | moreStatements _ _ _ _ first more =>
    simp_all [Phrase.taken, Phrase.trace, essence_statementTokens, traceOf, essence_dropWhile]
  | @statements _ _ _ before _ _ skipped _ listed =>
    rw [← essence_dropWhile before, skipped]
    simp_all [Phrase.taken, Phrase.trace, essence_block]
  | noParameters | lastName => simp [Phrase.taken, Phrase.trace, nameTokens, isEssential]
  | noStatements => simp [Phrase.taken, Phrase.trace, Expr.statementTokens]
  | elif _ _ more _ chosen others =>
    obtain ⟨condition, body, block, rest, rfl⟩ := more.exists_orElse
    simp_all [Phrase.taken, Phrase.trace, traceOf, Expr.bare, Branches.mapNotes, Branches.tokens,
      isEssential]
  | functionOf | functionBlock =>
    simp_all [Phrase.taken, Phrase.trace, traceOf, Expr.bare, Expr.mapNotes, Expr.tokens,
      essence_functionName, isEssential]
  | _ => simp_all [Phrase.taken, Phrase.trace, traceOf, Expr.bare, Expr.mapNotes, Expr.tokens,
      Place.body, endTokens, Branches.mapNotes, Branches.tokens, isEssential]

/-- What is left of the tokens of a program without those that leave no trace is what is left of the
tokens that the program is printed as. -/
theorem parse_keeps_essence {front : List Token} {span : Span} {root : Located}
    (single : ∀ token ∈ front, token.kind ≠ .endOfInput)
    (parsed : parse (front ++ [⟨.endOfInput, span⟩]) = .ok root) :
    essence (kindsOf (front ++ [⟨.endOfInput, span⟩])) = essence root.bare.programTokens := by
  obtain ⟨last, rest, reads⟩ := parse_eq_ok_iff.mp parsed
  obtain ⟨rfl, rfl, -⟩ := reads.up_to_end (ends_eq_zero.mpr single)
  obtain ⟨elements, listSpan, -, rfl, -⟩ := reads.exists_list
  have kept := reads.essence_eq
  simp only [Phrase.taken, Phrase.trace, essence_block, List.nil_append] at kept
  simpa [Expr.bare, Expr.mapNotes, Expr.programTokens, Expr.mapAllNotes_eq_map, isEssential]
    using kept

/-- A choice with alternatives of both forms, behind a declaration and a constant with its sign. -/
theorem parse_keeps_essence_choice : ∃ front span root,
    Token.scan ⟨0, "", "var x = (-9223372036854775808);\nif x < 1 then (2) elif x then\nend"⟩ =
        .ok (front ++ [⟨.endOfInput, span⟩]) ∧
      (∀ token ∈ front, token.kind ≠ .endOfInput) ∧
      parse (front ++ [⟨.endOfInput, span⟩]) = .ok root ∧
      essence (kindsOf (front ++ [⟨.endOfInput, span⟩])) = essence root.bare.programTokens := by
  have checked : ((Token.scan
      ⟨0, "", "var x = (-9223372036854775808);\nif x < 1 then (2) elif x then\nend"⟩).toOption.bind
        fun tokens => (parse tokens).toOption.map fun _ => ()) = some () := by
    decide +kernel
  obtain ⟨tokens, scanned, parsing⟩ := Option.bind_eq_some_iff.mp checked
  obtain ⟨root, parsed, -⟩ := Option.map_eq_some_iff.mp parsing
  have scanned := eq_ok_of_toOption scanned
  have parsed := eq_ok_of_toOption parsed
  obtain ⟨front, span, rfl, single⟩ := exists_end_of_scanFrom scanned
  exact ⟨front, span, root, scanned, single, parsed, parse_keeps_essence single parsed⟩

end Quill.Grammar
