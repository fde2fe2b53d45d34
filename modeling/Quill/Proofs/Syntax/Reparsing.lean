import Quill.Proofs.Syntax.Places

/-!
# Reading printed expressions

What an expression is printed as is read as that expression again, wherever it stands and whatever
follows that does not belong to it. There is one statement for each kind of expression, which takes
its parts for granted; together they cover everything that can be read at all.
-/

namespace Quill.Grammar

open Quill.Token

/-- The kinds of the tokens. -/
abbrev kindsOf (tokens : List Token) : List Kind :=
  tokens.map (·.kind)

theorem of_kindsOf_cons {tokens : List Token} {kind : Kind} {kinds : List Kind}
    (same : kindsOf tokens = kind :: kinds) :
    ∃ span rest, tokens = ⟨kind, span⟩ :: rest ∧ kindsOf rest = kinds := by
  cases tokens with
  | nil => cases same
  | cons token rest =>
    obtain ⟨rfl, rfl⟩ := List.cons.inj same
    exact ⟨token.span, rest, rfl, rfl⟩

theorem of_kindsOf_append {tokens : List Token} {first second : List Kind}
    (same : kindsOf tokens = first ++ second) :
    ∃ front back, tokens = front ++ back ∧ kindsOf front = first ∧ kindsOf back = second :=
  List.map_eq_append_iff.mp same

theorem of_kindsOf_nil {tokens : List Token} (same : kindsOf tokens = []) : tokens = [] :=
  List.map_eq_nil_iff.mp same

/-- The printed expression is read as that expression, at every place where nothing follows that
would pull it away. -/
def Prints (expr : Expr Unit) : Prop :=
  ∀ (rank : Nat) (front after : List Token), rank ≤ Rank.atom →
    kindsOf front = expr.tokens (.operand rank) → pullAhead after ≤ rank →
    ∃ located : Located, located.bare = expr ∧ Placed rank located (front ++ after) after

/-! ## Parentheses -/

/-- How tightly an expression binds by itself. Constructs that go on to the end of their statement
do not bind at all. -/
def ownRank : Expr Unit → Nat
  | .literal value _ => if value.isSmallest then Rank.sign else Rank.atom
  | .unary op _ _ => op.rank
  | .binary op _ _ _ => op.rank
  | .call _ _ _ => Rank.call
  | .choice _ _ | .forLoop _ _ _ _ _ _ _ | .whileLoop _ _ _ _ | .assign _ _ _
  | .assignMember _ _ _ _ | .function _ _ _ _ _ => 0
  | _ => Rank.atom

/-- An expression is put in parentheses exactly where it does not bind as tightly as its place. -/
theorem tokens_operand (expr : Expr Unit) {rank : Nat} (most : rank ≤ Rank.atom) :
    expr.tokens (.operand rank) = enclose (ownRank expr) rank (expr.tokens .statement) := by
  have never (tokens : List Kind) : enclose Rank.atom rank tokens = tokens :=
    enclose_of_le most tokens
  cases expr with
  | literal value _ =>
    cases smallest : value.isSmallest <;> simp [Expr.tokens, ownRank, smallest, never]
  | forLoop _ _ _ step _ _ _ => cases step <;> simp [Expr.tokens, ownRank]
  | returnWith value _ => cases value <;> simp [Expr.tokens, ownRank, never]
  | _ => simp [Expr.tokens, ownRank, never]

/-- The expression, printed without parentheses around it, is read as that expression. -/
def PrintsOpen (expr : Expr Unit) : Prop :=
  ∀ front after : List Token, kindsOf front = expr.tokens .statement →
    pullAhead after ≤ ownRank expr →
    ∃ located : Located, located.bare = expr ∧
      Placed (ownRank expr) located (front ++ after) after

theorem ownRank_le (expr : Expr Unit) : ownRank expr ≤ Rank.atom := by
  cases expr with
  | literal value _ =>
    cases smallest : value.isSmallest <;> simp [ownRank, smallest, Rank.sign, Rank.atom]
  | unary op _ _ => exact Nat.le_trans op.rank_le (by decide)
  | binary op _ _ _ => exact Nat.le_trans op.rank_le (by decide)
  | _ => simp [ownRank, Rank.call, Rank.atom]

/-- With parentheses wherever its place needs them, an expression can be read at every place. -/
theorem prints_of_open {expr : Expr Unit} (opened : PrintsOpen expr) : Prints expr := by
  intro rank front after most same free
  rw [tokens_operand expr most] at same
  by_cases needed : ownRank expr < rank
  · rw [enclose_of_lt needed, List.cons_append] at same
    obtain ⟨openSpan, rest, rfl, restSame⟩ := of_kindsOf_cons same
    obtain ⟨inner, last, rfl, innerSame, lastSame⟩ := of_kindsOf_append restSame
    obtain ⟨closeSpan, ending, rfl, endingSame⟩ := of_kindsOf_cons lastSame
    obtain rfl := of_kindsOf_nil endingSame
    obtain ⟨located, bare, placed⟩ :=
      opened inner (⟨.mark .closeParen, closeSpan⟩ :: after) innerSame (Nat.zero_le _)
    have atom := (placed.zero (ownRank_le expr) rfl).parens openSpan
    refine ⟨located, bare, ?_⟩
    simpa using atom.lower (Nat.le_refl _) most (by omega) free
  · rw [enclose_of_le (by omega)] at same
    obtain ⟨located, bare, placed⟩ := opened front after same (by omega)
    refine ⟨located, bare, ?_⟩
    cases rank with
    | zero => exact placed.zero (ownRank_le expr) (by omega)
    | succ rank => exact placed.lower (ownRank_le expr) (by omega) (by omega) free

/-- A printed operand of a line is read as an expression. -/
theorem Prints.expression {expr : Expr Unit} (prints : Prints expr) {front after : List Token}
    (same : kindsOf front = expr.tokens (.operand Rank.connection)) (free : Free after) :
    ∃ located : Located, located.bare = expr ∧
      Reads (.expression located) (front ++ after) after ∧ 0 < openingAhead (front ++ after) := by
  obtain ⟨located, bare, placed⟩ := prints _ _ _ (by decide) same free.weak
  have opens := placed.opens
  exact ⟨located, bare, placed.expression (by decide) free (by decide), by omega⟩

/-! ## Atoms -/

theorem prints_int {magnitude : Nat} (small : magnitude < Lexeme.maxMagnitude) :
    Prints (.literal (.int (Int64.ofNat magnitude)) ()) := by
  have own : ownRank (.literal (.int (Int64.ofNat magnitude)) ()) = Rank.atom := by
    simp [ownRank, Literal.isSmallest_ofNat small]
  apply prints_of_open
  intro front after same _
  simp only [Expr.tokens, Literal.isSmallest_ofNat small, Bool.false_eq_true, if_false,
    Literal.token_ofNat small] at same
  obtain ⟨span, rest, rfl, ending⟩ := of_kindsOf_cons same
  obtain rfl := of_kindsOf_nil ending
  rw [own]
  refine ⟨.literal (.int (Int64.ofNat magnitude)) span, rfl, Nat.le_refl _, ?_, fun _ => rfl,
    .int small⟩
  exact decide_eq_false (Nat.ne_of_lt small)

theorem prints_smallest : Prints (.literal (.int Int64.minValue) ()) := by
  apply prints_of_open
  intro front after same _
  obtain ⟨signSpan, rest, rfl, restSame⟩ := of_kindsOf_cons same
  obtain ⟨digitsSpan, ending, rfl, endingSame⟩ := of_kindsOf_cons restSame
  obtain rfl := of_kindsOf_nil endingSame
  exact ⟨.literal (.int Int64.minValue) (signSpan.through digitsSpan), rfl, Nat.le_refl _, rfl,
    fun _ => rfl, .smallest⟩

theorem prints_float (value : Float) : Prints (.literal (.float value) ()) := by
  apply prints_of_open
  intro front after same _
  obtain ⟨span, rest, rfl, ending⟩ := of_kindsOf_cons same
  obtain rfl := of_kindsOf_nil ending
  exact ⟨.literal (.float value) span, rfl, Nat.le_refl _, rfl, fun _ => rfl, .float⟩

theorem prints_str (value : String) : Prints (.literal (.str value) ()) := by
  apply prints_of_open
  intro front after same _
  obtain ⟨span, rest, rfl, ending⟩ := of_kindsOf_cons same
  obtain rfl := of_kindsOf_nil ending
  exact ⟨.literal (.str value) span, rfl, Nat.le_refl _, rfl, fun _ => rfl, .str⟩

theorem not_targetAhead_of_name {name : String} {span : Span} {after : List Token}
    (noAssign : ahead (·.isMark .assign) after = false) :
    targetAhead (⟨.identifier name, span⟩ :: after) = false := by
  unfold targetAhead
  split
  · rename_i same
    cases same
    cases noAssign
  · rfl

theorem prints_read (name : String) : Prints (.read name ()) := by
  apply prints_of_open
  intro front after same free
  obtain ⟨span, rest, rfl, ending⟩ := of_kindsOf_cons same
  obtain rfl := of_kindsOf_nil ending
  have noDot : ahead (·.isMark .dot) after = false := no_mark (Nat.lt_succ_self Rank.atom) free
  have noAssign : ahead (·.isMark .assign) after = false :=
    no_mark (Nat.lt_succ_self Rank.atom) free
  exact ⟨.read name span, rfl, Nat.le_refl _, rfl, fun _ => not_targetAhead_of_name noAssign,
    .named (.variable noDot)⟩

theorem prints_member (object name : String) : Prints (.member object name ()) := by
  apply prints_of_open
  intro front after same free
  obtain ⟨span, rest, rfl, restSame⟩ := of_kindsOf_cons same
  obtain ⟨dotSpan, more, rfl, moreSame⟩ := of_kindsOf_cons restSame
  obtain ⟨nameSpan, ending, rfl, endingSame⟩ := of_kindsOf_cons moreSame
  obtain rfl := of_kindsOf_nil endingSame
  exact ⟨.member object name (span.through nameSpan), rfl, Nat.le_refl _, rfl, fun _ => rfl,
    .named (.member (no_mark (Nat.lt_succ_self Rank.atom) free))⟩

theorem prints_instantiate (name : String) : Prints (.instantiate name ()) := by
  apply prints_of_open
  intro front after same _
  obtain ⟨wordSpan, rest, rfl, restSame⟩ := of_kindsOf_cons same
  obtain ⟨nameSpan, ending, rfl, endingSame⟩ := of_kindsOf_cons restSame
  obtain rfl := of_kindsOf_nil endingSame
  exact ⟨.instantiate name (wordSpan.through nameSpan), rfl, Nat.le_refl _, rfl, fun _ => rfl,
    .instantiate⟩

/-! ## Operators -/

theorem prints_unary (op : UnaryOp) {operand : Expr Unit} (prints : Prints operand) :
    Prints (.unary op operand ()) := by
  apply prints_of_open
  intro front after same free
  simp only [Expr.tokens, Place.rank_statement, enclose_zero] at same
  obtain ⟨span, rest, rfl, restSame⟩ := of_kindsOf_cons same
  have most : op.rank ≤ Rank.atom := Nat.le_trans op.rank_le (by decide)
  obtain ⟨located, bare, placed⟩ := prints _ _ _ most restSame free
  refine ⟨.unary op located (span.through located.note), ?_, ?_⟩
  · exact congrArg (Expr.unary op · ()) bare
  · cases op with
    | plus => exact ⟨Nat.le_refl _, rfl, fun _ => rfl, .plus placed.reads⟩
    | negate => exact ⟨Nat.le_refl _, rfl, fun _ => rfl, .minus placed.noLargest placed.reads⟩
    | not => exact ⟨Nat.le_refl _, rfl, fun _ => rfl, .negation placed.reads⟩

theorem binaryOp?_token (op : BinaryOp) : op.token.binaryOp? = some op := by
  cases op <;> rfl

/-- The token of an operator does not pull its left operand away. -/
theorem pull_token (op : BinaryOp) : pull op.token ≤ op.leftRank := by
  cases op <;> decide

/-- Apart from exponentiation, every operator belongs to a level. -/
theorem exists_level {op : BinaryOp} (other : op ≠ .pow) :
    ∃ level : Level, level.admits op = true ∧ op.rank = level.rank ∧
      op.leftRank = level.rank ∧ op.rightRank = level.rank + 1 := by
  cases op with
  | pow => exact absurd rfl other
  | and | or => exact ⟨.logical, rfl, rfl, rfl, rfl⟩
  | less | greater | lessEqual | greaterEqual | equal | notEqual =>
    exact ⟨.comparison, rfl, rfl, rfl, rfl⟩
  | add | sub => exact ⟨.additive, rfl, rfl, rfl, rfl⟩
  | mul | div => exact ⟨.multiplicative, rfl, rfl, rfl, rfl⟩

theorem readsAt_level (level : Level) {expr : Located} {before after : List Token} :
    ReadsAt expr before after level.rank = Chains level expr before after := by
  cases level <;> rfl

/-- What binds more tightly than the operators of a level is an operand between them. -/
theorem Placed.operand {level : Level} {expr : Located} {before after : List Token}
    (placed : Placed (level.rank + 1) expr before after) (free : pullAhead after ≤ level.rank) :
    Reads (.operand level expr) before after := by
  cases level with
  | logical => exact placed.reads
  | comparison => exact Chains.reads placed.reads (Nat.lt_succ_of_le free)
  | additive => exact Chains.reads placed.reads (Nat.lt_succ_of_le free)
  | multiplicative => exact placed.reads

theorem prints_binary (op : BinaryOp) {left right : Expr Unit} (printsLeft : Prints left)
    (printsRight : Prints right) : Prints (.binary op left right ()) := by
  apply prints_of_open
  intro front after same free
  simp only [Expr.tokens, Place.rank_statement, enclose_zero] at same
  obtain ⟨first, rest, rfl, firstSame, restSame⟩ := of_kindsOf_append same
  obtain ⟨signSpan, second, rfl, secondSame⟩ := of_kindsOf_cons restSame
  have atLeft : op.leftRank ≤ Rank.atom := Nat.le_trans op.leftRank_le (by decide)
  have atRight : op.rightRank ≤ Rank.atom := Nat.le_trans op.rightRank_le (by decide)
  have loose : op.rank ≤ op.leftRank ∧ op.rank ≤ op.rightRank ∧ 0 < op.leftRank := by
    cases op <;> decide
  obtain ⟨leftRead, leftBare, leftPlaced⟩ :=
    printsLeft _ _ (⟨op.token, signSpan⟩ :: (second ++ after)) atLeft firstSame (pull_token op)
  obtain ⟨rightRead, rightBare, rightPlaced⟩ :=
    printsRight _ _ _ atRight secondSame (Nat.le_trans free loose.2.1)
  have reads : ReadsAt (.binary op leftRead rightRead (leftRead.note.through rightRead.note))
      (first ++ ⟨op.token, signSpan⟩ :: (second ++ after)) after op.rank := by
    by_cases power : op = .pow
    · subst power
      exact .power leftPlaced.reads rightPlaced.reads
    · obtain ⟨level, admitted, own, atLevel, aboveLevel⟩ := exists_level power
      rw [atLevel] at leftPlaced
      rw [aboveLevel] at rightPlaced
      have chains := leftPlaced.reads
      rw [readsAt_level] at chains
      rw [own, readsAt_level]
      intro result final more
      apply chains
      have operand := rightPlaced.operand (Nat.le_trans free (Nat.le_of_eq own))
      exact .chainMore (binaryOp?_token op) admitted operand more
  refine ⟨.binary op leftRead rightRead (leftRead.note.through rightRead.note), ?_, ?_⟩
  · rw [← leftBare, ← rightBare]
    rfl
  · rw [List.append_assoc, List.cons_append]
    have opens := leftPlaced.opens
    exact ⟨by simp only [ownRank]; omega, leftPlaced.noLargest,
      fun _ => leftPlaced.noTarget loose.2.2, reads⟩

/-! ## Lists and calls -/

theorem free_of_pull (kind : Kind) {span : Span} {after : List Token} (none : pull kind = 0) :
    Free (⟨kind, span⟩ :: after) :=
  free_of_pullAhead none

/-- Printed expressions with commas between them are read as these expressions, up to the mark that
closes them. -/
theorem reads_printedItems {closing : Mark} (other : closing ≠ .comma)
    (none : pull (.mark closing) = 0)
    (first : Expr Unit) (others : List (Expr Unit)) (prints : ∀ expr ∈ first :: others, Prints expr)
    {front after : List Token} {closeSpan : Span}
    (same : kindsOf front = Expr.itemTokens (first :: others)) :
    ∃ located : List Located, located.map (·.bare) = first :: others ∧
      Reads (.items closing located ⟨.mark closing, closeSpan⟩)
        (front ++ ⟨.mark closing, closeSpan⟩ :: after) after ∧
      0 < openingAhead (front ++ ⟨.mark closing, closeSpan⟩ :: after) := by
  induction others generalizing first front with
  | nil =>
    obtain ⟨item, bare, reads, opens⟩ :=
      (prints first (by simp)).expression same (free_of_pull _ none)
    exact ⟨[item], by simp [bare], .lastItem other reads, opens⟩
  | cons second others ih =>
    obtain ⟨head, rest, rfl, headSame, restSame⟩ := of_kindsOf_append same
    obtain ⟨commaSpan, tail, rfl, tailSame⟩ := of_kindsOf_cons restSame
    obtain ⟨items, itemsBare, itemsRead, -⟩ :=
      ih second (fun expr member => prints expr (List.mem_cons_of_mem _ member)) tailSame
    obtain ⟨item, bare, reads, opens⟩ :=
      (prints first (by simp)).expression headSame (free_of_pull (.mark .comma) rfl)
    rw [List.append_assoc, List.cons_append]
    exact ⟨item :: items, by simp [bare, itemsBare], .moreItems reads itemsRead, opens⟩

theorem reads_printedEnumeration {closing : Mark} (other : closing ≠ .comma)
    (none : pull (.mark closing) = 0) (closes : opening (.mark closing) = 0)
    {elements : List (Expr Unit)} (prints : ∀ expr ∈ elements, Prints expr)
    {front after : List Token} {closeSpan : Span}
    (same : kindsOf front = Expr.itemTokens elements) :
    ∃ located : List Located, Expr.mapAllNotes (fun _ => ()) located = elements ∧
      Reads (.enumeration closing located ⟨.mark closing, closeSpan⟩)
        (front ++ ⟨.mark closing, closeSpan⟩ :: after) after := by
  cases elements with
  | nil =>
    obtain rfl := of_kindsOf_nil same
    exact ⟨[], rfl, .noElements⟩
  | cons first others =>
    obtain ⟨located, bare, reads, opens⟩ := reads_printedItems other none first others prints same
    refine ⟨located, ?_, .elements ?_ reads⟩
    · rw [Expr.mapAllNotes_eq_map]
      exact bare
    · refine not_ahead_of_opening 1 (fun kind marked => ?_) opens
      cases kind <;> simp_all [Kind.isMark]

theorem prints_list {elements : List (Expr Unit)} (prints : ∀ expr ∈ elements, Prints expr) :
    Prints (.list elements ()) := by
  apply prints_of_open
  intro front after same _
  simp only [Expr.tokens, reduceCtorEq, if_false, List.cons_append] at same
  obtain ⟨openSpan, rest, rfl, restSame⟩ := of_kindsOf_cons same
  obtain ⟨items, last, rfl, itemsSame, lastSame⟩ := of_kindsOf_append restSame
  obtain ⟨closeSpan, ending, rfl, endingSame⟩ := of_kindsOf_cons lastSame
  obtain rfl := of_kindsOf_nil endingSame
  obtain ⟨located, bare, reads⟩ :=
    @reads_printedEnumeration .closeBracket (by decide) rfl rfl _ prints items after closeSpan
      itemsSame
  rw [List.cons_append, List.append_assoc]
  refine ⟨.list located (openSpan.through closeSpan), ?_, Nat.le_refl _, rfl, fun _ => rfl,
    .list reads⟩
  exact congrArg (Expr.list · ()) bare

theorem prints_call {callee : Expr Unit} {arguments : List (Expr Unit)}
    (printsCallee : Prints callee) (prints : ∀ expr ∈ arguments, Prints expr) :
    Prints (.call callee arguments ()) := by
  apply prints_of_open
  intro front after same _
  simp only [Expr.tokens, Place.rank_statement, enclose_zero, List.append_assoc,
    List.cons_append] at same
  obtain ⟨calleeFront, rest, rfl, calleeSame, restSame⟩ := of_kindsOf_append same
  obtain ⟨openSpan, inner, rfl, innerSame⟩ := of_kindsOf_cons restSame
  obtain ⟨items, last, rfl, itemsSame, lastSame⟩ := of_kindsOf_append innerSame
  obtain ⟨closeSpan, ending, rfl, endingSame⟩ := of_kindsOf_cons lastSame
  obtain rfl := of_kindsOf_nil endingSame
  obtain ⟨located, bare, reads⟩ :=
    @reads_printedEnumeration .closeParen (by decide) rfl rfl _ prints items after closeSpan
      itemsSame
  obtain ⟨called, calledBare, placed⟩ :=
    printsCallee _ _ (⟨.mark .openParen, openSpan⟩ :: (items ++ ⟨.mark .closeParen, closeSpan⟩ ::
      after)) (by decide : Rank.call ≤ Rank.atom) calleeSame (Nat.le_refl _)
  have suffix : calleeFront ++ ⟨.mark .openParen, openSpan⟩ ::
      (items ++ [⟨.mark .closeParen, closeSpan⟩]) ++ after =
      calleeFront ++ ⟨.mark .openParen, openSpan⟩ ::
        (items ++ ⟨.mark .closeParen, closeSpan⟩ :: after) := by simp
  rw [suffix]
  refine ⟨.call called located (called.note.through closeSpan), ?_, placed.opens,
    placed.noLargest, placed.noTarget, ?_⟩
  · rw [← calledBare, ← bare]
    rfl
  · intro result final more
    exact placed.reads result final (.callsMore reads more)

end Quill.Grammar
