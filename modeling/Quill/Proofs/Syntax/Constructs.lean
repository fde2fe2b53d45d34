import Quill.Proofs.Syntax.Readers
import Quill.Proofs.Syntax.Reparsing

/-!
# Reading printed constructs

A printed statement is read as that statement at the end of its line, and a body that stays on its
line wherever the line goes on with something that does not belong to it. A block ends at the word
that closes it, so that only its own statements matter. The constructs are put together from these.
-/

namespace Quill.Grammar

open Quill.Token Quill.Parser

/-! ## Statements -/

/-- Whether the token stands at the end of a line. -/
def endsLine : Kind → Bool
  | .newline | .semicolon | .endOfInput => true
  | _ => false

/-- The printed statement is read as that statement at the end of a line. -/
def PrintsStatement (statement : Expr Unit) : Prop :=
  ∀ front after : List Token, kindsOf front = statement.tokens .statement →
    ahead endsLine after = true →
    ∃ located : Located, located.bare = statement ∧
      Reads (.statement located) (front ++ after) after ∧
      ahead endsStatement (front ++ after) = false

/-- The statement is read as that statement where it is the body of a construct that stays on its
line. -/
def PrintsLine (statement : Expr Unit) : Prop :=
  ∀ front after : List Token, kindsOf front = statement.tokens (.operand Rank.connection) →
    Free after →
    ∃ located : Located, located.bare = statement ∧
      Reads (.statement located) (front ++ after) after ∧
      ahead endsStatement (front ++ after) = false

theorem ahead_of_imp {wanted other : Kind → Bool} {tokens : List Token}
    (weaker : ∀ kind, wanted kind = true → other kind = true)
    (absent : ahead other tokens = false) : ahead wanted tokens = false := by
  cases tokens with
  | nil => rfl
  | cons token rest =>
    cases wants : wanted token.kind with
    | false => exact wants
    | true => exact absurd (weaker _ wants) (ne_true_of_eq_false absent)

theorem ahead_mono {wanted other : Kind → Bool} {tokens : List Token}
    (weaker : ∀ kind, wanted kind = true → other kind = true)
    (present : ahead wanted tokens = true) : ahead other tokens = true := by
  cases tokens with
  | nil => cases present
  | cons token rest => exact weaker _ present

theorem pullAhead_of_endsLine {after : List Token} (line : ahead endsLine after = true) :
    pullAhead after = 0 := by
  cases after with
  | nil => cases line
  | cons token rest =>
    obtain ⟨kind, span⟩ := token
    cases kind <;> first | rfl | cases line

theorem opening_of_endsStatement {kind : Kind} (ends : endsStatement kind = true) :
    opening kind = 0 := by
  cases kind with
  | keyword word => cases word <;> first | rfl | cases ends
  | _ => first | rfl | cases ends

/-- An expression is a statement, and no statement ends where an expression begins. -/
theorem reads_plain {expr : Located} {before after : List Token}
    (reads : Reads (.expression expr) before after) (opens : 0 < openingAhead before) :
    Reads (.statement expr) before after ∧ ahead endsStatement before = false := by
  refine ⟨.statement ?_ reads, ?_⟩
  · refine not_ahead_of_opening 1 (fun kind word => ?_) opens
    cases kind <;> simp_all [startsJump, Kind.isKeyword]
    rename_i word
    rcases word with (rfl | rfl) | rfl <;> decide
  · refine not_ahead_of_opening 1 (fun kind ends => ?_) opens
    rw [opening_of_endsStatement ends]
    exact Nat.one_pos

theorem Prints.statement {expr : Expr Unit} (prints : Prints expr) : PrintsStatement expr := by
  intro front after same line
  have printed : kindsOf front = expr.tokens (.operand 0) := by
    rw [tokens_operand expr (Nat.zero_le _), enclose_zero]
    exact same
  have none := pullAhead_of_endsLine line
  obtain ⟨located, bare, placed⟩ :=
    prints 0 front after (Nat.zero_le _) printed (Nat.le_of_eq none)
  have opens := placed.opens
  obtain ⟨reads, goesOn⟩ := reads_plain placed.reads (by omega)
  exact ⟨located, bare, reads, goesOn⟩

theorem Prints.line {expr : Expr Unit} (prints : Prints expr) : PrintsLine expr := by
  intro front after same free
  obtain ⟨located, bare, plain, opens⟩ := prints.expression same free
  obtain ⟨reads, goesOn⟩ := reads_plain plain opens
  exact ⟨located, bare, reads, goesOn⟩

/-- A jump with nothing to put in parentheses may also be a whole statement. -/
theorem PrintsLine.statement {statement : Expr Unit} (prints : PrintsLine statement)
    (alike : statement.tokens .statement = statement.tokens (.operand Rank.connection)) :
    PrintsStatement statement := by
  intro front after same line
  exact prints front after (same.trans alike) (free_of_pullAhead (pullAhead_of_endsLine line))

theorem prints_returnNone : PrintsStatement (.returnWith none ()) := by
  intro front after same line
  obtain ⟨span, rest, rfl, ending⟩ := of_kindsOf_cons same
  obtain rfl := of_kindsOf_nil ending
  have noValue : ahead endsStatement after = true := by
    apply ahead_mono (fun kind ends => ?_) line
    cases kind <;> first | rfl | cases ends
  exact ⟨.returnWith none span, rfl, .returnNone noValue, rfl⟩

theorem prints_returnSome {value : Expr Unit} (prints : Prints value) :
    PrintsLine (.returnWith (some value) ()) := by
  intro front after same free
  obtain ⟨span, rest, rfl, valueSame⟩ := of_kindsOf_cons same
  obtain ⟨located, bare, reads, opens⟩ := prints.expression valueSame free
  refine ⟨.returnWith (some located) (span.through located.note), ?_,
    .returnSome (reads_plain reads opens).2 reads, rfl⟩
  exact congrArg (fun value => Expr.returnWith (some value) ()) bare

theorem prints_breakLoop : PrintsLine (.breakLoop ()) := by
  intro front after same _
  obtain ⟨span, rest, rfl, ending⟩ := of_kindsOf_cons same
  obtain rfl := of_kindsOf_nil ending
  exact ⟨.breakLoop span, rfl, .breakLoop, rfl⟩

theorem prints_continueLoop : PrintsLine (.continueLoop ()) := by
  intro front after same _
  obtain ⟨span, rest, rfl, ending⟩ := of_kindsOf_cons same
  obtain rfl := of_kindsOf_nil ending
  exact ⟨.continueLoop span, rfl, .continueLoop, rfl⟩

/-! ## Blocks -/

/-- The tokens that close a block neither begin a statement nor separate two. -/
def Closes (closing : Kind → Bool) : Prop :=
  ∀ kind, closing kind = true → endsStatement kind = true ∧ kind.isSeparator = false

theorem closes_program : Closes fun _ => false := by
  intro kind closed
  cases closed

theorem closes_block : Closes closesBlock := by
  intro kind closed
  cases kind with
  | keyword word => cases word <;> first | exact ⟨rfl, rfl⟩ | cases closed
  | _ => cases closed

theorem closes_branch : Closes closesBranch := by
  intro kind closed
  cases kind with
  | keyword word => cases word <;> first | exact ⟨rfl, rfl⟩ | cases closed
  | _ => cases closed

theorem Closes.endsStatement {closing : Kind → Bool} (closes : Closes closing) (kind : Kind)
    (ends : endsList closing kind = true) : endsStatement kind = true := by
  cases kind with
  | endOfInput => rfl
  | _ => exact (closes _ ends).1

theorem endsStatement_of_isSeparator (kind : Kind) (separates : kind.isSeparator = true) :
    endsStatement kind = true := by
  cases kind <;> first | rfl | cases separates

/-- Printed statements on lines of their own are read as these statements, up to what closes the
list behind them. -/
theorem reads_printedStatements {closing : Kind → Bool} (closes : Closes closing)
    (first : Expr Unit) (others : List (Expr Unit))
    (prints : ∀ statement ∈ first :: others, PrintsStatement statement) {front after : List Token}
    (same : kindsOf front = Expr.statementTokens (first :: others))
    (line : ahead endsLine after = true)
    (closed : ahead (endsList closing) (after.dropWhile (·.kind.isSeparator)) = true) :
    ∃ located : List Located, located.map (·.bare) = first :: others ∧
      Reads (.statementList closing located) (front ++ after)
        (after.dropWhile (·.kind.isSeparator)) ∧
      ahead endsStatement (front ++ after) = false := by
  induction others generalizing first front with
  | nil =>
    obtain ⟨statement, bare, reads, goesOn⟩ := prints first (by simp) front after same line
    have opened := ahead_of_imp closes.endsStatement goesOn
    refine ⟨[statement], by simp [bare], ?_, goesOn⟩
    cases separated : ahead (·.isSeparator) after with
    | true => exact .moreStatements opened reads separated (.noStatements closed)
    | false =>
      rw [dropWhile_of_ahead separated]
      exact .lastStatement opened reads separated
  | cons second others ih =>
    obtain ⟨head, rest, rfl, headSame, restSame⟩ := of_kindsOf_append same
    obtain ⟨lineSpan, tail, rfl, tailSame⟩ := of_kindsOf_cons restSame
    obtain ⟨located, locatedBare, tailReads, tailGoesOn⟩ :=
      ih second (fun statement member => prints statement (List.mem_cons_of_mem _ member)) tailSame
    obtain ⟨statement, bare, reads, goesOn⟩ :=
      prints first (by simp) head (⟨.newline, lineSpan⟩ :: (tail ++ after)) headSame rfl
    have begins : (⟨.newline, lineSpan⟩ :: (tail ++ after)).dropWhile (·.kind.isSeparator) =
        tail ++ after :=
      dropWhile_of_ahead (ahead_of_imp endsStatement_of_isSeparator tailGoesOn)
    rw [List.append_assoc, List.cons_append]
    refine ⟨statement :: located, by simp [bare, locatedBare], ?_, goesOn⟩
    apply Reads.moreStatements (ahead_of_imp closes.endsStatement goesOn) reads rfl
    rw [begins]
    exact tailReads

/-- The printed block is read as that block, up to the word that closes it. -/
def PrintsBlock (block : Expr Unit) : Prop :=
  ∀ (closing : Kind → Bool) (front after : List Token), Closes closing →
    kindsOf front = block.tokens .block → ahead closing after = true →
    ∃ located : Located, located.bare = block ∧
      Reads (.statements closing located) (front ++ after) after ∧
      ahead (·.isSeparator) (front ++ after) = true

theorem reads_collected {closing : Kind → Bool} {elements : List Located}
    (before : List Token) {middle after : List Token} {statements : List (Expr Unit)}
    (skipped : before.dropWhile (·.kind.isSeparator) = middle) (present : middle ≠ [])
    (reads : Reads (.statementList closing elements) middle after)
    (bare : elements.map (·.bare) = statements) :
    ∃ located : Located, located.bare = .list statements () ∧
      Reads (.statements closing located) before after := by
  obtain ⟨next, rest, rfl⟩ := List.exists_cons_of_ne_nil present
  refine ⟨.list elements (spanOf elements next.span), ?_, .statements skipped reads⟩
  rw [← bare]
  exact congrArg (Expr.list · ()) (Expr.mapAllNotes_eq_map _ elements)

theorem ne_nil_of_ahead {wanted : Kind → Bool} {tokens : List Token}
    (present : ahead wanted tokens = true) : tokens ≠ [] := by
  rintro rfl
  cases present

theorem ne_nil_append {front after : List Token} (present : after ≠ []) : front ++ after ≠ [] := by
  intro empty
  exact present (List.append_eq_nil_iff.mp empty).2

theorem prints_block {statements : List (Expr Unit)}
    (prints : ∀ statement ∈ statements, PrintsStatement statement) :
    PrintsBlock (.list statements ()) := by
  intro closing front after closes same closed
  have stays : after.dropWhile (·.kind.isSeparator) = after := by
    cases after with
    | nil => rfl
    | cons token rest => exact dropWhile_of_ahead (closes _ closed).2
  have ended : ahead (endsList closing) after = true := by
    apply ahead_mono (fun kind closed => ?_) closed
    cases kind <;> first | rfl | exact closed
  simp only [Expr.tokens, if_true, List.cons_append] at same
  obtain ⟨lineSpan, rest, rfl, restSame⟩ := of_kindsOf_cons same
  cases statements with
  | nil =>
    obtain rfl := of_kindsOf_nil restSame
    obtain ⟨located, bare, reads⟩ :=
      reads_collected (⟨.newline, lineSpan⟩ :: after) stays (ne_nil_of_ahead closed)
        (.noStatements ended) rfl
    exact ⟨located, bare, reads, rfl⟩
  | cons first others =>
    obtain ⟨inner, last, rfl, innerSame, lastSame⟩ := of_kindsOf_append restSame
    obtain ⟨endSpan, ending, rfl, endingSame⟩ := of_kindsOf_cons lastSame
    obtain rfl := of_kindsOf_nil endingSame
    have closedBehind :
        ahead (endsList closing) ((⟨.newline, endSpan⟩ :: after).dropWhile (·.kind.isSeparator)) =
          true := by
      rw [← stays] at ended
      exact ended
    obtain ⟨elements, elementsBare, listed, goesOn⟩ :=
      reads_printedStatements closes first others prints innerSame rfl closedBehind
    have begins : (⟨.newline, lineSpan⟩ :: (inner ++ ⟨.newline, endSpan⟩ :: after)).dropWhile
        (·.kind.isSeparator) = inner ++ ⟨.newline, endSpan⟩ :: after :=
      dropWhile_of_ahead (ahead_of_imp endsStatement_of_isSeparator goesOn)
    have behind : (⟨.newline, endSpan⟩ :: after).dropWhile (·.kind.isSeparator) = after := stays
    rw [behind] at listed
    obtain ⟨located, bare, reads⟩ :=
      reads_collected (⟨.newline, lineSpan⟩ :: (inner ++ ⟨.newline, endSpan⟩ :: after)) begins
        (ne_nil_append (List.cons_ne_nil _ _)) listed elementsBare
    rw [List.cons_append, List.append_assoc]
    exact ⟨located, bare, reads, rfl⟩

/-- The printed program is read as that program. -/
theorem reads_program {statements : List (Expr Unit)}
    (prints : ∀ statement ∈ statements, PrintsStatement statement) {front : List Token}
    {endSpan : Span} (same : kindsOf front = (Expr.list statements ()).programTokens) :
    ∃ located : Located, located.bare = .list statements () ∧
      Reads (.statements (fun _ => false) located) (front ++ [⟨.endOfInput, endSpan⟩])
        [⟨.endOfInput, endSpan⟩] := by
  cases statements with
  | nil =>
    obtain rfl := of_kindsOf_nil same
    exact reads_collected [⟨.endOfInput, endSpan⟩] rfl (List.cons_ne_nil _ _) (.noStatements rfl)
      rfl
  | cons first others =>
    obtain ⟨elements, elementsBare, listed, goesOn⟩ :=
      @reads_printedStatements _ closes_program first others prints front
        [⟨.endOfInput, endSpan⟩] same
        rfl rfl
    have begins := dropWhile_of_ahead (ahead_of_imp endsStatement_of_isSeparator goesOn)
    exact reads_collected _ begins (ne_nil_append (List.cons_ne_nil _ _)) listed elementsBare

/-! ## Bodies -/

/-- The printed body of a construct is read as that body: a block up to the word that closes it,
and a statement up to something that does not belong to it. -/
def PrintsBody (block : Bool) (body : Expr Unit) : Prop :=
  ∀ (closing : Kind → Bool) (front after : List Token), Closes closing →
    kindsOf front = body.tokens (.body block) → Free after →
    (block = true → ahead closing after = true) →
    ∃ located : Located, located.bare = body ∧
      Reads (.body closing located block) (front ++ after) after

theorem PrintsBlock.body {body : Expr Unit} (prints : PrintsBlock body) : PrintsBody true body := by
  intro closing front after closes same _ closed
  obtain ⟨located, bare, reads, newLine⟩ := prints closing front after closes same (closed rfl)
  exact ⟨located, bare, .block newLine reads⟩

theorem PrintsLine.body {body : Expr Unit} (prints : PrintsLine body) : PrintsBody false body := by
  intro closing front after _ same free _
  obtain ⟨located, bare, reads, goesOn⟩ := prints front after same free
  exact ⟨located, bare, .single (ahead_of_imp endsStatement_of_isSeparator goesOn) reads⟩

/-- A construct ends behind its body, with a word of its own if the body is a block. -/
theorem PrintsBody.ended {block : Bool} {body : Expr Unit} (prints : PrintsBody block body)
    {closing : Kind → Bool} (closes : Closes closing) (word : closing (.keyword .endWord) = true)
    {front after : List Token} (same : kindsOf front = body.tokens (.body block) ++ endTokens block)
    (free : Free after) :
    ∃ (located : Located) (middle : List Token) (stop : Span), located.bare = body ∧
      Reads (.body closing located block) (front ++ after) middle ∧
      Reads (.ending located block stop) middle after ∧
      (middle = after ∨ ∃ span, middle = ⟨.keyword .endWord, span⟩ :: after) := by
  obtain ⟨inner, last, rfl, innerSame, lastSame⟩ := of_kindsOf_append same
  rw [List.append_assoc]
  cases block with
  | true =>
    obtain ⟨endSpan, ending, rfl, endingSame⟩ := of_kindsOf_cons lastSame
    obtain rfl := of_kindsOf_nil endingSame
    obtain ⟨located, bare, reads⟩ :=
      prints closing inner (⟨.keyword .endWord, endSpan⟩ :: after) closes innerSame
        (free_of_pull (.keyword .endWord) rfl) (fun _ => word)
    exact ⟨located, _, endSpan, bare, reads, .endOfBlock, .inr ⟨endSpan, rfl⟩⟩
  | false =>
    obtain rfl := of_kindsOf_nil lastSame
    obtain ⟨located, bare, reads⟩ := prints closing inner after closes innerSame free (by simp)
    exact ⟨located, after, located.note, bare, reads, .endOfLine, .inl rfl⟩

/-! ## Assignments -/

theorem prints_assign (name : String) {value : Expr Unit} (prints : Prints value) :
    Prints (.assign name value ()) := by
  apply prints_of_open
  intro front after same free
  simp only [Expr.tokens, Place.rank_statement, enclose_zero] at same
  obtain ⟨nameSpan, rest, rfl, restSame⟩ := of_kindsOf_cons same
  obtain ⟨signSpan, valueFront, rfl, valueSame⟩ := of_kindsOf_cons restSame
  have stops := free_of_pullAhead (Nat.le_zero.mp free)
  obtain ⟨located, bare, reads, -⟩ := prints.expression valueSame stops
  refine ⟨.assign name located (nameSpan.through located.note), ?_, Nat.le_add_left _ _, rfl,
    fun positive => absurd positive (Nat.lt_irrefl 0), .assignment reads⟩
  exact congrArg (Expr.assign name · ()) bare

theorem prints_assignMember (object name : String) {value : Expr Unit} (prints : Prints value) :
    Prints (.assignMember object name value ()) := by
  apply prints_of_open
  intro front after same free
  simp only [Expr.tokens, Place.rank_statement, enclose_zero] at same
  obtain ⟨objectSpan, rest, rfl, restSame⟩ := of_kindsOf_cons same
  obtain ⟨dotSpan, named, rfl, namedSame⟩ := of_kindsOf_cons restSame
  obtain ⟨nameSpan, assigned, rfl, assignedSame⟩ := of_kindsOf_cons namedSame
  obtain ⟨signSpan, valueFront, rfl, valueSame⟩ := of_kindsOf_cons assignedSame
  have stops := free_of_pullAhead (Nat.le_zero.mp free)
  obtain ⟨located, bare, reads, -⟩ := prints.expression valueSame stops
  have atom := Reads.named (@Reads.memberAssignment object name objectSpan dotSpan nameSpan signSpan
    located _ after reads)
  refine ⟨.assignMember object name located (objectSpan.through located.note), ?_,
    @Placed.zero Rank.atom _ _ _ ⟨Nat.le_refl _, rfl, fun _ => rfl, atom⟩ (Nat.le_refl _)
      (Nat.le_zero.mp free)⟩
  exact congrArg (Expr.assignMember object name · ()) bare

/-! ## Loops -/

theorem placed_of_word {word : Keyword} {span : Span} {expr : Located} {rest after : List Token}
    (opens : opening (.keyword word) = Rank.atom)
    (reads : Reads (.atom expr) (⟨.keyword word, span⟩ :: rest) after) :
    Placed Rank.atom expr (⟨.keyword word, span⟩ :: rest) after :=
  ⟨Nat.le_of_eq opens.symm, rfl, fun _ => rfl, reads⟩

theorem prints_whileLoop {condition body : Expr Unit} {block : Bool}
    (printsCondition : Prints condition) (printsBody : PrintsBody block body) :
    Prints (.whileLoop condition body block ()) := by
  apply prints_of_open
  intro front after same free
  simp only [Expr.tokens, Place.rank_statement, enclose_zero, List.append_assoc,
    List.cons_append] at same
  obtain ⟨wordSpan, rest, rfl, restSame⟩ := of_kindsOf_cons same
  obtain ⟨conditionFront, more, rfl, conditionSame, moreSame⟩ := of_kindsOf_append restSame
  obtain ⟨thenSpan, bodyFront, rfl, bodySame⟩ := of_kindsOf_cons moreSame
  have none := Nat.le_zero.mp free
  obtain ⟨repeated, middle, stop, bodyBare, bodyReads, ended, -⟩ :=
    printsBody.ended closes_block rfl bodySame (free_of_pullAhead none)
  obtain ⟨located, bare, reads, -⟩ :=
    printsCondition.expression conditionSame (free_of_pull (.keyword .thenWord) rfl)
  rw [List.cons_append, List.append_assoc]
  have loop : Reads (.atom (.whileLoop located repeated block (wordSpan.through stop))) _ after :=
    .whileLoop reads bodyReads ended
  refine ⟨.whileLoop located repeated block (wordSpan.through stop), ?_,
    (placed_of_word rfl loop).zero (Nat.le_refl _) none⟩
  rw [← bare, ← bodyBare]
  rfl

/-- The tokens of the steps of a loop that counts. -/
def stepTokens : Option (Expr Unit) → List Kind
  | none => []
  | some step => .keyword .stepWord :: step.tokens (.operand Rank.connection)

theorem tokens_forLoop (counter : String) (start stop : Expr Unit) (step : Option (Expr Unit))
    (body : Expr Unit) (block : Bool) :
    (Expr.forLoop counter start stop step body block ()).tokens .statement =
      .keyword .forWord :: .identifier counter :: .mark .assign ::
        (start.tokens (.operand Rank.connection) ++ .keyword .toWord ::
          (stop.tokens (.operand Rank.connection) ++
            (stepTokens step ++ .keyword .thenWord ::
              (body.tokens (.body block) ++ endTokens block)))) := by
  cases step <;> simp [Expr.tokens, stepTokens]

theorem reads_printedStep {step : Option (Expr Unit)} (prints : ∀ expr ∈ step, Prints expr)
    {front after : List Token} {thenSpan : Span} (same : kindsOf front = stepTokens step) :
    ∃ located : Option Located, located.map (·.bare) = step ∧
      Reads (.step located) (front ++ ⟨.keyword .thenWord, thenSpan⟩ :: after)
        (⟨.keyword .thenWord, thenSpan⟩ :: after) ∧
      Free (front ++ ⟨.keyword .thenWord, thenSpan⟩ :: after) := by
  cases step with
  | none =>
    obtain rfl := of_kindsOf_nil same
    exact ⟨none, rfl, .stepNone rfl, free_of_pull (.keyword .thenWord) rfl⟩
  | some step =>
    obtain ⟨wordSpan, rest, rfl, restSame⟩ := of_kindsOf_cons same
    obtain ⟨located, bare, reads, -⟩ :=
      (prints step rfl).expression restSame (free_of_pull (.keyword .thenWord) rfl)
    exact ⟨some located, congrArg some bare, .stepSome reads,
      free_of_pull (.keyword .stepWord) rfl⟩

theorem bare_forLoop (counter : String) (start stop : Located) (step : Option Located)
    (body : Located) (block : Bool) (span : Span) :
    Expr.bare (.forLoop counter start stop step body block span) =
      .forLoop counter start.bare stop.bare (step.map (·.bare)) body.bare block () :=
  Expr.mapNotes_forLoop _ counter start stop step body block span

theorem prints_forLoop (counter : String) {start stop body : Expr Unit}
    {step : Option (Expr Unit)} {block : Bool} (printsStart : Prints start)
    (printsStop : Prints stop) (printsStep : ∀ expr ∈ step, Prints expr)
    (printsBody : PrintsBody block body) :
    Prints (.forLoop counter start stop step body block ()) := by
  apply prints_of_open
  intro front after same free
  rw [tokens_forLoop] at same
  obtain ⟨wordSpan, named, rfl, namedSame⟩ := of_kindsOf_cons same
  obtain ⟨nameSpan, signed, rfl, signedSame⟩ := of_kindsOf_cons namedSame
  obtain ⟨signSpan, rest, rfl, restSame⟩ := of_kindsOf_cons signedSame
  obtain ⟨startFront, toRest, rfl, startSame, toSame⟩ := of_kindsOf_append restSame
  obtain ⟨toSpan, stopRest, rfl, stopRestSame⟩ := of_kindsOf_cons toSame
  obtain ⟨stopFront, stepRest, rfl, stopSame, stepRestSame⟩ := of_kindsOf_append stopRestSame
  obtain ⟨stepFront, thenRest, rfl, stepSame, thenSame⟩ := of_kindsOf_append stepRestSame
  obtain ⟨thenSpan, bodyFront, rfl, bodySame⟩ := of_kindsOf_cons thenSame
  have none := Nat.le_zero.mp free
  obtain ⟨repeated, middle, last, bodyBare, bodyReads, ended, -⟩ :=
    printsBody.ended closes_block rfl bodySame (free_of_pullAhead none)
  obtain ⟨stepRead, stepBare, stepReads, stepFree⟩ :=
    @reads_printedStep _ printsStep _ (bodyFront ++ after) thenSpan stepSame
  obtain ⟨stopRead, stopBare, stopReads, -⟩ := printsStop.expression stopSame stepFree
  obtain ⟨startRead, startBare, startReads, -⟩ :=
    printsStart.expression startSame (free_of_pull (.keyword .toWord) rfl)
  have loop : Reads (.atom (.forLoop counter startRead stopRead stepRead repeated block
      (wordSpan.through last))) _ after :=
    @Reads.forLoop wordSpan nameSpan signSpan toSpan thenSpan _ _ _ _ _ _ _ _ _ _ _ _ _ startReads
      stopReads stepReads bodyReads ended
  simp only [List.cons_append, List.append_assoc]
  refine ⟨_, ?_, (placed_of_word rfl loop).zero (Nat.le_refl _) none⟩
  rw [bare_forLoop, startBare, stopBare, stepBare, bodyBare]

/-! ## Definitions -/

theorem reads_functionNamed (name : Option String) {front after : List Token} {openSpan : Span}
    (same : kindsOf front = (name.map Kind.identifier).toList) :
    Reads (.functionName name) (front ++ ⟨.mark .openParen, openSpan⟩ :: after)
      (⟨.mark .openParen, openSpan⟩ :: after) := by
  cases name with
  | none =>
    obtain rfl := of_kindsOf_nil same
    exact .noName (List.cons_ne_nil _ _) rfl
  | some name =>
    obtain ⟨nameSpan, ending, rfl, endingSame⟩ := of_kindsOf_cons same
    obtain rfl := of_kindsOf_nil endingSame
    exact .name

/-- Printed parameters are read as these parameters. -/
theorem reads_printedParameters (names : List String) {front after : List Token} {closeSpan : Span}
    (same : kindsOf front = nameTokens names) :
    Reads (.parameters names ⟨.mark .closeParen, closeSpan⟩)
      (front ++ ⟨.mark .closeParen, closeSpan⟩ :: after) after := by
  cases names with
  | nil =>
    obtain rfl := of_kindsOf_nil same
    exact .noParameters
  | cons first others =>
    apply Reads.parameters
    induction others generalizing first front with
    | nil =>
      obtain ⟨nameSpan, ending, rfl, endingSame⟩ := of_kindsOf_cons same
      obtain rfl := of_kindsOf_nil endingSame
      exact .lastName
    | cons second others ih =>
      obtain ⟨nameSpan, rest, rfl, restSame⟩ := of_kindsOf_cons same
      obtain ⟨commaSpan, tail, rfl, tailSame⟩ := of_kindsOf_cons restSame
      exact .moreNames (ih second tailSame)

theorem prints_function (name : Option String) (parameters : List String) {body : Expr Unit}
    {valued : Bool} (printsValue : valued = true → Prints body)
    (printsBlock : valued = false → PrintsBlock body) :
    Prints (.function name parameters body valued ()) := by
  apply prints_of_open
  intro front after same free
  simp only [Expr.tokens, Place.rank_statement, enclose_zero, List.append_assoc,
    List.cons_append] at same
  obtain ⟨wordSpan, header, rfl, headerSame⟩ := of_kindsOf_cons same
  obtain ⟨nameFront, listRest, rfl, nameSame, listRestSame⟩ := of_kindsOf_append headerSame
  obtain ⟨openSpan, listed, rfl, listedSame⟩ := of_kindsOf_cons listRestSame
  obtain ⟨names, closeRest, rfl, namesSame, closeSame⟩ := of_kindsOf_append listedSame
  obtain ⟨closeSpan, bodyRest, rfl, bodyRestSame⟩ := of_kindsOf_cons closeSame
  have none := Nat.le_zero.mp free
  have called (rest : List Token) := @reads_functionNamed name nameFront rest openSpan nameSame
  have passed (rest : List Token) :=
    @reads_printedParameters parameters names rest closeSpan namesSame
  simp only [List.cons_append, List.append_assoc]
  cases valued with
  | true =>
    obtain ⟨arrowSpan, valueFront, rfl, valueSame⟩ := of_kindsOf_cons bodyRestSame
    obtain ⟨value, bare, reads, -⟩ :=
      (printsValue rfl).expression valueSame (free_of_pullAhead none)
    have function : Reads (.atom (.function name parameters value true
        (wordSpan.through value.note))) _ after :=
      @Reads.functionOf wordSpan openSpan arrowSpan _ _ _ _ _ _ _ _ (called _) (passed _) reads
    refine ⟨_, ?_, (placed_of_word rfl function).zero (Nat.le_refl _) none⟩
    exact congrArg (Expr.function name parameters · true ()) bare
  | false =>
    obtain ⟨blockFront, endRest, rfl, blockSame, endSame⟩ := of_kindsOf_append bodyRestSame
    obtain ⟨endSpan, ending, rfl, endingSame⟩ := of_kindsOf_cons endSame
    obtain rfl := of_kindsOf_nil endingSame
    obtain ⟨block, bare, reads, newLine⟩ :=
      printsBlock rfl closesBlock blockFront (⟨.keyword .endWord, endSpan⟩ :: after) closes_block
        blockSame rfl
    have function : Reads (.atom (.function name parameters block false
        (wordSpan.through endSpan))) _ after :=
      .functionBlock (called _) (passed _) newLine reads
    simp only [List.append_assoc, List.cons_append, List.nil_append]
    refine ⟨_, ?_, (placed_of_word rfl function).zero (Nat.le_refl _) none⟩
    exact congrArg (Expr.function name parameters · false ()) bare

theorem prints_template (name : String) {block : Expr Unit} (prints : PrintsBlock block) :
    Prints (.template name block ()) := by
  apply prints_of_open
  intro front after same _
  simp only [Expr.tokens, List.cons_append] at same
  obtain ⟨wordSpan, named, rfl, namedSame⟩ := of_kindsOf_cons same
  obtain ⟨nameSpan, rest, rfl, restSame⟩ := of_kindsOf_cons namedSame
  obtain ⟨blockFront, endRest, rfl, blockSame, endSame⟩ := of_kindsOf_append restSame
  obtain ⟨endSpan, ending, rfl, endingSame⟩ := of_kindsOf_cons endSame
  obtain rfl := of_kindsOf_nil endingSame
  obtain ⟨located, bare, reads, newLine⟩ :=
    prints closesBlock blockFront (⟨.keyword .endWord, endSpan⟩ :: after) closes_block blockSame rfl
  have template : Reads (.atom (.template name located (wordSpan.through endSpan))) _ after :=
    @Reads.template wordSpan nameSpan endSpan name located _ after newLine reads
  simp only [List.append_assoc, List.cons_append, List.nil_append]
  refine ⟨_, ?_, placed_of_word rfl template⟩
  exact congrArg (Expr.template name · ()) bare

/-! ## Choices -/

/-- The printed alternatives are read as these alternatives. -/
def PrintsBranches (branches : Branches Unit) : Prop :=
  ∀ front after : List Token, kindsOf front = branches.tokens → pullAhead after = 0 →
    ∃ (located : Branches Span) (stop : Span), located.mapNotes (fun _ => ()) = branches ∧
      Reads (.branches located stop) (front ++ after) after

theorem prints_choice {branches : Branches Unit} (prints : PrintsBranches branches) :
    Prints (.choice branches ()) := by
  apply prints_of_open
  intro front after same free
  simp only [Expr.tokens, Place.rank_statement, enclose_zero] at same
  obtain ⟨wordSpan, rest, rfl, restSame⟩ := of_kindsOf_cons same
  have none := Nat.le_zero.mp free
  obtain ⟨located, stop, bare, reads⟩ := prints rest after restSame none
  have choice : Reads (.atom (.choice located (wordSpan.through stop))) _ after := .choice reads
  refine ⟨_, ?_, (placed_of_word rfl choice).zero (Nat.le_refl _) none⟩
  exact congrArg (Expr.choice · ()) bare

/-- What an alternative with a condition begins with. -/
theorem reads_printedCondition {condition : Expr Unit} (prints : Prints condition)
    {front after : List Token} {kinds : List Kind}
    (same : kindsOf front =
      condition.tokens (.operand Rank.connection) ++ .keyword .thenWord :: kinds) :
    ∃ (located : Located) (rest : List Token) (thenSpan : Span), located.bare = condition ∧
      kindsOf rest = kinds ∧
      Reads (.expression located) (front ++ after)
        (⟨.keyword .thenWord, thenSpan⟩ :: (rest ++ after)) := by
  obtain ⟨conditionFront, thenRest, rfl, conditionSame, thenSame⟩ := of_kindsOf_append same
  obtain ⟨thenSpan, rest, rfl, restSame⟩ := of_kindsOf_cons thenSame
  obtain ⟨located, bare, reads, -⟩ :=
    prints.expression conditionSame (free_of_pull (.keyword .thenWord) rfl)
  rw [List.append_assoc, List.cons_append]
  exact ⟨located, rest, thenSpan, bare, restSame, reads⟩

/-- Behind the last alternative no other one begins. -/
theorem no_branch {middle after : List Token} (none : pullAhead after = 0)
    (last : middle = after ∨ ∃ span, middle = ⟨.keyword .endWord, span⟩ :: after) :
    middle ≠ [] ∧ ahead (·.isKeyword .elifWord) middle = false ∧
      ahead (·.isKeyword .elseWord) middle = false := by
  rcases last with rfl | ⟨span, rfl⟩
  · have noElif := @no_keyword middle .elifWord 0 (by decide) (Nat.le_of_eq none)
    have noElse := @no_keyword middle .elseWord 0 (by decide) (Nat.le_of_eq none)
    refine ⟨?_, noElif, noElse⟩
    rintro rfl
    cases none
  · exact ⟨List.cons_ne_nil _ _, rfl, rfl⟩

theorem prints_lastBranch {condition body : Expr Unit} {block : Bool}
    (printsCondition : Prints condition) (printsBody : PrintsBody block body) :
    PrintsBranches (.orElse condition body block .done) := by
  intro front after same none
  simp only [Branches.tokens, List.append_assoc, List.cons_append] at same
  obtain ⟨conditionRead, bodyFront, thenSpan, conditionBare, bodySame, conditional⟩ :=
    @reads_printedCondition _ printsCondition front after _ same
  obtain ⟨chosen, middle, stop, bodyBare, bodyReads, ended, last⟩ :=
    printsBody.ended closes_branch rfl bodySame (free_of_pullAhead none)
  obtain ⟨present, noElif, noElse⟩ := no_branch none last
  refine ⟨.orElse conditionRead chosen block .done, stop, ?_,
    .lastBranch conditional bodyReads present noElif noElse ended⟩
  rw [← conditionBare, ← bodyBare]
  rfl

theorem prints_otherwise {condition body other : Expr Unit} {block otherBlock : Bool}
    (printsCondition : Prints condition) (printsBody : PrintsBody block body)
    (printsOther : PrintsBody otherBlock other) :
    PrintsBranches (.orElse condition body block (.otherwise other otherBlock)) := by
  intro front after same none
  simp only [Branches.tokens, List.append_assoc, List.cons_append] at same
  obtain ⟨conditionRead, rest, thenSpan, conditionBare, restSame, conditional⟩ :=
    @reads_printedCondition _ printsCondition front after _ same
  obtain ⟨bodyFront, elseRest, rfl, bodySame, elseSame⟩ := of_kindsOf_append restSame
  obtain ⟨elseSpan, otherFront, rfl, otherSame⟩ := of_kindsOf_cons elseSame
  obtain ⟨alternative, middle, stop, otherBare, otherReads, ended, -⟩ :=
    printsOther.ended closes_block rfl otherSame (free_of_pullAhead none)
  obtain ⟨chosen, bodyBare, bodyReads⟩ :=
    printsBody closesBranch bodyFront (⟨.keyword .elseWord, elseSpan⟩ :: (otherFront ++ after))
      closes_branch bodySame ⟨Nat.le_refl _, rfl⟩ (fun _ => rfl)
  rw [List.append_assoc, List.cons_append] at conditional
  refine ⟨.orElse conditionRead chosen block (.otherwise alternative otherBlock), stop, ?_,
    .otherwise conditional bodyReads otherReads ended⟩
  rw [← conditionBare, ← bodyBare, ← otherBare]
  rfl

theorem prints_elif {condition body nextCondition nextBody : Expr Unit} {block nextBlock : Bool}
    {others : Branches Unit} (printsCondition : Prints condition)
    (printsBody : PrintsBody block body)
    (printsRest : PrintsBranches (.orElse nextCondition nextBody nextBlock others)) :
    PrintsBranches
      (.orElse condition body block (.orElse nextCondition nextBody nextBlock others)) := by
  intro front after same none
  simp only [Branches.tokens, List.append_assoc, List.cons_append] at same
  obtain ⟨conditionRead, rest, thenSpan, conditionBare, restSame, conditional⟩ :=
    @reads_printedCondition _ printsCondition front after _ same
  obtain ⟨bodyFront, elifRest, rfl, bodySame, elifSame⟩ := of_kindsOf_append restSame
  obtain ⟨elifSpan, moreFront, rfl, moreSame⟩ := of_kindsOf_cons elifSame
  obtain ⟨more, stop, moreBare, moreReads⟩ := printsRest moreFront after moreSame none
  obtain ⟨chosen, bodyBare, bodyReads⟩ :=
    printsBody closesBranch bodyFront (⟨.keyword .elifWord, elifSpan⟩ :: (moreFront ++ after))
      closes_branch bodySame ⟨Nat.le_refl _, rfl⟩ (fun _ => rfl)
  rw [List.append_assoc, List.cons_append] at conditional
  refine ⟨.orElse conditionRead chosen block more, stop, ?_, .elif conditional bodyReads moreReads⟩
  rw [← conditionBare, ← bodyBare, ← moreBare]
  rfl

end Quill.Grammar
