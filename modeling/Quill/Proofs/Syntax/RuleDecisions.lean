import Quill.Proofs.Syntax.Decisions

/-!
# What the rules of the grammar decide on

All rules decide by the kinds of the tokens up to the one they stop in front of. The rules for one
more token are built from those for fewer, so this is an induction on the bound. Assignments are the
only place where two tokens are looked at, which does no harm: an expression that begins with a name
takes that name, and nothing is wrong with it yet.
-/

namespace Quill.Grammar

open Quill.Token Quill.Parser

variable {bound otherBound : Nat} {rules otherRules : Rules}

/-- The parsers of all rules decide alike. -/
def DecideAlike (bound otherBound : Nat) (rules otherRules : Rules) : Prop :=
  ∀ rule, Decides 1 bound otherBound unseen (rules rule) (otherRules rule)

/-! ## Enumerations -/

theorem decides_items {Item : Type} {item otherItem : Parser Item} (closing : Mark)
    (decides : Decides 1 bound otherBound unseen item otherItem) :
    Decides 1 bound otherBound unseen (items item closing bound)
      (items otherItem closing otherBound) := by
  refine Decides.rounds (fun rounds (_ : Unit) => items item closing rounds)
    (fun rounds _ => items otherItem closing rounds) (fun _ _ _ _ read => by cases read)
    (fun _ _ failed => by cases failed; rfl) ?_ ()
  intro rounds otherRounds small within short otherWithin more _
  refine Decides.bind decides within otherWithin (Nat.le_refl 1) fun _ _ _ => ?_
  refine .next (fun kind => ?_) (Nat.zero_le _)
  cases comma : kind.isMark .comma with
  | true =>
    refine .goes ?_
    rintro token again rfl same
    simp only [same, comma, if_true]
    exact (more ()).bind (by omega) (by omega) (Nat.zero_le _) fun ⟨_, _⟩ ⟨_, _⟩ _ => .pure rfl
  | false =>
    cases closes : kind.isMark closing with
    | true =>
      refine .goes ?_
      rintro token again rfl same
      simp only [same, comma, closes, if_true, Bool.false_eq_true, if_false]
      exact .pure rfl
    | false =>
      refine .blames (.expected (.commaOr closing)) (by simp) ?_ ?_
      · rintro token rfl
        simp only [comma, closes, Bool.false_eq_true, if_false]
      · rintro token rfl
        simp only [comma, closes, Bool.false_eq_true, if_false]

theorem decides_enumeration {Item : Type} {item otherItem : Parser Item} (closing : Mark)
    (decides : Decides 1 bound otherBound unseen item otherItem) :
    Decides 1 bound otherBound unseen (enumeration bound item closing)
      (enumeration otherBound otherItem closing) :=
  .take? (Nat.le_refl 1) (fun _ _ _ _ => .pure rfl) (decides_items closing decides)

/-! ## Statements -/

theorem decides_statement (decides : DecideAlike bound otherBound rules otherRules) :
    Decides 1 bound otherBound unseen (statement rules) (statement otherRules) := by
  refine .peek fun kind => .goes ?_
  cases kind with
  | keyword word =>
    cases word with
    | returnWord =>
      rintro ⟨_, _⟩ ⟨_, _⟩ rfl rfl
      refine .next (fun _ => .goes fun _ _ _ _ => ?_) (Nat.le_refl 1)
      refine .peek fun kind => .goes ?_
      rintro token again rfl same
      simp only [same]
      split
      · exact .pure rfl
      · exact (decides .expression).bind (Nat.sub_le _ _) (Nat.sub_le _ _) (Nat.zero_le _)
          fun _ _ _ => .pure rfl
    | continueWord | breakWord =>
      rintro ⟨_, _⟩ ⟨_, _⟩ rfl rfl
      exact .next (fun _ => .goes fun _ _ _ _ => .pure rfl) (Nat.le_refl 1)
    | _ =>
      rintro ⟨_, _⟩ ⟨_, _⟩ rfl rfl
      exact decides .expression
  | _ =>
    rintro ⟨_, _⟩ ⟨_, _⟩ rfl rfl
    exact decides .expression

theorem decides_statementList (closing : Kind → Bool)
    (decides : DecideAlike bound otherBound rules otherRules) :
    Decides 0 bound otherBound unseen (statementList rules closing bound)
      (statementList otherRules closing otherBound) := by
  refine Decides.rounds (fun rounds (_ : Unit) => statementList rules closing rounds)
    (fun rounds _ => statementList otherRules closing rounds) (fun _ _ _ _ read => by cases read)
    (fun _ _ failed => by cases failed; rfl) ?_ ()
  intro rounds otherRounds small within short otherWithin more _
  refine .peek fun kind => .goes ?_
  rintro token again rfl same
  simp only [same]
  split
  · exact .pure rfl
  refine (decides_statement decides).bind within otherWithin (Nat.zero_le _) fun _ _ _ => ?_
  refine decides_separators.bind (Nat.le_refl _) (Nat.le_refl _) (Nat.le_refl _) ?_
  rintro separated _ rfl
  simp only [id]
  split
  · exact (more ()).bind (by omega) (by omega) (Nat.zero_le _) fun _ _ _ => .pure rfl
  · exact .pure rfl

theorem decides_statements (closing : Kind → Bool)
    (decides : DecideAlike bound otherBound rules otherRules) :
    Decides 0 bound otherBound unseen (statements bound rules closing)
      (statements otherBound otherRules closing) := by
  refine decides_separators.bind (Nat.le_refl _) (Nat.le_refl _) (Nat.le_refl _) fun _ _ _ => ?_
  refine .peek fun kind => .goes fun _ _ _ _ => ?_
  exact (decides_statementList closing decides).bind (Nat.le_refl _) (Nat.le_refl _)
    (Nat.le_refl _) fun _ _ _ => .pure rfl

/-- Whether a body is a block is all that matters of it. -/
theorem decides_body (closing : Kind → Bool)
    (decides : DecideAlike bound otherBound rules otherRules) :
    Decides 0 bound otherBound Prod.snd (body bound rules closing)
      (body otherBound otherRules closing) := by
  refine decides_atSeparator.bind (Nat.le_refl _) (Nat.le_refl _) (Nat.le_refl _) ?_
  rintro separated _ rfl
  simp only [id]
  split
  · exact (decides_statements closing decides).bind (Nat.le_refl _) (Nat.le_refl _)
      (Nat.le_refl _) fun _ _ _ => .pure rfl
  · exact (decides_statement decides).bind (Nat.le_refl _) (Nat.le_refl _)
      (Nat.zero_le _) fun _ _ _ => .pure rfl

theorem decides_closingSpan (body otherBody : Located) (block : Bool) :
    Decides 0 bound otherBound unseen (closingSpan body block) (closingSpan otherBody block) := by
  cases block with
  | true =>
    exact (decides_keyword .endWord).bind (Nat.le_refl _) (Nat.le_refl _) (Nat.zero_le _)
      fun _ _ _ => .pure rfl
  | false => exact .pure rfl

/-! ## Constructs -/

theorem decides_branches (decides : DecideAlike bound otherBound rules otherRules) :
    Decides 1 bound otherBound unseen (branches bound rules bound)
      (branches otherBound otherRules otherBound) := by
  refine Decides.rounds (fun rounds (_ : Unit) => branches bound rules rounds)
    (fun rounds _ => branches otherBound otherRules rounds) (fun _ _ _ _ read => by cases read)
    (fun _ _ failed => by cases failed; rfl) ?_ ()
  intro rounds otherRounds small within short otherWithin more _
  refine (decides .expression).bind within otherWithin (Nat.le_refl 1) fun _ _ _ => ?_
  refine (decides_keyword .thenWord).bind (Nat.le_refl _) (Nat.le_refl _) (Nat.zero_le _)
    fun _ _ _ => ?_
  refine (decides_body closesBranch decides).bind (by omega) (by omega) (Nat.le_refl _) ?_
  rintro ⟨_, block⟩ ⟨_, _⟩ rfl
  refine .peek fun kind => .goes ?_
  rintro token again rfl same
  simp only [same]
  split
  · refine .next (fun _ => .goes fun _ _ _ _ => ?_) (Nat.zero_le 1)
    exact (more ()).bind (by omega) (by omega) (Nat.zero_le _) fun ⟨_, _⟩ ⟨_, _⟩ _ => .pure rfl
  split
  · refine .next (fun _ => .goes fun _ _ _ _ => ?_) (Nat.zero_le 1)
    refine (decides_body closesBlock decides).bind (by omega) (by omega) (Nat.le_refl _) ?_
    rintro ⟨_, _⟩ ⟨_, _⟩ rfl
    exact (decides_closingSpan _ _ _).bind (Nat.le_refl _) (Nat.le_refl _) (Nat.le_refl _)
      fun _ _ _ => .pure rfl
  · exact (decides_closingSpan _ _ _).bind (Nat.le_refl _) (Nat.le_refl _) (Nat.le_refl _)
      fun _ _ _ => .pure rfl

theorem decides_choice (word otherWord : Token)
    (decides : DecideAlike bound otherBound rules otherRules) :
    Decides 0 bound otherBound unseen (choice bound rules word)
      (choice otherBound otherRules otherWord) :=
  (decides_branches decides).bind (Nat.le_refl _) (Nat.le_refl _) (Nat.zero_le _)
    fun ⟨_, _⟩ ⟨_, _⟩ _ => .pure rfl

theorem decides_loopStep (decides : DecideAlike bound otherBound rules otherRules) :
    Decides 0 bound otherBound unseen (loopStep rules) (loopStep otherRules) :=
  .take? (Nat.zero_le 1) (fun _ _ _ _ =>
    ((decides .expression).map some).mono (Nat.zero_le _) (Nat.sub_le _ _) (Nat.sub_le _ _))
    (.pure rfl)

theorem decides_forLoop (word otherWord : Token)
    (decides : DecideAlike bound otherBound rules otherRules) :
    Decides 0 bound otherBound unseen (forLoop bound rules word)
      (forLoop otherBound otherRules otherWord) := by
  refine decides_identifier.bind (Nat.le_refl _) (Nat.le_refl _) (Nat.zero_le _) ?_
  rintro ⟨_, _⟩ ⟨_, _⟩ _
  refine (decides_mark .assign).bind (Nat.le_refl _) (Nat.le_refl _) (Nat.zero_le _)
    fun _ _ _ => ?_
  refine (decides .expression).bind (by omega) (by omega) (Nat.zero_le _) fun _ _ _ => ?_
  refine (decides_keyword .toWord).bind (Nat.le_refl _) (Nat.le_refl _) (Nat.zero_le _)
    fun _ _ _ => ?_
  refine (decides .expression).bind (by omega) (by omega) (Nat.zero_le _) fun _ _ _ => ?_
  refine (decides_loopStep decides).bind (by omega) (by omega) (Nat.le_refl _) fun _ _ _ => ?_
  refine (decides_keyword .thenWord).bind (Nat.le_refl _) (Nat.le_refl _) (Nat.zero_le _)
    fun _ _ _ => ?_
  refine (decides_body closesBlock decides).bind (by omega) (by omega) (Nat.le_refl _) ?_
  rintro ⟨_, _⟩ ⟨_, _⟩ rfl
  exact (decides_closingSpan _ _ _).bind (Nat.le_refl _) (Nat.le_refl _) (Nat.le_refl _)
    fun _ _ _ => .pure rfl

theorem decides_whileLoop (word otherWord : Token)
    (decides : DecideAlike bound otherBound rules otherRules) :
    Decides 0 bound otherBound unseen (whileLoop bound rules word)
      (whileLoop otherBound otherRules otherWord) := by
  refine (decides .expression).bind (Nat.le_refl _) (Nat.le_refl _) (Nat.zero_le _)
    fun _ _ _ => ?_
  refine (decides_keyword .thenWord).bind (Nat.le_refl _) (Nat.le_refl _) (Nat.zero_le _)
    fun _ _ _ => ?_
  refine (decides_body closesBlock decides).bind (by omega) (by omega) (Nat.le_refl _) ?_
  rintro ⟨_, _⟩ ⟨_, _⟩ rfl
  exact (decides_closingSpan _ _ _).bind (Nat.le_refl _) (Nat.le_refl _) (Nat.le_refl _)
    fun _ _ _ => .pure rfl

theorem decides_functionName :
    Decides 0 bound otherBound unseen functionName functionName := by
  refine .peek fun kind => .goes ?_
  cases kind with
  | identifier name =>
    rintro ⟨_, _⟩ ⟨_, _⟩ rfl rfl
    exact .next (fun _ => .goes fun _ _ _ _ => .pure rfl) (Nat.zero_le 1)
  | _ =>
    rintro ⟨_, _⟩ ⟨_, _⟩ rfl rfl
    exact .pure rfl

theorem decides_function (word otherWord : Token)
    (decides : DecideAlike bound otherBound rules otherRules) :
    Decides 0 bound otherBound unseen (function bound rules word)
      (function otherBound otherRules otherWord) := by
  refine decides_functionName.bind (Nat.le_refl _) (Nat.le_refl _) (Nat.le_refl _) fun _ _ _ => ?_
  refine (decides_mark .openParen).bind (Nat.le_refl _) (Nat.le_refl _) (Nat.zero_le _)
    fun _ _ _ => ?_
  refine (decides_enumeration .closeParen (decides_identifier.map Prod.fst)).bind (by omega)
    (by omega) (Nat.zero_le _) ?_
  rintro ⟨_, _⟩ ⟨_, _⟩ _
  refine .take? (Nat.zero_le 1) (fun _ _ _ _ => ?_) ?_
  · exact (decides .expression).bind (by omega) (by omega) (Nat.zero_le _) fun _ _ _ => .pure rfl
  refine decides_atSeparator.bind (Nat.le_refl _) (Nat.le_refl _) (Nat.le_refl _) ?_
  rintro separated _ rfl
  simp only [id]
  split
  · refine (decides_statements closesBlock decides).bind (by omega) (by omega) (Nat.le_refl _)
      fun _ _ _ => ?_
    exact (decides_keyword .endWord).bind (Nat.le_refl _) (Nat.le_refl _) (Nat.zero_le _)
      fun _ _ _ => .pure rfl
  · exact .peek fun kind => .blames (.expected .functionBody) (by simp) (fun _ _ => rfl)
      fun _ _ => rfl

theorem decides_template (word otherWord : Token)
    (decides : DecideAlike bound otherBound rules otherRules) :
    Decides 0 bound otherBound unseen (template bound rules word)
      (template otherBound otherRules otherWord) := by
  refine decides_identifier.bind (Nat.le_refl _) (Nat.le_refl _) (Nat.zero_le _) ?_
  rintro ⟨_, _⟩ ⟨_, _⟩ _
  refine decides_atSeparator.bind (Nat.le_refl _) (Nat.le_refl _) (Nat.le_refl _) ?_
  rintro separated _ rfl
  simp only [id]
  split
  · refine (decides_statements closesBlock decides).bind (by omega) (by omega) (Nat.le_refl _)
      fun _ _ _ => ?_
    exact (decides_keyword .endWord).bind (Nat.le_refl _) (Nat.le_refl _) (Nat.zero_le _)
      fun _ _ _ => .pure rfl
  · exact .peek fun kind => .blames (.expected .newLine) (by simp) (fun _ _ => rfl)
      fun _ _ => rfl

/-! ## Operands -/

theorem decides_named (name otherName : String) (span otherSpan : Span)
    (decides : DecideAlike bound otherBound rules otherRules) :
    Decides 0 bound otherBound unseen (named rules name span)
      (named otherRules otherName otherSpan) := by
  refine .take? (Nat.zero_le 1) (fun _ _ _ _ => ?_) (.pure rfl)
  refine decides_identifier.bind (Nat.le_refl _) (Nat.le_refl _) (Nat.zero_le _) ?_
  rintro ⟨_, _⟩ ⟨_, _⟩ _
  refine .take? (Nat.zero_le 1) (fun _ _ _ _ => ?_) (.pure rfl)
  exact (decides .expression).bind (by omega) (by omega) (Nat.zero_le _) fun _ _ _ => .pure rfl

theorem decides_atom (decides : DecideAlike bound otherBound rules otherRules) :
    Decides 1 (bound + 1) (otherBound + 1) unseen (atom bound rules)
      (atom otherBound otherRules) := by
  refine .next (fun kind => ?_) (Nat.le_refl 1)
  cases kind with
  | int magnitude =>
    by_cases small : magnitude < Lexeme.maxMagnitude
    · refine .goes ?_
      rintro ⟨_, _⟩ ⟨_, _⟩ rfl rfl
      simp only [integer, small, if_true]
      exact .pure rfl
    · refine .blames (.integerTooLarge magnitude) (by simp) ?_ ?_
      · rintro ⟨_, _⟩ rfl
        simp only [integer, small, if_false]
      · rintro ⟨_, _⟩ rfl
        simp only [integer, small, if_false]
  | float _ | str _ =>
    refine .goes ?_
    rintro ⟨_, _⟩ ⟨_, _⟩ rfl rfl
    exact .pure rfl
  | identifier name =>
    refine .goes ?_
    rintro ⟨_, _⟩ ⟨_, _⟩ rfl rfl
    exact decides_named _ _ _ _ decides
  | mark sign =>
    cases sign with
    | openParen =>
      refine .goes ?_
      rintro ⟨_, _⟩ ⟨_, _⟩ rfl rfl
      refine (decides .expression).bind (Nat.le_refl _) (Nat.le_refl _) (Nat.zero_le _)
        fun _ _ _ => ?_
      exact (decides_mark .closeParen).bind (Nat.le_refl _) (Nat.le_refl _) (Nat.zero_le _)
        fun _ _ _ => .pure rfl
    | openBracket =>
      refine .goes ?_
      rintro ⟨_, _⟩ ⟨_, _⟩ rfl rfl
      exact (decides_enumeration .closeBracket (decides .expression)).bind (Nat.le_refl _)
        (Nat.le_refl _) (Nat.zero_le _) fun ⟨_, _⟩ ⟨_, _⟩ _ => .pure rfl
    | _ =>
      exact .blames (.unexpected _) (by simp) (by rintro ⟨_, _⟩ rfl; rfl)
        (by rintro ⟨_, _⟩ rfl; rfl)
  | keyword word =>
    cases word with
    | ifWord =>
      exact .goes (by rintro ⟨_, _⟩ ⟨_, _⟩ rfl rfl; exact decides_choice _ _ decides)
    | forWord =>
      exact .goes (by rintro ⟨_, _⟩ ⟨_, _⟩ rfl rfl; exact decides_forLoop _ _ decides)
    | whileWord =>
      exact .goes (by rintro ⟨_, _⟩ ⟨_, _⟩ rfl rfl; exact decides_whileLoop _ _ decides)
    | funcWord =>
      exact .goes (by rintro ⟨_, _⟩ ⟨_, _⟩ rfl rfl; exact decides_function _ _ decides)
    | objectWord =>
      exact .goes (by rintro ⟨_, _⟩ ⟨_, _⟩ rfl rfl; exact decides_template _ _ decides)
    | newWord =>
      refine .goes ?_
      rintro ⟨_, _⟩ ⟨_, _⟩ rfl rfl
      exact decides_identifier.bind (Nat.le_refl _) (Nat.le_refl _) (Nat.zero_le _)
        fun ⟨_, _⟩ ⟨_, _⟩ _ => .pure rfl
    | _ =>
      exact .blames (.unexpected _) (by simp) (by rintro ⟨_, _⟩ rfl; rfl)
        (by rintro ⟨_, _⟩ rfl; rfl)
  | newline | semicolon =>
    exact .blames (.unexpected _) (by simp) (by rintro ⟨_, _⟩ rfl; rfl)
      (by rintro ⟨_, _⟩ rfl; rfl)
  | endOfInput =>
    exact .blames (.expected .expression) (by simp) (by rintro ⟨_, _⟩ rfl; rfl)
      (by rintro ⟨_, _⟩ rfl; rfl)

theorem decides_calls (callee otherCallee : Located)
    (decides : DecideAlike bound otherBound rules otherRules) :
    Decides 0 bound otherBound unseen (calls bound rules bound callee)
      (calls otherBound otherRules otherBound otherCallee) := by
  refine Decides.rounds (fun rounds (callees : Located × Located) =>
    calls bound rules rounds callees.1) (fun rounds callees =>
    calls otherBound otherRules rounds callees.2) (fun _ _ _ _ read => by cases read)
    (fun _ _ failed => by cases failed) ?_ (callee, otherCallee)
  intro rounds otherRounds small within short otherWithin more callees
  refine .take? (Nat.zero_le 1) (fun _ _ _ _ => ?_) (.pure rfl)
  refine (decides_enumeration .closeParen (decides .expression)).bind (by omega) (by omega)
    (Nat.zero_le _) ?_
  rintro ⟨_, _⟩ ⟨_, _⟩ _
  exact (more (_, _)).mono (Nat.le_refl _) (by omega) (by omega)

/-- Parsers of operands decide alike. If a name comes first, it is taken, and they decide by what
follows it. -/
structure DecideOperands (bound otherBound : Nat) (first second : Parser Located) : Prop where
  /-- They decide alike. -/
  decide : Decides 1 (bound + 1) (otherBound + 1) unseen first second
  /-- Behind a name they decide, too. -/
  behindName (name : String) (span otherSpan : Span) : Decides 0 bound otherBound unseen
    (fun rest => first (⟨.identifier name, span⟩ :: rest))
    (fun rest => second (⟨.identifier name, otherSpan⟩ :: rest))

namespace DecideOperands

variable {first second : Parser Located}

theorem bind {firstNext secondNext : Located → Parser Located}
    (start : DecideOperands bound otherBound first second)
    (next : ∀ result again, Decides 0 bound otherBound unseen (firstNext result)
      (secondNext again)) :
    DecideOperands bound otherBound (first >>= firstNext) (second >>= secondNext) where
  decide := start.decide.bind (Nat.le_refl _) (Nat.le_refl _) (Nat.le_refl 1)
    fun result again _ => next result again
  behindName name span otherSpan :=
    (start.behindName name span otherSpan).bind (Nat.le_refl _) (Nat.le_refl _) (Nat.le_refl _)
      fun result again _ => next result again

/-- A sign or a word in front of an operand is no name. -/
theorem take? {wanted : Kind → Bool} {firstNext secondNext : Option Token → Parser Located}
    (noName : ∀ name, wanted (.identifier name) = false)
    (found : ∀ token again, Decides 0 bound otherBound unseen (firstNext (some token))
      (secondNext (some again)))
    (absent : DecideOperands bound otherBound (firstNext none) (secondNext none)) :
    DecideOperands bound otherBound (Parser.take? wanted >>= firstNext)
      (Parser.take? wanted >>= secondNext) where
  decide := .take? (Nat.le_refl 1) (fun token again _ _ => found token again) absent.decide
  behindName name span otherSpan := by
    have kept (span : Span) (next : Option Token → Parser Located) :
        (fun rest => (Parser.take? wanted >>= next) (⟨.identifier name, span⟩ :: rest)) =
          fun rest => next none (⟨.identifier name, span⟩ :: rest) :=
      funext fun rest => bind_eq (take?_of_ahead (noName name))
    rw [kept, kept]
    exact absent.behindName name span otherSpan

end DecideOperands

theorem decides_call (decides : DecideAlike bound otherBound rules otherRules) :
    DecideOperands bound otherBound (call bound rules) (call otherBound otherRules) :=
  .bind ⟨decides_atom decides, fun _ _ _ => decides_named _ _ _ _ decides⟩
    fun _ _ => decides_calls _ _ decides

theorem decides_unary (decides : DecideAlike bound otherBound rules otherRules) :
    DecideOperands bound otherBound (unary bound rules) (unary otherBound otherRules) := by
  refine .take? (fun _ => rfl) (fun _ _ => ?_) (.take? (fun _ => rfl) (fun _ _ => ?_)
    (decides_call decides))
  · exact (decides .unary).bind (Nat.le_refl _) (Nat.le_refl _) (Nat.zero_le _)
      fun _ _ _ => .pure rfl
  · refine .take? (Nat.zero_le 1) (fun _ _ _ _ => .pure rfl) ?_
    exact (decides .unary).bind (Nat.le_refl _) (Nat.le_refl _) (Nat.zero_le _)
      fun _ _ _ => .pure rfl

theorem decides_power (decides : DecideAlike bound otherBound rules otherRules) :
    DecideOperands bound otherBound (power bound rules) (power otherBound otherRules) := by
  refine .bind (decides_unary decides) fun _ _ => ?_
  refine .take? (Nat.zero_le 1) (fun _ _ _ _ => ?_) (.pure rfl)
  exact (decides .power).bind (Nat.sub_le _ _) (Nat.sub_le _ _) (Nat.zero_le _)
    fun _ _ _ => .pure rfl

theorem decides_chainFrom (level : Level) {operand otherOperand : Parser Located}
    (left otherLeft : Located) (decides : DecideOperands bound otherBound operand otherOperand) :
    Decides 0 bound otherBound unseen (chainFrom operand level.admits bound left)
      (chainFrom otherOperand level.admits otherBound otherLeft) := by
  refine Decides.rounds (fun rounds (lefts : Located × Located) =>
    chainFrom operand level.admits rounds lefts.1) (fun rounds lefts =>
    chainFrom otherOperand level.admits rounds lefts.2) (fun _ _ _ _ read => by cases read)
    (fun _ _ failed => by cases failed) ?_ (left, otherLeft)
  intro rounds otherRounds small within short otherWithin more lefts
  refine .operator? (Nat.zero_le 1) (fun op => ?_) (.pure rfl)
  refine decides.decide.bind (by omega) (by omega) (Nat.zero_le _) fun right otherRight _ => ?_
  exact (more (_, _)).mono (Nat.le_refl _) (by omega) (by omega)

theorem decides_chain (level : Level) {operand otherOperand : Parser Located}
    (decides : DecideOperands bound otherBound operand otherOperand) :
    DecideOperands bound otherBound (chain bound operand level.admits)
      (chain otherBound otherOperand level.admits) :=
  .bind decides fun _ _ => decides_chainFrom level _ _ decides

theorem decides_comparison (decides : DecideAlike bound otherBound rules otherRules) :
    DecideOperands bound otherBound (comparison bound rules)
      (comparison otherBound otherRules) := by
  refine .take? (fun _ => rfl) (fun _ _ => ?_) ?_
  · exact (decides .comparison).bind (Nat.le_refl _) (Nat.le_refl _) (Nat.zero_le _)
      fun _ _ _ => .pure rfl
  · exact decides_chain .comparison (decides_chain .additive
      (decides_chain .multiplicative (decides_power decides)))

theorem decides_connection (decides : DecideAlike bound otherBound rules otherRules) :
    DecideOperands bound otherBound (connection bound rules)
      (connection otherBound otherRules) :=
  decides_chain .logical (decides_comparison decides)

/-! ## Expressions -/

section

variable {firstNext secondNext : Option (String × Span) → Parser Located}

theorem target?_bind {next : Option (String × Span) → Parser Located} {tokens : List Token}
    (absent : targetAhead tokens = false) : (target? >>= next) tokens = next none tokens :=
  bind_eq (target?_of_ahead absent)

/-- Behind a name, the next token decides. -/
theorem decides_target?_name (name : String) (span otherSpan : Span)
    (found : Decides 0 (bound - 1) (otherBound - 1) unseen (firstNext (some (name, span)))
      (secondNext (some (name, otherSpan))))
    (absent : DecideOperands bound otherBound (firstNext none) (secondNext none)) :
    Decides 0 bound otherBound unseen
      (fun rest => (target? >>= firstNext) (⟨.identifier name, span⟩ :: rest))
      (fun rest => (target? >>= secondNext) (⟨.identifier name, otherSpan⟩ :: rest)) := by
  have named := absent.behindName name span otherSpan
  refine .of_begins (fun _ _ _ => named.not_ok_nil _ _ _) (fun _ => named.ended_of_nil)
    fun kind => ?_
  cases assigns : kind.isMark .assign with
  | true =>
    obtain rfl := isMark_iff.mp assigns
    refine .takes (Nat.zero_le 1) (fun _ => firstNext (some (name, span)))
      (fun _ => secondNext (some (name, otherSpan))) ?_ ?_ fun _ _ _ _ => found
    · rintro ⟨_, _⟩ rest rfl
      rfl
    · rintro ⟨_, _⟩ rest rfl
      rfl
  | false =>
    refine .stays (fun _ rest => firstNext none (⟨.identifier name, span⟩ :: rest))
      (fun _ rest => secondNext none (⟨.identifier name, otherSpan⟩ :: rest)) ?_ ?_
      fun _ _ _ _ => named
    · rintro token rest rfl
      exact target?_bind ((targetAhead_name _ _ _).trans assigns)
    · rintro token rest rfl
      exact target?_bind ((targetAhead_name _ _ _).trans assigns)

/-- Looking for a name and the assignment mark behind it decides nothing that the two tokens do not
decide, because a name alone is taken anyway. -/
theorem decides_target?
    (found : ∀ target otherTarget, Decides 0 (bound - 1) (otherBound - 1) unseen
      (firstNext (some target)) (secondNext (some otherTarget)))
    (absent : DecideOperands bound otherBound (firstNext none) (secondNext none)) :
    Decides 1 (bound + 1) (otherBound + 1) unseen (target? >>= firstNext)
      (target? >>= secondNext) := by
  refine .of_begins (fun _ _ _ => absent.decide.not_ok_nil _ _ _)
    (fun _ => absent.decide.ended_of_nil) fun kind => ?_
  cases kind with
  | identifier name =>
    refine .takes (Nat.le_refl 1) (fun token rest => (target? >>= firstNext) (token :: rest))
      (fun token rest => (target? >>= secondNext) (token :: rest)) (fun _ _ _ => rfl)
      (fun _ _ _ => rfl) ?_
    rintro ⟨_, span⟩ ⟨_, otherSpan⟩ rfl rfl
    exact decides_target?_name name span otherSpan (found _ _) absent
  | _ =>
    refine .stays (fun _ => firstNext none) (fun _ => secondNext none) ?_ ?_
      fun _ _ _ _ => absent.decide
    · rintro ⟨_, _⟩ rest rfl
      exact target?_bind rfl
    · rintro ⟨_, _⟩ rest rfl
      exact target?_bind rfl

end

theorem decides_expression (decides : DecideAlike bound otherBound rules otherRules) :
    Decides 1 (bound + 1) (otherBound + 1) unseen (expression bound rules)
      (expression otherBound otherRules) := by
  refine .take? (Nat.le_refl 1) (fun _ _ _ _ => ?_) (decides_target? (fun _ _ => ?_)
    (decides_connection decides))
  · refine decides_identifier.bind (Nat.le_refl _) (Nat.le_refl _) (Nat.zero_le _) ?_
    rintro ⟨_, _⟩ ⟨_, _⟩ _
    refine (decides_mark .assign).bind (Nat.le_refl _) (Nat.le_refl _) (Nat.zero_le _)
      fun _ _ _ => ?_
    exact (decides .expression).bind (by omega) (by omega) (Nat.zero_le _)
      fun _ _ _ => .pure rfl
  · exact (decides .expression).bind (Nat.sub_le _ _) (Nat.sub_le _ _) (Nat.zero_le _)
      fun _ _ _ => .pure rfl

theorem decides_ofRule (decides : DecideAlike bound otherBound rules otherRules) :
    DecideAlike (bound + 1) (otherBound + 1) (ofRule bound rules)
      (ofRule otherBound otherRules) := by
  intro rule
  cases rule with
  | expression => exact decides_expression decides
  | comparison => exact (decides_comparison decides).decide
  | power => exact (decides_power decides).decide
  | unary => exact (decides_unary decides).decide

/-- All rules decide alike under all bounds. -/
theorem decides_rulesUpTo (bound otherBound : Nat) :
    DecideAlike bound otherBound (rulesUpTo bound) (rulesUpTo otherBound) := by
  induction bound generalizing otherBound with
  | zero =>
    exact fun rule => .of_zero (fun _ _ _ read => by cases read)
      fun _ failed => by cases failed; rfl
  | succ bound ih =>
    cases otherBound with
    | zero =>
      exact fun rule => ((decides_ofRule (ih 0) rule).mono (Nat.le_refl 1) (Nat.le_refl _)
        (Nat.zero_le 1)).zero_right
    | succ otherBound => exact decides_ofRule (ih otherBound)

/-! ## Programs -/

theorem decides_program (bound otherBound : Nat) :
    Decides 0 bound otherBound unseen (program bound) (program otherBound) := by
  refine (decides_statements _ (decides_rulesUpTo bound otherBound)).bind (Nat.le_refl _)
    (Nat.le_refl _) (Nat.le_refl _) fun _ _ _ => ?_
  refine .peek fun kind => ?_
  cases kind with
  | endOfInput =>
    refine .goes ?_
    rintro ⟨_, _⟩ ⟨_, _⟩ rfl rfl
    exact .pure rfl
  | _ =>
    exact .blames .trailing (by simp) (by rintro ⟨_, _⟩ rfl; rfl) (by rintro ⟨_, _⟩ rfl; rfl)

end Quill.Grammar
