import Quill.Proofs.Syntax.Completeness

/-!
# Every result is a reading

What a parser returns is what the phrase can be read as. The bound is needed here as well: a parser
that has run out of rounds stops in the middle of what it reads, which is no reading.
-/

namespace Quill.Grammar

open Quill.Token Quill.Parser

/-- The parsers of all rules return readings of at most the given number of tokens. -/
def Sound (rules : Rules) (bound : Nat) : Prop :=
  ∀ {rule : Rule} {expr : Located} {before after : List Token}, before.length ≤ bound →
    rules rule before = .ok (expr, after) → Reads (.ofRule rule expr) before after

variable {rules : Rules} {bound : Nat} {expr : Located} {before after : List Token}

theorem Sound.expression (sound : Sound rules bound) (enough : before.length ≤ bound)
    (read : rules .expression before = .ok (expr, after)) :
    Reads (.expression expr) before after :=
  sound enough read

theorem Sound.comparison (sound : Sound rules bound) (enough : before.length ≤ bound)
    (read : rules .comparison before = .ok (expr, after)) :
    Reads (.comparison expr) before after :=
  sound enough read

theorem Sound.power (sound : Sound rules bound) (enough : before.length ≤ bound)
    (read : rules .power before = .ok (expr, after)) : Reads (.power expr) before after :=
  sound enough read

theorem Sound.unary (sound : Sound rules bound) (enough : before.length ≤ bound)
    (read : rules .unary before = .ok (expr, after)) : Reads (.unary expr) before after :=
  sound enough read

/-! ## Enumerations -/

theorem reads_items (sound : Sound rules bound) {closing : Mark} {rounds : Nat}
    {elements : List Located} {last : Token} (enough : before.length ≤ bound)
    (read : items (rules .expression) closing rounds before = .ok ((elements, last), after)) :
    Reads (.items closing elements last) before after := by
  induction rounds generalizing before elements with
  | zero => cases read
  | succ rounds ih =>
    obtain ⟨first, fromMark, item, read₁⟩ := of_bind_ok read
    obtain ⟨token, rest, taken, read₂⟩ := of_bind_ok read₁
    obtain rfl := next_eq_ok.mp taken
    have reads := sound.expression enough item
    have shorter := reads.length_le
    simp only [List.length_cons, Phrase.least] at shorter
    obtain ⟨kind, span⟩ := token
    split at read₂
    · rename_i comma
      obtain rfl := isMark_iff.mp comma
      obtain ⟨⟨elements, last⟩, after', more, read₃⟩ := of_bind_ok read₂
      cases read₃
      exact .moreItems reads (ih (by omega) more)
    · rename_i noComma
      split at read₂
      · rename_i closed
        obtain rfl := isMark_iff.mp closed
        cases read₂
        refine .lastItem ?_ reads
        rintro rfl
        exact noComma closed
      · cases read₂

theorem reads_enumeration (sound : Sound rules bound) {closing : Mark} {elements : List Located}
    {last : Token} (enough : before.length ≤ bound)
    (read : enumeration bound (rules .expression) closing before =
      .ok ((elements, last), after)) :
    Reads (.enumeration closing elements last) before after := by
  obtain ⟨found, rest, taken, read₁⟩ := of_bind_ok read
  obtain ⟨rfl, noClosing, rfl⟩ | ⟨⟨kind, span⟩, rfl, closed, rfl⟩ := take?_eq_ok.mp taken
  · exact .elements noClosing (reads_items sound enough read₁)
  · obtain rfl := isMark_iff.mp closed
    cases read₁
    exact .noElements

theorem reads_names {rounds : Nat} {names : List String} {last : Token}
    (read : items (Prod.fst <$> identifier) .closeParen rounds before =
      .ok ((names, last), after)) :
    Reads (.names names last) before after := by
  induction rounds generalizing before names with
  | zero => cases read
  | succ rounds ih =>
    obtain ⟨first, fromMark, item, read₁⟩ := of_bind_ok read
    obtain ⟨token, rest, taken, read₂⟩ := of_bind_ok read₁
    obtain rfl := next_eq_ok.mp taken
    obtain ⟨⟨name, nameSpan⟩, named, rfl⟩ := of_map_ok item
    obtain rfl := identifier_eq_ok.mp named
    obtain ⟨kind, span⟩ := token
    split at read₂
    · rename_i comma
      obtain rfl := isMark_iff.mp comma
      obtain ⟨⟨names, last⟩, after', more, read₃⟩ := of_bind_ok read₂
      cases read₃
      exact .moreNames (ih more)
    · split at read₂
      · rename_i closed
        obtain rfl := isMark_iff.mp closed
        cases read₂
        exact .lastName
      · cases read₂

theorem reads_parameters {names : List String} {last : Token}
    (read : enumeration bound (Prod.fst <$> identifier) .closeParen before =
      .ok ((names, last), after)) :
    Reads (.parameters names last) before after := by
  obtain ⟨found, rest, taken, read₁⟩ := of_bind_ok read
  obtain ⟨rfl, _, rfl⟩ | ⟨⟨kind, span⟩, rfl, closed, rfl⟩ := take?_eq_ok.mp taken
  · exact .parameters (reads_names read₁)
  · obtain rfl := isMark_iff.mp closed
    cases read₁
    exact .noParameters

/-! ## Statements -/

theorem reads_statement (sound : Sound rules bound) (enough : before.length ≤ bound)
    (read : statement rules before = .ok (expr, after)) :
    Reads (.statement expr) before after := by
  cases jump : ahead startsJump before with
  | false =>
    cases before with
    | nil => cases read
    | cons token rest =>
      rw [statement_of_ahead jump] at read
      exact .statement jump (sound.expression enough read)
  | true =>
    obtain ⟨⟨kind, span⟩, rest, rfl, starts⟩ := of_ahead jump
    simp only [startsJump, Bool.or_eq_true, isKeyword_iff] at starts
    simp only [List.length_cons] at enough
    obtain (rfl | rfl) | rfl := starts
    · obtain ⟨_, _, peeked, read₁⟩ := of_bind_ok read
      cases peeked
      obtain ⟨_, _, taken, read₂⟩ := of_bind_ok read₁
      cases taken
      obtain ⟨token, _, peeked, read₃⟩ := of_bind_ok read₂
      obtain ⟨rfl, later, rfl⟩ := peek_eq_ok.mp peeked
      split at read₃
      · rename_i ends
        cases read₃
        exact .returnNone ends
      · rename_i goes
        obtain ⟨value, _, valued, read₄⟩ := of_bind_ok read₃
        cases read₄
        exact .returnSome (by simpa [ahead] using goes) (sound.expression (by omega) valued)
    · cases read
      exact .continueLoop
    · cases read
      exact .breakLoop

theorem reads_statementList (sound : Sound rules bound) {closing : Kind → Bool} {rounds : Nat}
    {elements : List Located} (enough : before.length ≤ bound)
    (read : statementList rules closing rounds before = .ok (elements, after)) :
    Reads (.statementList closing elements) before after := by
  induction rounds generalizing before elements with
  | zero => cases read
  | succ rounds ih =>
    obtain ⟨token, _, peeked, read₁⟩ := of_bind_ok read
    obtain ⟨rfl, later, rfl⟩ := peek_eq_ok.mp peeked
    split at read₁
    · rename_i closed
      cases read₁
      exact .noStatements closed
    · rename_i opened
      obtain ⟨first, middle, stated, read₂⟩ := of_bind_ok read₁
      obtain ⟨separated, rest, skipped, read₃⟩ := of_bind_ok read₂
      have same := (separators_apply middle).symm.trans skipped
      obtain ⟨rfl, rfl⟩ := Prod.mk.inj (Except.ok.inj same)
      have reads := reads_statement sound enough stated
      have shorter := reads.length_le
      have opened : ahead (endsList closing) (token :: later) = false := by
        simpa [ahead] using opened
      cases separated : ahead (·.isSeparator) middle with
      | false =>
        rw [separated] at read₃
        cases read₃
        rw [dropWhile_of_ahead separated]
        exact .lastStatement opened reads separated
      | true =>
        rw [separated] at read₃
        obtain ⟨elements, after', more, read₄⟩ := of_bind_ok read₃
        cases read₄
        have skippedShorter := length_dropWhile_separators middle
        simp only [Phrase.least] at shorter
        exact .moreStatements opened reads separated (ih (by omega) more)

theorem reads_statements (sound : Sound rules bound) {closing : Kind → Bool}
    (enough : before.length ≤ bound)
    (read : statements bound rules closing before = .ok (expr, after)) :
    Reads (.statements closing expr) before after := by
  obtain ⟨_, rest, skipped, read₁⟩ := of_bind_ok read
  obtain ⟨-, rfl⟩ := Prod.mk.inj (Except.ok.inj ((separators_apply before).symm.trans skipped))
  obtain ⟨token, rest, peeked, read₂⟩ := of_bind_ok read₁
  obtain ⟨rfl, later, opened⟩ := peek_eq_ok.mp peeked
  obtain ⟨elements, after', listed, read₃⟩ := of_bind_ok read₂
  cases read₃
  have shorter := length_dropWhile_separators before
  have reads := reads_statementList sound (by omega) listed
  rw [opened] at reads
  exact .statements opened reads

theorem reads_body (sound : Sound rules bound) {closing : Kind → Bool} {block : Bool}
    (enough : before.length ≤ bound)
    (read : body bound rules closing before = .ok ((expr, block), after)) :
    Reads (.body closing expr block) before after := by
  obtain ⟨separated, rest, skipped, read₁⟩ := of_bind_ok read
  obtain ⟨rfl, rfl⟩ := Prod.mk.inj (Except.ok.inj ((atSeparator_apply before).symm.trans skipped))
  cases separated : ahead (·.isSeparator) before with
  | false =>
    rw [separated] at read₁
    obtain ⟨value, after', stated, read₂⟩ := of_bind_ok read₁
    cases read₂
    exact .single separated (reads_statement sound enough stated)
  | true =>
    rw [separated] at read₁
    obtain ⟨value, after', blocked, read₂⟩ := of_bind_ok read₁
    cases read₂
    exact .block separated (reads_statements sound enough blocked)

theorem reads_ending {block : Bool} {stop : Span}
    (read : closingSpan expr block before = .ok (stop, after)) :
    Reads (.ending expr block stop) before after := by
  cases block with
  | false =>
    cases read
    exact .endOfLine
  | true =>
    obtain ⟨token, rest, taken, read₁⟩ := of_bind_ok read
    obtain ⟨same, rfl⟩ := keyword_eq_ok.mp taken
    cases read₁
    rw [same]
    exact .endOfBlock

/-! ## Constructs -/

theorem reads_branches (sound : Sound rules bound) {rounds : Nat}
    {alternatives : Branches Span} {stop : Span} (enough : before.length ≤ bound)
    (read : branches bound rules rounds before = .ok ((alternatives, stop), after)) :
    Reads (.branches alternatives stop) before after := by
  induction rounds generalizing before alternatives with
  | zero => cases read
  | succ rounds ih =>
    obtain ⟨condition, fromThen, conditional, read₁⟩ := of_bind_ok read
    obtain ⟨⟨_, thenSpan⟩, fromBody, taken, read₂⟩ := of_bind_ok read₁
    obtain ⟨same, rfl⟩ := keyword_eq_ok.mp taken
    rw [same] at conditional
    have conditionReads := sound.expression enough conditional
    have conditionShorter := conditionReads.length_le
    simp only [List.length_cons, Phrase.least] at conditionShorter
    obtain ⟨⟨branch, block⟩, afterBody, chosen, read₃⟩ := of_bind_ok read₂
    have bodyReads := reads_body sound (by omega) chosen
    have bodyShorter := bodyReads.length_le
    obtain ⟨⟨kind, span⟩, _, peeked, read₄⟩ := of_bind_ok read₃
    obtain ⟨rfl, rest, rfl⟩ := peek_eq_ok.mp peeked
    simp only [List.length_cons, Phrase.least] at bodyShorter
    split at read₄
    · rename_i elif
      obtain rfl := isKeyword_iff.mp elif
      obtain ⟨_, _, stepped, read₅⟩ := of_bind_ok read₄
      cases stepped
      obtain ⟨⟨others, last⟩, _, more, read₆⟩ := of_bind_ok read₅
      cases read₆
      exact .elif conditionReads bodyReads (ih (by omega) more)
    · rename_i noElif
      split at read₄
      · rename_i otherwise
        obtain rfl := isKeyword_iff.mp otherwise
        obtain ⟨_, _, stepped, read₅⟩ := of_bind_ok read₄
        cases stepped
        obtain ⟨⟨other, otherBlock⟩, _, alternative, read₆⟩ := of_bind_ok read₅
        obtain ⟨last, _, ended, read₇⟩ := of_bind_ok read₆
        cases read₇
        exact .otherwise conditionReads bodyReads (reads_body sound (by omega) alternative)
          (reads_ending ended)
      · rename_i noElse
        obtain ⟨last, _, ended, read₅⟩ := of_bind_ok read₄
        cases read₅
        exact .lastBranch conditionReads bodyReads (by simp) (by simpa [ahead] using noElif)
          (by simpa [ahead] using noElse) (reads_ending ended)

theorem reads_choice (sound : Sound rules bound) {span : Span} (enough : before.length ≤ bound)
    (read : choice bound rules ⟨.keyword .ifWord, span⟩ before = .ok (expr, after)) :
    Reads (.atom expr) (⟨.keyword .ifWord, span⟩ :: before) after := by
  obtain ⟨⟨alternatives, stop⟩, _, chosen, read₁⟩ := of_bind_ok read
  cases read₁
  exact .choice (reads_branches sound enough chosen)

theorem reads_loopStep (sound : Sound rules bound) {step : Option Located}
    (enough : before.length ≤ bound) (read : loopStep rules before = .ok (step, after)) :
    Reads (.step step) before after := by
  obtain ⟨found, rest, taken, read₁⟩ := of_bind_ok read
  obtain ⟨rfl, noStep, rfl⟩ | ⟨⟨kind, span⟩, rfl, present, rfl⟩ := take?_eq_ok.mp taken
  · cases read₁
    exact .stepNone noStep
  · obtain rfl := isKeyword_iff.mp present
    obtain ⟨value, stepped, rfl⟩ := of_map_ok read₁
    simp only [List.length_cons] at enough
    exact .stepSome (sound.expression (by omega) stepped)

theorem reads_forLoop (sound : Sound rules bound) {span : Span} (enough : before.length ≤ bound)
    (read : forLoop bound rules ⟨.keyword .forWord, span⟩ before = .ok (expr, after)) :
    Reads (.atom expr) (⟨.keyword .forWord, span⟩ :: before) after := by
  obtain ⟨⟨counter, nameSpan⟩, fromSign, named, read₁⟩ := of_bind_ok read
  obtain rfl := identifier_eq_ok.mp named
  obtain ⟨⟨_, signSpan⟩, fromStart, signed, read₂⟩ := of_bind_ok read₁
  obtain ⟨sign, rfl⟩ := mark_eq_ok.mp signed
  obtain ⟨start, fromTo, started, read₃⟩ := of_bind_ok read₂
  obtain ⟨⟨_, toSpan⟩, fromStop, toTaken, read₄⟩ := of_bind_ok read₃
  obtain ⟨toWord, rfl⟩ := keyword_eq_ok.mp toTaken
  simp only [List.length_cons] at enough
  have startReads := sound.expression (by omega) started
  have startShorter := startReads.length_le
  simp only [List.length_cons, Phrase.least] at startShorter
  obtain ⟨stop, fromStep, stopped, read₅⟩ := of_bind_ok read₄
  have stopReads := sound.expression (by omega) stopped
  have stopShorter := stopReads.length_le
  obtain ⟨step, fromThen, stepped, read₆⟩ := of_bind_ok read₅
  simp only [Phrase.least] at stopShorter
  have stepReads := reads_loopStep sound (by omega) stepped
  have stepShorter := stepReads.length_le
  obtain ⟨⟨_, thenSpan⟩, fromBody, thenTaken, read₇⟩ := of_bind_ok read₆
  obtain ⟨thenWord, rfl⟩ := keyword_eq_ok.mp thenTaken
  simp only [List.length_cons, Phrase.least] at stepShorter
  obtain ⟨⟨round, block⟩, afterBody, repeated, read₈⟩ := of_bind_ok read₇
  obtain ⟨last, _, ended, read₉⟩ := of_bind_ok read₈
  cases read₉
  rw [sign]
  rw [toWord] at startReads
  rw [thenWord] at stepReads
  exact .forLoop startReads stopReads stepReads (reads_body sound (by omega) repeated)
    (reads_ending ended)

theorem reads_whileLoop (sound : Sound rules bound) {span : Span}
    (enough : before.length ≤ bound)
    (read : whileLoop bound rules ⟨.keyword .whileWord, span⟩ before = .ok (expr, after)) :
    Reads (.atom expr) (⟨.keyword .whileWord, span⟩ :: before) after := by
  obtain ⟨condition, fromThen, conditional, read₁⟩ := of_bind_ok read
  obtain ⟨⟨_, thenSpan⟩, fromBody, thenTaken, read₂⟩ := of_bind_ok read₁
  obtain ⟨thenWord, rfl⟩ := keyword_eq_ok.mp thenTaken
  have conditionReads := sound.expression enough conditional
  have shorter := conditionReads.length_le
  simp only [List.length_cons, Phrase.least] at shorter
  obtain ⟨⟨round, block⟩, afterBody, repeated, read₃⟩ := of_bind_ok read₂
  obtain ⟨last, _, ended, read₄⟩ := of_bind_ok read₃
  cases read₄
  rw [thenWord] at conditionReads
  exact .whileLoop conditionReads (reads_body sound (by omega) repeated) (reads_ending ended)

theorem reads_functionName {name : Option String}
    (read : functionName before = .ok (name, after)) :
    Reads (.functionName name) before after := by
  obtain ⟨⟨kind, span⟩, _, peeked, read₁⟩ := of_bind_ok read
  obtain ⟨rfl, rest, rfl⟩ := peek_eq_ok.mp peeked
  cases kind with
  | identifier bound =>
    cases read₁
    exact .name
  | _ =>
    cases read₁
    exact .noName (by simp) rfl

theorem reads_function (sound : Sound rules bound) {span : Span} (enough : before.length ≤ bound)
    (read : function bound rules ⟨.keyword .funcWord, span⟩ before = .ok (expr, after)) :
    Reads (.atom expr) (⟨.keyword .funcWord, span⟩ :: before) after := by
  obtain ⟨name, fromParen, named, read₁⟩ := of_bind_ok read
  obtain ⟨⟨_, openSpan⟩, fromNames, opened, read₂⟩ := of_bind_ok read₁
  obtain ⟨paren, rfl⟩ := mark_eq_ok.mp opened
  rw [paren] at named
  have nameReads := reads_functionName named
  have nameShorter := nameReads.length_le
  obtain ⟨⟨names, last⟩, fromBody, passed, read₃⟩ := of_bind_ok read₂
  have parametersRead := reads_parameters passed
  have passedShorter := parametersRead.length_le
  simp only [List.length_cons, Phrase.least] at nameShorter passedShorter
  obtain ⟨found, rest, taken, read₄⟩ := of_bind_ok read₃
  obtain ⟨rfl, noArrow, rfl⟩ | ⟨⟨kind, arrowSpan⟩, rfl, present, rfl⟩ := take?_eq_ok.mp taken
  · obtain ⟨separated, rest, skipped, read₅⟩ := of_bind_ok read₄
    obtain ⟨rfl, rfl⟩ :=
      Prod.mk.inj (Except.ok.inj ((atSeparator_apply fromBody).symm.trans skipped))
    cases separated : ahead (·.isSeparator) fromBody with
    | false =>
      rw [separated] at read₅
      obtain ⟨_, _, _, read₆⟩ := of_bind_ok read₅
      cases read₆
    | true =>
      rw [separated] at read₅
      obtain ⟨block, _, blocked, read₆⟩ := of_bind_ok read₅
      obtain ⟨⟨_, endSpan⟩, _, ended, read₇⟩ := of_bind_ok read₆
      obtain ⟨endWord, rfl⟩ := keyword_eq_ok.mp ended
      cases read₇
      rw [endWord] at blocked
      exact .functionBlock nameReads parametersRead separated
        (reads_statements sound (by omega) blocked)
  · obtain rfl := isMark_iff.mp present
    obtain ⟨value, _, valued, read₅⟩ := of_bind_ok read₄
    cases read₅
    simp only [List.length_cons] at passedShorter
    exact .functionOf nameReads parametersRead (sound.expression (by omega) valued)

theorem reads_template (sound : Sound rules bound) {span : Span} (enough : before.length ≤ bound)
    (read : template bound rules ⟨.keyword .objectWord, span⟩ before = .ok (expr, after)) :
    Reads (.atom expr) (⟨.keyword .objectWord, span⟩ :: before) after := by
  obtain ⟨⟨name, nameSpan⟩, fromBody, named, read₁⟩ := of_bind_ok read
  obtain rfl := identifier_eq_ok.mp named
  simp only [List.length_cons] at enough
  obtain ⟨separated, rest, skipped, read₂⟩ := of_bind_ok read₁
  obtain ⟨rfl, rfl⟩ :=
    Prod.mk.inj (Except.ok.inj ((atSeparator_apply fromBody).symm.trans skipped))
  cases separated : ahead (·.isSeparator) fromBody with
  | false =>
    rw [separated] at read₂
    obtain ⟨_, _, _, read₃⟩ := of_bind_ok read₂
    cases read₃
  | true =>
    rw [separated] at read₂
    obtain ⟨block, _, blocked, read₃⟩ := of_bind_ok read₂
    obtain ⟨⟨_, endSpan⟩, _, ended, read₄⟩ := of_bind_ok read₃
    obtain ⟨endWord, rfl⟩ := keyword_eq_ok.mp ended
    cases read₄
    rw [endWord] at blocked
    exact .template separated (reads_statements sound (by omega) blocked)

/-! ## Operands -/

theorem reads_named (sound : Sound rules bound) {name : String} {span : Span}
    (enough : before.length ≤ bound) (read : named rules name span before = .ok (expr, after)) :
    Reads (.named name span expr) before after := by
  obtain ⟨found, rest, taken, read₁⟩ := of_bind_ok read
  obtain ⟨rfl, noDot, rfl⟩ | ⟨⟨kind, dotSpan⟩, rfl, present, rfl⟩ := take?_eq_ok.mp taken
  · cases read₁
    exact .variable noDot
  · obtain rfl := isMark_iff.mp present
    obtain ⟨⟨member, memberSpan⟩, fromSign, memberNamed, read₂⟩ := of_bind_ok read₁
    obtain rfl := identifier_eq_ok.mp memberNamed
    obtain ⟨found, rest, taken, read₃⟩ := of_bind_ok read₂
    obtain ⟨rfl, noAssign, rfl⟩ | ⟨⟨kind, signSpan⟩, rfl, present, rfl⟩ := take?_eq_ok.mp taken
    · cases read₃
      exact .member noAssign
    · obtain rfl := isMark_iff.mp present
      obtain ⟨value, _, assigned, read₄⟩ := of_bind_ok read₃
      cases read₄
      simp only [List.length_cons] at enough
      exact .memberAssignment (sound.expression (by omega) assigned)

theorem reads_atom (sound : Sound rules bound) (enough : before.length ≤ bound + 1)
    (read : atom bound rules before = .ok (expr, after)) : Reads (.atom expr) before after := by
  obtain ⟨⟨kind, span⟩, rest, taken, read₁⟩ := of_bind_ok read
  obtain rfl := next_eq_ok.mp taken
  simp only [List.length_cons] at enough
  cases kind with
  | int magnitude =>
    by_cases small : magnitude < Lexeme.maxMagnitude
    · simp only [integer, small, if_true] at read₁
      cases read₁
      exact .int small
    · simp only [integer, small, if_false] at read₁
      cases read₁
  | float value =>
    cases read₁
    exact .float
  | str value =>
    cases read₁
    exact .str
  | identifier name => exact .named (reads_named sound (by omega) read₁)
  | mark sign =>
    cases sign with
    | openParen =>
      obtain ⟨inner, fromParen, valued, read₂⟩ := of_bind_ok read₁
      obtain ⟨⟨_, closeSpan⟩, _, closed, read₃⟩ := of_bind_ok read₂
      obtain ⟨paren, rfl⟩ := mark_eq_ok.mp closed
      cases read₃
      rw [paren] at valued
      exact .parens (sound.expression (by omega) valued)
    | openBracket =>
      obtain ⟨⟨elements, last⟩, _, listed, read₂⟩ := of_bind_ok read₁
      cases read₂
      exact .list (reads_enumeration sound (by omega) listed)
    | _ => cases read₁
  | keyword word =>
    cases word with
    | ifWord => exact reads_choice sound (by omega) read₁
    | forWord => exact reads_forLoop sound (by omega) read₁
    | whileWord => exact reads_whileLoop sound (by omega) read₁
    | funcWord => exact reads_function sound (by omega) read₁
    | objectWord => exact reads_template sound (by omega) read₁
    | newWord =>
      obtain ⟨⟨name, nameSpan⟩, _, named, read₂⟩ := of_bind_ok read₁
      obtain rfl := identifier_eq_ok.mp named
      cases read₂
      exact .instantiate
    | _ => cases read₁
  | newline => cases read₁
  | semicolon => cases read₁
  | endOfInput => cases read₁

theorem reads_calls (sound : Sound rules bound) {callee : Located} {rounds : Nat}
    (enough : before.length ≤ bound) (within : before.length ≤ rounds)
    (read : calls bound rules rounds callee before = .ok (expr, after)) :
    Reads (.calls callee expr) before after := by
  induction rounds generalizing before callee with
  | zero =>
    obtain rfl := List.length_eq_zero_iff.mp (Nat.le_zero.mp within)
    cases read
    exact .callsEnd rfl
  | succ rounds ih =>
    obtain ⟨found, rest, taken, read₁⟩ := of_bind_ok read
    obtain ⟨rfl, noList, rfl⟩ | ⟨⟨kind, openSpan⟩, rfl, present, rfl⟩ := take?_eq_ok.mp taken
    · cases read₁
      exact .callsEnd noList
    · obtain rfl := isMark_iff.mp present
      simp only [List.length_cons] at enough within
      obtain ⟨⟨arguments, last⟩, middle, passed, read₂⟩ := of_bind_ok read₁
      have reads := reads_enumeration sound (by omega) passed
      have shorter := reads.length_le
      simp only [Phrase.least] at shorter
      exact .callsMore reads (ih (by omega) (by omega) read₂)

theorem reads_call (sound : Sound rules bound) (enough : before.length ≤ bound + 1)
    (read : call bound rules before = .ok (expr, after)) : Reads (.call expr) before after := by
  obtain ⟨callee, middle, started, read₁⟩ := of_bind_ok read
  have reads := reads_atom sound enough started
  have shorter := reads.length_le
  simp only [Phrase.least] at shorter
  exact .call reads (reads_calls sound (by omega) (by omega) read₁)

theorem isLargest_iff {kind : Kind} : isLargest kind = true ↔ kind = .int Lexeme.maxMagnitude := by
  cases kind <;> simp [isLargest]

theorem reads_unary (sound : Sound rules bound) (enough : before.length ≤ bound + 1)
    (read : unary bound rules before = .ok (expr, after)) : Reads (.unary expr) before after := by
  obtain ⟨found, rest, taken, read₁⟩ := of_bind_ok read
  obtain ⟨rfl, noPlus, rfl⟩ | ⟨⟨kind, signSpan⟩, rfl, present, rfl⟩ := take?_eq_ok.mp taken
  · obtain ⟨found, rest, taken, read₂⟩ := of_bind_ok read₁
    obtain ⟨rfl, noMinus, rfl⟩ | ⟨⟨kind, signSpan⟩, rfl, present, rfl⟩ := take?_eq_ok.mp taken
    · exact .unsigned noPlus noMinus (reads_call sound enough read₂)
    · obtain rfl := isMark_iff.mp present
      simp only [List.length_cons] at enough
      obtain ⟨found, rest, taken, read₃⟩ := of_bind_ok read₂
      change take? isLargest _ = _ at taken
      obtain ⟨rfl, noLargest, rfl⟩ | ⟨⟨kind, digitsSpan⟩, rfl, present, rfl⟩ :=
        take?_eq_ok.mp taken
      · obtain ⟨operand, _, signed, read₄⟩ := of_bind_ok read₃
        cases read₄
        exact .minus noLargest (sound.unary (by omega) signed)
      · obtain rfl := isLargest_iff.mp present
        cases read₃
        exact .smallest
  · obtain rfl := isMark_iff.mp present
    simp only [List.length_cons] at enough
    obtain ⟨operand, _, signed, read₂⟩ := of_bind_ok read₁
    cases read₂
    exact .plus (sound.unary (by omega) signed)

theorem reads_power (sound : Sound rules bound) (enough : before.length ≤ bound + 1)
    (read : power bound rules before = .ok (expr, after)) : Reads (.power expr) before after := by
  obtain ⟨base, middle, started, read₁⟩ := of_bind_ok read
  have reads := reads_unary sound enough started
  have shorter := reads.length_le
  obtain ⟨found, rest, taken, read₂⟩ := of_bind_ok read₁
  obtain ⟨rfl, noExponent, rfl⟩ | ⟨⟨kind, signSpan⟩, rfl, present, rfl⟩ := take?_eq_ok.mp taken
  · cases read₂
    exact .base reads noExponent
  · obtain rfl := isMark_iff.mp present
    simp only [List.length_cons, Phrase.least] at shorter
    obtain ⟨exponent, _, raised, read₃⟩ := of_bind_ok read₂
    cases read₃
    exact .power reads (sound.power (by omega) raised)

/-! ## Operators -/

theorem operator?_eq_ok {level : Level} {found : Option BinaryOp} :
    operator? level.admits before = .ok (found, after) →
      (found = none ∧ ahead level.has before = false ∧ before = after) ∨
        ∃ op token, found = some op ∧ token.kind.binaryOp? = some op ∧ level.admits op = true ∧
          before = token :: after := by
  cases before with
  | nil =>
    intro read
    cases read
    exact .inl ⟨rfl, rfl, rfl⟩
  | cons token rest =>
    intro read
    simp only [operator?] at read
    cases operator : token.kind.binaryOp? with
    | none =>
      rw [operator] at read
      cases read
      exact .inl ⟨rfl, by simp [ahead, Level.has, operator], rfl⟩
    | some op =>
      rw [operator] at read
      cases admitted : level.admits op with
      | false =>
        simp only [admitted] at read
        cases read
        exact .inl ⟨rfl, by simp [ahead, Level.has, operator, admitted], rfl⟩
      | true =>
        simp only [admitted] at read
        cases read
        exact .inr ⟨op, token, rfl, operator, admitted, rfl⟩

/-- The parser of the operands of a level returns readings. -/
def OperandSound (level : Level) (operand : Parser Located) (bound : Nat) : Prop :=
  ∀ {expr : Located} {before after : List Token}, before.length ≤ bound →
    operand before = .ok (expr, after) → Reads (.operand level expr) before after

theorem reads_chainFrom {level : Level} {operand : Parser Located} {left : Located} {rounds : Nat}
    (operandSound : OperandSound level operand bound)
    (enough : before.length ≤ bound) (within : before.length ≤ rounds)
    (read : chainFrom operand level.admits rounds left before = .ok (expr, after)) :
    Reads (.chainFrom level left expr) before after := by
  induction rounds generalizing before left with
  | zero =>
    obtain rfl := List.length_eq_zero_iff.mp (Nat.le_zero.mp within)
    cases read
    exact .chainEnd rfl
  | succ rounds ih =>
    obtain ⟨found, rest, taken, read₁⟩ := of_bind_ok read
    obtain ⟨rfl, noOperator, rfl⟩ | ⟨op, token, rfl, operator, admitted, rfl⟩ :=
      operator?_eq_ok taken
    · cases read₁
      exact .chainEnd noOperator
    · simp only [List.length_cons] at enough within
      obtain ⟨right, middle, next, read₂⟩ := of_bind_ok read₁
      have reads := operandSound (by omega) next
      have shorter := reads.length_le
      rw [Phrase.least_operand] at shorter
      exact .chainMore operator admitted reads (ih (by omega) (by omega) read₂)

theorem reads_chain (level : Level) {operand : Parser Located}
    (operandSound : OperandSound level operand (bound + 1)) (enough : before.length ≤ bound + 1)
    (read : chain bound operand level.admits before = .ok (expr, after)) :
    Reads (.chain level expr) before after := by
  obtain ⟨first, middle, started, read₁⟩ := of_bind_ok read
  have reads := operandSound enough started
  have shorter := reads.length_le
  rw [Phrase.least_operand] at shorter
  have inner : OperandSound level operand bound :=
    fun shorter next => operandSound (by omega) next
  exact .chain reads (reads_chainFrom inner (by omega) (by omega) read₁)

theorem reads_term (sound : Sound rules bound) (enough : before.length ≤ bound + 1)
    (read : term bound rules before = .ok (expr, after)) :
    Reads (.chain .multiplicative expr) before after :=
  reads_chain .multiplicative (fun enough next => reads_power sound enough next) enough
    read

theorem reads_sum (sound : Sound rules bound) (enough : before.length ≤ bound + 1)
    (read : sum bound rules before = .ok (expr, after)) :
    Reads (.chain .additive expr) before after :=
  reads_chain .additive (fun enough next => reads_term sound enough next) enough read

theorem reads_comparison (sound : Sound rules bound) (enough : before.length ≤ bound + 1)
    (read : comparison bound rules before = .ok (expr, after)) :
    Reads (.comparison expr) before after := by
  obtain ⟨found, rest, taken, read₁⟩ := of_bind_ok read
  obtain ⟨rfl, noWord, rfl⟩ | ⟨⟨kind, wordSpan⟩, rfl, present, rfl⟩ := take?_eq_ok.mp taken
  · refine .comparison noWord ?_
    exact reads_chain .comparison (fun enough next => reads_sum sound enough next)
      enough read₁
  · obtain rfl := isKeyword_iff.mp present
    simp only [List.length_cons] at enough
    obtain ⟨operand, _, negated, read₂⟩ := of_bind_ok read₁
    cases read₂
    exact .negation (sound.comparison (by omega) negated)

theorem reads_connection (sound : Sound rules bound) (enough : before.length ≤ bound + 1)
    (read : connection bound rules before = .ok (expr, after)) :
    Reads (.chain .logical expr) before after :=
  reads_chain .logical (fun enough next => reads_comparison sound enough next) enough
    read

/-- Either a name and the assignment mark come next and are taken, or nothing is. -/
theorem target?_eq_ok {found : Option (String × Span)}
    (read : target? before = .ok (found, after)) :
    (found = none ∧ targetAhead before = false ∧ before = after) ∨
      ∃ name span signSpan, found = some (name, span) ∧
        before = ⟨.identifier name, span⟩ :: ⟨.mark .assign, signSpan⟩ :: after := by
  unfold target? at read
  split at read
  · cases read
    exact .inr ⟨_, _, _, rfl, rfl⟩
  · rename_i other
    cases read
    refine .inl ⟨rfl, ?_, rfl⟩
    unfold targetAhead
    split
    · exact absurd rfl (other _ _ _ _)
    · rfl

theorem reads_expression (sound : Sound rules bound) (enough : before.length ≤ bound + 1)
    (read : expression bound rules before = .ok (expr, after)) :
    Reads (.expression expr) before after := by
  obtain ⟨found, rest, taken, read₁⟩ := of_bind_ok read
  obtain ⟨rfl, noWord, rfl⟩ | ⟨⟨kind, wordSpan⟩, rfl, present, rfl⟩ := take?_eq_ok.mp taken
  · obtain ⟨found, rest, targeted, read₂⟩ := of_bind_ok read₁
    obtain ⟨rfl, noTarget, rfl⟩ | ⟨name, span, signSpan, rfl, rfl⟩ := target?_eq_ok targeted
    · exact .connection noWord noTarget (reads_connection sound enough read₂)
    · obtain ⟨value, _, assigned, read₃⟩ := of_bind_ok read₂
      cases read₃
      simp only [List.length_cons] at enough
      exact .assignment (sound.expression (by omega) assigned)
  · obtain rfl := isKeyword_iff.mp present
    obtain ⟨⟨name, nameSpan⟩, _, named, read₂⟩ := of_bind_ok read₁
    obtain rfl := identifier_eq_ok.mp named
    obtain ⟨⟨_, signSpan⟩, _, signed, read₃⟩ := of_bind_ok read₂
    obtain ⟨sign, rfl⟩ := mark_eq_ok.mp signed
    obtain ⟨value, _, assigned, read₄⟩ := of_bind_ok read₃
    cases read₄
    simp only [List.length_cons] at enough
    rw [sign]
    exact .declaration (sound.expression (by omega) assigned)

/-! ## Programs -/

/-- The rules return readings under every bound. The rules for one more token are built from those
for fewer, so the induction is on the bound. -/
theorem sound_rulesUpTo (bound : Nat) : Sound (rulesUpTo bound) bound := by
  induction bound with
  | zero =>
    intro rule expr before after enough read
    cases read
  | succ bound ih =>
    intro rule expr before after enough read
    cases rule with
    | expression => exact reads_expression ih enough read
    | comparison => exact reads_comparison ih enough read
    | power => exact reads_power ih enough read
    | unary => exact reads_unary ih enough read

/-- A program is parsed exactly if it can be read up to the end of the input. -/
theorem parse_eq_ok_iff {tokens : List Token} {root : Located} :
    parse tokens = .ok root ↔ ∃ span rest,
      Reads (.statements (fun _ => false) root) tokens (⟨.endOfInput, span⟩ :: rest) := by
  constructor
  · intro read
    change Prod.fst <$> program tokens.length tokens = _ at read
    cases started : program tokens.length tokens with
    | error error =>
      rw [started] at read
      cases read
    | ok pair =>
      obtain ⟨_, after⟩ := pair
      rw [started] at read
      cases read
      obtain ⟨value, middle, listed, read₁⟩ := of_bind_ok started
      have reads := reads_statements (sound_rulesUpTo _) (Nat.le_refl _) listed
      obtain ⟨⟨kind, span⟩, _, peeked, read₂⟩ := of_bind_ok read₁
      obtain ⟨rfl, rest, rfl⟩ := peek_eq_ok.mp peeked
      cases kind with
      | endOfInput =>
        cases read₂
        exact ⟨span, rest, reads⟩
      | _ => cases read₂
  · rintro ⟨span, rest, reads⟩
    exact parse_eq_ok reads

end Quill.Grammar
