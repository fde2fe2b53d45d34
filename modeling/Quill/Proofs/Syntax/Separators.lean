import Mathlib.Data.List.DropRight
import Quill.Proofs.Syntax.Constructs
import Quill.Proofs.Syntax.Erasing

/-!
# Line feeds and semicolons

Wherever the grammar wants a separator, it takes as many of them as there are, and it does not tell
a line feed from a semicolon. So a row of separators can be replaced by any other one. Two lists of
tokens that differ in this way only are read side by side, and a phrase that is read from the one
is read from the other.
-/

namespace Quill.Grammar

open Quill.Token Quill.Parser

/-- The separator that stands for a row of them. -/
def lineFeed : Token :=
  ⟨.newline, SyntaxError.nowhere⟩

/-- Replaces every row of separators, as long as it is, by a single one. -/
def condense : List Token → List Token
  | [] => []
  | token :: rest =>
    if token.kind.isSeparator then
      lineFeed :: (condense rest).dropWhile (·.kind.isSeparator)
    else
      token :: condense rest

theorem condense_cons {token : Token} (plain : token.kind.isSeparator = false)
    (rest : List Token) : condense (token :: rest) = token :: condense rest := by
  simp [condense, plain]

theorem condense_separator {token : Token} (separates : token.kind.isSeparator = true)
    (rest : List Token) :
    condense (token :: rest) = lineFeed :: (condense rest).dropWhile (·.kind.isSeparator) := by
  simp [condense, separates]

theorem condense_dropWhile (tokens : List Token) :
    condense (tokens.dropWhile (·.kind.isSeparator)) =
      (condense tokens).dropWhile (·.kind.isSeparator) := by
  induction tokens with
  | nil => rfl
  | cons token rest ih =>
    cases separates : token.kind.isSeparator with
    | true =>
      have taken : lineFeed.kind.isSeparator = true := rfl
      rw [condense_separator separates]
      simp only [List.dropWhile_cons, separates, taken, if_true, ih]
      exact (List.dropWhile_idempotent _ _).symm
    | false =>
      simp only [condense_cons separates, List.dropWhile_cons, separates, Bool.false_eq_true,
        if_false]

/-! ## Tokens that differ in separators only -/

/-- The tokens are the same, apart from how the rows of separators among them are made up. -/
def Alike (tokens others : List Token) : Prop :=
  condense tokens = condense others

namespace Alike

variable {tokens others rest : List Token} {token : Token}

/-- A token that is no separator is the first one of both. -/
theorem cons (alike : Alike (token :: rest) others) (plain : token.kind.isSeparator = false) :
    ∃ back, others = token :: back ∧ Alike rest back := by
  rw [Alike, condense_cons plain] at alike
  cases others with
  | nil => cases alike
  | cons other back =>
    cases separates : other.kind.isSeparator with
    | true =>
      rw [condense_separator separates] at alike
      obtain ⟨rfl, -⟩ := List.cons.inj alike
      cases plain
    | false =>
      rw [condense_cons separates] at alike
      obtain ⟨rfl, same⟩ := List.cons.inj alike
      exact ⟨back, rfl, same⟩

/-- Tokens of which none is a separator are the first ones of both. -/
theorem front (tokens : List Token) {back : List Token} (alike : Alike (tokens ++ back) others)
    (plain : tokens.all (!·.kind.isSeparator) = true) :
    ∃ rest, others = tokens ++ rest ∧ Alike back rest := by
  induction tokens generalizing others with
  | nil => exact ⟨others, rfl, alike⟩
  | cons token tokens ih =>
    obtain ⟨first, more⟩ := Bool.and_eq_true_iff.mp plain
    obtain ⟨middle, rfl, later⟩ := alike.cons (by simpa using first)
    obtain ⟨rest, rfl, same⟩ := ih later more
    exact ⟨rest, rfl, same⟩

/-- Both go on alike behind the separators that come first. -/
theorem skip (alike : Alike tokens others) :
    Alike (tokens.dropWhile (·.kind.isSeparator)) (others.dropWhile (·.kind.isSeparator)) := by
  rw [Alike, condense_dropWhile, condense_dropWhile, alike]

theorem ne_nil (alike : Alike tokens others) (present : tokens ≠ []) : others ≠ [] := by
  rintro rfl
  cases tokens with
  | nil => exact present rfl
  | cons token rest =>
    cases separates : token.kind.isSeparator with
    | true =>
      rw [Alike, condense_separator separates] at alike
      cases alike
    | false =>
      rw [Alike, condense_cons separates] at alike
      cases alike

end Alike

/-- The question about a token has one answer for all separators. -/
def Fair (wanted : Kind → Bool) : Prop :=
  wanted .semicolon = wanted .newline

theorem ahead_condense {wanted : Kind → Bool} (fair : Fair wanted) (tokens : List Token) :
    ahead wanted (condense tokens) = ahead wanted tokens := by
  cases tokens with
  | nil => rfl
  | cons token rest =>
    obtain ⟨kind, span⟩ := token
    cases kind with
    | newline => rfl
    | semicolon => exact fair.symm
    | _ => rfl

/-- What is asked about the first token has the same answer for both. -/
theorem Alike.ahead_eq {wanted : Kind → Bool} {answer : Bool} {tokens others : List Token}
    (alike : Alike tokens others) (fair : Fair wanted) (found : ahead wanted tokens = answer) :
    ahead wanted others = answer := by
  rw [← ahead_condense fair, ← alike, ahead_condense fair, found]

theorem targetAhead_condense (tokens : List Token) :
    targetAhead (condense tokens) = targetAhead tokens := by
  match tokens with
  | [] => rfl
  | ⟨.identifier name, span⟩ :: rest =>
    rw [condense_cons rfl, targetAhead_name, targetAhead_name]
    exact ahead_condense (show Fair fun kind => kind.isMark .assign from rfl) rest
  | ⟨.newline, _⟩ :: _ | ⟨.semicolon, _⟩ :: _ | ⟨.float _, _⟩ :: _ | ⟨.int _, _⟩ :: _
  | ⟨.str _, _⟩ :: _ | ⟨.keyword _, _⟩ :: _ | ⟨.mark _, _⟩ :: _ | ⟨.endOfInput, _⟩ :: _ => rfl

theorem Alike.no_target {tokens others : List Token} (alike : Alike tokens others)
    (noTarget : targetAhead tokens = false) : targetAhead others = false := by
  rw [← targetAhead_condense, ← alike, targetAhead_condense, noTarget]

theorem isSeparator_of_binaryOp? {kind : Kind} {op : BinaryOp}
    (operator : kind.binaryOp? = some op) : kind.isSeparator = false := by
  cases kind <;> first | rfl | cases operator

/-! ## Reading side by side -/

/-- What closes the lists of statements in the phrase is asked about alike for all separators. -/
def Phrase.Fair : Phrase → Prop
  | .statementList closing _ | .statements closing _ | .body closing _ _ => Grammar.Fair closing
  | _ => True

theorem fair_endsList {closing : Kind → Bool} (fair : Fair closing) : Fair (endsList closing) :=
  fair

theorem fair_operand (level : Level) (expr : Located) : (Phrase.operand level expr).Fair := by
  cases level <;> trivial

/-- The phrase can be read from other tokens, and leaves tokens like those that it left before. -/
def ReadsAlike (phrase : Phrase) (others after : List Token) : Prop :=
  ∃ final, Alike after final ∧ Reads phrase others final

/-- What is read last of a phrase leaves what the phrase leaves. -/
theorem ReadsAlike.imp {first second : Phrase} {others more after : List Token}
    (reads : ReadsAlike first others after)
    (wider : ∀ final, Alike after final → Reads first others final → Reads second more final) :
    ReadsAlike second more after := by
  obtain ⟨final, alike, read⟩ := reads
  exact ⟨final, alike, wider final alike read⟩

/-- What is read behind a phrase and a token. -/
theorem ReadsAlike.past {phrase : Phrase} {others rest : List Token} {token : Token}
    (reads : ReadsAlike phrase others (token :: rest)) (plain : token.kind.isSeparator = false) :
    ∃ back, Alike rest back ∧ Reads phrase others (token :: back) := by
  obtain ⟨final, alike, read⟩ := reads
  obtain ⟨back, rfl, same⟩ := alike.cons plain
  exact ⟨back, same, read⟩

/-- A phrase that is read from tokens is read from all that differ from them in separators only. -/
theorem Reads.alike {phrase : Phrase} {before after : List Token}
    (reads : Reads phrase before after) :
    phrase.Fair → ∀ {others}, Alike before others → ReadsAlike phrase others after := by
  induction reads with
  | declaration _ ih =>
    intro _ _ alike
    obtain ⟨_, rfl, later⟩ := alike.front [_, _, _] rfl
    exact (ih trivial later).imp fun _ _ => .declaration
  | assignment _ ih =>
    intro _ _ alike
    obtain ⟨_, rfl, later⟩ := alike.front [_, _] rfl
    exact (ih trivial later).imp fun _ _ => .assignment
  | connection noWord noTarget _ ih =>
    intro _ _ alike
    exact (ih trivial alike).imp fun _ _ =>
      .connection (alike.ahead_eq rfl noWord) (alike.no_target noTarget)
  | chain _ _ ihStart ihMore =>
    intro _ _ alike
    obtain ⟨_, alike, start⟩ := ihStart (fair_operand _ _) alike
    exact (ihMore trivial alike).imp fun _ _ => .chain start
  | chainEnd noOperator =>
    intro _ _ alike
    exact ⟨_, alike, .chainEnd (alike.ahead_eq rfl noOperator)⟩
  | chainMore operator admitted _ _ ihOperand ihMore =>
    intro _ _ alike
    obtain ⟨_, rfl, later⟩ := alike.cons (isSeparator_of_binaryOp? operator)
    obtain ⟨_, behind, operand⟩ := ihOperand (fair_operand _ _) later
    exact (ihMore trivial behind).imp fun _ _ => .chainMore operator admitted operand
  | negation _ ih =>
    intro _ _ alike
    obtain ⟨_, rfl, later⟩ := alike.front [_] rfl
    exact (ih trivial later).imp fun _ _ => .negation
  | comparison noWord _ ih =>
    intro _ _ alike
    exact (ih trivial alike).imp fun _ _ => .comparison (alike.ahead_eq rfl noWord)
  | base _ noExponent ih =>
    intro _ _ alike
    exact (ih trivial alike).imp fun _ alike start => .base start (alike.ahead_eq rfl noExponent)
  | power _ _ ihStart ihRaised =>
    intro _ _ alike
    obtain ⟨_, alike, start⟩ := (ihStart trivial alike).past rfl
    exact (ihRaised trivial alike).imp fun _ _ => .power start
  | plus _ ih =>
    intro _ _ alike
    obtain ⟨_, rfl, later⟩ := alike.front [_] rfl
    exact (ih trivial later).imp fun _ _ => .plus
  | smallest =>
    intro _ _ alike
    obtain ⟨_, rfl, later⟩ := alike.front [_, _] rfl
    exact ⟨_, later, .smallest⟩
  | minus noLargest _ ih =>
    intro _ _ alike
    obtain ⟨_, rfl, later⟩ := alike.front [_] rfl
    exact (ih trivial later).imp fun _ _ => .minus (later.ahead_eq rfl noLargest)
  | unsigned noPlus noMinus _ ih =>
    intro _ _ alike
    exact (ih trivial alike).imp fun _ _ =>
      .unsigned (alike.ahead_eq rfl noPlus) (alike.ahead_eq rfl noMinus)
  | call _ _ ihStart ihMore =>
    intro _ _ alike
    obtain ⟨_, alike, start⟩ := ihStart trivial alike
    exact (ihMore trivial alike).imp fun _ _ => .call start
  | callsEnd noList =>
    intro _ _ alike
    exact ⟨_, alike, .callsEnd (alike.ahead_eq rfl noList)⟩
  | callsMore _ _ ihPassed ihMore =>
    intro _ _ alike
    obtain ⟨_, rfl, later⟩ := alike.front [_] rfl
    obtain ⟨_, later, passed⟩ := ihPassed trivial later
    exact (ihMore trivial later).imp fun _ _ => .callsMore passed
  | int small =>
    intro _ _ alike
    obtain ⟨_, rfl, later⟩ := alike.front [_] rfl
    exact ⟨_, later, .int small⟩
  | float =>
    intro _ _ alike
    obtain ⟨_, rfl, later⟩ := alike.front [_] rfl
    exact ⟨_, later, .float⟩
  | str =>
    intro _ _ alike
    obtain ⟨_, rfl, later⟩ := alike.front [_] rfl
    exact ⟨_, later, .str⟩
  | named _ ih =>
    intro _ _ alike
    obtain ⟨_, rfl, later⟩ := alike.front [_] rfl
    exact (ih trivial later).imp fun _ _ => .named
  | «variable» noDot =>
    intro _ _ alike
    exact ⟨_, alike, .variable (alike.ahead_eq rfl noDot)⟩
  | member noAssign =>
    intro _ _ alike
    obtain ⟨_, rfl, later⟩ := alike.front [_, _] rfl
    exact ⟨_, later, .member (later.ahead_eq rfl noAssign)⟩
  | memberAssignment _ ih =>
    intro _ _ alike
    obtain ⟨_, rfl, later⟩ := alike.front [_, _, _] rfl
    exact (ih trivial later).imp fun _ _ => .memberAssignment
  | parens _ ih =>
    intro _ _ alike
    obtain ⟨_, rfl, later⟩ := alike.front [_] rfl
    obtain ⟨_, later, inner⟩ := (ih trivial later).past rfl
    exact ⟨_, later, .parens inner⟩
  | list _ ih =>
    intro _ _ alike
    obtain ⟨_, rfl, later⟩ := alike.front [_] rfl
    exact (ih trivial later).imp fun _ _ => .list
  | choice _ ih =>
    intro _ _ alike
    obtain ⟨_, rfl, later⟩ := alike.front [_] rfl
    exact (ih trivial later).imp fun _ _ => .choice
  | forLoop _ _ _ _ _ ihStart ihStop ihStep ihBody ihEnd =>
    intro _ _ alike
    obtain ⟨_, rfl, later⟩ := alike.front [_, _, _] rfl
    obtain ⟨_, later, started⟩ := (ihStart trivial later).past rfl
    obtain ⟨_, later, stopped⟩ := ihStop trivial later
    obtain ⟨_, later, stepped⟩ := (ihStep trivial later).past rfl
    obtain ⟨_, later, repeated⟩ := ihBody rfl later
    exact (ihEnd trivial later).imp fun _ _ => .forLoop started stopped stepped repeated
  | stepNone noStep =>
    intro _ _ alike
    exact ⟨_, alike, .stepNone (alike.ahead_eq rfl noStep)⟩
  | stepSome _ ih =>
    intro _ _ alike
    obtain ⟨_, rfl, later⟩ := alike.front [_] rfl
    exact (ih trivial later).imp fun _ _ => .stepSome
  | whileLoop _ _ _ ihCondition ihBody ihEnd =>
    intro _ _ alike
    obtain ⟨_, rfl, later⟩ := alike.front [_] rfl
    obtain ⟨_, later, conditional⟩ := (ihCondition trivial later).past rfl
    obtain ⟨_, later, repeated⟩ := ihBody rfl later
    exact (ihEnd trivial later).imp fun _ _ => .whileLoop conditional repeated
  | functionOf _ _ _ ihCalled ihPassed ihValued =>
    intro _ _ alike
    obtain ⟨_, rfl, later⟩ := alike.front [_] rfl
    obtain ⟨_, later, called⟩ := (ihCalled trivial later).past rfl
    obtain ⟨_, later, passed⟩ := (ihPassed trivial later).past rfl
    exact (ihValued trivial later).imp fun _ _ => .functionOf called passed
  | functionBlock _ _ newLine _ ihCalled ihPassed ihBlocked =>
    intro _ _ alike
    obtain ⟨_, rfl, later⟩ := alike.front [_] rfl
    obtain ⟨_, later, called⟩ := (ihCalled trivial later).past rfl
    obtain ⟨_, fromBody, passed⟩ := ihPassed trivial later
    obtain ⟨_, behind, blocked⟩ := (ihBlocked rfl fromBody).past rfl
    exact ⟨_, behind, .functionBlock called passed (fromBody.ahead_eq rfl newLine) blocked⟩
  | noName present noIdentifier =>
    intro _ _ alike
    exact ⟨_, alike, .noName (alike.ne_nil present) (alike.ahead_eq rfl noIdentifier)⟩
  | name =>
    intro _ _ alike
    obtain ⟨_, rfl, later⟩ := alike.front [_] rfl
    exact ⟨_, later, .name⟩
  | template newLine _ ih =>
    intro _ _ alike
    obtain ⟨_, rfl, later⟩ := alike.front [_, _] rfl
    obtain ⟨_, behind, blocked⟩ := (ih rfl later).past rfl
    exact ⟨_, behind, .template (later.ahead_eq rfl newLine) blocked⟩
  | instantiate =>
    intro _ _ alike
    obtain ⟨_, rfl, later⟩ := alike.front [_, _] rfl
    exact ⟨_, later, .instantiate⟩
  | noElements =>
    intro _ _ alike
    obtain ⟨_, rfl, later⟩ := alike.front [_] rfl
    exact ⟨_, later, .noElements⟩
  | elements noClosing _ ih =>
    intro _ _ alike
    exact (ih trivial alike).imp fun _ _ => .elements (alike.ahead_eq rfl noClosing)
  | lastItem other _ ih =>
    intro _ _ alike
    obtain ⟨_, alike, item⟩ := (ih trivial alike).past rfl
    exact ⟨_, alike, .lastItem other item⟩
  | moreItems _ _ ihItem ihMore =>
    intro _ _ alike
    obtain ⟨_, alike, item⟩ := (ihItem trivial alike).past rfl
    exact (ihMore trivial alike).imp fun _ _ => .moreItems item
  | noParameters =>
    intro _ _ alike
    obtain ⟨_, rfl, later⟩ := alike.front [_] rfl
    exact ⟨_, later, .noParameters⟩
  | parameters _ ih =>
    intro _ _ alike
    exact (ih trivial alike).imp fun _ _ => .parameters
  | lastName =>
    intro _ _ alike
    obtain ⟨_, rfl, later⟩ := alike.front [_, _] rfl
    exact ⟨_, later, .lastName⟩
  | moreNames _ ih =>
    intro _ _ alike
    obtain ⟨_, rfl, later⟩ := alike.front [_, _] rfl
    exact (ih trivial later).imp fun _ _ => .moreNames
  | returnNone noValue =>
    intro _ _ alike
    obtain ⟨_, rfl, later⟩ := alike.front [_] rfl
    exact ⟨_, later, .returnNone (later.ahead_eq rfl noValue)⟩
  | returnSome hasValue _ ih =>
    intro _ _ alike
    obtain ⟨_, rfl, later⟩ := alike.front [_] rfl
    exact (ih trivial later).imp fun _ _ => .returnSome (later.ahead_eq rfl hasValue)
  | continueLoop =>
    intro _ _ alike
    obtain ⟨_, rfl, later⟩ := alike.front [_] rfl
    exact ⟨_, later, .continueLoop⟩
  | breakLoop =>
    intro _ _ alike
    obtain ⟨_, rfl, later⟩ := alike.front [_] rfl
    exact ⟨_, later, .breakLoop⟩
  | statement noJump _ ih =>
    intro _ _ alike
    exact (ih trivial alike).imp fun _ _ => .statement (alike.ahead_eq rfl noJump)
  | noStatements closed =>
    intro fair _ alike
    exact ⟨_, alike, .noStatements (alike.ahead_eq (fair_endsList fair) closed)⟩
  | lastStatement opened _ noSeparator ih =>
    intro fair _ alike
    exact (ih trivial alike).imp fun _ behind first =>
      .lastStatement (alike.ahead_eq (fair_endsList fair) opened) first
        (behind.ahead_eq rfl noSeparator)
  | moreStatements opened _ separated _ ihFirst ihMore =>
    intro fair _ alike
    obtain ⟨_, behind, first⟩ := ihFirst trivial alike
    exact (ihMore fair behind.skip).imp fun _ _ =>
      .moreStatements (alike.ahead_eq (fair_endsList fair) opened) first
        (behind.ahead_eq rfl separated)
  | @statements _ _ _ before rest _ skipped _ ih =>
    intro fair _ alike
    -- The token behind the separators is none itself, so it is there in both.
    have plain := not_ahead_dropWhile before
    have alike := alike.skip
    rw [skipped] at plain alike
    obtain ⟨_, same, later⟩ := alike.cons plain
    exact (ih fair (same ▸ alike)).imp fun _ _ => .statements same
  | block newLine _ ih =>
    intro fair _ alike
    exact (ih fair alike).imp fun _ _ => .block (alike.ahead_eq rfl newLine)
  | single sameLine _ ih =>
    intro _ _ alike
    exact (ih trivial alike).imp fun _ _ => .single (alike.ahead_eq rfl sameLine)
  | endOfBlock =>
    intro _ _ alike
    obtain ⟨_, rfl, later⟩ := alike.front [_] rfl
    exact ⟨_, later, .endOfBlock⟩
  | endOfLine =>
    intro _ _ alike
    exact ⟨_, alike, .endOfLine⟩
  | elif _ _ _ ihCondition ihBody ihMore =>
    intro _ _ alike
    obtain ⟨_, alike, conditional⟩ := (ihCondition trivial alike).past rfl
    obtain ⟨_, alike, chosen⟩ := (ihBody rfl alike).past rfl
    exact (ihMore trivial alike).imp fun _ _ => .elif conditional chosen
  | otherwise _ _ _ _ ihCondition ihBody ihOther ihEnd =>
    intro _ _ alike
    obtain ⟨_, alike, conditional⟩ := (ihCondition trivial alike).past rfl
    obtain ⟨_, alike, chosen⟩ := (ihBody rfl alike).past rfl
    obtain ⟨_, alike, alternative⟩ := ihOther rfl alike
    exact (ihEnd trivial alike).imp fun _ _ => .otherwise conditional chosen alternative
  | lastBranch _ _ present noElif noElse _ ihCondition ihBody ihEnd =>
    intro _ _ alike
    obtain ⟨_, alike, conditional⟩ := (ihCondition trivial alike).past rfl
    obtain ⟨_, alike, chosen⟩ := ihBody rfl alike
    exact (ihEnd trivial alike).imp fun _ _ =>
      .lastBranch conditional chosen (alike.ne_nil present) (alike.ahead_eq rfl noElif)
        (alike.ahead_eq rfl noElse)

/-! ## Programs -/

/-- Programs that differ in separators only are the same, with the same spans. -/
theorem parse_eq_of_alike {tokens others : List Token} {root : Located}
    (alike : Alike tokens others) (parsed : parse tokens = .ok root) : parse others = .ok root := by
  obtain ⟨span, rest, reads⟩ := parse_eq_ok_iff.mp parsed
  obtain ⟨back, -, again⟩ := (reads.alike rfl alike).past rfl
  exact parse_eq_ok again

/-- Spans can be erased before or after. -/
theorem condense_map_erasing (tokens : List Token) :
    condense (tokens.map Respanning.erasing.token) =
      (condense tokens).map Respanning.erasing.token := by
  induction tokens with
  | nil => rfl
  | cons token rest ih =>
    have kind : (Respanning.erasing.token token).kind = token.kind := rfl
    cases separates : token.kind.isSeparator with
    | true =>
      rw [List.map_cons, condense_separator (kind ▸ separates), condense_separator separates,
        List.map_cons, ih, Respanning.erasing.dropWhile_map]
      rfl
    | false =>
      rw [List.map_cons, condense_cons (kind ▸ separates), condense_cons separates,
        List.map_cons, ih]

/-- The kinds of tokens with a single separator for every row of them. -/
def condensedKinds (tokens : List Token) : List Kind :=
  kindsOf (condense tokens)

/-- What is a program with some separators between its statements is the same program, apart from
its spans, with others. -/
theorem exists_parse_of_condensed {tokens others : List Token} {root : Located}
    (same : condensedKinds tokens = condensedKinds others) (parsed : parse tokens = .ok root) :
    ∃ again, parse others = .ok again ∧ again.bare = root.bare := by
  have alike : Alike (tokens.map Respanning.erasing.token)
      (others.map Respanning.erasing.token) := by
    rw [Alike, condense_map_erasing, condense_map_erasing, Respanning.map_erasing same]
  have erased := parse_eq_of_alike alike (Respanning.erasing.parse_map parsed)
  have kinds : kindsOf others = kindsOf (others.map Respanning.erasing.token) := by
    simp [kindsOf, Respanning.token]
  obtain ⟨again, accepted, bare⟩ := exists_parse_of_kindsOf kinds erased
  exact ⟨again, accepted, bare.trans (Respanning.bare_erasing root)⟩

/-- Tokens that become the same when every row of line feeds and semicolons is replaced by a single
separator are both programs or both none, and they are the same program apart from its spans. -/
theorem parse_condensed {tokens others : List Token}
    (same : condensedKinds tokens = condensedKinds others) :
    ((∃ root, parse tokens = .ok root) ↔ ∃ other, parse others = .ok other) ∧
      ∀ root other, parse tokens = .ok root → parse others = .ok other →
        root.bare = other.bare := by
  refine ⟨⟨fun ⟨root, parsed⟩ => ?_, fun ⟨other, parsed⟩ => ?_⟩, fun root other parsed again => ?_⟩
  · exact (exists_parse_of_condensed same parsed).imp fun _ => And.left
  · exact (exists_parse_of_condensed same.symm parsed).imp fun _ => And.left
  · obtain ⟨found, accepted, bare⟩ := exists_parse_of_condensed same parsed
    rw [Except.ok.inj (again.symm.trans accepted), bare]

/-- A choice with the given separators around the statement of its block. -/
def blockBetween (separators : List Kind) : List Token :=
  (Kind.keyword .ifWord :: .identifier "x" :: .keyword .thenWord :: (separators ++
    .identifier "y" :: (separators ++ [.keyword .endWord, .endOfInput]))).map supplied

/-- A semicolon and two empty lines around the statement of a block are as good as one line feed. -/
theorem parse_condensed_block :
    (parse (blockBetween [.newline])).isOk = true ∧
      condensedKinds (blockBetween [.newline]) =
        condensedKinds (blockBetween [.semicolon, .newline, .newline]) ∧
      ((∃ root, parse (blockBetween [.newline]) = .ok root) ↔
        ∃ other, parse (blockBetween [.semicolon, .newline, .newline]) = .ok other) ∧
      ∀ root other, parse (blockBetween [.newline]) = .ok root →
        parse (blockBetween [.semicolon, .newline, .newline]) = .ok other →
          root.bare = other.bare :=
  ⟨by decide +kernel, rfl, parse_condensed rfl⟩

end Quill.Grammar
