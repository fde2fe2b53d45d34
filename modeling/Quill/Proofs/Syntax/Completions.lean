import Quill.Proofs.Syntax.Constructs
import Quill.Proofs.Syntax.Soundness
import Quill.Proofs.Syntax.Tails

/-!
# Completing what was left unfinished

A parser that runs out of tokens, or takes all there are, has only seen the beginning of something:
there are tokens that complete it. What is supplied is always the shortest thing that will do: a
constant for an expression, the words and marks that a construct still needs, and the word that
closes a block. Behind it there may be anything that pulls nothing away.
-/

namespace Quill.Grammar

open Quill.Token Quill.Parser

variable {Result Other : Type} {tokens : List Token}

/-- The parser goes on to the end of the tokens, and may have wanted more of them. -/
def Exhausts (parser : Parser Result) (tokens : List Token) : Prop :=
  parser tokens = .error .ended ∨ ∃ result, parser tokens = .ok (result, [])

namespace Exhausts

theorem pure_iff {result : Result} : Exhausts (pure result) tokens ↔ tokens = [] := by
  constructor
  · rintro (failed | ⟨result, read⟩)
    · cases failed
    · exact (Prod.mk.inj (Except.ok.inj read)).2
  · rintro rfl
    exact .inr ⟨result, rfl⟩

theorem not_fail {cause : SyntaxError.Cause} {span : Span} (other : cause ≠ .endOfTokens) :
    ¬ Exhausts (fail cause span : Parser Result) tokens := by
  rintro (failed | ⟨result, read⟩)
  · cases failed
    exact other rfl
  · cases read

theorem congr {first second : Parser Result} {others : List Token}
    (same : first tokens = second others) (exhausts : Exhausts first tokens) :
    Exhausts second others := by
  unfold Exhausts at *
  rwa [same] at exhausts

/-- A sequence that exhausts the tokens does so in its first part, or leaves something for the
second part, which does. -/
theorem of_bind {first : Parser Result} {next : Result → Parser Other}
    (exhausts : Exhausts (first >>= next) tokens) :
    Exhausts first tokens ∨ ∃ result token rest, first tokens = .ok (result, token :: rest) ∧
      Exhausts (next result) (token :: rest) := by
  cases started : first tokens with
  | error error =>
    obtain failed | ⟨result, read⟩ := exhausts
    · rw [bind_error started] at failed
      cases failed
      exact .inl (.inl started)
    · rw [bind_error started] at read
      cases read
  | ok pair =>
    obtain ⟨result, middle⟩ := pair
    cases middle with
    | nil => exact .inl (.inr ⟨result, started⟩)
    | cons token rest => exact .inr ⟨result, token, rest, rfl, exhausts.congr (bind_eq started)⟩

/-- If nothing but the result is made of what is read, it is what is read that is exhausted. -/
theorem of_bind_pure {first : Parser Result} {view : Result → Other}
    (exhausts : Exhausts (first >>= fun result => pure (view result)) tokens) :
    Exhausts first tokens := by
  obtain started | ⟨_, token, rest, -, none⟩ := exhausts.of_bind
  · exact started
  · cases pure_iff.mp none

theorem of_expect {wanted : Kind → Bool} {what : Expectation} {next : Token → Parser Other}
    (exhausts : Exhausts (expect wanted what >>= next) tokens) :
    tokens = [] ∨ ∃ token rest, tokens = token :: rest ∧ wanted token.kind = true ∧
      Exhausts (next token) rest := by
  cases tokens with
  | nil => exact .inl rfl
  | cons token rest =>
    cases wants : wanted token.kind with
    | true =>
      exact .inr ⟨token, rest, rfl, wants, exhausts.congr (bind_eq (expect_eq_ok.mpr ⟨wants, rfl⟩))⟩
    | false =>
      have failed : expect wanted what (token :: rest) = .error ⟨.expected what, token.span⟩ := by
        simp [expect, wants]
      have blamed : Exhausts (fail (.expected what) token.span : Parser Other) [] :=
        exhausts.congr (bind_error failed)
      exact absurd blamed (not_fail (by simp))

theorem of_mark {sign : Mark} {next : Token → Parser Other}
    (exhausts : Exhausts (mark sign >>= next) tokens) :
    tokens = [] ∨ ∃ span rest, tokens = ⟨.mark sign, span⟩ :: rest ∧
      Exhausts (next ⟨.mark sign, span⟩) rest := by
  obtain none | ⟨⟨kind, span⟩, rest, shape, marked, behind⟩ := exhausts.of_expect
  · exact .inl none
  · obtain rfl := isMark_iff.mp marked
    exact .inr ⟨span, rest, shape, behind⟩

theorem of_keyword {word : Keyword} {next : Token → Parser Other}
    (exhausts : Exhausts (keyword word >>= next) tokens) :
    tokens = [] ∨ ∃ span rest, tokens = ⟨.keyword word, span⟩ :: rest ∧
      Exhausts (next ⟨.keyword word, span⟩) rest := by
  obtain none | ⟨⟨kind, span⟩, rest, shape, worded, behind⟩ := exhausts.of_expect
  · exact .inl none
  · obtain rfl := isKeyword_iff.mp worded
    exact .inr ⟨span, rest, shape, behind⟩

theorem of_identifier {next : String × Span → Parser Other}
    (exhausts : Exhausts (identifier >>= next) tokens) :
    tokens = [] ∨ ∃ name span rest, tokens = ⟨.identifier name, span⟩ :: rest ∧
      Exhausts (next (name, span)) rest := by
  cases tokens with
  | nil => exact .inl rfl
  | cons token rest =>
    obtain ⟨kind, span⟩ := token
    cases kind with
    | identifier name => exact .inr ⟨name, span, rest, rfl, exhausts⟩
    | _ =>
      have blamed : Exhausts (fail (.expected .identifier) span : Parser Other) [] := exhausts
      exact absurd blamed (not_fail (by simp))

theorem of_next {next : Token → Parser Other}
    (exhausts : Exhausts (Parser.next >>= next) tokens) :
    tokens = [] ∨ ∃ token rest, tokens = token :: rest ∧ Exhausts (next token) rest := by
  cases tokens with
  | nil => exact .inl rfl
  | cons token rest => exact .inr ⟨token, rest, rfl, exhausts⟩

theorem of_peek {next : Token → Parser Other}
    (exhausts : Exhausts (Parser.peek >>= next) tokens) :
    tokens = [] ∨ ∃ token rest, tokens = token :: rest ∧ Exhausts (next token) (token :: rest) := by
  cases tokens with
  | nil => exact .inl rfl
  | cons token rest => exact .inr ⟨token, rest, rfl, exhausts⟩

theorem of_take? {wanted : Kind → Bool} {next : Option Token → Parser Other}
    (exhausts : Exhausts (Parser.take? wanted >>= next) tokens) :
    (∃ token rest, tokens = token :: rest ∧ wanted token.kind = true ∧
      Exhausts (next (some token)) rest) ∨
      ahead wanted tokens = false ∧ Exhausts (next none) tokens := by
  cases found : ahead wanted tokens with
  | false => exact .inr ⟨rfl, exhausts.congr (bind_eq (take?_of_ahead found))⟩
  | true =>
    obtain ⟨token, rest, rfl, wants⟩ := of_ahead found
    exact .inl ⟨token, rest, rfl, wants, exhausts.congr (bind_eq (take?_cons rest wants))⟩

theorem of_atSeparator {next : Bool → Parser Other}
    (exhausts : Exhausts (Parser.atSeparator >>= next) tokens) :
    Exhausts (next (ahead (·.isSeparator) tokens)) tokens :=
  exhausts.congr (bind_eq (atSeparator_apply tokens))

theorem of_separators {next : Bool → Parser Other}
    (exhausts : Exhausts (Parser.separators >>= next) tokens) :
    Exhausts (next (ahead (·.isSeparator) tokens)) (tokens.dropWhile (·.kind.isSeparator)) :=
  exhausts.congr (bind_eq (separators_apply tokens))

/-- An enumeration that is not finished goes on behind a comma, or ends with the closing mark. -/
theorem of_items {Item : Type} {item : Parser Item} {closing : Mark} {rounds : Nat}
    (exhausts : Exhausts (items item closing (rounds + 1)) tokens) :
    Exhausts item tokens ∨ ∃ first span,
      (∃ rest, item tokens = .ok (first, ⟨.mark .comma, span⟩ :: rest) ∧
        Exhausts (items item closing rounds) rest) ∨
      item tokens = .ok (first, [⟨.mark closing, span⟩]) := by
  obtain started | ⟨first, token, rest, started, behind⟩ := exhausts.of_bind
  · exact .inl started
  obtain none | ⟨⟨kind, span⟩, _, shape, behind⟩ := behind.of_next
  · cases none
  obtain ⟨rfl, rfl⟩ := List.cons.inj shape
  refine .inr ⟨first, span, ?_⟩
  cases comma : kind.isMark .comma with
  | true =>
    obtain rfl := isMark_iff.mp comma
    simp only [comma, if_true] at behind
    exact .inl ⟨rest, started, behind.of_bind_pure⟩
  | false =>
    cases closes : kind.isMark closing with
    | true =>
      obtain rfl := isMark_iff.mp closes
      simp only [comma, closes, if_true, Bool.false_eq_true, if_false] at behind
      obtain rfl := pure_iff.mp behind
      exact .inr started
    | false =>
      simp only [comma, closes, Bool.false_eq_true, if_false] at behind
      exact absurd behind (not_fail (by simp))

end Exhausts

/-! ## Supplied tokens -/

/-- Nothing in front of the tokens is pulled away by them. -/
def Unpulled (rest : List Token) : Prop :=
  pullAhead rest = 0

/-- The tokens can be completed to a phrase that is read in front of everything quiet. -/
def Completes (quiet : List Token → Prop) (phrase : Result → Phrase) (tokens : List Token) : Prop :=
  ∃ more, ∀ rest, quiet rest → ∃ result, Reads (phrase result) (tokens ++ (more ++ rest)) rest

/-- A token that stands in no text. -/
def supplied (kind : Kind) : Token :=
  ⟨kind, SyntaxError.nowhere⟩

/-- A token that is a whole expression. -/
def constant : Token :=
  supplied (.int 1)

theorem placed_constant (rest : List Token) :
    Placed Rank.atom (.literal (.int (Int64.ofNat 1)) SyntaxError.nowhere) (constant :: rest)
      rest :=
  ⟨Nat.le_refl _, rfl, fun _ => rfl, .int (by decide)⟩

theorem reads_constant {rest : List Token} (quiet : Unpulled rest) :
    Reads (.expression (.literal (.int (Int64.ofNat 1)) SyntaxError.nowhere)) (constant :: rest)
      rest :=
  (placed_constant rest).expression (Nat.le_refl _) (free_of_pullAhead quiet) (by decide)

theorem reads_constantLine {rest : List Token} (quiet : Unpulled rest) :
    Reads (.statement (.literal (.int (Int64.ofNat 1)) SyntaxError.nowhere)) (constant :: rest)
      rest :=
  (reads_plain (reads_constant quiet) (show 0 < Rank.atom by decide)).1

/-- More tokens behind those that a reading leaves do not change it, unless it leaves none. -/
theorem Reads.extend {phrase : Phrase} {before : List Token} {token : Token} {rest : List Token}
    (reads : Reads phrase before (token :: rest)) (more : List Token) :
    Reads phrase (before ++ more) (token :: rest ++ more) := by
  obtain ⟨taken, rfl, -, again⟩ := reads.isLocal
  rw [List.append_assoc]
  exact again _ (.cons _ _ _ _)

variable {bound : Nat}

/-- Whatever exhausts the parser of a rule can be completed to what the rule reads. -/
def RulesComplete (bound : Nat) : Prop :=
  ∀ (rule : Rule) (tokens : List Token), tokens.length ≤ bound →
    Exhausts (rulesUpTo bound rule) tokens → Completes Unpulled (Phrase.ofRule rule) tokens

/-! ## Enumerations -/

/-- What `items` and `enumeration` read. -/
abbrev Listed (kind : List Located → Token → Phrase) (read : List Located × Token) : Phrase :=
  kind read.1 read.2

theorem completes_items (complete : RulesComplete bound) {closing : Mark}
    (other : closing ≠ .comma) (quiet : pull (.mark closing) = 0) {rounds : Nat}
    (within : tokens.length ≤ bound) (enough : tokens.length ≤ rounds)
    (exhausts : Exhausts (items (rulesUpTo bound .expression) closing rounds) tokens) :
    Completes (fun _ => True) (Listed (.items closing)) tokens := by
  induction rounds generalizing tokens with
  | zero =>
    obtain rfl := List.length_eq_zero_iff.mp (Nat.le_zero.mp enough)
    exact ⟨[constant, supplied (.mark closing)],
      fun rest _ => ⟨(_, _), .lastItem other (reads_constant quiet)⟩⟩
  | succ rounds ih =>
    obtain started | ⟨element, span, ⟨rest, started, behind⟩ | started⟩ := exhausts.of_items
    · obtain ⟨more, completed⟩ := complete .expression tokens within started
      refine ⟨more ++ [supplied (.mark closing)], fun rest _ => ?_⟩
      obtain ⟨element, reads⟩ := completed (supplied (.mark closing) :: rest) quiet
      rw [List.append_assoc]
      exact ⟨(_, _), .lastItem other reads⟩
    · have reads : Reads (.expression element) _ _ := sound_rulesUpTo bound within started
      have shorter := reads.length_le
      simp only [List.length_cons, Phrase.least] at shorter
      obtain ⟨more, completed⟩ := ih (by omega) (by omega) behind
      refine ⟨more, fun rest quiet => ?_⟩
      obtain ⟨⟨elements, last⟩, others⟩ := completed rest quiet
      exact ⟨(_, _), .moreItems (reads.extend _) others⟩
    · have reads : Reads (.expression element) _ _ := sound_rulesUpTo bound within started
      exact ⟨[], fun rest _ => ⟨(_, _), .lastItem other (reads.extend rest)⟩⟩

theorem completes_enumeration (complete : RulesComplete bound) {closing : Mark}
    (other : closing ≠ .comma) (quiet : pull (.mark closing) = 0)
    (within : tokens.length ≤ bound)
    (exhausts : Exhausts (enumeration bound (rulesUpTo bound .expression) closing) tokens) :
    Completes (fun _ => True) (Listed (.enumeration closing)) tokens := by
  obtain ⟨⟨kind, span⟩, rest, rfl, closes, behind⟩ | ⟨noClosing, behind⟩ := exhausts.of_take?
  · obtain rfl := isMark_iff.mp closes
    obtain rfl := Exhausts.pure_iff.mp behind
    exact ⟨[], fun rest _ => ⟨(_, _), .noElements⟩⟩
  cases tokens with
  | nil => exact ⟨[supplied (.mark closing)], fun rest _ => ⟨(_, _), .noElements⟩⟩
  | cons token tokens =>
    obtain ⟨more, completed⟩ := completes_items complete other quiet within within behind
    refine ⟨more, fun rest quiet => ?_⟩
    obtain ⟨⟨elements, last⟩, listed⟩ := completed rest quiet
    exact ⟨(elements, last), .elements noClosing listed⟩

/-- What the parameters of a function are read as. -/
abbrev ListedNames (kind : List String → Token → Phrase) (read : List String × Token) : Phrase :=
  kind read.1 read.2

theorem completes_names {rounds : Nat} (enough : tokens.length ≤ rounds)
    (exhausts : Exhausts (items (Prod.fst <$> identifier) .closeParen rounds) tokens) :
    Completes (fun _ => True) (ListedNames .names) tokens := by
  induction rounds generalizing tokens with
  | zero =>
    obtain rfl := List.length_eq_zero_iff.mp (Nat.le_zero.mp enough)
    exact ⟨[supplied (.identifier ""), supplied (.mark .closeParen)],
      fun rest _ => ⟨(_, _), .lastName⟩⟩
  | succ rounds ih =>
    obtain started | ⟨name, span, ⟨rest, started, behind⟩ | started⟩ := exhausts.of_items
    · rw [map_eq_pure_bind] at started
      obtain rfl | ⟨name, nameSpan, rest, rfl, behind⟩ := started.of_identifier
      · exact ⟨[supplied (.identifier ""), supplied (.mark .closeParen)],
          fun rest _ => ⟨(_, _), .lastName⟩⟩
      · obtain rfl := Exhausts.pure_iff.mp behind
        exact ⟨[supplied (.mark .closeParen)], fun rest _ => ⟨(_, _), .lastName⟩⟩
    · obtain ⟨⟨name, nameSpan⟩, named, rfl⟩ := of_map_ok started
      obtain rfl := identifier_eq_ok.mp named
      simp only [List.length_cons] at enough
      obtain ⟨more, completed⟩ := ih (by omega) behind
      refine ⟨more, fun rest quiet => ?_⟩
      obtain ⟨⟨names, last⟩, others⟩ := completed rest quiet
      exact ⟨(_, _), .moreNames others⟩
    · obtain ⟨⟨name, nameSpan⟩, named, rfl⟩ := of_map_ok started
      obtain rfl := identifier_eq_ok.mp named
      exact ⟨[], fun rest _ => ⟨(_, _), .lastName⟩⟩

theorem completes_parameters (within : tokens.length ≤ bound)
    (exhausts : Exhausts (enumeration bound (Prod.fst <$> identifier) .closeParen) tokens) :
    Completes (fun _ => True) (ListedNames .parameters) tokens := by
  obtain ⟨⟨kind, span⟩, rest, rfl, closes, behind⟩ | ⟨-, behind⟩ := exhausts.of_take?
  · obtain rfl := isMark_iff.mp closes
    obtain rfl := Exhausts.pure_iff.mp behind
    exact ⟨[], fun rest _ => ⟨(_, _), .noParameters⟩⟩
  · obtain ⟨more, completed⟩ := completes_names within behind
    refine ⟨more, fun rest quiet => ?_⟩
    obtain ⟨⟨names, last⟩, listed⟩ := completed rest quiet
    exact ⟨(names, last), .parameters listed⟩

/-! ## Statements -/

theorem completes_statement (complete : RulesComplete bound) (within : tokens.length ≤ bound)
    (exhausts : Exhausts (statement (rulesUpTo bound)) tokens) :
    Completes Unpulled .statement tokens := by
  cases tokens with
  | nil => exact ⟨[constant], fun rest quiet => ⟨_, reads_constantLine quiet⟩⟩
  | cons token tokens =>
    cases jump : ahead startsJump (token :: tokens) with
    | false =>
      obtain ⟨more, completed⟩ :=
        complete .expression _ within (exhausts.congr (statement_of_ahead jump))
      refine ⟨more, fun rest quiet => ?_⟩
      obtain ⟨expr, reads⟩ := completed rest quiet
      exact ⟨expr, .statement jump reads⟩
    | true =>
      obtain ⟨kind, span⟩ := token
      have starts : startsJump kind = true := jump
      simp only [startsJump, Bool.or_eq_true, isKeyword_iff] at starts
      simp only [List.length_cons] at within
      obtain (rfl | rfl) | rfl := starts
      · have looked : Exhausts (Parser.peek >>= fun token =>
            if endsStatement token.kind then pure (Expr.returnWith none span)
            else do
              let value ← rulesUpTo bound .expression
              return Expr.returnWith (some value) (span.through value.note)) tokens := exhausts
        obtain rfl | ⟨token, rest, rfl, behind⟩ := looked.of_peek
        · exact ⟨[constant], fun rest quiet => ⟨_, .returnSome rfl (reads_constant quiet)⟩⟩
        cases ends : endsStatement token.kind with
        | true =>
          simp only [ends, if_true] at behind
          cases Exhausts.pure_iff.mp behind
        | false =>
          simp only [ends, Bool.false_eq_true, if_false] at behind
          obtain ⟨more, completed⟩ := complete .expression _ (by omega) behind.of_bind_pure
          refine ⟨more, fun rest quiet => ?_⟩
          obtain ⟨expr, reads⟩ := completed rest quiet
          exact ⟨_, .returnSome ends reads⟩
      · have behind : Exhausts (pure (.continueLoop span) : Parser Located) tokens := exhausts
        obtain rfl := Exhausts.pure_iff.mp behind
        exact ⟨[], fun rest _ => ⟨_, .continueLoop⟩⟩
      · have behind : Exhausts (pure (.breakLoop span) : Parser Located) tokens := exhausts
        obtain rfl := Exhausts.pure_iff.mp behind
        exact ⟨[], fun rest _ => ⟨_, .breakLoop⟩⟩

/-- A list of statements ends in front of the tokens, whatever is behind them. -/
structure EndsList (closing : Kind → Bool) (rest : List Token) : Prop where
  unpulled : Unpulled rest
  ends : ahead (endsList closing) rest = true
  noSeparator : ahead (·.isSeparator) rest = false

theorem endsList_end {closing : Kind → Bool} (closes : closing (.keyword .endWord) = true)
    (span : Span) (rest : List Token) : EndsList closing (⟨.keyword .endWord, span⟩ :: rest) :=
  ⟨rfl, closes, rfl⟩

theorem completes_statementList (complete : RulesComplete bound) {closing : Kind → Bool}
    {rounds : Nat} (within : tokens.length ≤ bound) (enough : tokens.length ≤ rounds)
    (exhausts : Exhausts (statementList (rulesUpTo bound) closing rounds) tokens) :
    Completes (EndsList closing) (.statementList closing) tokens := by
  induction rounds generalizing tokens with
  | zero =>
    obtain rfl := List.length_eq_zero_iff.mp (Nat.le_zero.mp enough)
    exact ⟨[], fun rest quiet => ⟨_, .noStatements quiet.ends⟩⟩
  | succ rounds ih =>
    obtain rfl | ⟨token, tokens, rfl, behind⟩ := exhausts.of_peek
    · exact ⟨[], fun rest quiet => ⟨_, .noStatements quiet.ends⟩⟩
    cases opened : endsList closing token.kind with
    | true =>
      simp only [opened, if_true] at behind
      cases Exhausts.pure_iff.mp behind
    | false =>
      simp only [opened, Bool.false_eq_true, if_false] at behind
      obtain started | ⟨first, next, middle, started, behind⟩ := behind.of_bind
      · obtain ⟨more, completed⟩ := completes_statement complete within started
        refine ⟨more, fun rest quiet => ?_⟩
        obtain ⟨expr, reads⟩ := completed rest quiet.unpulled
        exact ⟨_, .lastStatement opened reads quiet.noSeparator⟩
      have reads := reads_statement (sound_rulesUpTo bound) within started
      have shorter := reads.length_le
      simp only [List.length_cons, Phrase.least] at shorter within enough
      have behind := behind.of_separators
      cases separated : ahead (·.isSeparator) (next :: middle) with
      | false =>
        rw [separated, dropWhile_of_ahead separated] at behind
        cases Exhausts.pure_iff.mp behind
      | true =>
        rw [separated] at behind
        have listed : Exhausts (statementList (rulesUpTo bound) closing rounds) _ :=
          behind.of_bind_pure
        cases skipped : (next :: middle).dropWhile (·.kind.isSeparator) with
        | nil =>
          refine ⟨[], fun rest quiet =>
            ⟨[first], .moreStatements opened (reads.extend rest) separated ?_⟩⟩
          rw [dropWhile_append_of_nil skipped, dropWhile_of_ahead quiet.noSeparator]
          exact .noStatements quiet.ends
        | cons token later =>
          have fewer := length_dropWhile_separators (next :: middle)
          rw [skipped] at listed fewer
          simp only [List.length_cons] at fewer
          obtain ⟨more, completed⟩ := ih (by simp only [List.length_cons]; omega)
            (by simp only [List.length_cons]; omega) listed
          refine ⟨more, fun rest quiet => ?_⟩
          obtain ⟨elements, others⟩ := completed rest quiet
          refine ⟨first :: elements, .moreStatements opened (reads.extend _) separated ?_⟩
          rw [dropWhile_append_of_cons skipped]
          exact others

theorem completes_statements (complete : RulesComplete bound) {closing : Kind → Bool}
    (within : tokens.length ≤ bound)
    (exhausts : Exhausts (statements bound (rulesUpTo bound) closing) tokens) :
    Completes (EndsList closing) (.statements closing) tokens := by
  have behind := exhausts.of_separators
  cases skipped : tokens.dropWhile (·.kind.isSeparator) with
  | nil =>
    refine ⟨[], fun rest quiet => ?_⟩
    obtain ⟨token, later, rfl, ends⟩ := of_ahead quiet.ends
    refine ⟨_, .statements ?_ (.noStatements ends)⟩
    exact (dropWhile_append_of_nil skipped).trans (dropWhile_of_ahead quiet.noSeparator)
  | cons token later =>
    rw [skipped] at behind
    obtain none | ⟨_, _, shape, behind⟩ := behind.of_peek
    · cases none
    have fewer := length_dropWhile_separators tokens
    rw [skipped] at fewer
    obtain ⟨more, completed⟩ := completes_statementList complete (Nat.le_trans fewer within)
      (Nat.le_trans fewer within) (shape ▸ behind.of_bind_pure)
    refine ⟨more, fun rest quiet => ?_⟩
    obtain ⟨elements, listed⟩ := completed rest quiet
    exact ⟨_, .statements (dropWhile_append_of_cons skipped) listed⟩

/-- A body can be read, together with the word that closes it if it is a block. -/
def ReadsClosed (closing : Kind → Bool) (tokens rest : List Token) : Prop :=
  ∃ body block stop middle, Reads (.body closing body block) tokens middle ∧
    Reads (.ending body block stop) middle rest ∧
    (middle = rest ∨ ∃ span, middle = ⟨.keyword .endWord, span⟩ :: rest)

theorem readsClosed_constant {closing : Kind → Bool} {rest : List Token} (quiet : Unpulled rest) :
    ReadsClosed closing (constant :: rest) rest :=
  ⟨_, _, _, _, .single rfl (reads_constantLine quiet), .endOfLine, .inl rfl⟩

theorem completes_body (complete : RulesComplete bound) {closing : Kind → Bool}
    (closes : closing (.keyword .endWord) = true) (within : tokens.length ≤ bound)
    (exhausts : Exhausts (body bound (rulesUpTo bound) closing) tokens) :
    ∃ more, ∀ rest, Unpulled rest → ReadsClosed closing (tokens ++ (more ++ rest)) rest := by
  cases tokens with
  | nil => exact ⟨[constant], fun rest quiet => readsClosed_constant quiet⟩
  | cons token tokens =>
    have behind := exhausts.of_atSeparator
    cases separated : ahead (·.isSeparator) (token :: tokens) with
    | true =>
      rw [separated] at behind
      obtain ⟨more, completed⟩ := completes_statements complete within behind.of_bind_pure
      refine ⟨more ++ [supplied (.keyword .endWord)], fun rest _ => ?_⟩
      obtain ⟨block, reads⟩ := completed _ (endsList_end closes SyntaxError.nowhere rest)
      rw [List.append_assoc]
      exact ⟨_, _, _, _, .block separated reads, .endOfBlock, .inr ⟨_, rfl⟩⟩
    | false =>
      rw [separated] at behind
      obtain ⟨more, completed⟩ := completes_statement complete within behind.of_bind_pure
      refine ⟨more, fun rest quiet => ?_⟩
      obtain ⟨expr, reads⟩ := completed rest quiet
      exact ⟨_, _, _, _, .single separated reads, .endOfLine, .inl rfl⟩

theorem readsClosed_of_exhausts {closing : Kind → Bool} {body : Located} {block : Bool}
    {next : Token} {middle rest : List Token}
    (reads : Reads (.body closing body block) tokens (next :: middle))
    (exhausts : Exhausts (closingSpan body block) (next :: middle)) :
    ReadsClosed closing (tokens ++ rest) rest := by
  cases block with
  | false => cases Exhausts.pure_iff.mp exhausts
  | true =>
    obtain none | ⟨span, later, shape, behind⟩ := exhausts.of_keyword
    · cases none
    obtain rfl := Exhausts.pure_iff.mp behind
    rw [shape] at reads
    exact ⟨_, _, _, _, reads.extend rest, .endOfBlock, .inr ⟨span, rfl⟩⟩

theorem completes_closed (complete : RulesComplete bound) {closing : Kind → Bool}
    (closes : closing (.keyword .endWord) = true) {view : Located × Bool → Span → Result}
    (within : tokens.length ≤ bound)
    (exhausts : Exhausts (body bound (rulesUpTo bound) closing >>= fun read =>
      closingSpan read.1 read.2 >>= fun last => pure (view read last)) tokens) :
    ∃ more, ∀ rest, Unpulled rest → ReadsClosed closing (tokens ++ (more ++ rest)) rest := by
  obtain started | ⟨⟨body, block⟩, next, middle, started, behind⟩ := exhausts.of_bind
  · exact completes_body complete closes within started
  · have reads := reads_body (sound_rulesUpTo bound) within started
    exact ⟨[], fun rest _ => readsClosed_of_exhausts reads behind.of_bind_pure⟩

/-! ## Constructs -/

theorem completes_branches (complete : RulesComplete bound) {rounds : Nat}
    (within : tokens.length ≤ bound) (enough : tokens.length ≤ rounds)
    (exhausts : Exhausts (branches bound (rulesUpTo bound) rounds) tokens) :
    Completes Unpulled (fun read : Branches Span × Span => .branches read.1 read.2) tokens := by
  have last {condition : Located} {tokens rest fromThen : List Token} {thenSpan : Span}
      (reads : Reads (.expression condition) tokens (⟨.keyword .thenWord, thenSpan⟩ :: fromThen))
      (closed : ReadsClosed closesBranch fromThen rest) (quiet : Unpulled rest) :
      ∃ read : Branches Span × Span, Reads (.branches read.1 read.2) tokens rest := by
    obtain ⟨body, block, stop, middle, chosen, ended, shape⟩ := closed
    obtain ⟨present, noElif, noElse⟩ := no_branch quiet shape
    exact ⟨(_, _), .lastBranch reads chosen present noElif noElse ended⟩
  induction rounds generalizing tokens with
  | zero =>
    obtain rfl := List.length_eq_zero_iff.mp (Nat.le_zero.mp enough)
    exact ⟨[constant, supplied (.keyword .thenWord), constant], fun rest quiet =>
      last (reads_constant rfl) (readsClosed_constant quiet) quiet⟩
  | succ rounds ih =>
    obtain started | ⟨condition, next, middle, started, behind⟩ := exhausts.of_bind
    · obtain ⟨more, completed⟩ := complete .expression tokens within started
      refine ⟨more ++ [supplied (.keyword .thenWord), constant], fun rest quiet => ?_⟩
      obtain ⟨condition, reads⟩ :=
        completed (supplied (.keyword .thenWord) :: constant :: rest) rfl
      rw [List.append_assoc]
      exact last reads (readsClosed_constant quiet) quiet
    have conditional : Reads (.expression condition) _ _ := sound_rulesUpTo bound within started
    have shorter := conditional.length_le
    simp only [List.length_cons, Phrase.least] at shorter
    obtain none | ⟨thenSpan, later, shape, behind⟩ := behind.of_keyword
    · cases none
    obtain ⟨rfl, rfl⟩ := List.cons.inj shape
    obtain started | ⟨⟨branch, block⟩, ⟨kind, span⟩, afterBody, started, behind⟩ := behind.of_bind
    · obtain ⟨more, completed⟩ := completes_body complete rfl (by omega) started
      exact ⟨more, fun rest quiet => last (conditional.extend _) (completed rest quiet) quiet⟩
    have chosen := reads_body (sound_rulesUpTo bound) (by omega) started
    have bodyShorter := chosen.length_le
    simp only [List.length_cons, Phrase.least] at bodyShorter
    obtain none | ⟨_, _, shape, behind⟩ := behind.of_peek
    · cases none
    obtain ⟨rfl, rfl⟩ := List.cons.inj shape
    cases elif : kind.isKeyword .elifWord with
    | true =>
      obtain rfl := isKeyword_iff.mp elif
      simp only [elif, if_true] at behind
      obtain none | ⟨_, _, shape, behind⟩ := behind.of_next
      · cases none
      obtain ⟨rfl, rfl⟩ := List.cons.inj shape
      obtain ⟨more, completed⟩ := ih (by omega) (by omega) behind.of_bind_pure
      refine ⟨more, fun rest quiet => ?_⟩
      obtain ⟨read, others⟩ := completed rest quiet
      exact ⟨(_, _), .elif (conditional.extend _) (chosen.extend _) others⟩
    | false =>
      cases otherwise : kind.isKeyword .elseWord with
      | true =>
        obtain rfl := isKeyword_iff.mp otherwise
        simp only [elif, otherwise, if_true, Bool.false_eq_true, if_false] at behind
        obtain none | ⟨_, _, shape, behind⟩ := behind.of_next
        · cases none
        obtain ⟨rfl, rfl⟩ := List.cons.inj shape
        obtain ⟨more, completed⟩ := completes_closed complete rfl (by omega) behind
        refine ⟨more, fun rest quiet => ?_⟩
        obtain ⟨body, block, stop, _, alternative, ended, -⟩ := completed rest quiet
        exact ⟨(_, _), .otherwise (conditional.extend _) (chosen.extend _) alternative ended⟩
      | false =>
        simp only [elif, otherwise, Bool.false_eq_true, if_false] at behind
        refine ⟨[], fun rest quiet => last (conditional.extend rest) ?_ quiet⟩
        exact readsClosed_of_exhausts chosen behind.of_bind_pure

theorem completes_forLoop (complete : RulesComplete bound) {span : Span}
    (within : tokens.length ≤ bound)
    (exhausts : Exhausts (forLoop bound (rulesUpTo bound) ⟨.keyword .forWord, span⟩) tokens) :
    Completes Unpulled .atom (⟨.keyword .forWord, span⟩ :: tokens) := by
  let fromThen := [supplied (.keyword .thenWord), constant]
  let fromTo := supplied (.keyword .toWord) :: constant :: fromThen
  obtain rfl | ⟨counter, nameSpan, tokens, rfl, named⟩ := exhausts.of_identifier
  · refine ⟨supplied (.identifier "") :: supplied (.mark .assign) :: constant :: fromTo,
      fun rest quiet => ?_⟩
    obtain ⟨body, block, stop, middle, repeated, ended, -⟩ := readsClosed_constant quiet
    exact ⟨_, .forLoop (reads_constant rfl) (reads_constant rfl) (.stepNone rfl) repeated ended⟩
  obtain rfl | ⟨signSpan, tokens, rfl, signed⟩ := named.of_mark
  · refine ⟨supplied (.mark .assign) :: constant :: fromTo, fun rest quiet => ?_⟩
    obtain ⟨body, block, stop, middle, repeated, ended, -⟩ := readsClosed_constant quiet
    exact ⟨_, .forLoop (reads_constant rfl) (reads_constant rfl) (.stepNone rfl) repeated ended⟩
  simp only [List.length_cons] at within
  obtain started | ⟨start, next, middle, started, behind⟩ := signed.of_bind
  · obtain ⟨more, completed⟩ := complete .expression tokens (by omega) started
    refine ⟨more ++ fromTo, fun rest quiet => ?_⟩
    obtain ⟨start, reads⟩ := completed (fromTo ++ rest) rfl
    obtain ⟨body, block, stop, middle, repeated, ended, -⟩ := readsClosed_constant quiet
    rw [List.append_assoc]
    exact ⟨_, .forLoop reads (reads_constant rfl) (.stepNone rfl) repeated ended⟩
  have startReads : Reads (.expression start) _ _ := sound_rulesUpTo bound (by omega) started
  have startShorter := startReads.length_le
  simp only [List.length_cons, Phrase.least] at startShorter
  obtain none | ⟨toSpan, fromStop, shape, behind⟩ := behind.of_keyword
  · cases none
  obtain ⟨rfl, rfl⟩ := List.cons.inj shape
  obtain stopped | ⟨stop, next, fromStep, stopped, behind⟩ := behind.of_bind
  · obtain ⟨more, completed⟩ := complete .expression _ (by omega) stopped
    refine ⟨more ++ fromThen, fun rest quiet => ?_⟩
    obtain ⟨stop, reads⟩ := completed (fromThen ++ rest) rfl
    obtain ⟨body, block, last, middle, repeated, ended, -⟩ := readsClosed_constant quiet
    rw [List.append_assoc]
    exact ⟨_, .forLoop (startReads.extend _) reads (.stepNone rfl) repeated ended⟩
  have stopReads : Reads (.expression stop) _ _ := sound_rulesUpTo bound (by omega) stopped
  have stopShorter := stopReads.length_le
  simp only [List.length_cons, Phrase.least] at stopShorter
  obtain stepped | ⟨step, next, fromThenWord, stepped, behind⟩ := behind.of_bind
  · obtain ⟨⟨kind, stepSpan⟩, rest, shape, worded, behind⟩ | ⟨-, none⟩ := stepped.of_take?
    · obtain ⟨rfl, rfl⟩ := List.cons.inj shape
      obtain rfl := isKeyword_iff.mp worded
      rw [map_eq_pure_bind] at behind
      obtain ⟨more, completed⟩ := complete .expression _ (by omega) behind.of_bind_pure
      refine ⟨more ++ fromThen, fun rest quiet => ?_⟩
      obtain ⟨step, reads⟩ := completed (fromThen ++ rest) rfl
      obtain ⟨body, block, last, middle, repeated, ended, -⟩ := readsClosed_constant quiet
      rw [List.append_assoc]
      exact ⟨_, .forLoop (startReads.extend _) (stopReads.extend _) (.stepSome reads) repeated
        ended⟩
    · cases Exhausts.pure_iff.mp none
  have stepReads := reads_loopStep (sound_rulesUpTo bound) (by simp only [List.length_cons]; omega)
    stepped
  have stepShorter := stepReads.length_le
  simp only [List.length_cons, Phrase.least] at stepShorter
  obtain none | ⟨thenSpan, fromBody, shape, behind⟩ := behind.of_keyword
  · cases none
  obtain ⟨rfl, rfl⟩ := List.cons.inj shape
  obtain ⟨more, completed⟩ := completes_closed complete rfl (by omega) behind
  refine ⟨more, fun rest quiet => ?_⟩
  obtain ⟨body, block, last, _, repeated, ended, -⟩ := completed rest quiet
  exact ⟨_, .forLoop (startReads.extend _) (stopReads.extend _) (stepReads.extend _) repeated
    ended⟩

theorem completes_whileLoop (complete : RulesComplete bound) {span : Span}
    (within : tokens.length ≤ bound)
    (exhausts : Exhausts (whileLoop bound (rulesUpTo bound) ⟨.keyword .whileWord, span⟩) tokens) :
    Completes Unpulled .atom (⟨.keyword .whileWord, span⟩ :: tokens) := by
  obtain started | ⟨condition, next, middle, started, behind⟩ := exhausts.of_bind
  · obtain ⟨more, completed⟩ := complete .expression tokens within started
    refine ⟨more ++ [supplied (.keyword .thenWord), constant], fun rest quiet => ?_⟩
    obtain ⟨condition, reads⟩ := completed (supplied (.keyword .thenWord) :: constant :: rest) rfl
    obtain ⟨body, block, stop, middle, chosen, ended, -⟩ := readsClosed_constant quiet
    rw [List.append_assoc]
    exact ⟨_, .whileLoop reads chosen ended⟩
  have conditional : Reads (.expression condition) _ _ := sound_rulesUpTo bound within started
  have shorter := conditional.length_le
  simp only [List.length_cons, Phrase.least] at shorter
  obtain none | ⟨thenSpan, later, shape, behind⟩ := behind.of_keyword
  · cases none
  obtain ⟨rfl, rfl⟩ := List.cons.inj shape
  obtain ⟨more, completed⟩ := completes_closed complete rfl (by omega) behind
  refine ⟨more, fun rest quiet => ?_⟩
  obtain ⟨body, block, stop, _, chosen, ended, -⟩ := completed rest quiet
  exact ⟨_, .whileLoop (conditional.extend _) chosen ended⟩

/-- The block of a function or of a template is completed together with the word that closes it. -/
theorem completes_block (complete : RulesComplete bound) {view : Located → Token → Result}
    (within : tokens.length ≤ bound)
    (exhausts : Exhausts (statements bound (rulesUpTo bound) closesBlock >>= fun block =>
      keyword .endWord >>= fun last => pure (view block last)) tokens) :
    ∃ more, ∀ rest, ∃ block span, Reads (.statements closesBlock block) (tokens ++ (more ++ rest))
      (⟨.keyword .endWord, span⟩ :: rest) := by
  obtain started | ⟨block, next, middle, started, behind⟩ := exhausts.of_bind
  · obtain ⟨more, completed⟩ := completes_statements complete within started
    refine ⟨more ++ [supplied (.keyword .endWord)], fun rest => ?_⟩
    obtain ⟨block, reads⟩ := completed _ (endsList_end rfl SyntaxError.nowhere rest)
    rw [List.append_assoc]
    exact ⟨block, _, reads⟩
  · have reads := reads_statements (sound_rulesUpTo bound) within started
    obtain none | ⟨span, later, shape, behind⟩ := behind.of_keyword
    · cases none
    obtain rfl := Exhausts.pure_iff.mp behind
    rw [shape] at reads
    exact ⟨[], fun rest => ⟨block, span, reads.extend rest⟩⟩

theorem ahead_append_left {wanted : Kind → Bool} (present : ahead wanted tokens = true)
    (more : List Token) : ahead wanted (tokens ++ more) = true := by
  obtain ⟨token, rest, rfl, wants⟩ := of_ahead present
  exact wants

theorem completes_functionName (exhausts : Exhausts functionName tokens) (rest : List Token)
    (token : Token) (other : ∀ name, token.kind ≠ .identifier name) :
    ∃ name, Reads (.functionName name) (tokens ++ token :: rest) (token :: rest) := by
  cases tokens with
  | nil =>
    refine ⟨none, .noName (List.cons_ne_nil _ _) ?_⟩
    obtain ⟨kind, span⟩ := token
    cases kind with
    | identifier name => exact absurd rfl (other name)
    | _ => rfl
  | cons first tokens =>
    obtain ⟨kind, span⟩ := first
    cases kind with
    | identifier name =>
      have behind : Exhausts (pure (some name)) tokens := exhausts
      obtain rfl := Exhausts.pure_iff.mp behind
      exact ⟨some name, .name⟩
    | _ =>
      have behind : Exhausts (pure (none : Option String)) (_ :: tokens) := exhausts
      cases Exhausts.pure_iff.mp behind

theorem completes_function (complete : RulesComplete bound) {span : Span}
    (within : tokens.length ≤ bound)
    (exhausts : Exhausts (function bound (rulesUpTo bound) ⟨.keyword .funcWord, span⟩) tokens) :
    Completes Unpulled .atom (⟨.keyword .funcWord, span⟩ :: tokens) := by
  let fromArrow := [supplied (.mark .arrow), constant]
  obtain started | ⟨name, next, middle, started, behind⟩ := exhausts.of_bind
  · refine ⟨supplied (.mark .openParen) :: supplied (.mark .closeParen) :: fromArrow,
      fun rest quiet => ?_⟩
    obtain ⟨name, called⟩ := completes_functionName started
      (supplied (.mark .closeParen) :: fromArrow ++ rest) (supplied (.mark .openParen))
      (by simp [supplied])
    exact ⟨_, .functionOf called .noParameters (reads_constant quiet)⟩
  have called := reads_functionName started
  have shorter := called.length_le
  simp only [List.length_cons, Phrase.least] at shorter
  obtain none | ⟨openSpan, fromNames, shape, behind⟩ := behind.of_mark
  · cases none
  obtain ⟨rfl, rfl⟩ := List.cons.inj shape
  obtain passed | ⟨⟨names, last⟩, next, fromBody, passed, behind⟩ := behind.of_bind
  · obtain ⟨more, completed⟩ := completes_parameters (by omega) passed
    refine ⟨more ++ fromArrow, fun rest quiet => ?_⟩
    obtain ⟨⟨names, last⟩, reads⟩ := completed (fromArrow ++ rest) trivial
    rw [List.append_assoc]
    exact ⟨_, .functionOf (called.extend _) reads (reads_constant quiet)⟩
  have passedReads := reads_parameters passed
  have passedShorter := passedReads.length_le
  simp only [List.length_cons, Phrase.least] at passedShorter
  obtain ⟨⟨kind, arrowSpan⟩, rest, shape, marked, behind⟩ | ⟨noArrow, behind⟩ := behind.of_take?
  · obtain ⟨rfl, rfl⟩ := List.cons.inj shape
    obtain rfl := isMark_iff.mp marked
    obtain ⟨more, completed⟩ := complete .expression _ (by omega) behind.of_bind_pure
    refine ⟨more, fun rest quiet => ?_⟩
    obtain ⟨value, reads⟩ := completed rest quiet
    exact ⟨_, .functionOf (called.extend _) (passedReads.extend _) reads⟩
  have behind := behind.of_atSeparator
  cases separated : ahead (·.isSeparator) (next :: fromBody) with
  | false =>
    rw [separated] at behind
    obtain none | ⟨_, _, -, blamed⟩ := behind.of_peek
    · cases none
    · exact absurd blamed (Exhausts.not_fail (by simp))
  | true =>
    rw [separated] at behind
    obtain ⟨more, completed⟩ := completes_block complete (by simp only [List.length_cons]; omega)
      behind
    refine ⟨more, fun rest quiet => ?_⟩
    obtain ⟨block, endSpan, reads⟩ := completed rest
    exact ⟨_, .functionBlock (called.extend _) (passedReads.extend _)
      (ahead_append_left separated _) reads⟩

theorem completes_template (complete : RulesComplete bound) {span : Span}
    (within : tokens.length ≤ bound)
    (exhausts : Exhausts (template bound (rulesUpTo bound) ⟨.keyword .objectWord, span⟩) tokens) :
    Completes Unpulled .atom (⟨.keyword .objectWord, span⟩ :: tokens) := by
  let emptyBlock := [supplied .newline, supplied (.keyword .endWord)]
  have empty (rest : List Token) : ∃ block endSpan, Reads (.statements closesBlock block)
      (emptyBlock ++ rest) (⟨.keyword .endWord, endSpan⟩ :: rest) :=
    ⟨_, _, .statements rfl (.noStatements rfl)⟩
  obtain rfl | ⟨name, nameSpan, tokens, rfl, behind⟩ := exhausts.of_identifier
  · refine ⟨supplied (.identifier "") :: emptyBlock, fun rest _ => ?_⟩
    obtain ⟨block, endSpan, reads⟩ := empty rest
    exact ⟨_, .template rfl reads⟩
  simp only [List.length_cons] at within
  have behind := behind.of_atSeparator
  cases separated : ahead (·.isSeparator) tokens with
  | false =>
    rw [separated] at behind
    obtain rfl | ⟨_, _, -, blamed⟩ := behind.of_peek
    · refine ⟨emptyBlock, fun rest _ => ?_⟩
      obtain ⟨block, endSpan, reads⟩ := empty rest
      exact ⟨_, .template rfl reads⟩
    · exact absurd blamed (Exhausts.not_fail (by simp))
  | true =>
    rw [separated] at behind
    obtain ⟨more, completed⟩ := completes_block complete (by omega) behind
    refine ⟨more, fun rest _ => ?_⟩
    obtain ⟨block, endSpan, reads⟩ := completed rest
    exact ⟨_, .template (ahead_append_left separated _) reads⟩

/-! ## Operands -/

theorem completes_named (complete : RulesComplete bound) {name : String} {span : Span}
    (within : tokens.length ≤ bound)
    (exhausts : Exhausts (named (rulesUpTo bound) name span) tokens) :
    Completes Unpulled (.named name span) tokens := by
  obtain ⟨⟨kind, dotSpan⟩, rest, rfl, marked, dotted⟩ | ⟨-, behind⟩ := exhausts.of_take?
  · obtain rfl := isMark_iff.mp marked
    simp only [List.length_cons] at within
    obtain rfl | ⟨member, memberSpan, rest, rfl, behind⟩ := dotted.of_identifier
    · exact ⟨[supplied (.identifier "")],
        fun rest quiet => ⟨_, .member (no_mark (by decide) (Nat.le_of_eq quiet))⟩⟩
    simp only [List.length_cons] at within
    obtain ⟨⟨kind, signSpan⟩, rest, rfl, marked, behind⟩ | ⟨-, behind⟩ := behind.of_take?
    · obtain rfl := isMark_iff.mp marked
      simp only [List.length_cons] at within
      obtain ⟨more, completed⟩ := complete .expression _ (by omega) behind.of_bind_pure
      refine ⟨more, fun rest quiet => ?_⟩
      obtain ⟨value, reads⟩ := completed rest quiet
      exact ⟨_, .memberAssignment reads⟩
    · obtain rfl := Exhausts.pure_iff.mp behind
      exact ⟨[], fun rest quiet => ⟨_, .member (no_mark (by decide) (Nat.le_of_eq quiet))⟩⟩
  · obtain rfl := Exhausts.pure_iff.mp behind
    exact ⟨[], fun rest quiet => ⟨_, .variable (no_mark (by decide) (Nat.le_of_eq quiet))⟩⟩

theorem completes_atom (complete : RulesComplete bound) (within : tokens.length ≤ bound + 1)
    (exhausts : Exhausts (atom bound (rulesUpTo bound)) tokens) :
    Completes Unpulled .atom tokens := by
  obtain rfl | ⟨⟨kind, span⟩, tokens, rfl, taken⟩ := exhausts.of_next
  · exact ⟨[constant], fun rest _ => ⟨_, .int (by decide)⟩⟩
  simp only [List.length_cons] at within
  have rejected {cause : SyntaxError.Cause} (other : cause ≠ .endOfTokens)
      (blamed : Exhausts (fail cause span : Parser Located) tokens) :
      Completes Unpulled .atom (⟨kind, span⟩ :: tokens) :=
    absurd blamed (Exhausts.not_fail other)
  cases kind with
  | int magnitude =>
    by_cases small : magnitude < Lexeme.maxMagnitude
    · simp only [integer, small, if_true] at taken
      obtain rfl := Exhausts.pure_iff.mp taken
      exact ⟨[], fun rest _ => ⟨_, .int small⟩⟩
    · simp only [integer, small, if_false] at taken
      exact rejected (by simp) taken
  | float value =>
    obtain rfl := Exhausts.pure_iff.mp taken
    exact ⟨[], fun rest _ => ⟨_, .float⟩⟩
  | str value =>
    obtain rfl := Exhausts.pure_iff.mp taken
    exact ⟨[], fun rest _ => ⟨_, .str⟩⟩
  | identifier name =>
    obtain ⟨more, completed⟩ := completes_named complete (by omega) taken
    refine ⟨more, fun rest quiet => ?_⟩
    obtain ⟨expr, reads⟩ := completed rest quiet
    exact ⟨expr, .named reads⟩
  | mark sign =>
    cases sign with
    | openParen =>
      obtain started | ⟨inner, next, middle, started, behind⟩ := taken.of_bind
      · obtain ⟨more, completed⟩ := complete .expression _ (by omega) started
        refine ⟨more ++ [supplied (.mark .closeParen)], fun rest _ => ?_⟩
        obtain ⟨expr, reads⟩ := completed (supplied (.mark .closeParen) :: rest) rfl
        rw [List.append_assoc]
        exact ⟨expr, .parens reads⟩
      · have reads : Reads (.expression inner) _ _ := sound_rulesUpTo bound (by omega) started
        obtain none | ⟨closeSpan, later, shape, behind⟩ := behind.of_mark
        · cases none
        obtain rfl := Exhausts.pure_iff.mp behind
        rw [shape] at reads
        exact ⟨[], fun rest _ => ⟨inner, .parens (reads.extend rest)⟩⟩
    | openBracket =>
      obtain ⟨more, completed⟩ :=
        completes_enumeration complete (by decide) rfl (by omega) taken.of_bind_pure
      refine ⟨more, fun rest _ => ?_⟩
      obtain ⟨⟨elements, last⟩, reads⟩ := completed rest trivial
      exact ⟨_, .list reads⟩
    | _ => exact rejected (by simp) taken
  | keyword word =>
    cases word with
    | ifWord =>
      obtain ⟨more, completed⟩ :=
        completes_branches complete (by omega) (by omega) taken.of_bind_pure
      refine ⟨more, fun rest quiet => ?_⟩
      obtain ⟨⟨alternatives, stop⟩, reads⟩ := completed rest quiet
      exact ⟨_, .choice reads⟩
    | forWord => exact completes_forLoop complete (by omega) taken
    | whileWord => exact completes_whileLoop complete (by omega) taken
    | funcWord => exact completes_function complete (by omega) taken
    | objectWord => exact completes_template complete (by omega) taken
    | newWord =>
      obtain rfl | ⟨name, nameSpan, rest, rfl, behind⟩ := taken.of_identifier
      · exact ⟨[supplied (.identifier "")], fun rest _ => ⟨_, .instantiate⟩⟩
      · obtain rfl := Exhausts.pure_iff.mp behind
        exact ⟨[], fun rest _ => ⟨_, .instantiate⟩⟩
    | _ => exact rejected (by simp) taken
  | newline => exact rejected (by simp) taken
  | semicolon => exact rejected (by simp) taken
  | endOfInput => exact rejected (by simp) taken

theorem completes_calls (complete : RulesComplete bound) {callee : Located} {rounds : Nat}
    (within : tokens.length ≤ bound) (enough : tokens.length ≤ rounds)
    (exhausts : Exhausts (calls bound (rulesUpTo bound) rounds callee) tokens) :
    Completes Unpulled (.calls callee) tokens := by
  have finished {callee : Located} {rest : List Token} (quiet : Unpulled rest) :
      Reads (.calls callee callee) rest rest :=
    .callsEnd (no_mark (by decide) (Nat.le_of_eq quiet))
  induction rounds generalizing tokens callee with
  | zero =>
    obtain rfl := List.length_eq_zero_iff.mp (Nat.le_zero.mp enough)
    exact ⟨[], fun rest quiet => ⟨callee, finished quiet⟩⟩
  | succ rounds ih =>
    obtain ⟨⟨kind, openSpan⟩, tokens, rfl, marked, behind⟩ | ⟨-, behind⟩ := exhausts.of_take?
    · obtain rfl := isMark_iff.mp marked
      simp only [List.length_cons] at within enough
      obtain passed | ⟨⟨arguments, last⟩, next, middle, passed, behind⟩ := behind.of_bind
      · obtain ⟨more, completed⟩ :=
          completes_enumeration complete (by decide) rfl (by omega) passed
        refine ⟨more, fun rest quiet => ?_⟩
        obtain ⟨⟨arguments, last⟩, reads⟩ := completed rest trivial
        exact ⟨_, .callsMore reads (finished quiet)⟩
      · have reads := reads_enumeration (sound_rulesUpTo bound) (by omega) passed
        have shorter := reads.length_le
        simp only [Phrase.least] at shorter
        obtain ⟨more, completed⟩ := ih (by omega) (by omega) behind
        refine ⟨more, fun rest quiet => ?_⟩
        obtain ⟨expr, others⟩ := completed rest quiet
        exact ⟨expr, .callsMore (reads.extend _) others⟩
    · obtain rfl := Exhausts.pure_iff.mp behind
      exact ⟨[], fun rest quiet => ⟨callee, finished quiet⟩⟩

theorem completes_call (complete : RulesComplete bound) (within : tokens.length ≤ bound + 1)
    (exhausts : Exhausts (call bound (rulesUpTo bound)) tokens) :
    Completes Unpulled .call tokens := by
  obtain started | ⟨callee, next, middle, started, behind⟩ := exhausts.of_bind
  · obtain ⟨more, completed⟩ := completes_atom complete within started
    refine ⟨more, fun rest quiet => ?_⟩
    obtain ⟨callee, reads⟩ := completed rest quiet
    exact ⟨callee, .call reads (.callsEnd (no_mark (by decide) (Nat.le_of_eq quiet)))⟩
  · have reads := reads_atom (sound_rulesUpTo bound) within started
    have shorter := reads.length_le
    simp only [Phrase.least] at shorter
    obtain ⟨more, completed⟩ := completes_calls complete (by omega) (by omega) behind
    refine ⟨more, fun rest quiet => ?_⟩
    obtain ⟨expr, others⟩ := completed rest quiet
    exact ⟨expr, .call (reads.extend _) others⟩

/-- A constant can be read wherever something is left alone by what follows. -/
theorem readsAt_constant (rank : Nat) {rest : List Token} (quiet : Unpulled rest)
    (positive : 0 < rank) (low : rank ≤ Rank.atom) :
    ReadsAt (.literal (.int (Int64.ofNat 1)) SyntaxError.nowhere) (constant :: rest) rest rank :=
  ((placed_constant rest).lower (Nat.le_refl _) low positive
    (Nat.le_trans (Nat.le_of_eq quiet) (Nat.zero_le _))).reads

theorem completes_unary (complete : RulesComplete bound) (within : tokens.length ≤ bound + 1)
    (exhausts : Exhausts (unary bound (rulesUpTo bound)) tokens) :
    Completes Unpulled .unary tokens := by
  have supply {rest : List Token} (quiet : Unpulled rest) :
      ∃ operand, Reads (.unary operand) (constant :: rest) rest :=
    ⟨_, readsAt_constant Rank.sign quiet (by decide) (by decide)⟩
  cases tokens with
  | nil => exact ⟨[constant], fun rest quiet => supply quiet⟩
  | cons token tokens =>
    obtain ⟨⟨kind, signSpan⟩, rest, shape, marked, behind⟩ | ⟨noPlus, behind⟩ := exhausts.of_take?
    · obtain ⟨rfl, rfl⟩ := List.cons.inj shape
      obtain rfl := isMark_iff.mp marked
      simp only [List.length_cons] at within
      obtain ⟨more, completed⟩ := complete .unary _ (by omega) behind.of_bind_pure
      refine ⟨more, fun rest quiet => ?_⟩
      obtain ⟨operand, reads⟩ := completed rest quiet
      exact ⟨_, .plus reads⟩
    obtain ⟨⟨kind, signSpan⟩, rest, shape, marked, behind⟩ | ⟨noMinus, behind⟩ := behind.of_take?
    · obtain ⟨rfl, rfl⟩ := List.cons.inj shape
      obtain rfl := isMark_iff.mp marked
      simp only [List.length_cons] at within
      obtain ⟨⟨kind, digitsSpan⟩, rest, rfl, largest, behind⟩ | ⟨noLargest, behind⟩ :=
        behind.of_take?
      · obtain rfl := isLargest_iff.mp largest
        obtain rfl := Exhausts.pure_iff.mp behind
        exact ⟨[], fun rest _ => ⟨_, .smallest⟩⟩
      cases tokens with
      | nil =>
        refine ⟨[constant], fun rest quiet => ?_⟩
        obtain ⟨operand, reads⟩ := supply quiet
        exact ⟨_, .minus rfl reads⟩
      | cons token tokens =>
        obtain ⟨more, completed⟩ := complete .unary _ (by omega) behind.of_bind_pure
        refine ⟨more, fun rest quiet => ?_⟩
        obtain ⟨operand, reads⟩ := completed rest quiet
        exact ⟨_, .minus noLargest reads⟩
    · obtain ⟨more, completed⟩ := completes_call complete within behind
      refine ⟨more, fun rest quiet => ?_⟩
      obtain ⟨expr, reads⟩ := completed rest quiet
      exact ⟨expr, .unsigned noPlus noMinus reads⟩

theorem completes_power (complete : RulesComplete bound) (within : tokens.length ≤ bound + 1)
    (exhausts : Exhausts (power bound (rulesUpTo bound)) tokens) :
    Completes Unpulled .power tokens := by
  obtain started | ⟨base, next, middle, started, behind⟩ := exhausts.of_bind
  · obtain ⟨more, completed⟩ := completes_unary complete within started
    refine ⟨more, fun rest quiet => ?_⟩
    obtain ⟨base, reads⟩ := completed rest quiet
    exact ⟨base, .base reads (no_mark (by decide) (Nat.le_of_eq quiet))⟩
  have reads := reads_unary (sound_rulesUpTo bound) within started
  have shorter := reads.length_le
  simp only [List.length_cons, Phrase.least] at shorter
  obtain ⟨⟨kind, signSpan⟩, rest, shape, marked, behind⟩ | ⟨-, behind⟩ := behind.of_take?
  · obtain ⟨rfl, rfl⟩ := List.cons.inj shape
    obtain rfl := isMark_iff.mp marked
    obtain ⟨more, completed⟩ := complete .power _ (by omega) behind.of_bind_pure
    refine ⟨more, fun rest quiet => ?_⟩
    obtain ⟨exponent, raised⟩ := completed rest quiet
    exact ⟨_, .power (reads.extend _) raised⟩
  · cases Exhausts.pure_iff.mp behind

/-! ## Operators -/

theorem Exhausts.of_operator? {level : Level} {next : Option BinaryOp → Parser Located}
    (exhausts : Exhausts (operator? level.admits >>= next) tokens) :
    (∃ op token rest, tokens = token :: rest ∧ token.kind.binaryOp? = some op ∧
      level.admits op = true ∧ Exhausts (next (some op)) rest) ∨ Exhausts (next none) tokens := by
  obtain started | ⟨found, token, rest, started, behind⟩ := exhausts.of_bind
  · cases tokens with
    | nil => exact .inr exhausts
    | cons token rest =>
      obtain failed | ⟨found, read⟩ := started
      · cases operator : token.kind.binaryOp? with
        | none => simp [operator?, operator] at failed
        | some op =>
          cases admitted : level.admits op <;> simp [operator?, operator, admitted] at failed
      · obtain ⟨rfl, -, none⟩ | ⟨op, sign, rfl, operator, admitted, shape⟩ := operator?_eq_ok read
        · cases none
        · exact .inl ⟨op, sign, [], shape, operator, admitted, exhausts.congr (bind_eq read)⟩
  · obtain ⟨rfl, -, rfl⟩ | ⟨op, sign, rfl, operator, admitted, rfl⟩ := operator?_eq_ok started
    · exact .inr behind
    · exact .inl ⟨op, sign, _, rfl, operator, admitted, behind⟩

/-- Whatever exhausts the parser of the operands of a level can be completed to one. -/
def OperandsComplete (level : Level) (operand : Parser Located) (bound : Nat) : Prop :=
  ∀ tokens : List Token, tokens.length ≤ bound → Exhausts operand tokens →
    Completes Unpulled (.operand level) tokens

theorem chainEnd_of_unpulled {level : Level} {left : Located} {rest : List Token}
    (quiet : Unpulled rest) : Reads (.chainFrom level left left) rest rest := by
  refine .chainEnd (no_operator ?_)
  rw [quiet]
  cases level <;> decide

theorem completes_chainFrom {level : Level} {operand : Parser Located} {left : Located}
    {rounds : Nat} (sound : OperandSound level operand bound)
    (complete : OperandsComplete level operand bound) (within : tokens.length ≤ bound)
    (enough : tokens.length ≤ rounds)
    (exhausts : Exhausts (chainFrom operand level.admits rounds left) tokens) :
    Completes Unpulled (.chainFrom level left) tokens := by
  induction rounds generalizing tokens left with
  | zero =>
    obtain rfl := List.length_eq_zero_iff.mp (Nat.le_zero.mp enough)
    exact ⟨[], fun rest quiet => ⟨left, chainEnd_of_unpulled quiet⟩⟩
  | succ rounds ih =>
    obtain ⟨op, sign, tokens, rfl, operator, admitted, behind⟩ | behind := exhausts.of_operator?
    · simp only [List.length_cons] at within enough
      obtain started | ⟨right, next, middle, started, behind⟩ := behind.of_bind
      · obtain ⟨more, completed⟩ := complete tokens (by omega) started
        refine ⟨more, fun rest quiet => ?_⟩
        obtain ⟨right, reads⟩ := completed rest quiet
        exact ⟨_, .chainMore operator admitted reads (chainEnd_of_unpulled quiet)⟩
      · have reads := sound (by omega) started
        have shorter := reads.length_le
        rw [Phrase.least_operand] at shorter
        obtain ⟨more, completed⟩ := ih (by omega) (by omega) behind
        refine ⟨more, fun rest quiet => ?_⟩
        obtain ⟨expr, others⟩ := completed rest quiet
        exact ⟨expr, .chainMore operator admitted (reads.extend _) others⟩
    · obtain rfl := Exhausts.pure_iff.mp behind
      exact ⟨[], fun rest quiet => ⟨left, chainEnd_of_unpulled quiet⟩⟩

theorem completes_chain (level : Level) {operand : Parser Located}
    (sound : OperandSound level operand (bound + 1))
    (complete : OperandsComplete level operand (bound + 1)) (within : tokens.length ≤ bound + 1)
    (exhausts : Exhausts (chain bound operand level.admits) tokens) :
    Completes Unpulled (.chain level) tokens := by
  obtain started | ⟨first, next, middle, started, behind⟩ := exhausts.of_bind
  · obtain ⟨more, completed⟩ := complete tokens within started
    refine ⟨more, fun rest quiet => ?_⟩
    obtain ⟨first, reads⟩ := completed rest quiet
    exact ⟨first, .chain reads (chainEnd_of_unpulled quiet)⟩
  · have reads := sound within started
    have shorter := reads.length_le
    rw [Phrase.least_operand] at shorter
    have innerSound : OperandSound level operand bound :=
      fun shorter next => sound (by omega) next
    have innerComplete : OperandsComplete level operand bound :=
      fun tokens shorter => complete tokens (by omega)
    obtain ⟨more, completed⟩ :=
      completes_chainFrom innerSound innerComplete (by omega) (by omega) behind
    refine ⟨more, fun rest quiet => ?_⟩
    obtain ⟨expr, others⟩ := completed rest quiet
    exact ⟨expr, .chain (reads.extend _) others⟩

theorem completes_sum (complete : RulesComplete bound) (within : tokens.length ≤ bound + 1)
    (exhausts : Exhausts (sum bound (rulesUpTo bound)) tokens) :
    Completes Unpulled (.chain .additive) tokens := by
  have sound : Sound (rulesUpTo bound) bound := sound_rulesUpTo bound
  have terms : OperandsComplete .additive (term bound (rulesUpTo bound)) (bound + 1) :=
    fun tokens within exhausts => completes_chain .multiplicative
      (fun enough next => reads_power sound enough next)
      (fun _ within exhausts => completes_power complete within exhausts) within exhausts
  exact completes_chain .additive (fun enough next => reads_term sound enough next) terms
    within exhausts

theorem completes_comparison (complete : RulesComplete bound) (within : tokens.length ≤ bound + 1)
    (exhausts : Exhausts (comparison bound (rulesUpTo bound)) tokens) :
    Completes Unpulled .comparison tokens := by
  cases tokens with
  | nil =>
    exact ⟨[constant], fun rest quiet =>
      ⟨_, readsAt_constant Rank.negation quiet (by decide) (by decide)⟩⟩
  | cons token tokens =>
    obtain ⟨⟨kind, wordSpan⟩, rest, shape, worded, behind⟩ | ⟨noWord, behind⟩ := exhausts.of_take?
    · obtain ⟨rfl, rfl⟩ := List.cons.inj shape
      obtain rfl := isKeyword_iff.mp worded
      simp only [List.length_cons] at within
      obtain ⟨more, completed⟩ := complete .comparison _ (by omega) behind.of_bind_pure
      refine ⟨more, fun rest quiet => ?_⟩
      obtain ⟨operand, reads⟩ := completed rest quiet
      exact ⟨_, .negation reads⟩
    · obtain ⟨more, completed⟩ := completes_chain .comparison
        (fun enough next => reads_sum (sound_rulesUpTo bound) enough next)
        (fun _ within exhausts => completes_sum complete within exhausts) within behind
      refine ⟨more, fun rest quiet => ?_⟩
      obtain ⟨expr, reads⟩ := completed rest quiet
      exact ⟨expr, .comparison noWord reads⟩

theorem completes_connection (complete : RulesComplete bound) (within : tokens.length ≤ bound + 1)
    (exhausts : Exhausts (connection bound (rulesUpTo bound)) tokens) :
    Completes Unpulled (.chain .logical) tokens :=
  completes_chain .logical
    (fun enough next => reads_comparison (sound_rulesUpTo bound) enough next)
    (fun _ within exhausts => completes_comparison complete within exhausts) within exhausts

/-! ## Expressions and programs -/

/-- A name is an expression, unless something that follows belongs to it. -/
theorem reads_name {name : String} {span : Span} {rest : List Token} (quiet : Unpulled rest) :
    Reads (.expression (.read name span)) (⟨.identifier name, span⟩ :: rest) rest := by
  have placed : Placed Rank.atom (.read name span) (⟨.identifier name, span⟩ :: rest) rest := by
    refine ⟨Nat.le_refl _, rfl, fun _ => ?_, .named (.variable ?_)⟩
    · rw [targetAhead_name]
      exact no_mark (by decide) (Nat.le_of_eq quiet)
    · exact no_mark (by decide) (Nat.le_of_eq quiet)
  exact placed.expression (Nat.le_refl _) (free_of_pullAhead quiet) (by decide)

theorem of_targetAhead (target : targetAhead tokens = true) : ∃ name span signSpan rest,
    tokens = ⟨.identifier name, span⟩ :: ⟨.mark .assign, signSpan⟩ :: rest := by
  unfold targetAhead at target
  split at target
  · exact ⟨_, _, _, _, rfl⟩
  · cases target

/-- More tokens make no assignment of something that is none, unless it is nothing but a name. -/
theorem not_targetAhead_append {first second : Token} {rest : List Token} (more : List Token)
    (absent : targetAhead (first :: second :: rest) = false) :
    targetAhead (first :: second :: rest ++ more) = false := by
  cases target : targetAhead (first :: second :: rest ++ more) with
  | false => rfl
  | true =>
    obtain ⟨name, span, signSpan, later, shape⟩ := of_targetAhead target
    obtain ⟨rfl, behind⟩ := List.cons.inj shape
    obtain ⟨rfl, -⟩ := List.cons.inj behind
    cases absent

theorem completes_expression (complete : RulesComplete bound) (within : tokens.length ≤ bound + 1)
    (exhausts : Exhausts (expression bound (rulesUpTo bound)) tokens) :
    Completes Unpulled .expression tokens := by
  obtain ⟨⟨kind, wordSpan⟩, tokens, rfl, worded, behind⟩ | ⟨noWord, behind⟩ := exhausts.of_take?
  · obtain rfl := isKeyword_iff.mp worded
    obtain rfl | ⟨name, nameSpan, tokens, rfl, signed⟩ := behind.of_identifier
    · exact ⟨[supplied (.identifier ""), supplied (.mark .assign), constant],
        fun rest quiet => ⟨_, .declaration (reads_constant quiet)⟩⟩
    obtain rfl | ⟨signSpan, tokens, rfl, assigned⟩ := signed.of_mark
    · exact ⟨[supplied (.mark .assign), constant],
        fun rest quiet => ⟨_, .declaration (reads_constant quiet)⟩⟩
    simp only [List.length_cons] at within
    obtain ⟨more, completed⟩ := complete .expression _ (by omega) assigned.of_bind_pure
    refine ⟨more, fun rest quiet => ?_⟩
    obtain ⟨value, reads⟩ := completed rest quiet
    exact ⟨_, .declaration reads⟩
  cases target : targetAhead tokens with
  | true =>
    obtain ⟨name, nameSpan, signSpan, tokens, rfl⟩ := of_targetAhead target
    have assigned : Exhausts (rulesUpTo bound .expression >>= fun value =>
      pure (Expr.assign name value (nameSpan.through value.note))) tokens := behind
    simp only [List.length_cons] at within
    obtain ⟨more, completed⟩ := complete .expression tokens (by omega) assigned.of_bind_pure
    refine ⟨more, fun rest quiet => ?_⟩
    obtain ⟨value, reads⟩ := completed rest quiet
    exact ⟨_, .assignment reads⟩
  | false =>
    have connected := behind.congr (bind_eq (target?_of_ahead target))
    obtain ⟨more, completed⟩ := completes_connection complete within connected
    match tokens with
    | [] => exact ⟨[constant], fun rest quiet => ⟨_, reads_constant quiet⟩⟩
    | first :: second :: tokens =>
      refine ⟨more, fun rest quiet => ?_⟩
      obtain ⟨expr, reads⟩ := completed rest quiet
      exact ⟨expr, .connection noWord (not_targetAhead_append _ target) reads⟩
    | [⟨kind, span⟩] =>
      cases kind with
      | identifier name => exact ⟨[], fun rest quiet => ⟨_, reads_name quiet⟩⟩
      | _ =>
        refine ⟨more, fun rest quiet => ?_⟩
        obtain ⟨expr, reads⟩ := completed rest quiet
        exact ⟨expr, .connection noWord rfl reads⟩

/-- Whatever exhausts the parser of a rule can be completed. The rules for one more token are built
from those for fewer, so the induction is on the bound. -/
theorem completes_rulesUpTo (bound : Nat) : RulesComplete bound := by
  induction bound with
  | zero =>
    intro rule tokens within _
    obtain rfl := List.length_eq_zero_iff.mp (Nat.le_zero.mp within)
    refine ⟨[constant], fun rest quiet => ?_⟩
    cases rule with
    | expression => exact ⟨_, reads_constant quiet⟩
    | comparison => exact ⟨_, readsAt_constant Rank.negation quiet (by decide) (by decide)⟩
    | power => exact ⟨_, readsAt_constant Rank.power quiet (by decide) (by decide)⟩
    | unary => exact ⟨_, readsAt_constant Rank.sign quiet (by decide) (by decide)⟩
  | succ bound ih =>
    intro rule tokens within exhausts
    cases rule with
    | expression => exact completes_expression ih within exhausts
    | comparison => exact completes_comparison ih within exhausts
    | power => exact completes_power ih within exhausts
    | unary => exact completes_unary ih within exhausts

/-- Tokens that the parser of programs exhausts are the beginning of a program. -/
theorem completes_program (within : tokens.length ≤ bound)
    (exhausts : Exhausts (program bound) tokens) :
    ∃ more root, parse (tokens ++ more) = .ok root := by
  have ending : EndsList (fun _ => false) [supplied .endOfInput] := ⟨rfl, rfl, rfl⟩
  obtain started | ⟨root, next, rest, started, behind⟩ := exhausts.of_bind
  · obtain ⟨more, completed⟩ := completes_statements (completes_rulesUpTo bound) within started
    obtain ⟨root, reads⟩ := completed _ ending
    exact ⟨more ++ [supplied .endOfInput], root, parse_eq_ok reads⟩
  · obtain none | ⟨token, later, shape, peeked⟩ := behind.of_peek
    · cases none
    split at peeked
    · cases Exhausts.pure_iff.mp peeked
    · exact absurd peeked (Exhausts.not_fail (by simp))

end Quill.Grammar
