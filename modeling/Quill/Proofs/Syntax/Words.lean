import Quill.Proofs.Syntax.Printing
import Quill.Proofs.Syntax.Reading

/-!
# The words of printed programs

Printing takes names and constants from the program and adds only fixed signs: keywords, marks and
line feeds. So every token of a printed program that was read somewhere is either one of these or
was among the tokens it was read from, which is why there is a way to write it down.
-/

namespace Quill

open Token (Kind)

mutual

/-- The tokens of the names and constants of an expression. -/
def Expr.words : Expr Unit → List Kind
  | .literal value _ => if value.isSmallest then [.int Lexeme.maxMagnitude] else [value.token]
  | .unary _ operand _ => operand.words
  | .binary _ left right _ => left.words ++ right.words
  | .list elements _ => Expr.allWords elements
  | .choice branches _ => branches.words
  | .forLoop counter start stop none body _ _ =>
    .identifier counter :: start.words ++ stop.words ++ body.words
  | .forLoop counter start stop (some step) body _ _ =>
    .identifier counter :: start.words ++ stop.words ++ step.words ++ body.words
  | .whileLoop condition body _ _ => condition.words ++ body.words
  | .read name _ => [.identifier name]
  | .assign name value _ => .identifier name :: value.words
  | .member object name _ => [.identifier object, .identifier name]
  | .assignMember object name value _ => .identifier object :: .identifier name :: value.words
  | .function name parameters body _ _ =>
    (name.map Kind.identifier).toList ++ parameters.map Kind.identifier ++ body.words
  | .call callee arguments _ => callee.words ++ Expr.allWords arguments
  | .template name body _ => .identifier name :: body.words
  | .instantiate name _ => [.identifier name]
  | .returnWith none _ => []
  | .returnWith (some value) _ => value.words
  | .breakLoop _ | .continueLoop _ => []

/-- The tokens of the names and constants of some expressions. -/
def Expr.allWords : List (Expr Unit) → List Kind
  | [] => []
  | element :: elements => element.words ++ Expr.allWords elements

/-- The tokens of the names and constants of all alternatives. -/
def Branches.words : Branches Unit → List Kind
  | .done => []
  | .otherwise body _ => body.words
  | .orElse condition body _ rest => condition.words ++ body.words ++ rest.words

end

/-- The property holds of everything that printing adds to the words of a program. -/
structure Fixed (P : Kind → Prop) : Prop where
  /-- It holds of keywords. -/
  keyword (word : Keyword) : P (.keyword word)
  /-- It holds of operators and punctuation. -/
  mark (sign : Mark) : P (.mark sign)
  /-- It holds of line feeds. -/
  newline : P .newline

section

variable {P : Kind → Prop}

theorem Fixed.enclose (fixed : Fixed P) {tokens : List Kind} (all : ∀ kind ∈ tokens, P kind)
    (own needed : Nat) : ∀ kind ∈ enclose own needed tokens, P kind := by
  by_cases loose : own < needed
  · rw [enclose_of_lt loose, List.forall_mem_append, List.forall_mem_cons]
    exact ⟨⟨fixed.mark _, all⟩, by simp [fixed.mark]⟩
  · rw [enclose_of_le (Nat.not_lt.mp loose)]
    exact all

theorem Fixed.endTokens (fixed : Fixed P) (block : Bool) : ∀ kind ∈ endTokens block, P kind := by
  cases block <;> simp [Quill.endTokens, fixed.keyword]

theorem Fixed.nameTokens (fixed : Fixed P) {names : List String}
    (all : ∀ kind ∈ names.map Kind.identifier, P kind) : ∀ kind ∈ nameTokens names, P kind := by
  induction names using Quill.nameTokens.induct with
  | case1 => simp [Quill.nameTokens]
  | case2 name => simpa [Quill.nameTokens] using all
  | case3 name names _ ih =>
    simp_all [Quill.nameTokens, fixed.mark]

theorem Fixed.binary (fixed : Fixed P) (op : BinaryOp) : P op.token := by
  cases op <;> first | exact fixed.mark _ | exact fixed.keyword _

theorem Fixed.unary (fixed : Fixed P) (op : UnaryOp) : P op.token := by
  cases op <;> first | exact fixed.mark _ | exact fixed.keyword _

mutual

/-- What holds of the words of an expression and of everything fixed holds of what it is printed
as. -/
theorem Expr.all_tokens (fixed : Fixed P) : (expr : Expr Unit) → (∀ kind ∈ expr.words, P kind) →
    ∀ place, ∀ kind ∈ expr.tokens place, P kind
  | .literal value _, all, place => by
    cases smallest : value.isSmallest with
    | false => simpa [Expr.tokens, Expr.words, smallest] using all
    | true =>
      rw [Expr.tokens, if_pos smallest]
      apply fixed.enclose
      simpa [Expr.words, smallest, fixed.mark] using all
  | .unary op operand _, all, place => by
    apply fixed.enclose
    simpa [fixed.unary] using Expr.all_tokens fixed operand all _
  | .binary op left right _, all, place => by
    simp only [Expr.words, List.forall_mem_append] at all
    apply fixed.enclose
    simp only [List.forall_mem_append, List.forall_mem_cons]
    exact ⟨Expr.all_tokens fixed left all.1 _, fixed.binary op,
      Expr.all_tokens fixed right all.2 _⟩
  | .list elements _, all, place => by
    by_cases block : place = .block
    · rw [Expr.tokens, if_pos block]
      simp only [List.forall_mem_append, List.forall_mem_cons]
      refine ⟨⟨fixed.newline, Expr.all_statementTokens fixed elements all⟩, ?_⟩
      cases elements <;> simp [fixed.newline]
    · rw [Expr.tokens, if_neg block]
      simp only [List.forall_mem_append, List.forall_mem_cons]
      exact ⟨⟨fixed.mark _, Expr.all_itemTokens fixed elements all⟩, fixed.mark _, by simp⟩
  | .choice branches _, all, place => by
    apply fixed.enclose
    simp only [List.forall_mem_cons]
    exact ⟨fixed.keyword _, Branches.all_tokens fixed branches all⟩
  | .forLoop counter start stop none body block _, all, place => by
    simp only [Expr.words, List.forall_mem_append, List.forall_mem_cons] at all
    obtain ⟨⟨⟨counted, allStart⟩, allStop⟩, allBody⟩ := all
    apply fixed.enclose
    simp only [List.forall_mem_append, List.forall_mem_cons]
    exact ⟨⟨⟨⟨fixed.keyword _, counted, fixed.mark _, Expr.all_tokens fixed start allStart _⟩,
      fixed.keyword _, Expr.all_tokens fixed stop allStop _⟩,
      fixed.keyword _, Expr.all_tokens fixed body allBody _⟩, fixed.endTokens block⟩
  | .forLoop counter start stop (some step) body block _, all, place => by
    simp only [Expr.words, List.forall_mem_append, List.forall_mem_cons] at all
    obtain ⟨⟨⟨⟨counted, allStart⟩, allStop⟩, allStep⟩, allBody⟩ := all
    apply fixed.enclose
    simp only [List.forall_mem_append, List.forall_mem_cons]
    exact ⟨⟨⟨⟨⟨fixed.keyword _, counted, fixed.mark _, Expr.all_tokens fixed start allStart _⟩,
      fixed.keyword _, Expr.all_tokens fixed stop allStop _⟩,
      fixed.keyword _, Expr.all_tokens fixed step allStep _⟩,
      fixed.keyword _, Expr.all_tokens fixed body allBody _⟩, fixed.endTokens block⟩
  | .whileLoop condition body block _, all, place => by
    simp only [Expr.words, List.forall_mem_append] at all
    apply fixed.enclose
    simp only [List.forall_mem_append, List.forall_mem_cons]
    exact ⟨⟨⟨fixed.keyword _, Expr.all_tokens fixed condition all.1 _⟩,
      fixed.keyword _, Expr.all_tokens fixed body all.2 _⟩, fixed.endTokens block⟩
  | .read name _, all, _ => all
  | .assign name value _, all, place => by
    simp only [Expr.words, List.forall_mem_cons] at all
    apply fixed.enclose
    simp only [List.forall_mem_cons]
    exact ⟨all.1, fixed.mark _, Expr.all_tokens fixed value all.2 _⟩
  | .member object name _, all, _ => by
    simp only [Expr.words, List.forall_mem_cons] at all
    simp only [Expr.tokens, List.forall_mem_cons]
    exact ⟨all.1, fixed.mark _, all.2⟩
  | .assignMember object name value _, all, place => by
    simp only [Expr.words, List.forall_mem_cons] at all
    apply fixed.enclose
    simp only [List.forall_mem_cons]
    exact ⟨all.1, fixed.mark _, all.2.1, fixed.mark _, Expr.all_tokens fixed value all.2.2 _⟩
  | .function name parameters body valued _, all, place => by
    simp only [Expr.words, List.forall_mem_append] at all
    obtain ⟨⟨named, passed⟩, allBody⟩ := all
    apply fixed.enclose
    simp only [List.forall_mem_append, List.forall_mem_cons]
    refine ⟨⟨⟨fixed.keyword _, named⟩, fixed.mark _, fixed.nameTokens passed⟩, fixed.mark _, ?_⟩
    cases valued with
    | true =>
      simp only [if_true, List.forall_mem_cons]
      exact ⟨fixed.mark _, Expr.all_tokens fixed body allBody _⟩
    | false =>
      simp only [Bool.false_eq_true, if_false, List.forall_mem_append, List.forall_mem_cons]
      exact ⟨Expr.all_tokens fixed body allBody _, fixed.keyword _, by simp⟩
  | .call callee arguments _, all, place => by
    simp only [Expr.words, List.forall_mem_append] at all
    apply fixed.enclose
    simp only [List.forall_mem_append, List.forall_mem_cons]
    exact ⟨⟨Expr.all_tokens fixed callee all.1 _, fixed.mark _,
      Expr.all_itemTokens fixed arguments all.2⟩, fixed.mark _, by simp⟩
  | .template name body _, all, _ => by
    simp only [Expr.words, List.forall_mem_cons] at all
    simp only [Expr.tokens, List.forall_mem_append, List.forall_mem_cons]
    exact ⟨⟨fixed.keyword _, all.1, Expr.all_tokens fixed body all.2 _⟩, fixed.keyword _, by simp⟩
  | .instantiate name _, all, _ => by
    simp only [Expr.words, List.forall_mem_cons] at all
    simp only [Expr.tokens, List.forall_mem_cons]
    exact ⟨fixed.keyword _, all⟩
  | .returnWith none _, _, _ => by simp [Expr.tokens, fixed.keyword]
  | .returnWith (some value) _, all, _ => by
    simp only [Expr.tokens, List.forall_mem_cons]
    exact ⟨fixed.keyword _, Expr.all_tokens fixed value all _⟩
  | .breakLoop _, _, _ => by simp [Expr.tokens, fixed.keyword]
  | .continueLoop _, _, _ => by simp [Expr.tokens, fixed.keyword]

theorem Expr.all_itemTokens (fixed : Fixed P) : (elements : List (Expr Unit)) →
    (∀ kind ∈ Expr.allWords elements, P kind) → ∀ kind ∈ Expr.itemTokens elements, P kind
  | [], _ => by simp [Expr.itemTokens]
  | [element], all => by
    simp only [Expr.allWords, List.append_nil] at all
    exact Expr.all_tokens fixed element all _
  | element :: next :: elements, all => by
    rw [Expr.allWords, List.forall_mem_append] at all
    simp only [Expr.itemTokens, List.forall_mem_append, List.forall_mem_cons]
    exact ⟨Expr.all_tokens fixed element all.1 _, fixed.mark _,
      Expr.all_itemTokens fixed (next :: elements) all.2⟩

theorem Expr.all_statementTokens (fixed : Fixed P) : (statements : List (Expr Unit)) →
    (∀ kind ∈ Expr.allWords statements, P kind) → ∀ kind ∈ Expr.statementTokens statements, P kind
  | [], _ => by simp [Expr.statementTokens]
  | [statement], all => by
    simp only [Expr.allWords, List.append_nil] at all
    exact Expr.all_tokens fixed statement all _
  | statement :: next :: statements, all => by
    rw [Expr.allWords, List.forall_mem_append] at all
    simp only [Expr.statementTokens, List.forall_mem_append, List.forall_mem_cons]
    exact ⟨Expr.all_tokens fixed statement all.1 _, fixed.newline,
      Expr.all_statementTokens fixed (next :: statements) all.2⟩

theorem Branches.all_tokens (fixed : Fixed P) : (branches : Branches Unit) →
    (∀ kind ∈ branches.words, P kind) → ∀ kind ∈ branches.tokens, P kind
  | .done, _ => by simp [Branches.tokens]
  | .otherwise body block, all => by
    simp only [Branches.tokens, List.forall_mem_append, List.forall_mem_cons]
    exact ⟨⟨fixed.keyword _, Expr.all_tokens fixed body all _⟩, fixed.endTokens block⟩
  | .orElse condition body block .done, all => by
    simp only [Branches.words, List.forall_mem_append] at all
    simp only [Branches.tokens, List.forall_mem_append, List.forall_mem_cons]
    exact ⟨⟨Expr.all_tokens fixed condition all.1.1 _, fixed.keyword _,
      Expr.all_tokens fixed body all.1.2 _⟩, fixed.endTokens block⟩
  | .orElse condition body block (.otherwise other otherBlock), all => by
    rw [Branches.words, List.forall_mem_append, List.forall_mem_append] at all
    rw [Branches.tokens, List.forall_mem_append, List.forall_mem_append, List.forall_mem_cons]
    exact ⟨⟨Expr.all_tokens fixed condition all.1.1 _, fixed.keyword _,
      Expr.all_tokens fixed body all.1.2 _⟩,
      Branches.all_tokens fixed (.otherwise other otherBlock) all.2⟩
  | .orElse condition body block (.orElse next nextBody nextBlock rest), all => by
    rw [Branches.words, List.forall_mem_append, List.forall_mem_append] at all
    have tokens : (Branches.orElse condition body block
        (.orElse next nextBody nextBlock rest)).tokens =
        condition.tokens (.operand Rank.connection) ++ .keyword .thenWord ::
          body.tokens (.body block) ++ .keyword .elifWord ::
            (Branches.orElse next nextBody nextBlock rest).tokens := by
      rw [Branches.tokens] <;> simp
    rw [tokens, List.forall_mem_append, List.forall_mem_append, List.forall_mem_cons,
      List.forall_mem_cons]
    exact ⟨⟨Expr.all_tokens fixed condition all.1.1 _, fixed.keyword _,
      Expr.all_tokens fixed body all.1.2 _⟩, fixed.keyword _,
      Branches.all_tokens fixed (.orElse next nextBody nextBlock rest) all.2⟩

end

end

namespace Grammar

open Quill.Token

/-! ## Where words come from -/

/-- All of the tokens have the property, apart from the one that stands for the end. -/
def AllTokens (P : Kind → Prop) (tokens : List Token) : Prop :=
  ∀ token ∈ tokens, token.kind ≠ .endOfInput → P token.kind

/-- All words of what was read have the property. -/
def Phrase.AllWords (P : Kind → Prop) : Phrase → Prop
  | .expression expr | .chain _ expr | .comparison expr | .power expr | .unary expr | .call expr
  | .atom expr | .statement expr | .statements _ expr | .body _ expr _ =>
    ∀ kind ∈ expr.bare.words, P kind
  | .chainFrom _ left expr | .calls left expr =>
    (∀ kind ∈ left.bare.words, P kind) → ∀ kind ∈ expr.bare.words, P kind
  | .named first _ expr => P (.identifier first) → ∀ kind ∈ expr.bare.words, P kind
  | .enumeration _ elements _ | .items _ elements _ | .statementList _ elements =>
    ∀ kind ∈ Expr.allWords (elements.map (·.bare)), P kind
  | .functionName called => ∀ kind ∈ (called.map Kind.identifier).toList, P kind
  | .parameters listed _ | .names listed _ => ∀ kind ∈ listed.map Kind.identifier, P kind
  | .step taken => ∀ expr ∈ taken, ∀ kind ∈ expr.bare.words, P kind
  | .branches alternatives _ => ∀ kind ∈ (alternatives.mapNotes fun _ => ()).words, P kind
  | .ending _ _ _ => True

section

variable {P : Kind → Prop}

@[simp] theorem allTokens_cons {token : Token} {tokens : List Token} :
    AllTokens P (token :: tokens) ↔
      (token.kind ≠ .endOfInput → P token.kind) ∧ AllTokens P tokens := by
  simp [AllTokens]

theorem AllTokens.dropWhile {tokens : List Token} (all : AllTokens P tokens) (p : Token → Bool) :
    AllTokens P (tokens.dropWhile p) := by
  intro token member
  exact all token ((List.dropWhile_suffix p).subset member)

theorem words_list (elements : List Located) (span : Span) :
    (Expr.list elements span).bare.words = Expr.allWords (elements.map (·.bare)) :=
  congrArg Expr.allWords (Expr.mapAllNotes_eq_map _ elements)

theorem words_call (callee : Located) (arguments : List Located) (span : Span) :
    (Expr.call callee arguments span).bare.words =
      callee.bare.words ++ Expr.allWords (arguments.map (·.bare)) :=
  congrArg (callee.bare.words ++ Expr.allWords ·) (Expr.mapAllNotes_eq_map _ arguments)

theorem allWords_of_operand {level : Level} {expr : Located}
    (all : (Phrase.operand level expr).AllWords P) : ∀ kind ∈ expr.bare.words, P kind := by
  cases level <;> exact all

/-- What a reading leaves, and the words of what was read, were among the tokens that it was read
from. -/
theorem Reads.all {phrase : Phrase} {before after : List Token} (reads : Reads phrase before after)
    (all : AllTokens P before) : AllTokens P after ∧ phrase.AllWords P := by
  induction reads with
  | chain _ _ start more =>
    obtain ⟨middle, first⟩ := start all
    obtain ⟨rest, whole⟩ := more middle
    exact ⟨rest, whole (allWords_of_operand first)⟩
  | chainMore _ _ _ _ operand more =>
    obtain ⟨middle, right⟩ := operand (allTokens_cons.mp all).2
    obtain ⟨rest, whole⟩ := more middle
    refine ⟨rest, fun left => whole ?_⟩
    exact List.forall_mem_append.mpr ⟨left, allWords_of_operand right⟩
  | callsMore _ _ passed more =>
    obtain ⟨middle, arguments⟩ := passed (allTokens_cons.mp all).2
    obtain ⟨rest, whole⟩ := more middle
    refine ⟨rest, fun callee => whole ?_⟩
    rw [words_call]
    exact List.forall_mem_append.mpr ⟨callee, arguments⟩
  | smallest =>
    simp only [allTokens_cons] at all
    obtain ⟨-, digits, rest⟩ := all
    exact ⟨rest, List.forall_mem_singleton.mpr (digits (by simp))⟩
  | int small =>
    have printed := Literal.token_ofNat small
    have plain := Literal.isSmallest_ofNat small
    simp_all [Phrase.AllWords, Expr.bare, Expr.mapNotes, Expr.words]
  | float | str =>
    simp_all [Phrase.AllWords, Expr.bare, Expr.mapNotes, Expr.words, Literal.isSmallest,
      Literal.token]
  | list _ listed =>
    obtain ⟨rest, elements⟩ := listed (allTokens_cons.mp all).2
    refine ⟨rest, ?_⟩
    rw [Phrase.AllWords, words_list]
    exact elements
  | @forLoop _ _ _ _ _ _ _ _ _ _ taken =>
    cases taken <;>
      simp_all [Phrase.AllWords, Expr.bare, Expr.mapNotes, Expr.words, or_imp, forall_and]
  | @statements _ _ _ before _ _ skipped _ listed =>
    rw [← skipped] at listed
    obtain ⟨rest, elements⟩ := listed (all.dropWhile _)
    refine ⟨rest, ?_⟩
    rw [Phrase.AllWords, words_list]
    exact elements
  | moreStatements _ _ _ _ first more =>
    obtain ⟨middle, head⟩ := first all
    obtain ⟨rest, tail⟩ := more (middle.dropWhile _)
    exact ⟨rest, List.forall_mem_append.mpr ⟨head, tail⟩⟩
  | _ =>
    simp_all [Phrase.AllWords, Expr.bare, Expr.mapNotes, Expr.words, Expr.allWords,
      Branches.mapNotes, Branches.words, or_imp, forall_and]

end

end Grammar

end Quill
