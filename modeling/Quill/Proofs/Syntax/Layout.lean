import Quill.Proofs.Control.Exits
import Quill.Proofs.Lexing.Placing
import Quill.Proofs.Syntax.RoundTrip
import Quill.Proofs.Syntax.Tails

/-!
# Spans in spans

The span of a node reaches from one token to another one, and the spans of its parts lie in it one
behind the other. A phrase that is read between two places has the spans of what it consists of
between these places. There is one exception: a block without statements borrows the span of the
token behind it. That token closes the block, so it belongs to the construct around the block, and
the parts of the construct that follow stand behind it.
-/

namespace Quill

/-- The expressions that a node is made of, in the order of the text. -/
def Expr.children {Note : Type} : Expr Note → List (Expr Note)
  | .unary _ operand _ => [operand]
  | .binary _ left right _ => [left, right]
  | .list elements _ => elements
  | .choice branches _ => branches.parts
  | .forLoop _ start stop step body _ _ => start :: stop :: (step.toList ++ [body])
  | .whileLoop condition body _ _ => [condition, body]
  | .assign _ value _ | .assignMember _ _ value _ => [value]
  | .function _ _ body _ _ | .template _ body _ => [body]
  | .call callee arguments _ => callee :: arguments
  | .returnWith value _ => value.toList
  | .literal .. | .read .. | .member .. | .instantiate .. | .breakLoop _ | .continueLoop _ => []

/-- The second expression is the first one or a part of it, however deep. -/
inductive Expr.Contains {Note : Type} (root : Expr Note) : Expr Note → Prop where
  /-- The whole. -/
  | whole : root.Contains root
  /-- A part of a part. -/
  | child {node child : Expr Note} (above : root.Contains node) (listed : child ∈ node.children) :
      root.Contains child

/-- What an expression contains is the expression or contained in a part of it. -/
theorem Expr.Contains.eq_or_exists {Note : Type} {root node : Expr Note}
    (contains : root.Contains node) :
    node = root ∨ ∃ child ∈ root.children, child.Contains node := by
  induction contains with
  | whole => exact .inl rfl
  | child _ listed ih =>
    obtain rfl | ⟨top, first, above⟩ := ih
    · exact .inr ⟨_, listed, .whole⟩
    · exact .inr ⟨top, first, .child above listed⟩

/-- The spans of some expressions do not overlap and follow one another. -/
def Expr.Apart (exprs : List Located) : Prop :=
  exprs.Pairwise fun earlier later => earlier.note.stop.index ≤ later.note.start.index

/-- The span of the node fits to the tokens and to the spans of its parts. -/
structure Expr.WellSpanned (source : Source) (tokens : List Token) (node : Located) : Prop where
  /-- It is a part of the source. -/
  located : node.note.source = source
  /-- It starts where a token starts, and stops where a token stops. -/
  bounded : ∃ first ∈ tokens, ∃ last ∈ tokens, node.note = first.span.through last.span
  /-- It stops where it starts or behind. -/
  forward : node.note.start.index ≤ node.note.stop.index
  /-- The parts of the node lie in it. -/
  inside : ∀ child ∈ node.children, node.note.start.index ≤ child.note.start.index ∧
    child.note.stop.index ≤ node.note.stop.index
  /-- They follow one another. -/
  apart : Expr.Apart node.children

namespace Grammar

open Quill.Token

/-- Everything in the expression is well spanned. -/
def AllSpanned (source : Source) (tokens : List Token) (expr : Located) : Prop :=
  ∀ node, expr.Contains node → node.WellSpanned source tokens

/-- Between the two places, the span lies over some tokens. -/
structure Seated (before after : List Token) (span : Span) : Prop where
  /-- It reaches from a token to a token. -/
  bounded : ∃ first ∈ before, ∃ last ∈ before, span = first.span.through last.span
  /-- It stops where it starts or behind. -/
  forward : span.start.index ≤ span.stop.index
  /-- What is left stands behind it. -/
  clear : ∀ token ∈ after, span.stop.index ≤ token.span.start.index

/-- Between the two places, the expressions lie one behind the other. -/
structure Laid (source : Source) (tokens before after : List Token) (exprs : List Located) :
    Prop where
  /-- Each of them lies over some of the tokens. -/
  seated : ∀ expr ∈ exprs, Seated before after expr.note
  /-- Everything in them is well spanned. -/
  spanned : ∀ expr ∈ exprs, AllSpanned source tokens expr
  /-- They follow one another. -/
  apart : Expr.Apart exprs

/-- Between the two places, the expressions lie one behind the other, and the construct that they
are the parts of stops where the span does. -/
structure Closed (source : Source) (tokens : List Token) (stop : Span) (before after : List Token)
    (exprs : List Located) : Prop extends Laid source tokens before after exprs where
  /-- It is a place where a token stops. -/
  bounded : ∃ last ∈ before, stop.stop = last.span.stop
  /-- What is left stands behind it. -/
  clear : ∀ token ∈ after, stop.stop.index ≤ token.span.start.index
  /-- The expressions do not reach beyond it. -/
  covers : ∀ expr ∈ exprs, expr.note.stop.index ≤ stop.stop.index

variable {source : Source} {tokens before middle rest after whole : List Token}
variable {exprs others : List Located} {expr node : Located} {token : Token} {span stop : Span}

/-! ## Parts one behind the other -/

theorem Seated.mono (seated : Seated before after span) (earlier : before <:+ whole)
    (later : rest <:+ after) : Seated whole rest span := by
  obtain ⟨first, firstListed, last, lastListed, same⟩ := seated.bounded
  exact ⟨⟨first, earlier.subset firstListed, last, earlier.subset lastListed, same⟩,
    seated.forward, fun token listed => seated.clear token (later.subset listed)⟩

theorem Laid.mono (laid : Laid source tokens before after exprs) (earlier : before <:+ whole)
    (later : rest <:+ after) : Laid source tokens whole rest exprs where
  seated expr listed := (laid.seated expr listed).mono earlier later
  spanned := laid.spanned
  apart := laid.apart

theorem Laid.nil : Laid source tokens before after [] where
  seated _ listed := nomatch listed
  spanned _ listed := nomatch listed
  apart := List.Pairwise.nil

/-- What lies between later places lies behind what lies between earlier ones. -/
theorem Laid.append (first : Laid source tokens before middle exprs)
    (second : Laid source tokens rest after others) (within : middle <:+ before)
    (follows : rest <:+ middle) (behind : after <:+ rest) :
    Laid source tokens before after (exprs ++ others) where
  seated expr listed := by
    rcases List.mem_append.mp listed with early | late
    · exact (first.seated expr early).mono (List.suffix_refl _) (behind.trans follows)
    · exact (second.seated expr late).mono (follows.trans within) (List.suffix_refl _)
  spanned expr listed :=
    (List.mem_append.mp listed).elim (first.spanned expr) (second.spanned expr)
  apart := by
    refine List.pairwise_append.mpr ⟨first.apart, second.apart, fun early listed late other => ?_⟩
    obtain ⟨start, found, _, -, same⟩ := (second.seated late other).bounded
    rw [same]
    exact (first.seated early listed).clear start (follows.subset found)

/-- What begins behind a token lies behind it. -/
theorem Laid.start_le (ordered : InOrder source tokens) (within : token :: rest <:+ tokens)
    (laid : Laid source tokens rest after exprs) (listed : expr ∈ exprs) :
    token.span.stop.index ≤ expr.note.start.index := by
  obtain ⟨first, found, _, -, same⟩ := (laid.seated expr listed).bounded
  rw [same]
  exact ordered.behind within first found

/-! ## Where a construct stops -/

/-- A construct may stop with its last part. -/
theorem Laid.closed (laid : Laid source tokens before after exprs)
    (final : exprs.getLast? = some expr) : Closed source tokens expr.note before after exprs := by
  obtain ⟨init, rfl⟩ := List.getLast?_eq_some_iff.mp final
  have seated := laid.seated expr (by simp)
  obtain ⟨_, -, last, found, same⟩ := seated.bounded
  refine ⟨laid, ⟨last, found, by rw [same]; rfl⟩, seated.clear, fun other listed => ?_⟩
  rcases List.mem_append.mp listed with early | late
  · exact Nat.le_trans ((List.pairwise_append.mp laid.apart).2.2 other early expr (by simp))
      seated.forward
  · obtain rfl := List.mem_singleton.mp late
    exact Nat.le_refl _

/-- A construct may stop with a token behind its last part. -/
theorem Laid.closed_token (ordered : InOrder source tokens)
    (laid : Laid source tokens before (token :: after) exprs) (within : token :: after <:+ before)
    (among : before <:+ tokens) : Closed source tokens token.span before after exprs where
  toLaid := laid.mono (List.suffix_refl _) (List.suffix_cons _ _)
  bounded := ⟨token, within.subset List.mem_cons_self, rfl⟩
  clear := ordered.behind (within.trans among)
  covers expr listed := Nat.le_trans ((laid.seated expr listed).clear token List.mem_cons_self)
    (ordered.forward_of_suffix (within.trans among))

theorem Closed.mono (closed : Closed source tokens stop before after exprs)
    (earlier : before <:+ whole) : Closed source tokens stop whole after exprs := by
  obtain ⟨last, found, same⟩ := closed.bounded
  exact ⟨closed.toLaid.mono earlier (List.suffix_refl _), ⟨last, earlier.subset found, same⟩,
    closed.clear, closed.covers⟩

/-- More parts in front. -/
theorem Closed.prepend (closed : Closed source tokens stop rest after others)
    (ordered : InOrder source tokens) (laid : Laid source tokens before middle exprs)
    (among : before <:+ tokens) (within : middle <:+ before) (follows : rest <:+ middle)
    (behind : after <:+ rest) : Closed source tokens stop before after (exprs ++ others) where
  toLaid := laid.append closed.toLaid within follows behind
  bounded := (closed.mono (follows.trans within)).bounded
  clear := closed.clear
  covers expr listed := by
    rcases List.mem_append.mp listed with early | late
    · obtain ⟨last, found, same⟩ := closed.bounded
      have later := follows.subset found
      calc expr.note.stop.index
          ≤ last.span.start.index := (laid.seated expr early).clear last later
        _ ≤ last.span.stop.index := ordered.forward last (among.subset (within.subset later))
        _ = stop.stop.index := by rw [same]
    · exact closed.covers expr late

/-! ## One more node -/

/-- A node around parts that are laid, in a span that they do not leave. -/
theorem Laid.around (ordered : InOrder source tokens) (among : before <:+ tokens)
    (laid : Laid source tokens rest middle node.children) (seated : Seated before after node.note)
    (inside : ∀ child ∈ node.children, node.note.start.index ≤ child.note.start.index ∧
      child.note.stop.index ≤ node.note.stop.index) :
    Laid source tokens before after [node] := by
  obtain ⟨first, firstFound, last, lastFound, same⟩ := seated.bounded
  have spanned : node.WellSpanned source tokens :=
    { located := by rw [same]; exact ordered.located first (among.subset firstFound)
      bounded := ⟨first, among.subset firstFound, last, among.subset lastFound, same⟩
      forward := seated.forward
      inside := inside
      apart := laid.apart }
  refine ⟨?_, ?_, List.pairwise_singleton _ _⟩
  · simpa using seated
  · intro expr listed inner contains
    obtain rfl := List.mem_singleton.mp listed
    obtain rfl | ⟨child, found, below⟩ := contains.eq_or_exists
    · exact spanned
    · exact laid.spanned child found inner below

/-- A node that begins with a token of its own. -/
theorem Laid.of_word (ordered : InOrder source tokens) (among : token :: rest <:+ tokens)
    (closed : Closed source tokens stop rest after node.children)
    (same : node.note = token.span.through stop) :
    Laid source tokens (token :: rest) after [node] := by
  obtain ⟨last, found, place⟩ := closed.bounded
  have forward := ordered.forward_of_suffix among
  have behind := ordered.behind among last found
  have lastForward := ordered.forward last (among.subset (List.mem_cons_of_mem _ found))
  refine .around ordered among closed.toLaid ⟨⟨token, List.mem_cons_self, last,
    List.mem_cons_of_mem _ found, ?_⟩, ?_, ?_⟩ ?_
  · rw [same, Span.through, Span.through, place]
  · rw [same, Span.start_through, Span.stop_through, place]
    omega
  · rw [same]
    exact closed.clear
  · intro child listed
    rw [same]
    exact ⟨Nat.le_trans forward (closed.toLaid.start_le ordered among listed),
      closed.covers child listed⟩

/-- A node of a single token. -/
theorem Laid.of_token (ordered : InOrder source tokens) (among : token :: after <:+ tokens)
    (same : node.note = token.span) (leaf : node.children = []) :
    Laid source tokens (token :: after) after [node] := by
  have nothing : Laid source tokens after after node.children := leaf ▸ .nil
  refine .around ordered among nothing ⟨⟨token, List.mem_cons_self, token, List.mem_cons_self,
    same⟩, ?_, ?_⟩ ?_
  · rw [same]
    exact ordered.forward_of_suffix among
  · rw [same]
    exact ordered.behind among
  · rw [leaf]
    exact fun _ listed => nomatch listed

/-- A node that begins with its first part. -/
theorem Laid.of_part {first : Located} (ordered : InOrder source tokens)
    (among : before <:+ tokens) (closed : Closed source tokens stop before after (first :: others))
    (parts : node.children = first :: others) (same : node.note = first.note.through stop) :
    Laid source tokens before after [node] := by
  have seated := closed.seated first List.mem_cons_self
  obtain ⟨start, startFound, _, -, place⟩ := seated.bounded
  obtain ⟨last, found, stops⟩ := closed.bounded
  have covered := closed.covers first List.mem_cons_self
  have laid : Laid source tokens before after node.children := parts ▸ closed.toLaid
  refine .around ordered among laid ⟨⟨start, startFound, last, found, ?_⟩, ?_, ?_⟩ ?_
  · rw [same, place, Span.through, Span.through, Span.through, stops]
  · rw [same]
    exact Nat.le_trans seated.forward covered
  · rw [same]
    exact closed.clear
  · rw [parts, same]
    intro child listed
    refine ⟨?_, closed.covers child listed⟩
    obtain rfl | later := List.mem_cons.mp listed
    · exact Nat.le_refl _
    · exact Nat.le_trans seated.forward ((List.pairwise_cons.mp closed.apart).1 child later)

/-! ## Phrases -/

/-- How what a phrase was read as lies between the places before and behind it. -/
def Phrase.Lays (source : Source) (tokens before after : List Token) : Phrase → Prop
  | .expression expr | .chain _ expr | .comparison expr | .power expr | .unary expr | .call expr
  | .atom expr | .statement expr | .body _ expr false => Laid source tokens before after [expr]
  | .chainFrom _ left expr | .calls left expr =>
    ∀ whole, before <:+ whole → whole <:+ tokens → Laid source tokens whole before [left] →
      Laid source tokens whole after [expr]
  | .named name span expr =>
    ⟨.identifier name, span⟩ :: before <:+ tokens →
      Laid source tokens (⟨.identifier name, span⟩ :: before) after [expr]
  | .enumeration _ elements last | .items _ elements last =>
    Closed source tokens last.span before after elements
  | .statementList _ elements => Laid source tokens before after elements
  -- The span of an empty block is that of the token behind it.
  | .statements _ expr | .body _ expr true =>
    ∀ token more, after = token :: more →
      Laid source tokens before more [expr] ∧ expr.note.stop.index ≤ token.span.stop.index
  | .step found => Laid source tokens before after found.toList
  | .branches alternatives stop => Closed source tokens stop before after alternatives.parts
  | .functionName _ | .parameters .. | .names .. | .ending .. => True

theorem lays_operand {level : Level} :
    (Phrase.operand level expr).Lays source tokens before after ↔
      Laid source tokens before after [expr] := by
  cases level <;> rfl

/-- A body in front of the word that closes it or that begins the next alternative. -/
theorem laid_of_body {closing : Token.Kind → Bool} {body : Located} {block : Bool}
    (lays : (Phrase.body closing body block).Lays source tokens before (token :: after)) :
    Laid source tokens before after [body] := by
  cases block with
  | true => exact (lays token after rfl).1
  | false => exact Laid.mono lays (List.suffix_refl _) (List.suffix_cons _ _)

/-- A block and the word that closes it. -/
theorem closed_of_block (ordered : InOrder source tokens) (among : before <:+ tokens)
    (within : token :: after <:+ before) (laid : Laid source tokens before after [expr])
    (covered : expr.note.stop.index ≤ token.span.stop.index) :
    Closed source tokens token.span before after [expr] where
  toLaid := laid
  bounded := ⟨token, within.subset List.mem_cons_self, rfl⟩
  clear := ordered.behind (within.trans among)
  covers := by simpa using covered

/-- A body and the end of the construct that it belongs to. -/
theorem closed_of_body {closing : Token.Kind → Bool} {body : Located} {block : Bool}
    (ordered : InOrder source tokens) (among : before <:+ tokens) (within : middle <:+ before)
    (lays : (Phrase.body closing body block).Lays source tokens before middle)
    (ended : Reads (.ending body block stop) middle after) :
    Closed source tokens stop before after [body] := by
  cases ended with
  | endOfLine => exact Laid.closed lays rfl
  | endOfBlock =>
    obtain ⟨laid, covered⟩ := lays _ _ rfl
    exact closed_of_block ordered among within laid covered

/-- Statements, in front of the token behind them. -/
theorem laid_of_statements {closing : Token.Kind → Bool} {elements : List Located} {next : Token}
    (ordered : InOrder source tokens) (among : next :: rest <:+ tokens)
    (listed : Reads (.statementList closing elements) (next :: rest) (token :: after))
    (laid : Laid source tokens (next :: rest) (token :: after) elements) :
    Laid source tokens (next :: rest) after [.list elements (spanOf elements next.span)] ∧
      (spanOf elements next.span).stop.index ≤ token.span.stop.index := by
  cases elements with
  | nil =>
    cases listed
    exact ⟨.of_token ordered among rfl rfl, Nat.le_refl _⟩
  | cons first others =>
    obtain ⟨last, final⟩ : ∃ last, (first :: others).getLast? = some last :=
      ⟨_, List.getLast?_cons⟩
    have spans : spanOf (first :: others) next.span = first.note.through last.note := by
      simp [spanOf, final]
    have node : Laid source tokens (next :: rest) (token :: after)
        [.list (first :: others) (spanOf (first :: others) next.span)] :=
      .of_part ordered among (laid.closed final) rfl spans
    refine ⟨node.mono (List.suffix_refl _) (List.suffix_cons _ _), ?_⟩
    exact Nat.le_trans ((node.seated _ List.mem_cons_self).clear token List.mem_cons_self)
      (ordered.forward_of_suffix (listed.suffix.trans among))

/-- What a phrase was read as lies between the places before and behind it. -/
theorem Reads.lays {phrase : Phrase} (ordered : InOrder source tokens)
    (reads : Reads phrase before after) :
    before <:+ tokens → phrase.Lays source tokens before after := by
  induction reads with
  | declaration _ ih =>
    intro among
    have value := ih ((List.suffix_append [_, _, _] _).trans among)
    exact .of_word ordered among (Closed.mono (Laid.closed value rfl)
      (List.suffix_append [_, _] _)) rfl
  | assignment _ ih =>
    intro among
    have value := ih ((List.suffix_append [_, _] _).trans among)
    exact .of_word ordered among (Closed.mono (Laid.closed value rfl) (List.suffix_cons _ _)) rfl
  | connection _ _ _ ih | comparison _ _ ih | base _ _ ih | unsigned _ _ _ ih | elements _ _ ih
  | statement _ _ ih | block _ _ ih | single _ _ ih | lastStatement _ _ _ ih => exact ih
  | chain start _ ihStart ihMore =>
    intro among
    exact ihMore (start.suffix.trans among) _ start.suffix among (lays_operand.mp (ihStart among))
  | chainEnd | callsEnd => exact fun _ _ _ _ left => left
  | chainMore _ _ operand _ ihOperand ihMore =>
    intro among whole within amongWhole left
    -- Both operands are the parts of a node, which is the left operand of what follows.
    have later := (List.suffix_cons _ _).trans among
    have right := lays_operand.mp (ihOperand later)
    have both := left.append right within (List.suffix_cons _ _) operand.suffix
    exact ihMore (operand.suffix.trans later) _
      (operand.suffix.trans ((List.suffix_cons _ _).trans within)) amongWhole
      (.of_part ordered amongWhole (both.closed rfl) rfl rfl)
  | negation _ ih | plus _ ih | minus _ _ ih | returnSome _ _ ih =>
    intro among
    have operand := ih ((List.suffix_cons _ _).trans among)
    exact .of_word ordered among (Laid.closed operand rfl) rfl
  | power start raised ihStart ihRaised =>
    intro among
    have later := start.suffix_behind.trans among
    have both := (ihStart among).append (ihRaised later) start.suffix (List.suffix_cons _ _)
      raised.suffix
    exact .of_part ordered among (both.closed rfl) rfl rfl
  | smallest | instantiate =>
    intro among
    have later := (List.suffix_cons _ _).trans among
    exact .of_word ordered among (Laid.closed_token ordered .nil (List.suffix_refl _) later) rfl
  | call start _ ihStart ihMore =>
    intro among
    exact ihMore (start.suffix.trans among) _ start.suffix among (ihStart among)
  | callsMore passed _ ihPassed ihMore =>
    intro among whole within amongWhole left
    have later := (List.suffix_cons _ _).trans among
    have both := (ihPassed later).prepend ordered left amongWhole within (List.suffix_cons _ _)
      passed.suffix
    exact ihMore (passed.suffix.trans later) _
      (passed.suffix.trans ((List.suffix_cons _ _).trans within)) amongWhole
      (.of_part ordered amongWhole both rfl rfl)
  | int | float | str | returnNone | continueLoop | breakLoop =>
    intro among
    exact .of_token ordered among rfl rfl
  | named _ ih =>
    intro among
    exact ih ((List.suffix_cons _ _).trans among) among
  | «variable» =>
    intro _ among
    exact .of_token ordered among rfl rfl
  | member =>
    intro later among
    have name := (List.suffix_cons _ _).trans later
    exact .of_word ordered among ((Laid.closed_token ordered .nil (List.suffix_refl _) name).mono
      (List.suffix_cons _ _)) rfl
  | memberAssignment _ ih =>
    intro later among
    have value := ih ((List.suffix_append [_, _, _] _).trans later)
    exact .of_word ordered among (Closed.mono (Laid.closed value rfl)
      (List.suffix_append [_, _, _] _)) rfl
  | parens _ ih =>
    intro among
    exact (ih ((List.suffix_cons _ _).trans among)).mono (List.suffix_cons _ _)
      (List.suffix_cons _ _)
  | list _ ih | choice _ ih =>
    intro among
    exact .of_word ordered among (ih ((List.suffix_cons _ _).trans among)) rfl
  | forLoop started stopped stepped repeated ended ihStart ihStop ihStep ihBody _ =>
    intro among
    have atStart := (List.suffix_append [_, _, _] _).trans among
    have atStop := started.suffix_behind.trans atStart
    have atStep := stopped.suffix.trans atStop
    have atBody := stepped.suffix_behind.trans atStep
    have fromBody := ended.suffix.trans repeated.suffix
    have fromStep := fromBody.trans stepped.suffix_behind
    have body := closed_of_body ordered atBody repeated.suffix (ihBody atBody) ended
    have step := body.prepend ordered (ihStep atStep) atStep stepped.suffix (List.suffix_cons _ _)
      fromBody
    have stop := step.prepend ordered (ihStop atStop) atStop stopped.suffix (List.suffix_refl _)
      fromStep
    have start := stop.prepend ordered (ihStart atStart) atStart started.suffix
      (List.suffix_cons _ _) (fromStep.trans stopped.suffix)
    exact .of_word ordered among (start.mono (List.suffix_append [_, _] _)) rfl
  | stepNone | noStatements =>
    intro _
    exact .nil
  | stepSome _ ih =>
    intro among
    exact (ih ((List.suffix_cons _ _).trans among)).mono (List.suffix_cons _ _)
      (List.suffix_refl _)
  | whileLoop conditional repeated ended ihCondition ihBody _ =>
    intro among
    have atCondition := (List.suffix_cons _ _).trans among
    have atBody := conditional.suffix_behind.trans atCondition
    have body := closed_of_body ordered atBody repeated.suffix (ihBody atBody) ended
    exact .of_word ordered among (body.prepend ordered (ihCondition atCondition) atCondition
      conditional.suffix (List.suffix_cons _ _) (ended.suffix.trans repeated.suffix)) rfl
  | functionOf called passed _ _ _ ihValued =>
    intro among
    have header := passed.suffix_behind.trans called.suffix_behind
    have value := ihValued (header.trans ((List.suffix_cons _ _).trans among))
    exact .of_word ordered among (Closed.mono (Laid.closed value rfl) header) rfl
  | functionBlock called passed _ blocked _ _ ihBlocked =>
    intro among
    have header := passed.suffix.trans called.suffix_behind
    have atBlock := header.trans ((List.suffix_cons _ _).trans among)
    obtain ⟨laid, covered⟩ := ihBlocked atBlock _ _ rfl
    have block := closed_of_block ordered atBlock blocked.suffix laid covered
    exact .of_word ordered among (block.mono header) rfl
  | template _ blocked ih =>
    intro among
    have atBlock := (List.suffix_append [_, _] _).trans among
    obtain ⟨laid, covered⟩ := ih atBlock _ _ rfl
    have block := closed_of_block ordered atBlock blocked.suffix laid covered
    exact .of_word ordered among (block.mono (List.suffix_cons _ _)) rfl
  | noElements =>
    intro among
    exact Laid.closed_token ordered .nil (List.suffix_refl _) among
  | lastItem _ item ih =>
    intro among
    exact Laid.closed_token ordered (ih among) item.suffix among
  | moreItems item more ihItem ihMore =>
    intro among
    exact (ihMore (item.suffix_behind.trans among)).prepend ordered (ihItem among) among
      item.suffix (List.suffix_cons _ _) more.suffix
  | moreStatements _ first _ more ihFirst ihMore =>
    intro among
    refine (ihFirst among).append (ihMore ?_) first.suffix (List.dropWhile_suffix _) more.suffix
    exact (List.dropWhile_suffix _).trans (first.suffix.trans among)
  | statements skipped listed ih =>
    rintro among token more rfl
    -- The separators in front do not belong to the block.
    have within := skipped ▸ List.dropWhile_suffix fun token : Token => token.kind.isSeparator
    have later := within.trans among
    have block := laid_of_statements ordered later listed (ih later)
    exact ⟨block.1.mono within (List.suffix_refl _), block.2⟩
  | elif conditional chosen more ihCondition ihBody ihMore =>
    intro among
    -- From the last part to the first one, each is put in front of what follows it.
    have atBody := conditional.suffix_behind.trans among
    have others := ihMore (chosen.suffix_behind.trans atBody)
    have body := others.prepend ordered (laid_of_body (ihBody atBody)) atBody chosen.suffix_behind
      (List.suffix_refl _) more.suffix
    exact body.prepend ordered (ihCondition among) among conditional.suffix (List.suffix_cons _ _)
      (more.suffix.trans chosen.suffix_behind)
  | otherwise conditional chosen alternative ended ihCondition ihBody ihOther _ =>
    intro among
    have atBody := conditional.suffix_behind.trans among
    have atOther := chosen.suffix_behind.trans atBody
    have fromOther := ended.suffix.trans alternative.suffix
    have other := closed_of_body ordered atOther alternative.suffix (ihOther atOther) ended
    have body := other.prepend ordered (laid_of_body (ihBody atBody)) atBody chosen.suffix_behind
      (List.suffix_refl _) fromOther
    exact body.prepend ordered (ihCondition among) among conditional.suffix (List.suffix_cons _ _)
      (fromOther.trans chosen.suffix_behind)
  | lastBranch conditional chosen _ _ _ ended ihCondition ihBody _ =>
    intro among
    have atBody := conditional.suffix_behind.trans among
    have body := closed_of_body ordered atBody chosen.suffix (ihBody atBody) ended
    exact body.prepend ordered (ihCondition among) among conditional.suffix (List.suffix_cons _ _)
      (ended.suffix.trans chosen.suffix)
  | noName | name | noParameters | parameters | lastName | moreNames | endOfBlock | endOfLine =>
    exact fun _ => trivial

theorem wellSpanned_of_parse {root : Located} (ordered : InOrder source tokens)
    (parsed : parse tokens = .ok root) (contains : root.Contains node) :
    node.WellSpanned source tokens := by
  obtain ⟨span, rest, reads⟩ := parse_eq_ok_iff.mp parsed
  obtain ⟨laid, -⟩ := reads.lays ordered (List.suffix_refl _) _ _ rfl
  exact laid.spanned root List.mem_cons_self node contains

/-- Tokens of one text stand in order. Of a program in tokens that do, every node reaches from where
a token starts to where a token stops and not back, its parts lie in it, and they do not overlap but
follow one another. -/
theorem parse_spans_nest (source : Source) :
    (∀ tokens, scan source = .ok tokens → InOrder source tokens) ∧
    ∀ tokens root, InOrder source tokens → parse tokens = .ok root →
      ∀ node, root.Contains node → node.WellSpanned source tokens :=
  ⟨fun _ => inOrder_of_scan, fun _ _ ordered parsed _ => wellSpanned_of_parse ordered parsed⟩

/-- The empty blocks of a choice have the spans of the words behind them. -/
theorem parse_spans_nest_choice : ∃ tokens root,
    scan ⟨0, "<line>", "if a then\nelif (b) then\nelse\nend"⟩ = .ok tokens ∧
    parse tokens = .ok root ∧
    (root.children.flatMap Expr.children).map (fun node =>
      (node.note.start.index, node.note.stop.index)) =
        [(3, 4), (10, 14), (16, 17), (24, 28), (29, 32)] ∧
    ∀ node, root.Contains node →
      node.WellSpanned ⟨0, "<line>", "if a then\nelif (b) then\nelse\nend"⟩ tokens := by
  have checked : ((scan ⟨0, "<line>", "if a then\nelif (b) then\nelse\nend"⟩).toOption.bind
      fun tokens => (parse tokens).toOption.map fun root =>
        (root.children.flatMap Expr.children).map fun node =>
          (node.note.start.index, node.note.stop.index)) =
      some [(3, 4), (10, 14), (16, 17), (24, 28), (29, 32)] := by
    decide +kernel
  obtain ⟨tokens, scanned, found⟩ := Option.bind_eq_some_iff.mp checked
  obtain ⟨root, parsed, spans⟩ := Option.map_eq_some_iff.mp found
  have scanned := eq_ok_of_toOption scanned
  have parsed := eq_ok_of_toOption parsed
  have nests := parse_spans_nest ⟨0, "<line>", "if a then\nelif (b) then\nelse\nend"⟩
  exact ⟨tokens, root, scanned, parsed, spans, nests.2 tokens root (nests.1 tokens scanned) parsed⟩

end Grammar

end Quill
