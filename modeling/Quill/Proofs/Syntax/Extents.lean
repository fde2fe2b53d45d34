import Quill.Proofs.Lexing.Excerpts
import Quill.Proofs.Syntax.Alone
import Quill.Proofs.Syntax.Erasing
import Quill.Proofs.Syntax.Joining
import Quill.Proofs.Syntax.Nesting
import Quill.Proofs.Syntax.RoundTrip

/-!
# The text of a node

The span of a node covers the text that it was read from, except that parentheses around the first
and the last of its parts are left out. If the parentheses in the text of a node are matched, none
is missing, and the text is a program of its own: this one node. Otherwise it is no program.
-/

namespace Quill

mutual

/-- The nodes below an expression. The list of the statements of a block is no node, but the
statements are. -/
def Expr.inner {Note : Type} : Expr Note → List (Expr Note)
  | .literal _ _ | .read _ _ | .member _ _ _ | .instantiate _ _ | .returnWith none _
  | .breakLoop _ | .continueLoop _ => []
  | .unary _ operand _ => operand :: operand.inner
  | .binary _ left right _ => (left :: left.inner) ++ (right :: right.inner)
  | .list elements _ => Expr.allNodes elements
  | .choice branches _ => branches.nodes
  | .forLoop _ start stop none body block _ =>
    (start :: start.inner) ++ (stop :: stop.inner) ++ ((if block then [] else [body]) ++ body.inner)
  | .forLoop _ start stop (some step) body block _ =>
    (start :: start.inner) ++ (stop :: stop.inner) ++ (step :: step.inner) ++
      ((if block then [] else [body]) ++ body.inner)
  | .whileLoop condition body block _ =>
    (condition :: condition.inner) ++ ((if block then [] else [body]) ++ body.inner)
  | .assign _ value _ | .assignMember _ _ value _ | .returnWith (some value) _ =>
    value :: value.inner
  | .function _ _ body valued _ => (if valued then [body] else []) ++ body.inner
  | .call callee arguments _ => (callee :: callee.inner) ++ Expr.allNodes arguments
  | .template _ body _ => body.inner

/-- The expressions and all nodes below them. -/
def Expr.allNodes {Note : Type} : List (Expr Note) → List (Expr Note)
  | [] => []
  | element :: rest => (element :: element.inner) ++ Expr.allNodes rest

/-- The nodes of the alternatives. -/
def Branches.nodes {Note : Type} : Branches Note → List (Expr Note)
  | .done => []
  | .otherwise body block => (if block then [] else [body]) ++ body.inner
  | .orElse condition body block rest =>
    (condition :: condition.inner) ++ ((if block then [] else [body]) ++ body.inner) ++ rest.nodes

end

namespace Grammar

open Quill.Token Quill.Parser

variable {before middle after tokens front rest : List Token} {expr node : Located} {note : Span}

/-! ## Tokens of a span -/

/-- The span reaches from the first of the tokens to the last one. -/
def Covers (span : Span) (row : List Token) : Prop :=
  ∃ first last, row.head? = some first ∧ row.getLast? = some last ∧
    span = first.span.through last.span

/-- Apart from parentheses that are open in front and closed behind, the span covers the tokens. -/
def Trimmed (span : Span) (tokens : List Token) : Prop :=
  ∃ opens row closes, tokens = opens ++ (row ++ closes) ∧
    (∀ token ∈ opens, token.kind = .mark .openParen) ∧
    (∀ token ∈ closes, token.kind = .mark .closeParen) ∧ Covers span row

/-- Apart from parentheses that are closed behind the place, the tokens reach up to it. -/
def StopsAt (place : Position) (before after : List Token) : Prop :=
  ∃ row closes last, before = row ++ (closes ++ after) ∧
    (∀ token ∈ closes, token.kind = .mark .closeParen) ∧ row.getLast? = some last ∧
    last.span.stop = place

/-- Among the tokens, the node covers some, and they are the node on their own if their parentheses
are matched. -/
def Extent (before after : List Token) (node : Located) : Prop :=
  ∃ row back, row ++ back <:+ before ∧ after <:+ back ∧ Covers node.note row ∧
    (Matched (kindsOf row) → Alone row node)

/-- Among the tokens, each of the nodes has its extent. -/
def Extents (before after : List Token) (nodes : List Located) : Prop :=
  ∀ node ∈ nodes, Extent before after node

/-- The tokens are those of the expression, and each node of it has its extent there. -/
structure Spanned (before after : List Token) (expr : Located) : Prop where
  /-- The span of the expression. -/
  trimmed : ∃ taken, before = taken ++ after ∧ Trimmed expr.note taken
  /-- The spans of its nodes. -/
  extents : Extents before after (expr :: expr.inner)

theorem Extents.mono {nodes : List Located} {whole later : List Token}
    (extents : Extents before after nodes) (earlier : before <:+ whole) (behind : later <:+ after) :
    Extents whole later nodes := by
  intro node listed
  obtain ⟨row, back, within, follows, covers, alone⟩ := extents node listed
  exact ⟨row, back, within.trans earlier, behind.trans follows, covers, alone⟩

theorem Extents.append {nodes others : List Located} (first : Extents before after nodes)
    (second : Extents before after others) : Extents before after (nodes ++ others) :=
  fun node listed => (List.mem_append.mp listed).elim (first node) (second node)

theorem Extents.nil : Extents before after [] :=
  fun _ listed => nomatch listed

theorem StopsAt.mono {place : Position} {whole : List Token} (stops : StopsAt place before after)
    (earlier : before <:+ whole) : StopsAt place whole after := by
  obtain ⟨row, closes, last, rfl, closing, ends, same⟩ := stops
  obtain ⟨front, rfl⟩ := earlier
  refine ⟨front ++ row, closes, last, (List.append_assoc ..).symm, closing, ?_, same⟩
  rw [List.getLast?_append, ends]
  rfl

theorem Spanned.stops (spanned : Spanned before after expr) :
    StopsAt expr.note.stop before after := by
  obtain ⟨⟨_, rfl, opens, row, closes, rfl, -, closing, first, last, begins, ends, same⟩, -⟩ :=
    spanned
  refine ⟨opens ++ row, closes, last, by simp, closing, ?_, ?_⟩
  · rw [List.getLast?_append, ends]
    rfl
  · rw [same]
    rfl

/-! ## One more node -/

theorem nesting_opens {opens : List Token}
    (opening : ∀ token ∈ opens, token.kind = .mark .openParen) (depth : Nat) :
    nesting depth (kindsOf opens) = some (depth + opens.length) := by
  induction opens generalizing depth with
  | nil => rfl
  | cons token opens ih =>
    rw [kindsOf, List.map_cons, nesting_cons, opening token List.mem_cons_self]
    have later := ih (fun token listed => opening token (List.mem_cons_of_mem _ listed)) (depth + 1)
    rw [List.length_cons, Nat.add_comm opens.length, ← Nat.add_assoc]
    exact later

/-- If some tokens are matched, they have no parentheses around that the whole needs. -/
theorem eq_nil_of_matched {opens closes : List Token} (inside more : List Token)
    (opening : ∀ token ∈ opens, token.kind = .mark .openParen)
    (closing : ∀ token ∈ closes, token.kind = .mark .closeParen)
    (front : Matched (kindsOf (opens ++ inside)))
    (whole : Matched (kindsOf (opens ++ (inside ++ more ++ closes))))
    (row : Matched (kindsOf (inside ++ more))) : opens = [] ∧ closes = [] := by
  have none : opens = [] := by
    rw [Matched, kindsOf, List.map_append, nesting_append] at front row
    rw [nesting_opens opening] at front
    obtain ⟨deep, found, -⟩ := Option.bind_eq_some_iff.mp row
    have deeper := nesting_add found opens.length
    rw [Nat.zero_add] at deeper front
    rw [Option.bind_some, deeper] at front
    have depth := Option.some.inj front
    exact List.length_eq_zero_iff.mp (by omega)
  subst none
  refine ⟨rfl, ?_⟩
  cases closes with
  | nil => rfl
  | cons token closes =>
    rw [Matched, List.nil_append, kindsOf, List.map_append, nesting_append, row, Option.bind_some,
      List.map_cons, nesting_cons, closing token List.mem_cons_self] at whole
    cases whole

theorem matched_of_alone (alone : Alone tokens expr) : Matched (kindsOf tokens) := by
  exact (alone SyntaxError.nowhere).nested.matched

/-- What begins with tokens of a span and goes on up to the end of the expression is the expression,
if it is read as that on its own. -/
theorem Spanned.extend {span : Span} (trimmed : Trimmed span front)
    (matched : Matched (kindsOf front)) (stops : StopsAt expr.note.stop rest after)
    (begins : span.through expr.note = expr.note)
    (alone : ∀ more, rest = more ++ after → Alone (front ++ more) expr)
    (inner : Extents (front ++ rest) after expr.inner) : Spanned (front ++ rest) after expr := by
  obtain ⟨opens, row, closes, rfl, opening, closing, first, last, head, final, rfl⟩ := trimmed
  obtain ⟨more, closes', last', rfl, closing', final', place⟩ := stops
  have alone := alone (more ++ closes') (List.append_assoc ..).symm
  have covers : Covers expr.note (row ++ (closes ++ more)) := by
    refine ⟨first, last', ?_, ?_, ?_⟩
    · rw [List.head?_append, head]
      rfl
    · rw [List.getLast?_append, List.getLast?_append, final']
      rfl
    · rw [← begins, Span.through, Span.through, Span.through, place]
  refine ⟨⟨opens ++ (row ++ closes) ++ (more ++ closes'), by simp, opens, row ++ (closes ++ more),
    closes', by simp, opening, closing', covers⟩, ?_⟩
  intro node listed
  obtain rfl | listed := List.mem_cons.mp listed
  · refine ⟨row ++ (closes ++ more), closes' ++ after, ⟨opens, by simp⟩, List.suffix_append _ _,
      covers, fun even => ?_⟩
    have whole := matched_of_alone alone
    obtain ⟨rfl, rfl⟩ := eq_nil_of_matched (row ++ closes) more opening closing'
      matched (by simpa using whole) (by simpa using even)
    simpa using alone
  · exact inner node listed

theorem trimmed_token (token : Token) : Trimmed token.span [token] :=
  ⟨[], [token], [], rfl, by simp, by simp, token, token, rfl, rfl, rfl⟩

theorem matched_token {token : Token} (plain : ∀ depth, deepen depth token.kind = some depth) :
    Matched (kindsOf [token]) := by
  rw [Matched, kindsOf, List.map_cons, nesting_cons, plain]
  rfl

/-- A phrase that begins with tokens of a span. -/
theorem Spanned.of_reads {phrase : Phrase} {span : Span}
    (reads : Reads phrase (front ++ rest) after) (read : phrase.read? = some expr)
    (trimmed : Trimmed span front) (matched : Matched (kindsOf front))
    (begins : span.through expr.note = expr.note) (stops : StopsAt expr.note.stop rest after)
    (inner : Extents (front ++ rest) after expr.inner) : Spanned (front ++ rest) after expr := by
  refine .extend trimmed matched stops begins (fun more split => ?_) inner
  rw [split, ← List.append_assoc] at reads
  exact reads.alone read

/-- A phrase that begins with a word or a mark of its own. -/
theorem Spanned.of_word {phrase : Phrase} {token : Token}
    (reads : Reads phrase (token :: rest) after) (read : phrase.read? = some expr)
    (plain : ∀ depth, deepen depth token.kind = some depth)
    (begins : token.span.through expr.note = expr.note)
    (stops : StopsAt expr.note.stop rest after) (inner : Extents rest after expr.inner) :
    Spanned (token :: rest) after expr :=
  .of_reads reads read (trimmed_token token) (matched_token plain) begins stops
    (inner.mono (List.suffix_cons _ _) (List.suffix_refl _))

/-- A phrase of one token. -/
theorem Spanned.of_token {phrase : Phrase} {token : Token}
    (reads : Reads phrase (token :: after) after) (read : phrase.read? = some expr)
    (same : expr.note = token.span) (leaf : expr.inner = []) :
    Spanned (token :: after) after expr := by
  have covers : Covers expr.note [token] := ⟨token, token, rfl, rfl, same⟩
  refine ⟨⟨[token], rfl, same ▸ trimmed_token token⟩, ?_⟩
  rw [leaf]
  intro node listed
  obtain rfl := List.mem_singleton.mp listed
  have reads : Reads phrase ([token] ++ after) after := reads
  exact ⟨[token], after, List.suffix_refl _, List.suffix_refl _, covers, fun _ =>
    reads.alone read⟩

/-! ## All nodes -/

/-- The tokens in front are what has been read as a left part, and whatever can follow it goes
on. -/
structure Leads (link : Located → Located → Phrase) (whole : Located → Phrase) (left : Located)
    (front before : List Token) : Prop where
  /-- No parenthesis stays open. -/
  matched : Matched (kindsOf front)
  /-- What follows is read together with it. -/
  resumes : ∀ other result final, Resumes (whole left) before other →
    Reads (link left result) other final → Reads (whole result) (front ++ other) final

/-- The extents of what a phrase was read as. -/
def Phrase.Spans (before after : List Token) : Phrase → Prop
  | .expression expr | .chain _ expr | .comparison expr | .power expr | .unary expr | .call expr
  | .atom expr | .statement expr | .body _ expr false => Spanned before after expr
  | .chainFrom level left expr =>
    ∀ front, Leads (.chainFrom level) (.chain level) left front before →
      Spanned (front ++ before) before left → Spanned (front ++ before) after expr
  | .calls callee expr =>
    ∀ front, Leads .calls .call callee front before →
      Spanned (front ++ before) before callee → Spanned (front ++ before) after expr
  | .named name span expr => Spanned (⟨.identifier name, span⟩ :: before) after expr
  | .enumeration _ elements last | .items _ elements last =>
    StopsAt last.span.stop before after ∧ Extents before after (Expr.allNodes elements)
  | .statementList _ elements => Extents before after (Expr.allNodes elements)
  | .statements _ expr | .body _ expr true => Extents before after expr.inner
  | .ending _ true stop => StopsAt stop.stop before after
  | .ending repeated false stop => after = before ∧ stop = repeated.note
  | .step (some expr) => Extents before after (expr :: expr.inner)
  | .branches alternatives stop =>
    StopsAt stop.stop before after ∧ Extents before after alternatives.nodes
  | .functionName _ | .parameters .. | .names .. | .step none => True

theorem spans_operand {level : Level} :
    (Phrase.operand level expr).Spans before after ↔ Spanned before after expr := by
  cases level <;> rfl

/-- The extents of the nodes of a body. -/
theorem extents_of_body {closing : Token.Kind → Bool} {body : Located} {block : Bool}
    (bodySpans : (Phrase.body closing body block).Spans before after) :
    Extents before after ((if block then [] else [body]) ++ body.inner) := by
  cases block with
  | true => exact bodySpans
  | false => exact bodySpans.extents

/-- Where the construct ends that the body belongs to. -/
theorem stopsAt_of_body {closing : Token.Kind → Bool} {body : Located} {block : Bool} {stop : Span}
    (bodySpans : (Phrase.body closing body block).Spans before middle)
    (endSpans : (Phrase.ending body block stop).Spans middle after) (within : middle <:+ before) :
    StopsAt stop.stop before after := by
  cases block with
  | true => exact endSpans.mono within
  | false =>
    obtain ⟨rfl, rfl⟩ := endSpans
    exact bodySpans.stops

theorem stopsAt_token (token : Token) (after : List Token) :
    StopsAt token.span.stop (token :: after) after :=
  ⟨[token], [], token, rfl, by simp, rfl, rfl⟩

/-- A first operand leads. -/
theorem Leads.operand {level : Level} {left : Located}
    (start : Reads (.operand level left) (front ++ before) before) :
    Leads (.chainFrom level) (.chain level) left front before where
  matched := (nested_operand.mp start.nested).matched
  resumes _ _ _ resumes more :=
    .chain (start.resumed (resumes.of_endsOpen fun _ => by cases level <;> rfl)) more

/-- An atom leads. -/
theorem Leads.atom {callee : Located} (start : Reads (.atom callee) (front ++ before) before) :
    Leads .calls .call callee front before where
  matched := start.nested.matched
  resumes _ _ _ resumes more :=
    .call (start.resumed (resumes.of_endsOpen fun _ => rfl)) more

/-- What leads goes on with a token and with what is read behind that. -/
theorem Leads.next {link : Located → Located → Phrase} {whole : Located → Phrase}
    {left node : Located} {token : Token} {taken : List Token}
    (leads : Leads link whole left front (token :: (taken ++ middle)))
    (nests : Nests 0 (token :: (taken ++ middle)) middle)
    (goesOn : ∀ other result final, Resumes (whole node) middle other →
      Reads (link node result) other final →
        Reads (link left result) (token :: (taken ++ other)) final) :
    Leads link whole node (front ++ token :: taken) middle where
  matched := by
    rw [← List.cons_append] at nests
    rw [kindsOf, List.map_append]
    exact leads.matched.append nests.matched
  resumes other result final resumes more := by
    rw [List.append_assoc]
    exact leads.resumes _ _ _ (.cons _ _ _ _) (goesOn other result final resumes more)

/-- An operator and its right operand go on with what is in front of them. -/
theorem Leads.operator {level : Level} {sign : Token} {op : BinaryOp} {left right : Located}
    {taken : List Token}
    (leads : Leads (.chainFrom level) (.chain level) left front (sign :: (taken ++ middle)))
    (operator : sign.kind.binaryOp? = some op) (admitted : level.admits op = true)
    (operand : Reads (.operand level right) (taken ++ middle) middle) :
    Leads (.chainFrom level) (.chain level)
      (.binary op left right (left.note.through right.note)) (front ++ sign :: taken) middle :=
  leads.next (.cons (deepen_of_binaryOp? operator) (nested_operand.mp operand.nested))
    fun _ _ _ resumes more => .chainMore operator admitted
      (operand.resumed (resumes.of_endsOpen fun _ => by cases level <;> rfl)) more

/-- A list of arguments goes on with what is called. -/
theorem Leads.arguments {openSpan : Span} {callee : Located} {arguments : List Located}
    {last : Token} {taken : List Token}
    (leads : Leads .calls .call callee front (⟨.mark .openParen, openSpan⟩ :: (taken ++ middle)))
    (passed : Reads (.enumeration .closeParen arguments last) (taken ++ middle) middle) :
    Leads .calls .call (.call callee arguments (callee.note.through last.span))
      (front ++ ⟨.mark .openParen, openSpan⟩ :: taken) middle :=
  leads.next (.opens (passed.nested (by decide))) fun _ _ _ resumes more =>
    .callsMore (passed.resumed (resumes.of_endsOpen fun _ => rfl)) more

/-- What has been read as a left part stands on its own. -/
theorem Leads.alone {link : Located → Located → Phrase} {whole : Located → Phrase} {left : Located}
    (leads : Leads link whole left front before) (opens : (whole left).endsOpen = true)
    (read : (whole left).read? = some left)
    (finishes : ∀ span, Reads (link left left) [⟨.endOfInput, span⟩] [⟨.endOfInput, span⟩]) :
    Alone front left :=
  fun span => statement_of_reads read
    (leads.resumes _ _ _ (.inr ⟨opens, rfl, fun _ => rfl⟩) (finishes span))

theorem Spanned.trimmed_front {start : Located}
    (spanned : Spanned (front ++ before) before start) : Trimmed start.note front := by
  obtain ⟨taken, split, trimmed⟩ := spanned.trimmed
  exact List.append_cancel_right split ▸ trimmed

/-- What has been read with a left part and goes on behind a token has the nodes of both sides. -/
theorem Leads.spanned {link : Located → Located → Phrase} {whole : Located → Phrase}
    {left node : Located} {token : Token} {taken : List Token} {nodes : List Located}
    (leads : Leads link whole left front (token :: (taken ++ middle)))
    (leftSpans : Spanned (front ++ token :: (taken ++ middle)) (token :: (taken ++ middle)) left)
    (alone : Alone (front ++ token :: taken) node)
    (begins : left.note.through node.note = node.note)
    (stops : StopsAt node.note.stop (taken ++ middle) middle)
    (extents : Extents (taken ++ middle) middle nodes)
    (inner : node.inner = (left :: left.inner) ++ nodes) :
    Spanned (front ++ token :: taken ++ middle) middle node := by
  have behind : middle <:+ token :: (taken ++ middle) := List.suffix_append (token :: taken) middle
  rw [List.append_assoc, List.cons_append]
  refine .extend leftSpans.trimmed_front leads.matched (stops.mono (List.suffix_cons _ _)) begins
    (fun more split => ?_) ?_
  · obtain rfl : token :: taken = more := List.append_cancel_right split
    exact alone
  · rw [inner]
    exact (leftSpans.extents.mono (List.suffix_refl _) behind).append
      (extents.mono (List.suffix_append_of_suffix (List.suffix_cons _ _)) (List.suffix_refl _))

/-- Every node of a phrase has its extent among the tokens of the phrase. -/
theorem Reads.spans {phrase : Phrase} (reads : Reads phrase before after) :
    phrase.Spans before after := by
  induction reads with
  | declaration assigned ih =>
    exact .of_word (.declaration assigned) rfl (fun _ => rfl) rfl
      (ih.stops.mono (List.suffix_append [_, _] _))
      (ih.extents.mono (List.suffix_append [_, _] _) (List.suffix_refl _))
  | assignment assigned ih =>
    exact .of_word (.assignment assigned) rfl (fun _ => rfl) rfl
      (ih.stops.mono (List.suffix_cons _ _))
      (ih.extents.mono (List.suffix_cons _ _) (List.suffix_refl _))
  | connection _ _ _ ih | comparison _ _ ih | base _ _ ih | unsigned _ _ _ ih | named _ ih
  | elements _ _ ih | statement _ _ ih | block _ _ ih | single _ _ ih => exact ih
  | chain start _ ihStart ihMore =>
    obtain ⟨front, rfl, -⟩ := start.isLocal
    exact ihMore front (.operand start) (spans_operand.mp ihStart)
  | chainEnd | callsEnd => exact fun _ _ spanned => spanned
  | chainMore operator admitted operand _ ihOperand ihMore =>
    intro front leads leftSpans
    obtain ⟨taken, rfl, -⟩ := operand.isLocal
    have rightSpans := spans_operand.mp ihOperand
    have next := leads.operator operator admitted operand
    have alone := next.alone rfl rfl fun _ => .chainEnd rfl
    have node := leads.spanned leftSpans alone rfl rightSpans.stops rightSpans.extents rfl
    rw [← List.cons_append, ← List.append_assoc]
    exact ihMore _ next node
  | negation negated ih =>
    exact .of_word (.negation negated) rfl (fun _ => rfl) rfl ih.stops ih.extents
  | power start raised ihStart ihRaised =>
    obtain ⟨front, rfl, -⟩ := start.isLocal
    exact .of_reads (.power start raised) rfl ihStart.trimmed_front start.nested.matched rfl
      (ihRaised.stops.mono (List.suffix_cons _ _))
      ((ihStart.extents.mono (List.suffix_refl _)
          (raised.suffix.trans (List.suffix_cons _ _))).append
        (ihRaised.extents.mono (List.suffix_append_of_suffix (List.suffix_cons _ _))
          (List.suffix_refl _)))
  | plus signed ih => exact .of_word (.plus signed) rfl (fun _ => rfl) rfl ih.stops ih.extents
  | smallest =>
    exact .of_word .smallest rfl (fun _ => rfl) rfl (stopsAt_token _ _) .nil
  | minus noLargest signed ih =>
    exact .of_word (.minus noLargest signed) rfl (fun _ => rfl) rfl ih.stops ih.extents
  | call start _ ihStart ihMore =>
    obtain ⟨front, rfl, -⟩ := start.isLocal
    exact ihMore front (.atom start) ihStart
  | callsMore passed _ ihPassed ihMore =>
    intro front leads calleeSpans
    obtain ⟨taken, rfl, -⟩ := passed.isLocal
    have next := leads.arguments passed
    have alone := next.alone rfl rfl fun _ => .callsEnd rfl
    have node := leads.spanned calleeSpans alone rfl ihPassed.1 ihPassed.2 rfl
    rw [← List.cons_append, ← List.append_assoc]
    exact ihMore _ next node
  | int small => exact .of_token (.int small) rfl rfl rfl
  | float => exact .of_token .float rfl rfl rfl
  | str => exact .of_token .str rfl rfl rfl
  | «variable» noDot => exact .of_token (.named (.variable noDot)) rfl rfl rfl
  | member noAssign =>
    exact .of_word (.named (.member noAssign)) rfl (fun _ => rfl) rfl
      ((stopsAt_token _ _).mono (List.suffix_cons _ _)) .nil
  | memberAssignment assigned ih =>
    exact .of_word (.named (.memberAssignment assigned)) rfl (fun _ => rfl) rfl
      (ih.stops.mono (List.suffix_append [_, _, _] _))
      (ih.extents.mono (List.suffix_append [_, _, _] _) (List.suffix_refl _))
  | @parens openSpan closeSpan _ _ _ _ ih =>
    obtain ⟨⟨_, rfl, opens, row, closes, rfl, opening, closing, covers⟩, extents⟩ := ih
    refine ⟨⟨⟨.mark .openParen, openSpan⟩ :: (opens ++ (row ++ closes)) ++
      [⟨.mark .closeParen, closeSpan⟩], by simp, ⟨.mark .openParen, openSpan⟩ :: opens, row,
      closes ++ [⟨.mark .closeParen, closeSpan⟩], by simp, ?_, ?_, covers⟩,
      extents.mono (List.suffix_cons _ _) (List.suffix_cons _ _)⟩
    · simpa using opening
    · simpa [or_imp, forall_and] using closing
  | list listed ih =>
    exact .of_word (.list listed) rfl (fun _ => rfl) rfl ih.1 ih.2
  | choice chosen ih => exact .of_word (.choice chosen) rfl (fun _ => rfl) rfl ih.1 ih.2
  | @forLoop _ _ _ _ _ _ _ _ _ _ step _ _ fromStop fromStep fromBody _ _ started stopped stepped
      repeated ended ihStart ihStop ihStep ihBody ihEnd =>
    have behindStart := started.suffix_behind
    have behindStop := stopped.suffix.trans behindStart
    have behindStep := stepped.suffix_behind.trans behindStop
    have beforeEnd := ended.suffix
    have beforeBody := beforeEnd.trans repeated.suffix
    have beforeStep := beforeBody.trans stepped.suffix_behind
    have beforeStop := beforeStep.trans stopped.suffix
    have body := (extents_of_body ihBody).mono behindStep beforeEnd
    have stops := (stopsAt_of_body ihBody ihEnd repeated.suffix).mono behindStep
    have start := ihStart.extents.mono (List.suffix_refl _)
      (beforeStop.trans (List.suffix_cons _ _))
    have stop := ihStop.extents.mono behindStart beforeStep
    refine .of_word (.forLoop started stopped stepped repeated ended) rfl (fun _ => rfl) rfl
      (stops.mono (List.suffix_append [_, _] _))
      (Extents.mono ?_ (List.suffix_append [_, _] _) (List.suffix_refl _))
    cases step with
    | none => exact (start.append stop).append body
    | some step =>
      exact ((start.append stop).append
        (ihStep.mono behindStop (beforeBody.trans (List.suffix_cons _ _)))).append body
  | stepSome _ ih => exact ih.extents.mono (List.suffix_cons _ _) (List.suffix_refl _)
  | whileLoop conditional repeated ended ihCondition ihBody ihEnd =>
    have behind := conditional.suffix_behind
    have beforeBody := ended.suffix.trans repeated.suffix
    exact .of_word (.whileLoop conditional repeated ended) rfl (fun _ => rfl) rfl
      ((stopsAt_of_body ihBody ihEnd repeated.suffix).mono behind)
      ((ihCondition.extents.mono (List.suffix_refl _)
          (beforeBody.trans (List.suffix_cons _ _))).append
        ((extents_of_body ihBody).mono behind ended.suffix))
  | functionOf called passed valued _ _ ih =>
    have behind := passed.suffix_behind.trans called.suffix_behind
    exact .of_word (.functionOf called passed valued) rfl (fun _ => rfl) rfl (ih.stops.mono behind)
      (ih.extents.mono behind (List.suffix_refl _))
  | functionBlock called passed newLine blocked _ _ ih =>
    have behind := passed.suffix.trans called.suffix_behind
    exact .of_word (.functionBlock called passed newLine blocked) rfl (fun _ => rfl) rfl
      ((stopsAt_token _ _).mono (blocked.suffix.trans behind))
      (ih.mono behind (List.suffix_cons _ _))
  | template newLine blocked ih =>
    exact .of_word (.template newLine blocked) rfl (fun _ => rfl) rfl
      ((stopsAt_token _ _).mono (blocked.suffix.trans (List.suffix_cons _ _)))
      (ih.mono (List.suffix_cons _ _) (List.suffix_cons _ _))
  | instantiate => exact .of_word .instantiate rfl (fun _ => rfl) rfl (stopsAt_token _ _) .nil
  | noElements => exact ⟨stopsAt_token _ _, .nil⟩
  | lastItem _ item ih =>
    exact ⟨(stopsAt_token _ _).mono item.suffix,
      (ih.extents.mono (List.suffix_refl _) (List.suffix_cons _ _)).append .nil⟩
  | moreItems item more ihItem ihMore =>
    have behind := item.suffix_behind
    exact ⟨ihMore.1.mono behind,
      (ihItem.extents.mono (List.suffix_refl _) (more.suffix.trans (List.suffix_cons _ _))).append
        (ihMore.2.mono behind (List.suffix_refl _))⟩
  | returnNone noValue => exact .of_token (.returnNone noValue) rfl rfl rfl
  | returnSome hasValue returned ih =>
    exact .of_word (.returnSome hasValue returned) rfl (fun _ => rfl) rfl ih.stops ih.extents
  | continueLoop => exact .of_token .continueLoop rfl rfl rfl
  | breakLoop => exact .of_token .breakLoop rfl rfl rfl
  | noStatements => exact .nil
  | lastStatement _ _ _ ih => exact ih.extents.append .nil
  | moreStatements _ first _ more ihFirst ihMore =>
    exact (ihFirst.extents.mono (List.suffix_refl _)
      (more.suffix.trans (List.dropWhile_suffix _))).append
        (ihMore.mono ((List.dropWhile_suffix _).trans first.suffix) (List.suffix_refl _))
  | statements skipped _ ih =>
    exact ih.mono (skipped ▸ List.dropWhile_suffix _) (List.suffix_refl _)
  | endOfBlock => exact stopsAt_token _ _
  | endOfLine => exact ⟨rfl, rfl⟩
  | elif conditional chosen more ihCondition ihBody ihMore =>
    have behindCondition := conditional.suffix_behind
    have behindBody := chosen.suffix_behind.trans behindCondition
    have beforeBody := more.suffix.trans chosen.suffix_behind
    exact ⟨ihMore.1.mono behindBody,
      ((ihCondition.extents.mono (List.suffix_refl _)
          (beforeBody.trans (List.suffix_cons _ _))).append
        ((extents_of_body ihBody).mono behindCondition
          (more.suffix.trans (List.suffix_cons _ _)))).append
        (ihMore.2.mono behindBody (List.suffix_refl _))⟩
  | otherwise conditional chosen alternative ended ihCondition ihBody ihOther ihEnd =>
    have behindCondition := conditional.suffix_behind
    have behindBody := chosen.suffix_behind.trans behindCondition
    have beforeOther := ended.suffix.trans alternative.suffix
    have beforeBody := beforeOther.trans chosen.suffix_behind
    exact ⟨(stopsAt_of_body ihOther ihEnd alternative.suffix).mono behindBody,
      ((ihCondition.extents.mono (List.suffix_refl _)
          (beforeBody.trans (List.suffix_cons _ _))).append
        ((extents_of_body ihBody).mono behindCondition
          (beforeOther.trans (List.suffix_cons _ _)))).append
        ((extents_of_body ihOther).mono behindBody ended.suffix)⟩
  | lastBranch conditional chosen _ _ _ ended ihCondition ihBody ihEnd =>
    have behind := conditional.suffix_behind
    have beforeBody := ended.suffix.trans chosen.suffix
    exact ⟨(stopsAt_of_body ihBody ihEnd chosen.suffix).mono behind,
      ((ihCondition.extents.mono (List.suffix_refl _)
          (beforeBody.trans (List.suffix_cons _ _))).append
        ((extents_of_body ihBody).mono behind ended.suffix)).append .nil⟩
  | stepNone | noName | name | noParameters | parameters | lastName | moreNames => trivial

end Grammar

namespace Eval

open Quill.Grammar Quill.Token

/-- The tokens of a node, in a row among those of the text. -/
theorem exists_row {source : Source} {root node : Located} (reading : read source = .ok root)
    (listed : node ∈ root.inner) : ∃ front row back,
      scan source = .ok (front ++ (row ++ back)) ∧ ends row = 0 ∧ Covers node.note row ∧
        (Matched (kindsOf row) → Alone row node) := by
  obtain ⟨tokens, scanned, parsed⟩ := read_eq_ok.mp reading
  obtain ⟨init, final, rfl, unended⟩ := exists_end_of_scanFrom scanned
  obtain ⟨last, rest, reads⟩ := parse_eq_ok_iff.mp parsed
  obtain ⟨rfl, rfl, -⟩ := reads.up_to_end (ends_eq_zero.mpr unended)
  obtain ⟨row, back, ⟨front, split⟩, ⟨more, rfl⟩, covers, alone⟩ := reads.spans node listed
  refine ⟨front, row, _, split ▸ scanned, ?_, covers, alone⟩
  rw [← List.append_assoc, ← List.append_assoc] at split
  obtain rfl := List.append_cancel_right split
  have counted := ends_eq_zero.mpr unended
  rw [ends_append, ends_append] at counted
  omega

/-- The text of a node has tokens. It is a program if and only if their parentheses are matched,
and then its only statement is the node. -/
theorem read_text_of_node {source other : Source} {root node : Located}
    (reading : read source = .ok root) (listed : node ∈ root.inner)
    (same : other.text = node.note.text) :
    ∃ tokens span, scan other = .ok (tokens ++ [⟨.endOfInput, span⟩]) ∧
      (Matched (kindsOf tokens) → ∃ again, read other = .ok again ∧
        again.bare = .list [node.bare] ()) ∧
      (¬ Matched (kindsOf tokens) → ∃ error, read other = .error (.parsing error)) := by
  obtain ⟨front, row, back, scanned, unended, ⟨first, last, begins, final, place⟩, alone⟩ :=
    exists_row reading listed
  rw [place] at same
  obtain ⟨tokens, span, rescanned, kinds⟩ :=
    scan_excerpt scanned (ends_eq_zero.mp unended) begins final same
  refine ⟨tokens, span, rescanned, fun matched => ?_, fun unmatched => ?_⟩
  · rw [kindsOf, kinds] at matched
    obtain ⟨note, parsed⟩ := (alone matched).parse span
    have alike : kindsOf (tokens ++ [⟨.endOfInput, span⟩]) =
        kindsOf (row ++ [⟨.endOfInput, span⟩]) := by
      rw [kindsOf, kindsOf, List.map_append, List.map_append, kinds]
    obtain ⟨again, reparsed, bare⟩ := exists_parse_of_kindsOf alike parsed
    exact ⟨again, read_eq_ok.mpr ⟨_, rescanned, reparsed⟩, bare⟩
  · unfold read
    rw [rescanned]
    cases parsed : parse (tokens ++ [⟨.endOfInput, span⟩]) with
    | error error => exact ⟨error, by simp only [parsed]⟩
    | ok root =>
      obtain ⟨init, final, split, unended⟩ := exists_end_of_scanFrom rescanned
      obtain ⟨rfl, -⟩ := List.append_inj' split rfl
      exact absurd (matched_of_parse (ends_eq_zero.mpr unended) parsed) unmatched

/-- In a loop, the text of an assignment with parentheses inside is that assignment. -/
theorem read_text_of_node_loop : ∃ root node,
    read ⟨0, "<line>", "while f(x) then\n  y = [1, (2 + 3) * z]\nend"⟩ = .ok root ∧
    node ∈ root.inner ∧ node.note.text = "y = [1, (2 + 3) * z]" ∧
    ∃ tokens span, scan ⟨1, "<line>", "y = [1, (2 + 3) * z]"⟩ =
        .ok (tokens ++ [⟨.endOfInput, span⟩]) ∧
      (Matched (kindsOf tokens) → ∃ again,
        read ⟨1, "<line>", "y = [1, (2 + 3) * z]"⟩ = .ok again ∧
          again.bare = .list [node.bare] ()) ∧
      (¬ Matched (kindsOf tokens) → ∃ error,
        read ⟨1, "<line>", "y = [1, (2 + 3) * z]"⟩ = .error (.parsing error)) := by
  have checked : ((read ⟨0, "<line>", "while f(x) then\n  y = [1, (2 + 3) * z]\nend"⟩).toOption.bind
      fun root => root.inner[4]?.map fun node => node.note.text) = some "y = [1, (2 + 3) * z]" := by
    decide +kernel
  obtain ⟨root, reading, found⟩ := Option.bind_eq_some_iff.mp checked
  obtain ⟨node, there, text⟩ := Option.map_eq_some_iff.mp found
  have reading := eq_ok_of_toOption reading
  have listed := List.mem_of_getElem? there
  exact ⟨root, node, reading, listed, text, read_text_of_node reading listed text.symm⟩

/-- Without the parenthesis in front of its first operand, the text of a multiplication is no
program. -/
theorem read_text_of_node_parens : ∃ root node error,
    read ⟨0, "<line>", "(1 + 2) * 3"⟩ = .ok root ∧ node ∈ root.inner ∧
      node.note.text = "1 + 2) * 3" ∧ read ⟨1, "<line>", node.note.text⟩ = .error error := by
  have checked : ((read ⟨0, "<line>", "(1 + 2) * 3"⟩).toOption.bind
      fun root => root.inner[0]?.map fun node => node.note.text) = some "1 + 2) * 3" := by
    decide +kernel
  have rejected : (read ⟨1, "<line>", "1 + 2) * 3"⟩).toOption.isNone = true := by
    decide +kernel
  obtain ⟨root, reading, found⟩ := Option.bind_eq_some_iff.mp checked
  obtain ⟨node, there, text⟩ := Option.map_eq_some_iff.mp found
  refine ⟨root, node, ?_⟩
  rw [text]
  cases again : read ⟨1, "<line>", "1 + 2) * 3"⟩ with
  | ok other =>
    rw [again] at rejected
    cases rejected
  | error error =>
    exact ⟨error, eq_ok_of_toOption reading, List.mem_of_getElem? there, rfl, rfl⟩

end Eval

end Quill
