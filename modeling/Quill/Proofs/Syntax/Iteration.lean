import Quill.Proofs.Syntax.RuleProgress

/-!
# Rounds of the loops

Where the grammar repeats something, a parser goes round by round: operators with their right
operands, argument lists, items with commas between them, the alternatives of a choice and the
statements of a list. Each round is a parser with a place in it from where the loop goes on. That
place is only reached with fewer tokens than the round began with, so that no loop goes on for
ever, and the rounds that a loop is allowed do not matter if there are more of them than tokens.
-/

namespace Quill.Grammar

open Quill.Token Quill.Parser

variable {Result Other State : Type} {bound : Nat} {rules : Rules}

/-! ## Loops -/

/-- On all tokens, either the round settles what is read without going on, or it goes on once, on
an end of the tokens that lacks the given number of them at least. It may add something to what is
read then. -/
def Advances (least : Nat) (round : (State → Parser Result) → Parser Result) : Prop :=
  ∀ tokens, (∃ outcome, ∀ again, round again tokens = outcome) ∨
    ∃ state rest finish, rest <:+ tokens ∧ rest.length + least ≤ tokens.length ∧
      ∀ again, round again tokens = (finish <$> again state) rest

/-- The loop goes through rounds of one kind, and each of them takes a token before the next one
begins. -/
structure Iterates (round : (State → Parser Result) → State → Parser Result)
    (loop : (rounds : Nat) → State → Parser Result) : Prop where
  /-- The loop is a round, behind which the loop goes on. -/
  unfolds (rounds : Nat) (state : State) : loop (rounds + 1) state = round (loop rounds) state
  /-- A round that is followed by another one takes a token. -/
  advances (state : State) : Advances 1 fun again => round again state

namespace Advances

variable {least : Nat}

theorem stops (parser : Parser Result) : Advances least fun _ : State → Parser Result => parser :=
  fun tokens => .inl ⟨parser tokens, fun _ => rfl⟩

theorem collects (state : State) (finish : Result → Result) :
    Advances 0 fun again : State → Parser Result => do return finish (← again state) :=
  fun tokens => .inr ⟨state, tokens, finish, List.suffix_refl _, Nat.le_refl _,
    fun again => by rw [map_eq_pure_bind]⟩

theorem continues (state : State) :
    Advances 0 fun again : State → Parser Result => again state :=
  fun tokens => .inr ⟨state, tokens, id, List.suffix_refl _, Nat.le_refl _,
    fun again => by rw [id_map]⟩

/-- A parser in front of the rest of a round. -/
theorem skip {more : Nat} {parser : Parser Other}
    {next : (State → Parser Result) → Other → Parser Result} (takes : Takes least parser)
    (advances : ∀ found, Advances more fun again => next again found) :
    Advances (least + more) fun again => parser >>= next again := by
  intro tokens
  cases started : parser tokens with
  | error error => exact .inl ⟨.error error, fun again => bind_error started⟩
  | ok pair =>
    obtain ⟨found, middle⟩ := pair
    obtain ⟨ending, taken⟩ := takes _ _ _ started
    obtain ⟨outcome, settled⟩ | ⟨state, rest, finish, later, takenLater, goes⟩ :=
      advances found middle
    · exact .inl ⟨outcome, fun again => (bind_eq started).trans (settled again)⟩
    · exact .inr ⟨state, rest, finish, later.trans ending, by omega,
        fun again => (bind_eq started).trans (goes again)⟩

/-- A parser in front of the rest of a round takes what the round takes. -/
theorem bind {parser : Parser Other} {next : (State → Parser Result) → Other → Parser Result}
    (takes : Takes least parser) (advances : ∀ found, Advances 0 fun again => next again found) :
    Advances least fun again => parser >>= next again :=
  skip takes advances

/-- A reader in front of the rest of a round that may take nothing. -/
theorem behind {parser : Parser Other} {next : (State → Parser Result) → Other → Parser Result}
    (takes : Takes 0 parser) (advances : ∀ found, Advances least fun again => next again found) :
    Advances least fun again => parser >>= next again :=
  Nat.zero_add least ▸ skip takes advances

end Advances

namespace Iterates

variable {round : (State → Parser Result) → State → Parser Result}
  {loop : (rounds : Nat) → State → Parser Result}

/-- With more rounds than tokens it does not matter how many rounds there are. -/
theorem rounds_irrelevant (iterates : Iterates round loop) {tokens : List Token}
    {rounds otherRounds : Nat} (enough : tokens.length < rounds)
    (otherEnough : tokens.length < otherRounds) (state : State) :
    loop rounds state tokens = loop otherRounds state tokens := by
  induction rounds generalizing tokens otherRounds state with
  | zero => exact absurd enough (Nat.not_lt_zero _)
  | succ rounds ih =>
    obtain ⟨otherRounds, rfl⟩ : ∃ fewer, otherRounds = fewer + 1 := ⟨otherRounds - 1, by omega⟩
    rw [iterates.unfolds, iterates.unfolds]
    obtain ⟨outcome, settled⟩ | ⟨next, rest, finish, -, taken, goes⟩ :=
      iterates.advances state tokens
    · exact (settled _).trans (settled _).symm
    · have same : loop rounds next rest = loop otherRounds next rest :=
        ih (by omega) (by omega) next
      refine (goes _).trans (Eq.trans ?_ (goes _).symm)
      change Except.map _ _ = Except.map _ _
      rw [same]

end Iterates

/-! ## The loops of the grammar -/

/-- An operator of the level and its right operand. -/
def chainRound (operand : Parser Located) (level : BinaryOp → Bool)
    (again : Located → Parser Located) (left : Located) : Parser Located := do
  match ← operator? level with
  | none => return left
  | some op =>
    let right ← operand
    again (.binary op left right (left.note.through right.note))

/-- An argument list. -/
def callRound (bound : Nat) (rules : Rules) (again : Located → Parser Located)
    (callee : Located) : Parser Located := do
  match ← take? (·.isMark .openParen) with
  | none => return callee
  | some _ =>
    let (arguments, closing) ← enumeration bound (rules .expression) .closeParen
    again (.call callee arguments (callee.note.through closing.span))

/-- An item and the comma behind it, or the closing mark. -/
def itemRound {Item : Type} (item : Parser Item) (closing : Mark)
    (again : Unit → Parser (List Item × Token)) (_ : Unit) : Parser (List Item × Token) := do
  let first ← item
  let token ← next
  if token.kind.isMark .comma then
    let (rest, last) ← again ()
    return (first :: rest, last)
  else if token.kind.isMark closing then
    return ([first], token)
  else
    fail (.expected (.commaOr closing)) token.span

/-- A condition and what is done under it, with the word for a further alternative behind it. -/
def branchRound (bound : Nat) (rules : Rules) (again : Unit → Parser (Branches Span × Span))
    (_ : Unit) : Parser (Branches Span × Span) := do
  let condition ← rules .expression
  let _ ← keyword .thenWord
  let (branch, block) ← body bound rules closesBranch
  let token ← peek
  if token.kind.isKeyword .elifWord then
    let _ ← next
    let (rest, stop) ← again ()
    return (.orElse condition branch block rest, stop)
  else if token.kind.isKeyword .elseWord then
    let _ ← next
    let (last, lastBlock) ← body bound rules closesBlock
    let stop ← closingSpan last lastBlock
    return (.orElse condition branch block (.otherwise last lastBlock), stop)
  else
    let stop ← closingSpan branch block
    return (.orElse condition branch block .done, stop)

/-- A statement and the separators behind it. -/
def statementRound (rules : Rules) (closing : Kind → Bool)
    (again : Unit → Parser (List Located)) (_ : Unit) : Parser (List Located) := do
  let token ← peek
  if endsList closing token.kind then
    return []
  else
    let first ← statement rules
    if ← separators then
      let rest ← again ()
      return first :: rest
    else
      return [first]

theorem takes_zero {least : Nat} {parser : Parser Result} (takes : Takes least parser) :
    Takes 0 parser :=
  takes_iff.mpr fun _ => (Concur.of_takes takes).mono (Nat.zero_le least) (Nat.le_refl _)

theorem iterates_chainFrom {operand : Parser Located} (takes : Takes 1 operand)
    (level : BinaryOp → Bool) :
    Iterates (chainRound operand level) (chainFrom operand level) where
  unfolds _ _ := rfl
  advances left := by
    refine .behind (takes_operator? level) fun found => ?_
    cases found with
    | none => exact .stops _
    | some op => exact .bind takes fun right => .continues _

theorem iterates_calls (takes : Takes 1 (enumeration bound (rules .expression) .closeParen)) :
    Iterates (callRound bound rules) (calls bound rules) where
  unfolds _ _ := rfl
  advances callee := by
    refine .behind (takes_take? _) fun found => ?_
    cases found with
    | none => exact .stops _
    | some _ => exact .bind takes fun ⟨_, _⟩ => .continues _

theorem iterates_items {Item : Type} {item : Parser Item} (takes : Takes 1 item)
    (closing : Mark) :
    Iterates (itemRound item closing) fun rounds _ => items item closing rounds where
  unfolds _ _ := rfl
  advances _ := by
    refine .bind takes fun first => .behind (takes_zero takes_next) fun token => ?_
    cases token.kind.isMark .comma with
    | true => exact .collects () fun pair : List Item × Token => (first :: pair.1, pair.2)
    | false => exact .stops _

theorem iterates_branches (condition : Takes 1 (rules .expression))
    (chosen : Takes 0 (body bound rules closesBranch)) :
    Iterates (branchRound bound rules) fun rounds _ => branches bound rules rounds where
  unfolds _ _ := rfl
  advances _ := by
    refine .bind condition fun condition => .behind (takes_zero (takes_keyword .thenWord))
      fun _ => .behind chosen fun ⟨branch, block⟩ => .behind takes_peek fun token => ?_
    cases token.kind.isKeyword .elifWord with
    | true =>
      exact .behind (takes_zero takes_next) fun _ => .collects ()
        fun pair : Branches Span × Span => (.orElse condition branch block pair.1, pair.2)
    | false => exact .stops _

theorem iterates_statementList (takes : Takes 1 (statement rules)) (closing : Kind → Bool) :
    Iterates (statementRound rules closing) fun rounds _ => statementList rules closing rounds where
  unfolds _ _ := rfl
  advances _ := by
    refine .behind takes_peek fun token => ?_
    cases endsList closing token.kind with
    | true => exact .stops _
    | false =>
      refine .bind takes fun first => .behind takes_separators fun separated => ?_
      cases separated with
      | true => exact .collects () fun rest => first :: rest
      | false => exact .stops _

/-- No exponent leaves a further exponent behind. -/
theorem not_ahead_caret {tokens rest : List Token} {exponent : Located}
    (read : rulesUpTo bound .power tokens = .ok (exponent, rest)) :
    ahead (·.isMark .caret) rest = false := by
  induction bound generalizing tokens exponent with
  | zero => cases read
  | succ bound ih =>
    obtain ⟨base, middle, -, continued⟩ := of_bind_ok read
    obtain ⟨found, later, taken, finished⟩ := of_bind_ok continued
    obtain ⟨rfl, absent, rfl⟩ | ⟨token, rfl, -, rfl⟩ := take?_eq_ok.mp taken
    · cases finished
      exact absent
    · obtain ⟨right, _, reread, ended⟩ := of_bind_ok finished
      cases ended
      exact ih reread

theorem operator?_pow (tokens : List Token) :
    operator? (fun op => decide (op = .pow)) tokens =
      if ahead (·.isMark .caret) tokens then .ok (some .pow, tokens.tail) else
        .ok (none, tokens) := by
  cases tokens with
  | nil => rfl
  | cons token rest =>
    obtain ⟨kind, span⟩ := token
    cases kind with
    | mark sign => cases sign <;> rfl
    | keyword word => cases word <;> rfl
    | _ => rfl

/-- Exponents are a loop as well: the operator with its right operand, as often as there is one.
As its right operand is again a power, there is no second round. -/
theorem power_eq_chain (bound rounds : Nat) :
    power bound (rulesUpTo bound) = (do
      let base ← unary bound (rulesUpTo bound)
      chainFrom (rulesUpTo bound .power) (fun op => decide (op = .pow)) (rounds + 1) base) := by
  refine congrArg (unary bound (rulesUpTo bound) >>= ·) (funext fun base => funext fun tokens => ?_)
  have again (left : Located) {rest : List Token} (absent : ahead (·.isMark .caret) rest = false) :
      chainFrom (rulesUpTo bound .power) (fun op => decide (op = .pow)) rounds left rest =
        .ok (left, rest) := by
    cases rounds with
    | zero => rfl
    | succ rounds => exact bind_eq ((operator?_pow rest).trans (if_neg (by simp [absent])))
  cases present : ahead (·.isMark .caret) tokens with
  | false =>
    rw [chainFrom, bind_eq (take?_of_ahead present),
      bind_eq ((operator?_pow tokens).trans (if_neg (by simp [present])))]
  | true =>
    obtain ⟨token, rest, rfl, caret⟩ := of_ahead present
    rw [chainFrom, bind_eq (take?_cons rest caret),
      bind_eq ((operator?_pow _).trans (if_pos present))]
    cases read : rulesUpTo bound .power rest with
    | error error => exact (bind_error read).trans (bind_error read).symm
    | ok pair =>
      obtain ⟨exponent, later⟩ := pair
      have chained : (do
          let right ← rulesUpTo bound .power
          chainFrom (rulesUpTo bound .power) (fun op => decide (op = .pow)) rounds
            (.binary .pow base right (base.note.through right.note)) : Parser Located) rest =
          .ok (.binary .pow base exponent (base.note.through exponent.note), later) :=
        (bind_eq read).trans (again _ (not_ahead_caret read))
      exact (bind_eq read).trans chained.symm

/-! ## All rules and all loops -/

/-- The rules for expressions and statements. Those for constructs that begin with a word read what
is behind the word. -/
inductive Production where
  | expression | connection | comparison | sum | term | power | unary | call | atom
  | choice (word : Token) | forLoop (word : Token) | whileLoop (word : Token)
  | function (word : Token) | template (word : Token)
  | statement | body (closing : Kind → Bool)

/-- The parser of a rule. Of a body, this is the expression or the block. -/
def Production.parser (bound : Nat) (rules : Rules) : Production → Parser Located
  | .expression => Grammar.expression bound rules
  | .connection => Grammar.connection bound rules
  | .comparison => Grammar.comparison bound rules
  | .sum => Grammar.sum bound rules
  | .term => Grammar.term bound rules
  | .power => Grammar.power bound rules
  | .unary => Grammar.unary bound rules
  | .call => Grammar.call bound rules
  | .atom => Grammar.atom bound rules
  | .choice word => Grammar.choice bound rules word
  | .forLoop word => Grammar.forLoop bound rules word
  | .whileLoop word => Grammar.whileLoop bound rules word
  | .function word => Grammar.function bound rules word
  | .template word => Grammar.template bound rules word
  | .statement => Grammar.statement rules
  | .body closing => Prod.fst <$> Grammar.body bound rules closing

/-- Every rule takes a token where it succeeds. -/
theorem Production.takes (production : Production) (bound : Nat) :
    Takes 1 (production.parser bound (rulesUpTo bound)) := by
  refine takes_iff.mpr fun size => ?_
  have rules := concurRules_rulesUpTo bound size
  have ample : Ample size bound bound := .inl rfl
  cases production with
  | expression => exact (concur_expression rules ample).mono (Nat.le_refl 1) (Nat.le_succ size)
  | connection => exact (concur_connection rules ample).mono (Nat.le_refl 1) (Nat.le_succ size)
  | comparison => exact (concur_comparison rules ample).mono (Nat.le_refl 1) (Nat.le_succ size)
  | sum => exact (concur_sum rules ample).mono (Nat.le_refl 1) (Nat.le_succ size)
  | term => exact (concur_term rules ample).mono (Nat.le_refl 1) (Nat.le_succ size)
  | power => exact (concur_power rules ample).mono (Nat.le_refl 1) (Nat.le_succ size)
  | unary => exact (concur_unary rules ample).mono (Nat.le_refl 1) (Nat.le_succ size)
  | call => exact (concur_call rules ample).mono (Nat.le_refl 1) (Nat.le_succ size)
  | atom => exact (concur_atom rules ample).mono (Nat.le_refl 1) (Nat.le_succ size)
  | choice word => exact concur_choice word rules ample
  | forLoop word => exact concur_forLoop word rules ample
  | whileLoop word => exact concur_whileLoop word rules ample
  | function word => exact concur_function word rules ample
  | template word => exact concur_template word rules ample
  | statement => exact concur_statement rules
  | body closing => exact (concur_body closing rules ample).map Prod.fst

/-- The loops of the grammar go through rounds that take a token each, for operators of any level
and operands of any kind, for items that are expressions and for those that are names. -/
structure LoopsIterate (bound : Nat) : Prop where
  /-- Operators and their right operands. -/
  operators (operand : Production) (level : BinaryOp → Bool) :
    Iterates (chainRound (operand.parser bound (rulesUpTo bound)) level)
      (chainFrom (operand.parser bound (rulesUpTo bound)) level)
  /-- Exponents, which are a loop like the other operators. -/
  exponents : Iterates (chainRound (rulesUpTo bound .power) fun op => decide (op = .pow))
      (chainFrom (rulesUpTo bound .power) fun op => decide (op = .pow)) ∧
    ∀ rounds, power bound (rulesUpTo bound) = (do
      let base ← unary bound (rulesUpTo bound)
      chainFrom (rulesUpTo bound .power) (fun op => decide (op = .pow)) (rounds + 1) base)
  /-- Argument lists. -/
  arguments : Iterates (callRound bound (rulesUpTo bound)) (calls bound (rulesUpTo bound))
  /-- Expressions with commas between them. -/
  elements (closing : Mark) :
    Iterates (itemRound (rulesUpTo bound .expression) closing)
      fun rounds _ => items (rulesUpTo bound .expression) closing rounds
  /-- Names with commas between them. -/
  parameters (closing : Mark) :
    Iterates (itemRound (Prod.fst <$> identifier) closing)
      fun rounds _ => items (Prod.fst <$> identifier) closing rounds
  /-- The alternatives of a choice. -/
  alternatives :
    Iterates (branchRound bound (rulesUpTo bound))
      fun rounds _ => branches bound (rulesUpTo bound) rounds
  /-- Statements. -/
  statements (closing : Kind → Bool) :
    Iterates (statementRound (rulesUpTo bound) closing)
      fun rounds _ => statementList (rulesUpTo bound) closing rounds

theorem takes_rule (bound : Nat) (rule : Rule) : Takes 1 (rulesUpTo bound rule) :=
  takes_iff.mpr fun size => (concurRules_rulesUpTo bound size).concur rule

theorem loopsIterate (bound : Nat) : LoopsIterate bound where
  operators operand level := iterates_chainFrom (operand.takes bound) level
  exponents := ⟨iterates_chainFrom (takes_rule bound .power) _, power_eq_chain bound⟩
  arguments := iterates_calls (takes_iff.mpr fun size =>
    concur_enumeration _ ((concurRules_rulesUpTo bound size).concur .expression)
      ((concurRules_rulesUpTo bound size).ended .expression) (.inl rfl))
  elements := iterates_items (takes_rule bound .expression)
  parameters := iterates_items (takes_iff.mpr fun _ => (Concur.of_takes takes_identifier).map _)
  alternatives := iterates_branches (takes_rule bound .expression) (takes_zero (takes_iff.mpr
    fun size => concur_body _ (concurRules_rulesUpTo bound size) (.inl rfl)))
  statements := iterates_statementList (Production.statement.takes bound)

/-- All rules make progress on all lists of tokens, whether one of them stands for the end of the
input or none does. A rule for expressions or statements that succeeds leaves a proper end of its
tokens. A sequence of statements leaves an end, and so does what may follow a name that has been
taken. All loops take a token in each round. The
rules refer back to one another only where fewer tokens are left: whatever else is put in the place
of the rules, they come out the same if it agrees with them there, and so do they with any bounds
that are not smaller than the number of tokens. Hence a program is read in finitely many steps, and
no bound cuts this short. -/
theorem rules_make_progress :
    (∀ (production : Production) (bound : Nat) (tokens rest : List Token) (node : Located),
      production.parser bound (rulesUpTo bound) tokens = .ok (node, rest) →
        rest <:+ tokens ∧ rest.length < tokens.length) ∧
    (∀ (bound : Nat) (closing : Kind → Bool) (tokens rest : List Token) (block : Located),
      statements bound (rulesUpTo bound) closing tokens = .ok (block, rest) → rest <:+ tokens) ∧
    (∀ (bound : Nat) (name : String) (span : Span) (tokens rest : List Token) (node : Located),
      named (rulesUpTo bound) name span tokens = .ok (node, rest) → rest <:+ tokens) ∧
    (∀ bound, LoopsIterate bound) ∧
    (∀ (tokens : List Token) (bound otherBound : Nat) (rules : Rules),
      tokens.length ≤ bound → tokens.length ≤ otherBound →
      (∀ rule shorter, shorter.length < tokens.length →
        rules rule shorter = rulesUpTo bound rule shorter) →
      ∀ rule, ofRule otherBound rules rule tokens = rulesUpTo bound rule tokens) ∧
    ∀ (tokens : List Token) (bound : Nat), tokens.length ≤ bound →
      parse tokens = Prod.fst <$> (program bound).run tokens := by
  refine ⟨fun production bound tokens rest node read => production.takes bound _ _ _ read,
    fun bound closing tokens rest block read => ?_, fun bound name span tokens rest node read => ?_,
    loopsIterate,
    fun tokens bound otherBound rules enough otherEnough agrees =>
      ofRule_eq_rulesUpTo enough otherEnough agrees, fun tokens bound enough => ?_⟩
  · have concur := concur_statements closing (concurRules_rulesUpTo bound tokens.length)
      (.inl (Eq.refl bound))
    exact (concur.takes (Nat.le_refl _) read).1
  · have concur := concur_named name span (concurRules_rulesUpTo bound tokens.length)
    exact (concur.takes (Nat.le_refl _) read).1
  · have same := (concur_program (Nat.le_refl tokens.length) enough).same (Nat.le_refl _)
    exact congrArg (Prod.fst <$> ·) same.symm

/-- A name alone is read up to its end, where no token stands for the end of the input. -/
theorem rules_make_progress_name :
    ∃ span : Span, Production.expression.parser 1 (rulesUpTo 1) [⟨.identifier "x", span⟩] =
        .ok (.read "x" span, []) ∧
      [] <:+ [(⟨.identifier "x", span⟩ : Token)] ∧
      ([] : List Token).length < [(⟨.identifier "x", span⟩ : Token)].length := by
  refine ⟨SyntaxError.ended.span, rfl, ?_⟩
  exact rules_make_progress.1 .expression 1 _ [] (.read "x" _) rfl

end Quill.Grammar
