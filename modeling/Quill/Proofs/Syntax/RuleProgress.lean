import Quill.Proofs.Syntax.Progress

/-!
# The progress of the rules

Every rule of the grammar takes a token where it succeeds, and refers back to the rules only behind
a token that it has taken. The rules for one more token are built from those for fewer, so this is
an induction on the bound. It follows that the bounds do not matter as long as they are not smaller
than the number of tokens: the rules solve the equations between them.
-/

namespace Quill.Grammar

open Quill.Token Quill.Parser

variable {size small bound otherBound : Nat} {rules otherRules : Rules}

/-! ## Enumerations -/

/-- The parsers of all the rules do the same, and where they succeed they take a token. They find
that there is none. -/
structure ConcurRules (size : Nat) (rules otherRules : Rules) : Prop where
  /-- They do the same. -/
  concur (rule : Rule) : Concur 1 size (rules rule) (otherRules rule)
  /-- They find that there is no token. -/
  ended (rule : Rule) : rules rule [] = .error .ended

theorem ConcurRules.rule (concur : ConcurRules size rules otherRules) (within : small ≤ size)
    (rule : Rule) : Concur 1 small (rules rule) (otherRules rule) :=
  (concur.concur rule).mono (Nat.le_refl 1) within

theorem ConcurRules.mono (concur : ConcurRules size rules otherRules) (within : small ≤ size) :
    ConcurRules small rules otherRules :=
  ⟨concur.rule within, concur.ended⟩

theorem ConcurRules.otherEnded (concur : ConcurRules size rules otherRules) (rule : Rule) :
    otherRules rule [] = .error .ended :=
  ((concur.concur rule).same (Nat.zero_le _)).trans (concur.ended rule)

theorem concur_items {Item : Type} {item otherItem : Parser Item} (closing : Mark)
    (concur : Concur 1 size item otherItem) (ended : item [] = .error .ended)
    (ample : Ample size bound otherBound) :
    Concur 1 size (items item closing bound) (items otherItem closing otherBound) := by
  have otherEnded := (concur.same (Nat.zero_le _)).trans ended
  refine Concur.rounds (fun rounds (_ : Unit) => items item closing rounds)
    (fun rounds _ => items otherItem closing rounds)
    (fun _ => .of_takes fun _ _ _ read => by cases read) (fun _ _ => bind_error ended)
    (fun _ _ => bind_error otherEnded) ?_ ample ()
  intro rounds otherRounds small within more _
  refine (concur.mono (Nat.le_refl 1) within).bind fun first => ?_
  refine (Concur.of_takes takes_next).skip fun token => ?_
  split
  · exact ((more ()).mono (Nat.le_refl 1) (by omega)).skip fun ⟨_, _⟩ => .pure _
  split
  · exact .pure _
  · exact .fail _ _

theorem concur_enumeration {Item : Type} {item otherItem : Parser Item} (closing : Mark)
    (concur : Concur 1 size item otherItem) (ended : item [] = .error .ended)
    (ample : Ample size bound otherBound) :
    Concur 1 size (enumeration bound item closing) (enumeration otherBound otherItem closing) :=
  .take? (fun _ => .pure _) (concur_items closing concur ended ample) (Nat.le_refl 1)

/-! ## Statements -/

theorem concur_statement (concur : ConcurRules size rules otherRules) :
    Concur 1 size (statement rules) (statement otherRules) := by
  refine (Concur.of_takes takes_peek).skip fun token => ?_
  split
  · refine (Concur.of_takes takes_next).bind fun _ => ?_
    refine (Concur.of_takes takes_peek).skip fun next => ?_
    split
    · exact .pure _
    · exact (concur.rule (by omega) .expression).skip fun _ => .pure _
  · exact (Concur.of_takes takes_next).bind fun _ => .pure _
  · exact (Concur.of_takes takes_next).bind fun _ => .pure _
  · exact concur.rule (by omega) .expression

theorem concur_statementList (closing : Kind → Bool) (concur : ConcurRules size rules otherRules)
    (ample : Ample size bound otherBound) :
    Concur 0 size (statementList rules closing bound)
      (statementList otherRules closing otherBound) := by
  refine Concur.rounds (fun rounds (_ : Unit) => statementList rules closing rounds)
    (fun rounds _ => statementList otherRules closing rounds)
    (fun _ => .of_takes fun _ _ _ read => by cases read) (fun _ _ => rfl) (fun _ _ => rfl) ?_
    ample ()
  intro rounds otherRounds small within more _
  refine (Concur.of_takes takes_peek).skip fun token => ?_
  split
  · exact .pure _
  refine ((concur_statement concur).mono (Nat.le_refl 1) within).skip fun first => ?_
  refine (Concur.of_takes takes_separators).skip fun separated => ?_
  split
  · exact ((more ()).mono (Nat.le_refl 0) (by omega)).skip fun _ => .pure _
  · exact .pure _

theorem concur_statements (closing : Kind → Bool) (concur : ConcurRules size rules otherRules)
    (ample : Ample size bound otherBound) :
    Concur 0 size (statements bound rules closing) (statements otherBound otherRules closing) := by
  refine (Concur.of_takes takes_separators).skip fun _ => ?_
  refine (Concur.of_takes takes_peek).skip fun _ => ?_
  exact (concur_statementList closing concur ample).skip fun _ => .pure _

/-- Statements behind a separator take that separator at least. -/
theorem takes_statements {closing : Kind → Bool} {tokens rest : List Token} {block : Located}
    (concur : ConcurRules tokens.length rules rules)
    (separated : ahead (·.isSeparator) tokens = true)
    (read : statements bound rules closing tokens = .ok (block, rest)) :
    rest <:+ tokens ∧ rest.length + 1 ≤ tokens.length := by
  obtain ⟨token, later, rfl, separates⟩ := of_ahead separated
  obtain ⟨_, middle, skipped, continued⟩ := of_bind_ok read
  rw [separators_apply] at skipped
  cases skipped
  have fewer : (token :: later).dropWhile (·.kind.isSeparator) =
      later.dropWhile (·.kind.isSeparator) := by
    simp [separates]
  rw [fewer] at continued
  have restarted : statements bound rules closing later = .ok (block, rest) :=
    bind_ok (separators_apply later) continued
  obtain ⟨ending, taken⟩ := (concur_statements closing concur (.inl rfl)).takes
    (Nat.le_succ later.length) restarted
  exact ⟨ending.trans (List.suffix_cons _ _), by simp only [List.length_cons]; omega⟩

theorem concur_body (closing : Kind → Bool) (concur : ConcurRules size rules otherRules)
    (ample : Ample size bound otherBound) :
    Concur 1 size (body bound rules closing) (body otherBound otherRules closing) where
  same := by
    refine ((Concur.of_takes takes_atSeparator).skip fun separated => ?_ : Concur 0 _ _ _).same
    split
    · exact (concur_statements closing concur ample).skip fun _ => .pure _
    · exact (concur_statement concur).skip fun _ => .pure _
  takes {tokens rest result} short read := by
    have own : ConcurRules tokens.length rules rules :=
      ⟨fun rule => ⟨fun _ => rfl, fun shorter => (concur.concur rule).takes (by omega)⟩,
        concur.ended⟩
    obtain ⟨separated, _, peeked, continued⟩ := of_bind_ok read
    rw [atSeparator_apply] at peeked
    cases peeked
    cases separated : ahead (·.isSeparator) tokens with
    | true =>
      rw [separated] at continued
      obtain ⟨block, _, stated, finished⟩ := of_bind_ok continued
      cases finished
      exact takes_statements own separated stated
    | false =>
      rw [separated] at continued
      obtain ⟨single, _, stated, finished⟩ := of_bind_ok continued
      cases finished
      exact (concur_statement own).takes (Nat.le_refl _) stated

/-! ## Constructs -/

theorem concur_branches (concur : ConcurRules size rules otherRules)
    (ample : Ample size bound otherBound) :
    Concur 1 size (branches bound rules bound) (branches otherBound otherRules otherBound) := by
  refine Concur.rounds (fun rounds (_ : Unit) => branches bound rules rounds)
    (fun rounds _ => branches otherBound otherRules rounds)
    (fun _ => .of_takes fun _ _ _ read => by cases read)
    (fun _ _ => bind_error (concur.ended .expression))
    (fun _ _ => bind_error (concur.otherEnded .expression)) ?_ ample ()
  intro rounds otherRounds small within more _
  refine (concur.rule within .expression).bind fun condition => ?_
  refine (Concur.of_takes (takes_keyword .thenWord)).skip fun _ => ?_
  refine ((concur_body closesBranch concur ample).mono (Nat.le_refl 1) (by omega)).skip
    fun ⟨branch, block⟩ => ?_
  refine (Concur.of_takes takes_peek).skip fun token => ?_
  split
  · refine (Concur.of_takes takes_next).skip fun _ => ?_
    exact ((more ()).mono (Nat.le_refl 1) (by omega)).skip fun ⟨_, _⟩ => .pure _
  split
  · refine (Concur.of_takes takes_next).skip fun _ => ?_
    refine ((concur_body closesBlock concur ample).mono (Nat.le_refl 1) (by omega)).skip
      fun ⟨last, lastBlock⟩ => ?_
    exact (Concur.of_takes (takes_closingSpan _ _)).skip fun _ => .pure _
  · exact (Concur.of_takes (takes_closingSpan _ _)).skip fun _ => .pure _

theorem concur_choice (word : Token) (concur : ConcurRules size rules otherRules)
    (ample : Ample size bound otherBound) :
    Concur 1 size (choice bound rules word) (choice otherBound otherRules word) :=
  (concur_branches concur ample).bind fun ⟨_, _⟩ => .pure _

theorem concur_loopStep (concur : ConcurRules size rules otherRules) :
    Concur 0 size (loopStep rules) (loopStep otherRules) :=
  .take? (fun _ => (concur.rule (Nat.sub_le _ _) .expression).map some) (.pure _) (Nat.zero_le _)

/-- The body of a loop, and the end of that. -/
theorem concur_round (view : Located → Bool → Span → Located)
    (concur : ConcurRules size rules otherRules) (ample : Ample size bound otherBound)
    (within : small ≤ size) :
    Concur 0 small
      (do let (round, block) ← body bound rules closesBlock
          let last ← closingSpan round block
          return view round block last)
      (do let (round, block) ← body otherBound otherRules closesBlock
          let last ← closingSpan round block
          return view round block last) := by
  refine ((concur_body closesBlock concur ample).mono (Nat.le_refl 1) within).skip
    fun ⟨round, block⟩ => ?_
  exact (Concur.of_takes (takes_closingSpan _ _)).skip fun _ => .pure _

theorem concur_forLoop (word : Token) (concur : ConcurRules size rules otherRules)
    (ample : Ample size bound otherBound) :
    Concur 1 size (forLoop bound rules word) (forLoop otherBound otherRules word) := by
  refine (Concur.of_takes takes_identifier).bind fun ⟨counter, _⟩ => ?_
  refine (Concur.of_takes (takes_mark .assign)).skip fun _ => ?_
  refine (concur.rule (by omega) .expression).skip fun start => ?_
  refine (Concur.of_takes (takes_keyword .toWord)).skip fun _ => ?_
  refine (concur.rule (by omega) .expression).skip fun stop => ?_
  refine ((concur_loopStep concur).mono (Nat.le_refl 0) (by omega)).skip fun step => ?_
  refine (Concur.of_takes (takes_keyword .thenWord)).skip fun _ => ?_
  exact concur_round (fun round block last =>
    .forLoop counter start stop step round block (word.span.through last)) concur ample (by omega)

theorem concur_whileLoop (word : Token) (concur : ConcurRules size rules otherRules)
    (ample : Ample size bound otherBound) :
    Concur 1 size (whileLoop bound rules word) (whileLoop otherBound otherRules word) := by
  refine (concur.rule (Nat.le_refl _) .expression).bind fun condition => ?_
  refine (Concur.of_takes (takes_keyword .thenWord)).skip fun _ => ?_
  exact concur_round (fun round block last =>
    .whileLoop condition round block (word.span.through last)) concur ample (by omega)

theorem concur_function (word : Token) (concur : ConcurRules size rules otherRules)
    (ample : Ample size bound otherBound) :
    Concur 1 size (function bound rules word) (function otherBound otherRules word) := by
  refine (Concur.of_takes takes_functionName).skip fun name => ?_
  refine (Concur.of_takes (takes_mark .openParen)).bind fun _ => ?_
  refine ((concur_enumeration .closeParen ((Concur.of_takes takes_identifier).map Prod.fst) rfl
    ample).mono (Nat.le_refl 1) (by omega)).skip fun ⟨parameters, _⟩ => ?_
  refine .take? (fun _ => ?_) ?_ (Nat.zero_le (0 + 1))
  · exact (concur.rule (by omega) .expression).skip fun _ => .pure _
  refine (Concur.of_takes takes_atSeparator).skip fun separated => ?_
  split
  · refine ((concur_statements closesBlock concur ample).mono (Nat.le_refl 0) (by omega)).skip
      fun block => ?_
    exact (Concur.of_takes (takes_keyword .endWord)).skip fun _ => .pure _
  · exact (Concur.of_takes takes_peek).skip fun _ => .fail _ _

theorem concur_template (word : Token) (concur : ConcurRules size rules otherRules)
    (ample : Ample size bound otherBound) :
    Concur 1 size (template bound rules word) (template otherBound otherRules word) := by
  refine (Concur.of_takes takes_identifier).bind fun ⟨name, _⟩ => ?_
  refine (Concur.of_takes takes_atSeparator).skip fun separated => ?_
  split
  · refine ((concur_statements closesBlock concur ample).mono (Nat.le_refl 0) (by omega)).skip
      fun block => ?_
    exact (Concur.of_takes (takes_keyword .endWord)).skip fun _ => .pure _
  · exact (Concur.of_takes takes_peek).skip fun _ => .fail _ _

/-! ## Expressions -/

theorem concur_named (name : String) (span : Span) (concur : ConcurRules size rules otherRules) :
    Concur 0 size (named rules name span) (named otherRules name span) := by
  refine .take? (fun _ => ?_) (.pure _) (Nat.zero_le (0 + 1))
  refine (Concur.of_takes takes_identifier).skip fun ⟨member, memberSpan⟩ => ?_
  refine .take? (fun _ => ?_) (.pure _) (Nat.zero_le (0 + 1))
  exact (concur.rule (by omega) .expression).skip fun _ => .pure _

theorem concur_atom (concur : ConcurRules size rules otherRules)
    (ample : Ample size bound otherBound) :
    Concur 1 (size + 1) (atom bound rules) (atom otherBound otherRules) := by
  refine (Concur.of_takes takes_next).bind fun token => ?_
  rw [Nat.add_sub_cancel]
  split
  · unfold integer
    split
    · exact .pure _
    · exact .fail _ _
  · exact .pure _
  · exact .pure _
  · exact concur_named _ _ concur
  · refine (concur.concur .expression).skip fun inner => ?_
    exact (Concur.of_takes (takes_mark .closeParen)).skip fun _ => .pure _
  · exact (concur_enumeration .closeBracket (concur.concur .expression) (concur.ended .expression)
      ample).skip fun ⟨_, _⟩ => .pure _
  · exact (concur_choice token concur ample).mono (Nat.zero_le 1) (Nat.le_refl _)
  · exact (concur_forLoop token concur ample).mono (Nat.zero_le 1) (Nat.le_refl _)
  · exact (concur_whileLoop token concur ample).mono (Nat.zero_le 1) (Nat.le_refl _)
  · exact (concur_function token concur ample).mono (Nat.zero_le 1) (Nat.le_refl _)
  · exact (concur_template token concur ample).mono (Nat.zero_le 1) (Nat.le_refl _)
  · exact (Concur.of_takes takes_identifier).skip fun ⟨_, _⟩ => .pure _
  · exact .fail _ _
  · exact .fail _ _

theorem concur_calls (callee : Located) (concur : ConcurRules size rules otherRules)
    (ample : Ample size bound otherBound) :
    Concur 0 size (calls bound rules bound callee)
      (calls otherBound otherRules otherBound callee) := by
  refine Concur.rounds (fun rounds callee => calls bound rules rounds callee)
    (fun rounds callee => calls otherBound otherRules rounds callee) (fun _ => .pure _)
    (fun _ _ => rfl) (fun _ _ => rfl) ?_ ample callee
  intro rounds otherRounds small within more callee
  refine .take? (fun _ => ?_) (.pure _) (Nat.zero_le (0 + 1))
  refine ((concur_enumeration .closeParen (concur.concur .expression) (concur.ended .expression)
    ample).mono (Nat.le_refl 1) (by omega)).skip fun ⟨arguments, closing⟩ => ?_
  exact (more _).mono (Nat.le_refl 0) (by omega)

theorem concur_call (concur : ConcurRules size rules otherRules)
    (ample : Ample size bound otherBound) :
    Concur 1 (size + 1) (call bound rules) (call otherBound otherRules) :=
  (concur_atom concur ample).bind fun callee => concur_calls callee concur ample

theorem concur_unary (concur : ConcurRules size rules otherRules)
    (ample : Ample size bound otherBound) :
    Concur 1 (size + 1) (unary bound rules) (unary otherBound otherRules) := by
  refine .take? (fun _ => ?_) (.take? (fun _ => ?_) (concur_call concur ample) (Nat.le_refl 1))
    (Nat.le_refl 1)
  · exact (concur.concur .unary).skip fun _ => .pure _
  · refine .take? (fun _ => .pure _) ?_ (Nat.zero_le (0 + 1))
    exact (concur.concur .unary).skip fun _ => .pure _

theorem concur_power (concur : ConcurRules size rules otherRules)
    (ample : Ample size bound otherBound) :
    Concur 1 (size + 1) (power bound rules) (power otherBound otherRules) := by
  refine (concur_unary concur ample).bind fun base => ?_
  refine .take? (fun _ => ?_) (.pure _) (Nat.zero_le (0 + 1))
  exact (concur.rule (by omega) .power).skip fun _ => .pure _

theorem concur_chainFrom {operand otherOperand : Parser Located} (level : BinaryOp → Bool)
    (left : Located) (concur : Concur 1 (size + 1) operand otherOperand)
    (ample : Ample size bound otherBound) :
    Concur 0 size (chainFrom operand level bound left)
      (chainFrom otherOperand level otherBound left) := by
  refine Concur.rounds (fun rounds left => chainFrom operand level rounds left)
    (fun rounds left => chainFrom otherOperand level rounds left) (fun _ => .pure _)
    (fun _ _ => rfl) (fun _ _ => rfl) ?_ ample left
  intro rounds otherRounds small within more left
  refine (Concur.of_takes (takes_operator? level)).skip fun found => ?_
  cases found with
  | none => exact .pure _
  | some op =>
    refine (concur.mono (Nat.le_refl 1) (by omega)).skip fun right => ?_
    exact (more _).mono (Nat.le_refl 0) (by omega)

theorem concur_chain {operand otherOperand : Parser Located} (level : BinaryOp → Bool)
    (concur : Concur 1 (size + 1) operand otherOperand) (ample : Ample size bound otherBound) :
    Concur 1 (size + 1) (chain bound operand level) (chain otherBound otherOperand level) :=
  concur.bind fun left => concur_chainFrom level left concur ample

theorem concur_term (concur : ConcurRules size rules otherRules)
    (ample : Ample size bound otherBound) :
    Concur 1 (size + 1) (term bound rules) (term otherBound otherRules) :=
  concur_chain _ (concur_power concur ample) ample

theorem concur_sum (concur : ConcurRules size rules otherRules)
    (ample : Ample size bound otherBound) :
    Concur 1 (size + 1) (sum bound rules) (sum otherBound otherRules) :=
  concur_chain _ (concur_term concur ample) ample

theorem concur_comparison (concur : ConcurRules size rules otherRules)
    (ample : Ample size bound otherBound) :
    Concur 1 (size + 1) (comparison bound rules) (comparison otherBound otherRules) := by
  refine .take? (fun _ => ?_) (concur_chain _ (concur_sum concur ample) ample) (Nat.le_refl 1)
  exact (concur.concur .comparison).skip fun _ => .pure _

theorem concur_connection (concur : ConcurRules size rules otherRules)
    (ample : Ample size bound otherBound) :
    Concur 1 (size + 1) (connection bound rules) (connection otherBound otherRules) :=
  concur_chain _ (concur_comparison concur ample) ample

/-- A name and the assignment mark behind it, taken if both are there. -/
theorem Concur.target? {firstNext secondNext : Option (String × Span) → Parser Located}
    (found : ∀ target, Concur 0 (size - 1) (firstNext (some target)) (secondNext (some target)))
    (absent : Concur 1 size (firstNext none) (secondNext none)) :
    Concur 1 size (Grammar.target? >>= firstNext) (Grammar.target? >>= secondNext) where
  same {tokens} short := by
    cases target : targetAhead tokens with
    | false =>
      rw [bind_eq (target?_of_ahead target), bind_eq (target?_of_ahead target)]
      exact absent.same short
    | true =>
      obtain ⟨name, span, signSpan, rest, rfl⟩ := of_targetAhead target
      simp only [List.length_cons] at short
      exact (found (name, span)).same (by omega)
  takes {tokens rest result} short read := by
    obtain ⟨result, middle, started, continued⟩ := of_bind_ok read
    obtain ⟨rfl, -, rfl⟩ | ⟨name, span, signSpan, rfl, rfl⟩ := target?_eq_ok started
    · exact absent.takes short continued
    · simp only [List.length_cons] at short ⊢
      obtain ⟨ending, taken⟩ := (found (name, span)).takes (by omega) continued
      exact ⟨(ending.trans (List.suffix_cons _ _)).trans (List.suffix_cons _ _), by omega⟩

theorem concur_expression (concur : ConcurRules size rules otherRules)
    (ample : Ample size bound otherBound) :
    Concur 1 (size + 1) (expression bound rules) (expression otherBound otherRules) := by
  refine .take? (fun _ => ?_) (.target? (fun ⟨name, span⟩ => ?_) (concur_connection concur ample))
    (Nat.le_refl 1)
  · refine (Concur.of_takes takes_identifier).skip fun ⟨name, _⟩ => ?_
    refine (Concur.of_takes (takes_mark .assign)).skip fun _ => ?_
    exact (concur.rule (by omega) .expression).skip fun _ => .pure _
  · exact (concur.concur .expression).skip fun _ => .pure _

theorem concur_ofRule (concur : ConcurRules size rules otherRules)
    (ample : Ample size bound otherBound) :
    ConcurRules (size + 1) (ofRule bound rules) (ofRule otherBound otherRules) where
  concur rule := by
    cases rule with
    | expression => exact concur_expression concur ample
    | comparison => exact concur_comparison concur ample
    | power => exact concur_power concur ample
    | unary => exact concur_unary concur ample
  ended rule := by cases rule <;> rfl

/-! ## Bounds -/

/-- All rules make progress, on all lists of tokens and whatever the bound. -/
theorem concurRules_rulesUpTo (bound size : Nat) :
    ConcurRules size (rulesUpTo bound) (rulesUpTo bound) := by
  induction bound with
  | zero => exact ⟨fun _ => .of_takes (fun _ _ _ read => by cases read), fun _ => rfl⟩
  | succ bound ih => exact (concur_ofRule ih (.inl rfl)).mono (Nat.le_succ size)

/-- Bounds do not matter if they are not smaller than the number of tokens. -/
theorem concurRules_of_le (enough : size ≤ bound) (otherEnough : size ≤ otherBound) :
    ConcurRules size (rulesUpTo bound) (rulesUpTo otherBound) := by
  induction size generalizing bound otherBound with
  | zero =>
    refine ⟨fun rule => ⟨fun {tokens} short => ?_, fun short read => ?_⟩,
      (concurRules_rulesUpTo bound 0).ended⟩
    · obtain rfl := List.length_eq_zero_iff.mp (Nat.le_zero.mp short)
      rw [(concurRules_rulesUpTo bound 0).ended, (concurRules_rulesUpTo otherBound 0).ended]
    · exact ((concurRules_rulesUpTo bound 0).concur rule).takes short read
  | succ size ih =>
    obtain ⟨bound, rfl⟩ : ∃ fewer, bound = fewer + 1 := ⟨bound - 1, by omega⟩
    obtain ⟨otherBound, rfl⟩ : ∃ fewer, otherBound = fewer + 1 := ⟨otherBound - 1, by omega⟩
    exact concur_ofRule (ih (by omega) (by omega)) (.inr ⟨by omega, by omega⟩)

/-- The rules solve their own equations, and on their way they refer back to themselves only where
fewer tokens are left: what they would do elsewhere does not matter. -/
theorem ofRule_eq_rulesUpTo {tokens : List Token} (enough : tokens.length ≤ bound)
    (otherEnough : tokens.length ≤ otherBound)
    (agrees : ∀ rule shorter, shorter.length < tokens.length →
      rules rule shorter = rulesUpTo bound rule shorter) (rule : Rule) :
    ofRule otherBound rules rule tokens = rulesUpTo bound rule tokens := by
  cases tokens with
  | nil =>
    rw [(concurRules_rulesUpTo bound 0).ended]
    cases rule <;> rfl
  | cons token rest =>
    simp only [List.length_cons] at enough otherEnough agrees
    obtain ⟨bound, rfl⟩ : ∃ fewer, bound = fewer + 1 := ⟨bound - 1, by omega⟩
    have fewer : ConcurRules rest.length (rulesUpTo bound) (rulesUpTo (bound + 1)) :=
      concurRules_of_le (by omega) (by omega)
    have given : ConcurRules rest.length (rulesUpTo bound) rules := by
      refine ⟨fun rule => ⟨fun short => ?_, (fewer.concur rule).takes⟩, fewer.ended⟩
      exact (agrees rule _ (by omega)).trans ((fewer.concur rule).same short)
    exact ((concur_ofRule given (.inr ⟨by omega, by omega⟩)).concur rule).same (Nat.le_refl _)

theorem concur_program (enough : size ≤ bound) (otherEnough : size ≤ otherBound) :
    Concur 0 size (program bound) (program otherBound) := by
  refine (concur_statements _ (concurRules_of_le enough otherEnough)
    (.inr ⟨enough, otherEnough⟩)).skip fun root => ?_
  refine (Concur.of_takes takes_peek).skip fun token => ?_
  split
  · exact .pure _
  · exact .fail _ _

end Quill.Grammar
