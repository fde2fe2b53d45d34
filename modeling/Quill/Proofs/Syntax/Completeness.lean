import Quill.Proofs.Syntax.Readers

/-!
# Every reading is found

The parser of a phrase returns what the phrase can be read as. It only has to be given a bound that
is no smaller than the number of tokens in front of it, and all bounds of that size are alike.
-/

namespace Quill.Grammar

open Quill.Token Quill.Parser

/-- The parser of what stands between the operators of a level. -/
def Level.operand (bound : Nat) (rules : Rules) : Level → Parser Located
  | .logical => Grammar.comparison bound rules
  | .comparison => Grammar.sum bound rules
  | .additive => Grammar.term bound rules
  | .multiplicative => Grammar.power bound rules

/-- The parser of the phrase returns what it is read as, under every bound that allows for the
tokens in front of it. Rules that have taken no token yet are bounded with one token to spare. -/
def Finds (before after : List Token) : Phrase → Prop
  | .expression expr => ∀ bound, before.length ≤ bound + 1 →
    expression bound (rulesUpTo bound) before = .ok (expr, after)
  | .chain level expr => ∀ bound, before.length ≤ bound + 1 →
    chain bound (level.operand bound (rulesUpTo bound)) level.admits before = .ok (expr, after)
  | .chainFrom level left expr => ∀ bound rounds, before.length ≤ bound → before.length ≤ rounds →
    chainFrom (level.operand bound (rulesUpTo bound)) level.admits rounds left before =
      .ok (expr, after)
  | .comparison expr => ∀ bound, before.length ≤ bound + 1 →
    comparison bound (rulesUpTo bound) before = .ok (expr, after)
  | .power expr => ∀ bound, before.length ≤ bound + 1 →
    power bound (rulesUpTo bound) before = .ok (expr, after)
  | .unary expr => ∀ bound, before.length ≤ bound + 1 →
    unary bound (rulesUpTo bound) before = .ok (expr, after)
  | .call expr => ∀ bound, before.length ≤ bound + 1 →
    call bound (rulesUpTo bound) before = .ok (expr, after)
  | .calls callee expr => ∀ bound rounds, before.length ≤ bound → before.length ≤ rounds →
    calls bound (rulesUpTo bound) rounds callee before = .ok (expr, after)
  | .atom expr => ∀ bound, before.length ≤ bound + 1 →
    atom bound (rulesUpTo bound) before = .ok (expr, after)
  | .named name span expr => ∀ bound, before.length ≤ bound →
    named (rulesUpTo bound) name span before = .ok (expr, after)
  | .enumeration closing elements last => ∀ bound, before.length ≤ bound →
    enumeration bound (rulesUpTo bound .expression) closing before = .ok ((elements, last), after)
  | .items closing elements last => ∀ bound rounds, before.length ≤ bound →
    before.length ≤ rounds →
    items (rulesUpTo bound .expression) closing rounds before = .ok ((elements, last), after)
  | .functionName name => functionName before = .ok (name, after)
  | .parameters names last => ∀ bound, before.length ≤ bound →
    enumeration bound (Prod.fst <$> identifier) .closeParen before = .ok ((names, last), after)
  | .names names last => ∀ rounds, before.length ≤ rounds →
    items (Prod.fst <$> identifier) .closeParen rounds before = .ok ((names, last), after)
  | .statement expr => ∀ bound, before.length ≤ bound →
    statement (rulesUpTo bound) before = .ok (expr, after)
  | .statementList closing elements => ∀ bound rounds, before.length ≤ bound →
    before.length ≤ rounds →
    statementList (rulesUpTo bound) closing rounds before = .ok (elements, after)
  | .statements closing expr => ∀ bound, before.length ≤ bound →
    statements bound (rulesUpTo bound) closing before = .ok (expr, after)
  | .body closing expr block => ∀ bound, before.length ≤ bound →
    body bound (rulesUpTo bound) closing before = .ok ((expr, block), after)
  | .ending body block stop => closingSpan body block before = .ok (stop, after)
  | .step step => ∀ bound, before.length ≤ bound →
    loopStep (rulesUpTo bound) before = .ok (step, after)
  | .branches alternatives stop => ∀ bound rounds, before.length ≤ bound →
    before.length ≤ rounds →
    branches bound (rulesUpTo bound) rounds before = .ok ((alternatives, stop), after)

variable {expr : Located} {before after : List Token} {bound : Nat}

/-- A rule is found if its phrase is, as there is a token that it takes. -/
theorem Finds.rule (rule : Rule) (found : Finds before after (.ofRule rule expr))
    (reads : Reads (.ofRule rule expr) before after) (enough : before.length ≤ bound) :
    rulesUpTo bound rule before = .ok (expr, after) := by
  have shorter := reads.length_le
  cases bound with
  | zero => cases rule <;> simp only [Phrase.ofRule, Phrase.least] at shorter <;> omega
  | succ bound => cases rule <;> exact found bound enough

theorem Finds.operand (level : Level) (found : Finds before after (.operand level expr))
    (enough : before.length ≤ bound + 1) :
    level.operand bound (rulesUpTo bound) before = .ok (expr, after) := by
  cases level <;> exact found bound enough

/-- Every reading is what the parser returns. -/
theorem Reads.found {phrase : Phrase} {before after : List Token}
    (reads : Reads phrase before after) : Finds before after phrase := by
  induction reads with
  | declaration assigned found =>
    intro bound enough
    refine bind_ok (take?_cons _ rfl) ?_
    refine bind_ok (identifier_eq_ok.mpr rfl) ?_
    refine bind_ok (mark_eq_ok.mpr ⟨rfl, rfl⟩) ?_
    refine bind_ok (found.rule .expression assigned ?_) rfl
    simp only [List.length_cons] at enough
    omega
  | assignment assigned found =>
    intro bound enough
    refine bind_ok (take?_of_ahead rfl) ?_
    refine bind_ok rfl ?_
    refine bind_ok (found.rule .expression assigned ?_) rfl
    simp only [List.length_cons] at enough
    omega
  | connection noWord noTarget connected found =>
    intro bound enough
    refine bind_ok (take?_of_ahead noWord) ?_
    refine bind_ok (target?_of_ahead noTarget) ?_
    exact found bound enough
  | chain start more startFound moreFound =>
    intro bound enough
    have shorter := start.length_le
    rw [Phrase.least_operand] at shorter
    refine bind_ok (startFound.operand _ enough) ?_
    exact moreFound bound bound (by omega) (by omega)
  | chainEnd noOperator =>
    intro bound rounds enough _
    cases rounds with
    | zero => rfl
    | succ rounds => exact bind_ok (operator?_of_ahead noOperator) rfl
  | chainMore operator admitted operand more operandFound moreFound =>
    intro bound rounds enough within
    have shorter := operand.length_le
    rw [Phrase.least_operand] at shorter
    simp only [List.length_cons] at enough within
    obtain ⟨rounds, rfl⟩ := Nat.exists_eq_add_of_le' (show 1 ≤ rounds by omega)
    refine bind_ok (operator?_cons _ operator admitted) ?_
    refine bind_ok (operandFound.operand _ (by omega)) ?_
    exact moreFound bound rounds (by omega) (by omega)
  | negation negated found =>
    intro bound enough
    refine bind_ok (take?_cons _ rfl) ?_
    refine bind_ok (found.rule .comparison negated ?_) rfl
    simp only [List.length_cons] at enough
    omega
  | comparison noWord compared found =>
    intro bound enough
    refine bind_ok (take?_of_ahead noWord) ?_
    exact found bound enough
  | base start noExponent found =>
    intro bound enough
    refine bind_ok (found bound enough) ?_
    exact bind_ok (take?_of_ahead noExponent) rfl
  | power start raised startFound raisedFound =>
    intro bound enough
    have shorter := start.length_le
    simp only [List.length_cons, Phrase.least] at shorter
    refine bind_ok (startFound bound enough) ?_
    refine bind_ok (take?_cons _ rfl) ?_
    exact bind_ok (raisedFound.rule .power raised (by omega)) rfl
  | plus signed found =>
    intro bound enough
    refine bind_ok (take?_cons _ rfl) ?_
    refine bind_ok (found.rule .unary signed ?_) rfl
    simp only [List.length_cons] at enough
    omega
  | smallest =>
    intro bound enough
    refine bind_ok (take?_of_ahead rfl) ?_
    refine bind_ok (take?_cons _ rfl) ?_
    exact bind_ok (take?_cons _ rfl) rfl
  | minus noLargest signed found =>
    intro bound enough
    refine bind_ok (take?_of_ahead rfl) ?_
    refine bind_ok (take?_cons _ rfl) ?_
    refine bind_ok (take?_of_ahead noLargest) ?_
    refine bind_ok (found.rule .unary signed ?_) rfl
    simp only [List.length_cons] at enough
    omega
  | unsigned noPlus noMinus called found =>
    intro bound enough
    refine bind_ok (take?_of_ahead noPlus) ?_
    refine bind_ok (take?_of_ahead noMinus) ?_
    exact found bound enough
  | call start more startFound moreFound =>
    intro bound enough
    have shorter := start.length_le
    simp only [Phrase.least] at shorter
    refine bind_ok (startFound bound enough) ?_
    exact moreFound bound bound (by omega) (by omega)
  | callsEnd noList =>
    intro bound rounds enough _
    cases rounds with
    | zero => rfl
    | succ rounds => exact bind_ok (take?_of_ahead noList) rfl
  | callsMore passed more passedFound moreFound =>
    intro bound rounds enough within
    have shorter := passed.length_le
    simp only [List.length_cons, Phrase.least] at shorter enough within
    obtain ⟨rounds, rfl⟩ := Nat.exists_eq_add_of_le' (show 1 ≤ rounds by omega)
    refine bind_ok (take?_cons _ rfl) ?_
    refine bind_ok (passedFound bound (by omega)) ?_
    exact moreFound bound rounds (by omega) (by omega)
  | int small =>
    intro bound _
    refine bind_ok (next_eq_ok.mpr rfl) ?_
    simp only [integer, small, if_true, pure_apply]
  | float => exact fun bound _ => bind_ok (next_eq_ok.mpr rfl) rfl
  | str => exact fun bound _ => bind_ok (next_eq_ok.mpr rfl) rfl
  | named continued found =>
    intro bound enough
    simp only [List.length_cons] at enough
    exact bind_ok (next_eq_ok.mpr rfl) (found bound (by omega))
  | «variable» noDot => exact fun bound _ => bind_ok (take?_of_ahead noDot) rfl
  | member noAssign =>
    intro bound enough
    refine bind_ok (take?_cons _ rfl) ?_
    refine bind_ok (identifier_eq_ok.mpr rfl) ?_
    exact bind_ok (take?_of_ahead noAssign) rfl
  | memberAssignment assigned found =>
    intro bound enough
    refine bind_ok (take?_cons _ rfl) ?_
    refine bind_ok (identifier_eq_ok.mpr rfl) ?_
    refine bind_ok (take?_cons _ rfl) ?_
    refine bind_ok (found.rule .expression assigned ?_) rfl
    simp only [List.length_cons] at enough
    omega
  | parens inner found =>
    intro bound enough
    simp only [List.length_cons] at enough
    refine bind_ok (next_eq_ok.mpr rfl) ?_
    refine bind_ok (found.rule .expression inner (by omega)) ?_
    exact bind_ok (mark_eq_ok.mpr ⟨rfl, rfl⟩) rfl
  | list listed found =>
    intro bound enough
    simp only [List.length_cons] at enough
    refine bind_ok (next_eq_ok.mpr rfl) ?_
    exact bind_ok (found bound (by omega)) rfl
  | choice chosen found =>
    intro bound enough
    simp only [List.length_cons] at enough
    refine bind_ok (next_eq_ok.mpr rfl) ?_
    exact bind_ok (found bound bound (by omega) (by omega)) rfl
  | forLoop started stopped stepped repeated ended startFound stopFound stepFound bodyFound
      endFound =>
    intro bound enough
    have startShorter := started.length_le
    have stopShorter := stopped.length_le
    have stepShorter := stepped.length_le
    simp only [List.length_cons, Phrase.least] at enough startShorter stopShorter stepShorter
    refine bind_ok (next_eq_ok.mpr rfl) ?_
    refine bind_ok (identifier_eq_ok.mpr rfl) ?_
    refine bind_ok (mark_eq_ok.mpr ⟨rfl, rfl⟩) ?_
    refine bind_ok (startFound.rule .expression started (by omega)) ?_
    refine bind_ok (keyword_eq_ok.mpr ⟨rfl, rfl⟩) ?_
    refine bind_ok (stopFound.rule .expression stopped (by omega)) ?_
    refine bind_ok (stepFound bound (by omega)) ?_
    refine bind_ok (keyword_eq_ok.mpr ⟨rfl, rfl⟩) ?_
    refine bind_ok (bodyFound bound (by omega)) ?_
    exact bind_ok endFound rfl
  | stepNone noStep => exact fun bound _ => bind_ok (take?_of_ahead noStep) rfl
  | stepSome stepped found =>
    intro bound enough
    simp only [List.length_cons] at enough
    refine bind_ok (take?_cons _ rfl) ?_
    exact map_ok (found.rule .expression stepped (by omega))
  | whileLoop conditional repeated ended conditionFound bodyFound endFound =>
    intro bound enough
    have shorter := conditional.length_le
    simp only [List.length_cons, Phrase.least] at enough shorter
    refine bind_ok (next_eq_ok.mpr rfl) ?_
    refine bind_ok (conditionFound.rule .expression conditional (by omega)) ?_
    refine bind_ok (keyword_eq_ok.mpr ⟨rfl, rfl⟩) ?_
    refine bind_ok (bodyFound bound (by omega)) ?_
    exact bind_ok endFound rfl
  | functionOf called passed valued nameFound passedFound valueFound =>
    intro bound enough
    have nameShorter := called.length_le
    have passedShorter := passed.length_le
    simp only [List.length_cons, Phrase.least] at enough nameShorter passedShorter
    refine bind_ok (next_eq_ok.mpr rfl) ?_
    refine bind_ok nameFound ?_
    refine bind_ok (mark_eq_ok.mpr ⟨rfl, rfl⟩) ?_
    refine bind_ok (passedFound bound (by omega)) ?_
    refine bind_ok (take?_cons _ rfl) ?_
    exact bind_ok (valueFound.rule .expression valued (by omega)) rfl
  | functionBlock called passed newLine blocked nameFound passedFound blockFound =>
    intro bound enough
    have nameShorter := called.length_le
    have passedShorter := passed.length_le
    simp only [List.length_cons, Phrase.least] at enough nameShorter passedShorter
    refine bind_ok (next_eq_ok.mpr rfl) ?_
    refine bind_ok nameFound ?_
    refine bind_ok (mark_eq_ok.mpr ⟨rfl, rfl⟩) ?_
    refine bind_ok (passedFound bound (by omega)) ?_
    refine bind_ok (take?_of_ahead (not_mark_of_separator newLine)) ?_
    refine bind_ok (atSeparator_apply _) ?_
    rw [newLine]
    refine bind_ok (blockFound bound (by omega)) ?_
    exact bind_ok (keyword_eq_ok.mpr ⟨rfl, rfl⟩) rfl
  | noName present noIdentifier => exact functionName_of_ahead present noIdentifier
  | name => exact bind_ok rfl (bind_ok rfl rfl)
  | template newLine blocked found =>
    intro bound enough
    simp only [List.length_cons] at enough
    refine bind_ok (next_eq_ok.mpr rfl) ?_
    refine bind_ok (identifier_eq_ok.mpr rfl) ?_
    refine bind_ok (atSeparator_apply _) ?_
    rw [newLine]
    refine bind_ok (found bound (by omega)) ?_
    exact bind_ok (keyword_eq_ok.mpr ⟨rfl, rfl⟩) rfl
  | instantiate =>
    intro bound _
    refine bind_ok (next_eq_ok.mpr rfl) ?_
    exact bind_ok (identifier_eq_ok.mpr rfl) rfl
  | noElements =>
    intro bound _
    exact bind_ok (take?_cons _ (isMark_iff.mpr rfl)) rfl
  | elements noClosing listed found =>
    intro bound enough
    refine bind_ok (take?_of_ahead noClosing) ?_
    exact found bound bound enough enough
  | lastItem other item found =>
    intro bound rounds enough within
    have shorter := item.length_le
    simp only [List.length_cons, Phrase.least] at shorter
    obtain ⟨rounds, rfl⟩ := Nat.exists_eq_add_of_le' (show 1 ≤ rounds by omega)
    refine bind_ok (found.rule .expression item enough) ?_
    refine bind_ok (next_eq_ok.mpr rfl) ?_
    simp [Kind.isMark, other]
  | moreItems item more itemFound moreFound =>
    intro bound rounds enough within
    have shorter := item.length_le
    simp only [List.length_cons, Phrase.least] at shorter
    obtain ⟨rounds, rfl⟩ := Nat.exists_eq_add_of_le' (show 1 ≤ rounds by omega)
    refine bind_ok (itemFound.rule .expression item enough) ?_
    refine bind_ok (next_eq_ok.mpr rfl) ?_
    exact bind_ok (moreFound bound rounds (by omega) (by omega)) rfl
  | noParameters =>
    intro bound _
    exact bind_ok (take?_cons _ rfl) rfl
  | parameters listed found =>
    intro bound enough
    refine bind_ok (take?_of_ahead ?_) (found bound enough)
    cases listed <;> rfl
  | lastName =>
    intro rounds within
    obtain ⟨rounds, rfl⟩ := Nat.exists_eq_add_of_le' (show 1 ≤ rounds by simp at within; omega)
    refine bind_ok (map_ok (identifier_eq_ok.mpr rfl)) ?_
    exact bind_ok (next_eq_ok.mpr rfl) rfl
  | moreNames more found =>
    intro rounds within
    simp only [List.length_cons] at within
    obtain ⟨rounds, rfl⟩ := Nat.exists_eq_add_of_le' (show 1 ≤ rounds by omega)
    refine bind_ok (map_ok (identifier_eq_ok.mpr rfl)) ?_
    refine bind_ok (next_eq_ok.mpr rfl) ?_
    exact bind_ok (found rounds (by omega)) rfl
  | returnNone noValue =>
    intro bound _
    obtain ⟨token, rest, rfl, ends⟩ := of_ahead noValue
    refine bind_ok (peek_cons _ _) (bind_ok (next_eq_ok.mpr rfl) (bind_ok (peek_cons _ _) ?_))
    simp only [ends, if_true, pure_apply]
  | returnSome hasValue returned found =>
    intro bound enough
    simp only [List.length_cons] at enough
    obtain ⟨token, rest, rfl⟩ := returned.exists_cons rfl
    have goes : endsStatement token.kind = false := hasValue
    refine bind_ok (peek_cons _ _) (bind_ok (next_eq_ok.mpr rfl) (bind_ok (peek_cons _ _) ?_))
    simp only [goes]
    exact bind_ok (found.rule .expression returned (by omega)) rfl
  | continueLoop => exact fun bound _ => bind_ok (peek_cons _ _) (bind_ok (next_eq_ok.mpr rfl) rfl)
  | breakLoop => exact fun bound _ => bind_ok (peek_cons _ _) (bind_ok (next_eq_ok.mpr rfl) rfl)
  | statement noJump plain found =>
    intro bound enough
    obtain ⟨token, rest, rfl⟩ := plain.exists_cons rfl
    exact (statement_of_ahead noJump).trans (found.rule .expression plain enough)
  | noStatements closed =>
    intro bound rounds enough within
    obtain ⟨token, rest, rfl, ends⟩ := of_ahead closed
    obtain ⟨rounds, rfl⟩ := Nat.exists_eq_add_of_le' (show 1 ≤ rounds by simp at within; omega)
    refine bind_ok (peek_cons _ _) ?_
    simp only [ends, if_true, pure_apply]
  | lastStatement opened first noSeparator found =>
    intro bound rounds enough within
    obtain ⟨token, rest, rfl⟩ := first.exists_cons rfl
    simp only [List.length_cons] at within
    obtain ⟨rounds, rfl⟩ := Nat.exists_eq_add_of_le' (show 1 ≤ rounds by omega)
    refine bind_ok (peek_cons _ _) ?_
    simp only [show endsList _ token.kind = false from opened]
    refine bind_ok (found bound enough) (bind_ok (separators_apply _) ?_)
    rw [noSeparator, dropWhile_of_ahead noSeparator]
    rfl
  | @moreStatements _ _ _ _ middle _ opened first separated more firstFound moreFound =>
    intro bound rounds enough within
    have shorter := first.length_le
    have skipped := length_dropWhile_separators middle
    obtain ⟨token, rest, rfl⟩ := first.exists_cons rfl
    simp only [List.length_cons, Phrase.least] at enough within shorter
    obtain ⟨rounds, rfl⟩ := Nat.exists_eq_add_of_le' (show 1 ≤ rounds by omega)
    refine bind_ok (peek_cons _ _) ?_
    simp only [show endsList _ token.kind = false from opened]
    refine bind_ok (firstFound bound (by simpa using enough)) (bind_ok (separators_apply _) ?_)
    rw [separated]
    exact bind_ok (moreFound bound rounds (by omega) (by omega)) rfl
  | @statements _ _ _ before _ _ skipped listed found =>
    intro bound enough
    have shorter := length_dropWhile_separators before
    refine bind_ok (separators_apply _) ?_
    rw [skipped] at shorter ⊢
    refine bind_ok (peek_cons _ _) ?_
    exact bind_ok (found bound bound (by omega) (by omega)) rfl
  | block newLine blocked found =>
    intro bound enough
    refine bind_ok (atSeparator_apply _) ?_
    rw [newLine]
    exact bind_ok (found bound enough) rfl
  | single sameLine stated found =>
    intro bound enough
    refine bind_ok (atSeparator_apply _) ?_
    rw [sameLine]
    exact bind_ok (found bound enough) rfl
  | endOfBlock => exact bind_ok (keyword_eq_ok.mpr ⟨rfl, rfl⟩) rfl
  | endOfLine => rfl
  | elif conditional chosen more conditionFound chosenFound moreFound =>
    intro bound rounds enough within
    have conditionShorter := conditional.length_le
    have bodyShorter := chosen.length_le
    simp only [List.length_cons, Phrase.least] at conditionShorter bodyShorter
    obtain ⟨rounds, rfl⟩ := Nat.exists_eq_add_of_le' (show 1 ≤ rounds by omega)
    refine bind_ok (conditionFound.rule .expression conditional enough) ?_
    refine bind_ok (keyword_eq_ok.mpr ⟨rfl, rfl⟩) ?_
    refine bind_ok (chosenFound bound (by omega)) ?_
    refine bind_ok (peek_cons _ _) (bind_ok (next_eq_ok.mpr rfl) ?_)
    exact bind_ok (moreFound bound rounds (by omega) (by omega)) rfl
  | otherwise conditional chosen alternative ended conditionFound chosenFound otherFound
      endFound =>
    intro bound rounds enough within
    have conditionShorter := conditional.length_le
    have bodyShorter := chosen.length_le
    simp only [List.length_cons, Phrase.least] at conditionShorter bodyShorter
    obtain ⟨rounds, rfl⟩ := Nat.exists_eq_add_of_le' (show 1 ≤ rounds by omega)
    refine bind_ok (conditionFound.rule .expression conditional enough) ?_
    refine bind_ok (keyword_eq_ok.mpr ⟨rfl, rfl⟩) ?_
    refine bind_ok (chosenFound bound (by omega)) ?_
    refine bind_ok (peek_cons _ _) (bind_ok (next_eq_ok.mpr rfl) ?_)
    refine bind_ok (otherFound bound (by omega)) ?_
    exact bind_ok endFound rfl
  | lastBranch conditional chosen present noElif noElse ended conditionFound chosenFound
      endFound =>
    intro bound rounds enough within
    have conditionShorter := conditional.length_le
    simp only [List.length_cons, Phrase.least] at conditionShorter
    obtain ⟨rounds, rfl⟩ := Nat.exists_eq_add_of_le' (show 1 ≤ rounds by omega)
    obtain ⟨token, rest, rfl⟩ := List.exists_cons_of_ne_nil present
    have notElif : token.kind.isKeyword .elifWord = false := noElif
    have notElse : token.kind.isKeyword .elseWord = false := noElse
    refine bind_ok (conditionFound.rule .expression conditional enough) ?_
    refine bind_ok (keyword_eq_ok.mpr ⟨rfl, rfl⟩) ?_
    refine bind_ok (chosenFound bound (by omega)) (bind_ok (peek_cons _ _) ?_)
    simp only [notElif, notElse]
    exact bind_ok endFound rfl

/-- The parser of programs finds every program that nothing but the end of the input follows. -/
theorem parse_eq_ok {tokens rest : List Token} {root : Located} {last : Span}
    (reads : Reads (.statements (fun _ => false) root) tokens (⟨.endOfInput, last⟩ :: rest)) :
    parse tokens = .ok root := by
  have read : program tokens.length tokens = .ok (root, ⟨.endOfInput, last⟩ :: rest) := by
    refine bind_ok (reads.found tokens.length (Nat.le_refl _)) ?_
    exact bind_ok (peek_cons _ _) rfl
  change Prod.fst <$> program tokens.length tokens = _
  rw [read]
  rfl

end Quill.Grammar
