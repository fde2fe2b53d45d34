import Quill.Proofs.Lexing.Rendering
import Quill.Proofs.Syntax.Constructs
import Quill.Proofs.Syntax.Soundness
import Quill.Proofs.Syntax.Words

/-!
# Printing what was read

Every expression that was read, and in which each `return` without a value is a whole statement, is
read again from the tokens it is printed as. A reading shows everything that printing relies on:
what kinds of constants there are, that jumps are statements, that bodies which are blocks are lists
of statements.
-/

namespace Quill.Grammar

open Quill.Token Quill.Parser Quill.Lexeme

/-- What a reading of the phrase says about printing. -/
def Phrase.Printable : Phrase → Prop
  | .expression expr | .chain _ expr | .comparison expr | .power expr | .unary expr | .call expr
  | .atom expr | .named _ _ expr =>
    expr.bare.returnsStand .statement = true → Prints expr.bare
  | .chainFrom _ left expr | .calls left expr =>
    (left.bare.returnsStand .statement = true → Prints left.bare) →
      expr.bare.returnsStand .statement = true → Prints expr.bare
  | .enumeration _ elements _ | .items _ elements _ =>
    ∀ element ∈ elements, element.bare.returnsStand .statement = true → Prints element.bare
  | .statement expr =>
    (expr.bare.returnsStand .statement = true → PrintsStatement expr.bare) ∧
      (expr.bare.returnsStand (.operand Rank.connection) = true → PrintsLine expr.bare)
  | .statementList _ elements =>
    ∀ element ∈ elements, element.bare.returnsStand .statement = true →
      PrintsStatement element.bare
  | .statements _ expr => expr.bare.returnsStand .block = true → PrintsBlock expr.bare
  | .body _ expr block =>
    expr.bare.returnsStand (.body block) = true → PrintsBody block expr.bare
  | .step taken =>
    ∀ expr ∈ taken, expr.bare.returnsStand .statement = true → Prints expr.bare
  | .branches alternatives _ =>
    (alternatives.mapNotes fun _ => ()).returnsStand = true →
      PrintsBranches (alternatives.mapNotes fun _ => ())
  | .functionName _ | .parameters _ _ | .names _ _ | .ending _ _ _ => True

/-- A part of an expression has no `return` without a value of its own, so it might as well be a
whole statement. -/
theorem returnsStand_statement {expr : Expr Unit} {rank : Nat}
    (stands : expr.returnsStand (.operand rank) = true) :
    expr.returnsStand .statement = true := by
  cases expr with
  | forLoop _ _ _ step _ _ _ => cases step <;> exact stands
  | returnWith value _ =>
    cases value with
    | none => rfl
    | some _ => exact stands
  | list _ _ => simpa [Expr.returnsStand] using stands
  | _ => exact stands

theorem allReturnsStand_iff {place : Place} {elements : List (Expr Unit)} :
    Expr.allReturnsStand place elements = true ↔
      ∀ element ∈ elements, element.returnsStand place = true := by
  induction elements with
  | nil => simp [Expr.allReturnsStand]
  | cons element elements ih => simp [Expr.allReturnsStand, ih]

theorem printable_operand {level : Level} {expr : Located}
    (printable : (Phrase.operand level expr).Printable)
    (stands : expr.bare.returnsStand .statement = true) : Prints expr.bare := by
  cases level <;> exact printable stands

theorem returnsStand_forLoop {counter : String} {start stop body : Expr Unit}
    {step : Option (Expr Unit)} {block : Bool} {place : Place}
    (stands : (Expr.forLoop counter start stop step body block ()).returnsStand place = true) :
    start.returnsStand (.operand Rank.connection) = true ∧
      stop.returnsStand (.operand Rank.connection) = true ∧
      (∀ expr ∈ step, expr.returnsStand (.operand Rank.connection) = true) ∧
      body.returnsStand (.body block) = true := by
  cases step with
  | none => simpa [Expr.returnsStand, and_assoc] using stands
  | some step => simpa [Expr.returnsStand, and_assoc] using stands

theorem Reads.exists_orElse {branches : Branches Span} {stop : Span} {before after : List Token}
    (reads : Reads (.branches branches stop) before after) :
    ∃ condition body block others, branches = .orElse condition body block others := by
  cases reads <;> exact ⟨_, _, _, _, rfl⟩

/-- Everything that can be read can be printed. -/
theorem Reads.printable {phrase : Phrase} {before after : List Token}
    (reads : Reads phrase before after) : phrase.Printable := by
  induction reads with
  | declaration _ assigned | assignment _ assigned =>
    intro stands
    exact prints_assign _ (assigned (returnsStand_statement stands))
  | connection _ _ _ connected => exact connected
  | chain _ _ start more => exact more (printable_operand start)
  | chainEnd _ => exact fun printable => printable
  | chainMore _ _ _ _ operand more =>
    intro printable
    apply more
    intro stands
    obtain ⟨leftStands, rightStands⟩ := Bool.and_eq_true_iff.mp stands
    exact prints_binary _ (printable (returnsStand_statement leftStands))
      (printable_operand operand (returnsStand_statement rightStands))
  | negation _ negated =>
    intro stands
    exact prints_unary .not (negated (returnsStand_statement stands))
  | comparison _ _ compared => exact compared
  | base _ _ start => exact start
  | power _ _ start raised =>
    intro stands
    obtain ⟨leftStands, rightStands⟩ := Bool.and_eq_true_iff.mp stands
    exact prints_binary .pow (start (returnsStand_statement leftStands))
      (raised (returnsStand_statement rightStands))
  | plus _ signed =>
    intro stands
    exact prints_unary .plus (signed (returnsStand_statement stands))
  | smallest => exact fun _ => prints_smallest
  | minus _ _ signed =>
    intro stands
    exact prints_unary .negate (signed (returnsStand_statement stands))
  | unsigned _ _ _ called => exact called
  | call _ _ start more => exact more start
  | callsEnd _ => exact fun printable => printable
  | @callsMore _ _ _ arguments _ _ _ _ _ _ passed more =>
    intro printable
    apply more
    intro stands
    obtain ⟨calleeStands, argumentsStand⟩ := Bool.and_eq_true_iff.mp stands
    rw [Expr.mapAllNotes_eq_map, allReturnsStand_iff] at argumentsStand
    apply prints_call (printable (returnsStand_statement calleeStands))
    intro expr member
    rw [Expr.mapAllNotes_eq_map] at member
    obtain ⟨argument, listed, rfl⟩ := List.mem_map.mp member
    exact passed argument listed (returnsStand_statement (argumentsStand _ member))
  | int small => exact fun _ => prints_int small
  | float => exact fun _ => prints_float _
  | str => exact fun _ => prints_str _
  | named _ continued => exact continued
  | «variable» _ => exact fun _ => prints_read _
  | member _ => exact fun _ => prints_member _ _
  | memberAssignment _ assigned =>
    intro stands
    exact prints_assignMember _ _ (assigned (returnsStand_statement stands))
  | parens _ inner => exact inner
  | list _ listed =>
    intro stands
    have elementsStand := allReturnsStand_iff.mp stands
    apply prints_list
    intro expr member
    rw [Expr.mapAllNotes_eq_map] at member elementsStand
    obtain ⟨element, inside, rfl⟩ := List.mem_map.mp member
    exact listed element inside (returnsStand_statement (elementsStand _ member))
  | choice _ chosen =>
    intro stands
    exact prints_choice (chosen stands)
  | @forLoop _ _ _ _ _ _ _ _ _ _ taken _ _ _ _ _ _ _ _ _ _ _ _ started stopped stepped repeated =>
    intro stands
    rw [bare_forLoop] at stands ⊢
    obtain ⟨startStands, stopStands, stepStands, bodyStands⟩ := returnsStand_forLoop stands
    apply prints_forLoop _ (started (returnsStand_statement startStands))
      (stopped (returnsStand_statement stopStands)) _ (repeated bodyStands)
    intro expr member
    obtain ⟨located, listed, rfl⟩ := Option.map_eq_some_iff.mp member
    exact stepped located listed (returnsStand_statement (stepStands _ member))
  | stepNone _ =>
    intro expr member
    cases member
  | stepSome _ stepped =>
    intro expr member
    cases member
    exact stepped
  | whileLoop _ _ _ conditional repeated =>
    intro stands
    obtain ⟨conditionStands, bodyStands⟩ := Bool.and_eq_true_iff.mp stands
    exact prints_whileLoop (conditional (returnsStand_statement conditionStands))
      (repeated bodyStands)
  | functionOf _ _ _ _ _ valued =>
    intro stands
    exact prints_function _ _ (fun _ => valued (returnsStand_statement stands)) (by simp)
  | functionBlock _ _ _ _ _ _ blocked =>
    intro stands
    exact prints_function _ _ (by simp) (fun _ => blocked stands)
  | template _ _ blocked =>
    intro stands
    exact prints_template _ (blocked stands)
  | instantiate => exact fun _ => prints_instantiate _
  | noElements =>
    intro element member
    cases member
  | elements _ _ listed => exact listed
  | lastItem _ _ item =>
    intro element member
    obtain rfl := List.mem_singleton.mp member
    exact item
  | moreItems _ _ item more =>
    intro element member
    rcases List.mem_cons.mp member with rfl | later
    · exact item
    · exact more element later
  | returnNone _ =>
    constructor
    · exact fun _ => prints_returnNone
    · intro stands
      cases stands
  | returnSome _ _ returned =>
    constructor
    · intro stands
      exact (prints_returnSome (returned (returnsStand_statement stands))).statement rfl
    · intro stands
      exact prints_returnSome (returned (returnsStand_statement stands))
  | continueLoop => exact ⟨fun _ => prints_continueLoop.statement rfl, fun _ => prints_continueLoop⟩
  | breakLoop => exact ⟨fun _ => prints_breakLoop.statement rfl, fun _ => prints_breakLoop⟩
  | statement _ _ plain =>
    exact ⟨fun stands => (plain stands).statement,
      fun stands => (plain (returnsStand_statement stands)).line⟩
  | noStatements _ =>
    intro element member
    cases member
  | lastStatement _ _ _ first =>
    intro element member
    obtain rfl := List.mem_singleton.mp member
    exact first.1
  | moreStatements _ _ _ _ first more =>
    intro element member
    rcases List.mem_cons.mp member with rfl | later
    · exact first.1
    · exact more element later
  | statements _ _ listed =>
    intro stands
    have elementsStand := allReturnsStand_iff.mp stands
    apply prints_block
    intro statement member
    rw [Expr.mapAllNotes_eq_map] at member elementsStand
    obtain ⟨element, inside, rfl⟩ := List.mem_map.mp member
    exact listed element inside (elementsStand _ member)
  | block _ _ blocked =>
    intro stands
    exact (blocked stands).body
  | single _ _ stated =>
    intro stands
    exact (stated.2 stands).body
  | elif _ _ reads conditional chosen more =>
    intro stands
    obtain ⟨nextCondition, nextBody, nextBlock, others, rfl⟩ := reads.exists_orElse
    obtain ⟨bothStand, restStands⟩ := Bool.and_eq_true_iff.mp stands
    obtain ⟨conditionStands, bodyStands⟩ := Bool.and_eq_true_iff.mp bothStand
    exact prints_elif (conditional (returnsStand_statement conditionStands)) (chosen bodyStands)
      (more restStands)
  | otherwise _ _ _ _ conditional chosen alternative _ =>
    intro stands
    obtain ⟨bothStand, restStands⟩ := Bool.and_eq_true_iff.mp stands
    obtain ⟨conditionStands, bodyStands⟩ := Bool.and_eq_true_iff.mp bothStand
    exact prints_otherwise (conditional (returnsStand_statement conditionStands))
      (chosen bodyStands) (alternative restStands)
  | lastBranch _ _ _ _ _ _ conditional chosen =>
    intro stands
    obtain ⟨bothStand, -⟩ := Bool.and_eq_true_iff.mp stands
    obtain ⟨conditionStands, bodyStands⟩ := Bool.and_eq_true_iff.mp bothStand
    exact prints_lastBranch (conditional (returnsStand_statement conditionStands))
      (chosen bodyStands)
  | noName _ _ | name | noParameters | parameters _ | lastName | moreNames _ | endOfBlock
  | endOfLine => trivial

/-! ## Programs -/

/-- Every token of a printed program that was read can be written. -/
theorem exists_rendering {source : Source} {tokens : List Token} {root : Located}
    (scanned : Token.scan source = .ok tokens) (parsed : parse tokens = .ok root) :
    ∃ text, Renders root.bare.programTokens text := by
  obtain ⟨span, rest, reads⟩ := parse_eq_ok_iff.mp parsed
  have fixed : Fixed fun kind => ∃ chars, Spells chars kind :=
    ⟨fun word => ⟨_, .keyword word⟩, fun sign => ⟨_, .mark sign⟩, ⟨_, .newline⟩⟩
  have spelled : AllTokens (fun kind => ∃ chars, Spells chars kind) tokens :=
    spells_of_scanFrom scanned
  obtain ⟨-, words⟩ := reads.all spelled
  apply exists_renders
  obtain ⟨elements, listSpan, -, rfl, -⟩ := reads.exists_list
  exact Expr.all_statementTokens fixed _ words

/-- Printing a program that was read, rendering it and reading the text gives the program again. It
can always be rendered, and every rendering will do. -/
theorem parse_print {source : Source} {tokens : List Token} {root : Located}
    (scanned : Token.scan source = .ok tokens) (parsed : parse tokens = .ok root)
    (stands : root.bare.returnsStand .block = true) :
    (∃ text, Renders root.bare.programTokens text) ∧
      ∀ text, Renders root.bare.programTokens text → ∀ (id : Nat) (name : String),
        ∃ (printed : List Token) (again : Located),
          Token.scan ⟨id, name, String.ofList text⟩ = .ok printed ∧
          parse printed = .ok again ∧ again.bare = root.bare := by
  constructor
  · exact exists_rendering scanned parsed
  · intro text renders id name
    obtain ⟨span, rest, reads⟩ := parse_eq_ok_iff.mp parsed
    obtain ⟨elements, listSpan, middle, rfl, listed⟩ := reads.exists_list
    have prints : ∀ statement ∈ Expr.mapAllNotes (fun _ => ()) elements,
        PrintsStatement statement := by
      intro statement member
      have statementStands := allReturnsStand_iff.mp stands statement member
      rw [Expr.mapAllNotes_eq_map] at member
      obtain ⟨element, inside, rfl⟩ := List.mem_map.mp member
      exact listed.printable element inside statementStands
    have scans := renders.scans
    rw [← @String.toList_ofList text] at scans
    obtain ⟨printed, printedScanned, same⟩ := scan_of_scans scans id name
    obtain ⟨front, last, rfl, frontSame, lastSame⟩ := of_kindsOf_append same
    obtain ⟨endSpan, ending, rfl, endingSame⟩ := of_kindsOf_cons lastSame
    obtain rfl := of_kindsOf_nil endingSame
    obtain ⟨again, bare, againReads⟩ := @reads_program _ prints front endSpan frontSame
    exact ⟨_, again, printedScanned, parse_eq_ok_iff.mpr ⟨endSpan, [], againReads⟩, bare⟩

theorem eq_ok_of_toOption {ε α : Type} {result : Except ε α} {value : α}
    (found : result.toOption = some value) : result = .ok value := by
  cases result with
  | error _ => cases found
  | ok _ => exact congrArg Except.ok (Option.some.inj found)

/-- The program with a difference behind another one, a constant with a sign below a power, and a
`return` in a block. -/
theorem parse_print_difference : ∃ tokens root,
    Token.scan
        ⟨0, "", "x = -9223372036854775808 ^ 2 - (1 - f(2))\nif not x < 1 then\nreturn\nend"⟩ =
        .ok tokens ∧
      parse tokens = .ok root ∧ root.bare.returnsStand .block = true ∧
      (∃ text, Renders root.bare.programTokens text) ∧
      ∀ text, Renders root.bare.programTokens text → ∀ (id : Nat) (name : String),
        ∃ printed again, Token.scan ⟨id, name, String.ofList text⟩ = .ok printed ∧
          parse printed = .ok again ∧ again.bare = root.bare := by
  have checked : ((Token.scan ⟨0, "",
      "x = -9223372036854775808 ^ 2 - (1 - f(2))\nif not x < 1 then\nreturn\nend"⟩).toOption.bind
        fun tokens => (parse tokens).toOption.map fun root => root.bare.returnsStand .block) =
      some true := by
    decide +kernel
  obtain ⟨tokens, scanned, parsing⟩ := Option.bind_eq_some_iff.mp checked
  obtain ⟨root, parsed, stands⟩ := Option.map_eq_some_iff.mp parsing
  have scanned := eq_ok_of_toOption scanned
  have parsed := eq_ok_of_toOption parsed
  exact ⟨tokens, root, scanned, parsed, stands, parse_print scanned parsed stands⟩

end Quill.Grammar
