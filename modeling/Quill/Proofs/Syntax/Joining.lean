import Quill.Eval.Script
import Quill.Proofs.Syntax.Prefixes
import Quill.Proofs.Syntax.Relocation

/-!
# Joining programs

Two programs with a line feed between them are one program, whose statements are those of the first
one and then those of the second one. A second text that is no program keeps the whole from being
one, for the same reason and at the same place in it.
-/

namespace Quill.Grammar

open Quill.Token Quill.Parser

/-- In front of the end of the input, no separator is skipped that would not be anyway. -/
theorem dropWhile_append_end (front : List Token) (span : Span) (back : List Token) :
    (front ++ ⟨.endOfInput, span⟩ :: back).dropWhile (·.kind.isSeparator) =
      front.dropWhile (·.kind.isSeparator) ++ ⟨.endOfInput, span⟩ :: back := by
  cases skipped : front.dropWhile (·.kind.isSeparator) with
  | nil => exact (dropWhile_append_of_nil skipped).trans rfl
  | cons token rest => exact dropWhile_append_of_cons skipped

/-- The first parser returns what the second one does, with more elements in front. -/
def Prepends (elements : List Located)
    (first second : Except SyntaxError (List Located × List Token)) : Prop :=
  first = (fun read => (elements ++ read.1, read.2)) <$> second

theorem Prepends.nil {read : Except SyntaxError (List Located × List Token)} :
    Prepends [] read read := by
  cases read <;> rfl

theorem Prepends.trans {elements others : List Located}
    {first second third : Except SyntaxError (List Located × List Token)}
    (front : Prepends elements first second) (back : Prepends others second third) :
    Prepends (elements ++ others) first third := by
  rw [Prepends, front, back]
  cases third with
  | error error => rfl
  | ok read => simp [Functor.map, Except.map]

variable {closing : Token.Kind → Bool} {elements : List Located} {front later : List Token}
  {separator : Token} {span : Span} {bound rounds : Nat}

/-- Behind a statement and a separator, the list goes on with the next round. -/
theorem statementList_cons {first : Located} {before middle : List Token}
    (opened : ahead (endsList closing) before = false)
    (reads : Reads (.statement first) before middle)
    (separated : ahead (·.isSeparator) middle = true) (within : before.length ≤ bound) :
    Prepends [first] (statementList (rulesUpTo bound) closing (rounds + 1) before)
      (statementList (rulesUpTo bound) closing rounds
        (middle.dropWhile (·.kind.isSeparator))) := by
  obtain ⟨token, rest, rfl⟩ := reads.exists_cons rfl
  have goesOn : endsList closing token.kind = false := opened
  rw [statementList, bind_eq (peek_cons token rest)]
  simp only [goesOn, Bool.false_eq_true, if_false]
  rw [bind_eq (reads.found bound within), bind_eq (separators_apply middle)]
  simp only [separated, if_true]
  cases listed : statementList (rulesUpTo bound) closing rounds
      (middle.dropWhile (·.kind.isSeparator)) with
  | error error => exact bind_error listed
  | ok read => exact bind_eq listed

/-- A program without statements consists of separators. -/
theorem skipped_nil_of_elements
    (reads : Reads (.statementList closing []) (front.dropWhile (·.kind.isSeparator) ++
      [⟨.endOfInput, span⟩]) [⟨.endOfInput, span⟩]) :
    front.dropWhile (·.kind.isSeparator) = [] := by
  generalize before : front.dropWhile (·.kind.isSeparator) ++ [⟨.endOfInput, span⟩] = tokens
    at reads
  cases reads
  simpa using before

/-- A list of statements that ends where the input does goes on behind a separator that takes the
place of the end, and does there what it would do on its own. -/
theorem statementList_append (separates : separator.kind.isSeparator = true)
    (reads : Reads (.statementList closing elements)
      (front.dropWhile (·.kind.isSeparator) ++ [⟨.endOfInput, span⟩]) [⟨.endOfInput, span⟩])
    (within : front.length + later.length + 1 ≤ bound)
    (enough : front.length + later.length + 1 ≤ rounds) :
    ∃ left, later.length ≤ left ∧ left ≤ rounds ∧
      Prepends elements
        (statementList (rulesUpTo bound) closing rounds
          ((front ++ separator :: later).dropWhile (·.kind.isSeparator)))
        (statementList (rulesUpTo bound) closing left (later.dropWhile (·.kind.isSeparator))) := by
  have skips : (separator :: later).dropWhile (·.kind.isSeparator) =
      later.dropWhile (·.kind.isSeparator) := by simp [separates]
  have resumes {phrase : Phrase} (opens : phrase.endsOpen = true) :
      Resumes phrase [⟨.endOfInput, span⟩] (separator :: later) := by
    obtain ⟨kind, place⟩ := separator
    cases kind <;> first | exact .inr ⟨opens, rfl, fun _ => rfl⟩ | cases separates
  induction elements generalizing front rounds with
  | nil =>
    refine ⟨rounds, by omega, Nat.le_refl _, ?_⟩
    rw [dropWhile_append_of_nil (skipped_nil_of_elements reads), skips]
    exact .nil
  | cons first elements ih =>
    generalize before : front.dropWhile (·.kind.isSeparator) ++ [⟨.endOfInput, span⟩] = tokens
      at reads
    have fewer := length_dropWhile_separators front
    obtain ⟨rounds, rfl⟩ := Nat.exists_eq_add_of_le' (show 1 ≤ rounds by omega)
    cases reads with
    | lastStatement opened stated noSeparator =>
      obtain ⟨taken, split, least, again⟩ := stated.isLocal
      obtain skipped := List.append_cancel_right (before.trans split)
      have filled := ne_nil_of_least least
      rw [dropWhile_append_of_ne_nil (skipped ▸ filled), skipped, ← skips]
      refine ⟨rounds, by omega, by omega,
        statementList_cons ?_ (again _ (resumes rfl)) separates ?_⟩
      · exact (ahead_append filled).trans (split ▸ opened)
      · simp only [skipped, List.length_append, List.length_cons] at fewer ⊢
        omega
    | @moreStatements _ _ _ _ middle _ opened stated separated more =>
      obtain ⟨taken, split, least, again⟩ := stated.isLocal
      obtain ⟨inner, shape, -, -⟩ := more.isLocal
      have filled := ne_nil_of_least least
      -- What is left behind the first statement is left in front of the end of the input, too.
      obtain ⟨left, rfl⟩ : ∃ left, middle = left ++ [⟨.endOfInput, span⟩] := by
        refine ⟨middle.takeWhile (·.kind.isSeparator) ++ inner, ?_⟩
        rw [List.append_assoc, ← shape, List.takeWhile_append_dropWhile]
      rw [dropWhile_append_end] at more
      rw [split, ← List.append_assoc] at before
      have skipped := List.append_cancel_right before
      have behind : left ≠ [] := by
        rintro rfl
        cases separated
      have shorter : left.length + 1 ≤ front.length := by
        simp only [skipped, List.length_append, Phrase.least] at fewer least
        omega
      obtain ⟨rest, covers, fits, prepends⟩ :=
        ih more (by omega) (show left.length + later.length + 1 ≤ rounds by omega)
      rw [dropWhile_append_of_ne_nil (by simp [skipped, filled]), skipped, List.append_assoc]
      refine ⟨rest, covers, by omega, .trans (statementList_cons ?_ (again _ ?_) ?_ ?_) prepends⟩
      · exact (ahead_append filled).trans (split ▸ opened)
      · exact .before_of_ne_nil behind _ _ _
      · exact (ahead_append behind).trans separated
      · simp only [skipped, List.length_append, List.length_cons] at fewer ⊢
        omega

/-! ## Programs -/

/-- The list of some statements, from the first one to the last. Without any, it has the given
span. -/
def spanned (elements : List Located) (otherwise : Span) : Located :=
  .list elements (spanOf elements otherwise)

/-- What a program is, given its statements and what stands behind them. -/
def finish (otherwise : Span) : List Located × List Token → Except SyntaxError Located
  | (_, []) => .error .ended
  | (elements, next :: _) =>
    if next.kind matches .endOfInput then
      .ok (spanned elements otherwise)
    else
      .error ⟨.trailing, next.span⟩

/-- It is what stands behind the statements that can be wrong with them. -/
theorem finish_error {otherwise again : Span} {others : List Located} {after : List Token}
    {error : SyntaxError} (failed : finish otherwise (elements, after) = .error error) :
    finish again (others, after) = .error error := by
  cases after with
  | nil => exact failed
  | cons next after =>
    unfold finish at failed ⊢
    dsimp only at failed ⊢
    split at failed
    · cases failed
    · exact failed

theorem parse_eq_finish {tokens rest : List Token} {token : Token}
    (skipped : tokens.dropWhile (·.kind.isSeparator) = token :: rest) :
    parse tokens =
      statementList (rulesUpTo tokens.length) (fun _ => false) tokens.length (token :: rest) >>=
        finish token.span := by
  have started : statements tokens.length (rulesUpTo tokens.length) (fun _ => false) tokens =
      (statementList (rulesUpTo tokens.length) (fun _ => false) tokens.length >>= fun elements =>
        pure (.list elements (spanOf elements token.span))) (token :: rest) := by
    rw [statements, bind_eq (separators_apply tokens), skipped, bind_eq (peek_cons token rest)]
  change Prod.fst <$> program tokens.length tokens = _
  cases listed : statementList (rulesUpTo tokens.length) (fun _ => false) tokens.length
      (token :: rest) with
  | error error =>
    rw [bind_error listed] at started
    rw [program, bind_error started]
    rfl
  | ok read =>
    obtain ⟨elements, after⟩ := read
    rw [bind_eq listed] at started
    rw [program, bind_eq started]
    cases after with
    | nil => rfl
    | cons next after =>
      obtain ⟨kind, span⟩ := next
      cases kind <;> rfl

/-- The span of a list that has elements does not depend on anything else. -/
theorem spanOf_congr {first second : Span} (same : elements = [] → first = second) :
    spanOf elements first = spanOf elements second := by
  cases elements with
  | nil => exact same rfl
  | cons head rest =>
    simp only [spanOf, List.head?_cons, List.getLast?_cons]

/-- Lists of statements end alike under all bounds: at the same token, or for the same reason. -/
theorem statementList_alike (closing : Token.Kind → Bool) (bound : Nat) {left rounds : Nat}
    (fits : left ≤ rounds) :
    Decides 0 bound left unseen (statementList (rulesUpTo bound) closing bound)
      (statementList (rulesUpTo rounds) closing left) :=
  decides_statementList closing fun rule =>
    (decides_rulesUpTo bound rounds rule).mono (Nat.le_refl _) (Nat.le_refl _) fits

theorem parse_of_skipped_nil {tokens : List Token}
    (skipped : tokens.dropWhile (·.kind.isSeparator) = []) : parse tokens = .error .ended := by
  have failed : statements tokens.length (rulesUpTo tokens.length) (fun _ => false) tokens =
      .error .ended := by
    rw [statements, bind_eq (separators_apply tokens), skipped]
    rfl
  change Prod.fst <$> program tokens.length tokens = _
  rw [program, bind_error failed]
  rfl

/-- Behind a program and a separator, the list of statements goes on with what the text there begins
with. If the program has no statements, the list begins with it. -/
theorem exists_prepended {note : Span} {next : Token} {rest : List Token} (unended : ends front = 0)
    (separates : separator.kind.isSeparator = true)
    (parsed : parse (front ++ [⟨.endOfInput, span⟩]) = .ok (.list elements note))
    (skipped : later.dropWhile (·.kind.isSeparator) = next :: rest)
    (whole : bound = (front ++ separator :: later).length) :
    ∃ left token tokens, later.length ≤ left ∧ left ≤ bound ∧
      (front ++ separator :: later).dropWhile (·.kind.isSeparator) = token :: tokens ∧
      (elements = [] → token = next) ∧
      Prepends elements
        (statementList (rulesUpTo bound) (fun _ => false) bound (token :: tokens))
        (statementList (rulesUpTo bound) (fun _ => false) left (next :: rest)) := by
  obtain ⟨last, after, reads⟩ := parse_eq_ok_iff.mp parsed
  obtain ⟨rfl, rfl, -⟩ := reads.up_to_end unended
  cases reads with
  | statements skippedFront listed =>
    rw [dropWhile_append_end] at skippedFront
    rw [← skippedFront] at listed
    have enough : front.length + later.length + 1 ≤ bound := by
      simp only [whole, List.length_append, List.length_cons]
      omega
    obtain ⟨left, covers, fits, prepends⟩ :=
      statementList_append separates listed enough enough
    rw [skipped] at prepends
    cases skippedNext : front.dropWhile (·.kind.isSeparator) with
    | nil =>
      have joined : (front ++ separator :: later).dropWhile (·.kind.isSeparator) =
          next :: rest := by
        rw [dropWhile_append_of_nil skippedNext, ← skipped]
        simp [separates]
      exact ⟨left, next, rest, covers, fits, joined, fun _ => rfl, joined ▸ prepends⟩
    | cons token tokens =>
      have joined : (front ++ separator :: later).dropWhile (·.kind.isSeparator) =
          token :: (tokens ++ separator :: later) := dropWhile_append_of_cons skippedNext
      refine ⟨left, token, _, covers, fits, joined, ?_, joined ▸ prepends⟩
      rintro rfl
      rw [skipped_nil_of_elements listed] at skippedNext
      cases skippedNext

/-- What follows a program and a separator is read as if it stood there on its own, and the list of
statements of the program goes on with it. -/
theorem parse_append_separator {note otherNote : Span} {others : List Located}
    (unended : ends front = 0) (separates : separator.kind.isSeparator = true)
    (parsed : parse (front ++ [⟨.endOfInput, span⟩]) = .ok (.list elements note))
    (otherParsed : parse later = .ok (.list others otherNote)) :
    parse (front ++ separator :: later) = .ok (spanned (elements ++ others) otherNote) := by
  obtain ⟨last, after, reads⟩ := parse_eq_ok_iff.mp otherParsed
  cases reads with
  | @statements _ _ next _ rest _ skipped listed =>
    obtain ⟨left, token, tokens, covers, fits, whole, same, prepends⟩ :=
      exists_prepended unended separates parsed skipped rfl
    have shorter := length_dropWhile_separators later
    rw [skipped] at shorter
    have found := listed.found (front ++ separator :: later).length left (by omega) (by omega)
    rw [Prepends, found] at prepends
    rw [parse_eq_finish whole, prepends]
    refine congrArg (fun span => Except.ok (Expr.list (elements ++ others) span))
      (spanOf_congr fun none => ?_)
    obtain ⟨noElements, rfl⟩ := List.append_eq_nil_iff.mp none
    rw [same noElements]
    rfl

/-- What is wrong behind a program and a separator is what would be wrong with it on its own. -/
theorem parse_append_separator_error {note : Span} {error : SyntaxError}
    (unended : ends front = 0) (separates : separator.kind.isSeparator = true)
    (parsed : parse (front ++ [⟨.endOfInput, span⟩]) = .ok (.list elements note))
    (failed : parse later = .error error) (located : error.cause ≠ .endOfTokens) :
    parse (front ++ separator :: later) = .error error := by
  cases skipped : later.dropWhile (·.kind.isSeparator) with
  | nil =>
    rw [parse_of_skipped_nil skipped] at failed
    cases failed
    exact absurd rfl located
  | cons next rest =>
    obtain ⟨left, token, tokens, covers, fits, whole, -, prepends⟩ :=
      exists_prepended unended separates parsed skipped rfl
    have shorter := length_dropWhile_separators later
    rw [skipped] at shorter
    have alike := statementList_alike (fun _ => false) later.length fits
    rw [parse_eq_finish skipped] at failed
    rw [parse_eq_finish whole]
    cases listed : statementList (rulesUpTo later.length) (fun _ => false) later.length
        (next :: rest) with
    | error found =>
      rw [listed] at failed
      cases failed
      obtain ended | ⟨-, taken, blamed, back, shape, place, again⟩ :=
        alike.error (next :: rest) shorter (by omega) listed
      · exact absurd (congrArg SyntaxError.cause ended) located
      · rw [Prepends, again taken blamed back shape rfl rfl, ← place] at prepends
        rw [prepends]
        rfl
    | ok read =>
      obtain ⟨others, after⟩ := read
      rw [listed] at failed
      cases after with
      | nil =>
        cases failed
        exact absurd rfl located
      | cons last after =>
        obtain ⟨taken, shape, -, again⟩ := alike.ok shorter listed
        obtain ⟨others', -, found⟩ := again taken last after rfl rfl (by rw [← shape]; omega)
        rw [Prepends, shape, found] at prepends
        have trailing : finish next.span (others, last :: after) = .error error := failed
        rw [prepends]
        exact finish_error trailing

/-! ## Programs at other places -/

/-- A program is the same program at another place. -/
theorem parse_map {tokens : List Token} {root : Located} (move : Relocation)
    (parsed : parse tokens = .ok root) :
    parse (tokens.map move.token) = .ok (move.expr root) := by
  obtain ⟨last, rest, reads⟩ := parse_eq_ok_iff.mp parsed
  exact parse_eq_ok (move.reads_phrase reads)

/-- What is no program is none at another place, for the same reason. -/
theorem parse_map_error {tokens : List Token} {error : SyntaxError} (move : Relocation)
    (failed : parse tokens = .error error) (located : error.cause ≠ .endOfTokens) :
    parse (tokens.map move.token) = .error ⟨error.cause, move.span error.span⟩ := by
  obtain rfl | ⟨-, index, rejects⟩ := exists_blamed failed
  · exact absurd rfl located
  obtain ⟨token, found, blamed⟩ := rejects tokens rfl
  have alike : kindsOf ((tokens.map move.token).take (index + 1)) =
      kindsOf (tokens.take (index + 1)) := by
    simp [kindsOf, ← List.map_take, Function.comp_def, Relocation.token]
  obtain ⟨moved, there, again⟩ := rejects _ alike
  rw [List.getElem?_map, found] at there
  cases there
  rw [failed] at blamed
  rw [again, Except.error.inj blamed]
  rfl

end Quill.Grammar

namespace Quill

open Quill.Grammar

/-- Moves what is wrong with a text. -/
def Relocation.error (move : Relocation) : Error → Error
  | .scanning error => .scanning (move.scanError error)
  | .parsing error => .parsing ⟨error.cause, move.span error.span⟩
  | .running failure => .running failure

namespace Eval

/-- What a text is read as: its tokens, put together. -/
theorem read_eq_ok {source : Source} {root : Located} :
    read source = .ok root ↔
      ∃ tokens, Token.scan source = .ok tokens ∧ parse tokens = .ok root := by
  unfold read
  cases Token.scan source with
  | error error => simp
  | ok tokens => cases parsed : parse tokens <;> simp [parsed]

/-- The error of a text that has tokens blames one of them. -/
theorem cause_ne_of_scan {source : Source} {tokens : List Token} {error : SyntaxError}
    (scanned : Token.scan source = .ok tokens) (failed : parse tokens = .error error) :
    error.cause ≠ .endOfTokens := by
  obtain ⟨front, span, rfl, unended⟩ := Token.exists_end_of_scanFrom scanned
  intro ended
  obtain rfl := eq_ended_of_cause failed ended
  exact not_ended_of_end (ends_eq_zero.mpr unended) failed

/-- The tokens of a program in front of other tokens that have been moved behind it. -/
theorem exists_front {first : Source} {tokens : List Token} {root : Located} (whole : Source)
    (scanned : Token.scan first = .ok tokens) (parsed : parse tokens = .ok root) :
    ∃ elements note front span otherNote, root = .list elements note ∧
      (tokens.map (Relocation.into whole).token).dropLast = front ∧ ends front = 0 ∧
      parse (front ++ [⟨.endOfInput, span⟩]) =
        .ok (.list (elements.map (Relocation.into whole).expr) otherNote) := by
  obtain ⟨front, span, rfl, unended⟩ := Token.exists_end_of_scanFrom scanned
  obtain ⟨last, rest, reads⟩ := parse_eq_ok_iff.mp parsed
  obtain ⟨elements, note, -, rfl, -⟩ := reads.exists_list
  have moved := parse_map (Relocation.into whole) parsed
  rw [List.map_append] at moved ⊢
  simp only [Relocation.expr, Expr.mapNotes, Expr.mapAllNotes_eq_map] at moved
  refine ⟨elements, note, _, _, _, rfl, List.dropLast_concat, ?_, moved⟩
  rw [ends_eq_zero]
  intro token listed
  obtain ⟨token, member, rfl⟩ := List.mem_map.mp listed
  exact unended token member

/-- A text, a line feed and another text are read as the statements of both, each where it stands
now. If the second text cannot be read, the whole cannot, for the same reason. -/
theorem read_join {first second whole : Source} {root : Located}
    (joined : whole.text = first.text ++ "\n" ++ second.text) (reading : read first = .ok root) :
    ∃ elements note, root = .list elements note ∧
      (∀ otherRoot, read second = .ok otherRoot →
        ∃ others otherNote, otherRoot = .list others otherNote ∧
          read whole = .ok (spanned (elements.map (Relocation.into whole).expr ++
            others.map (Relocation.behind first.text whole).expr)
            ((Relocation.behind first.text whole).span otherNote))) ∧
      ∀ error, read second = .error error →
        read whole = .error ((Relocation.behind first.text whole).error error) := by
  obtain ⟨tokens, scanned, parsed⟩ := read_eq_ok.mp reading
  obtain ⟨separatorSpan, rescanned⟩ := Token.scan_join joined scanned
  obtain ⟨elements, note, front, span, frontNote, rfl, moved, unended, frontParsed⟩ :=
    exists_front whole scanned parsed
  rw [moved] at rescanned
  refine ⟨elements, note, rfl, fun otherRoot otherReading => ?_, fun error failed => ?_⟩
  · obtain ⟨otherTokens, otherScanned, otherParsed⟩ := read_eq_ok.mp otherReading
    obtain ⟨last, rest, reads⟩ := parse_eq_ok_iff.mp otherParsed
    obtain ⟨others, otherNote, -, rfl, -⟩ := reads.exists_list
    have otherMoved := parse_map (Relocation.behind first.text whole) otherParsed
    simp only [Relocation.expr, Expr.mapNotes, Expr.mapAllNotes_eq_map] at otherMoved
    rw [otherScanned] at rescanned
    refine ⟨others, otherNote, rfl, read_eq_ok.mpr ⟨_, rescanned, ?_⟩⟩
    exact parse_append_separator unended rfl frontParsed otherMoved
  · unfold read at failed
    cases otherScanned : Token.scan second with
    | error scanError =>
      rw [otherScanned] at failed rescanned
      cases failed
      unfold read
      rw [rescanned]
      rfl
    | ok otherTokens =>
      rw [otherScanned] at failed rescanned
      cases otherParsed : parse otherTokens with
      | ok root => simp [otherParsed] at failed
      | error syntaxError =>
        simp only [otherParsed] at failed
        cases failed
        have located := cause_ne_of_scan otherScanned otherParsed
        have otherMoved :=
          parse_map_error (Relocation.behind first.text whole) otherParsed located
        have reparsed : parse (front ++ ⟨.newline, separatorSpan⟩ :: _) = _ :=
          parse_append_separator_error unended rfl frontParsed otherMoved located
        unfold read
        rw [rescanned]
        simp only [Relocation.scanned, Functor.map, Except.map, reparsed]
        rfl

/-- An alternative on a line of its own does not belong to the choice on the line before. -/
theorem read_join_else : ∃ root error,
    read ⟨0, "", "if x then 1 # one"⟩ = .ok root ∧ read ⟨1, "", "else 2"⟩ = .error error ∧
      read ⟨2, "", "if x then 1 # one\nelse 2"⟩ = .error
        ((Relocation.behind "if x then 1 # one" ⟨2, "", "if x then 1 # one\nelse 2"⟩).error
          error) := by
  have found : (read ⟨0, "", "if x then 1 # one"⟩).toOption.isSome = true := by decide +kernel
  have missing : (read ⟨1, "", "else 2"⟩).toOption.isSome = false := by decide +kernel
  cases reading : read ⟨0, "", "if x then 1 # one"⟩ with
  | error error => simp [reading, Except.toOption] at found
  | ok root =>
    cases failed : read ⟨1, "", "else 2"⟩ with
    | ok otherRoot => simp [failed, Except.toOption] at missing
    | error error =>
      obtain ⟨-, -, -, -, wrong⟩ := @read_join ⟨0, "", "if x then 1 # one"⟩ ⟨1, "", "else 2"⟩
        ⟨2, "", "if x then 1 # one\nelse 2"⟩ root (by decide) reading
      exact ⟨root, error, rfl, rfl, wrong error failed⟩

end Eval

end Quill
