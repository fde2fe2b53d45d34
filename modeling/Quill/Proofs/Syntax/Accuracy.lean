import Quill.Proofs.Syntax.Joining
import Quill.Proofs.Syntax.Layout

/-!
# Places in programs and errors

Whatever points at a text points at a part of it, with the right lines and columns at both ends:
the tokens of the text, the nodes that they are put together to, and the errors if there are none.
-/

namespace Quill

open Quill.Text Quill.Token Quill.Grammar

variable {source : Source} {tokens : List Token}

/-- A node reaches from token to token, so its ends are as accurate as theirs. -/
theorem Expr.WellSpanned.accurate {node : Located} (spanned : node.WellSpanned source tokens)
    (accurate : ∀ token ∈ tokens, token.span.AccurateIn source) : node.note.AccurateIn source := by
  obtain ⟨first, firstListed, last, lastListed, same⟩ := spanned.bounded
  exact
    { located := spanned.located
      start := by rw [same]; exact (accurate first firstListed).start
      stop := by rw [same]; exact (accurate last lastListed).stop
      forward := spanned.forward }

namespace Grammar

/-- An error blames a token of a text, so it points where that one stands. -/
theorem accurate_of_parse_error {error : SyntaxError} (scanned : scan source = .ok tokens)
    (failed : parse tokens = .error error) : error.span.AccurateIn source := by
  obtain rfl | ⟨-, blames⟩ := blames_alike failed
  · exact absurd rfl (Eval.cause_ne_of_scan scanned failed)
  obtain ⟨index, token, found, place, -⟩ := blames []
  rw [place]
  exact accurate_of_scan scanned token (List.mem_of_getElem? found)

/-- The tokens of a text, the nodes of the program in it, and the errors of either step are at
places of the text: at both ends, the bytes, the line and the column all belong to one place between
two characters. From one such place, moving to an offset leads to another one, and in two steps to
the same one as in a single step. -/
theorem positions_accurate (source : Source) :
    (∀ tokens, scan source = .ok tokens →
      (∀ token ∈ tokens, token.span.AccurateIn source) ∧
      (∀ root, parse tokens = .ok root →
        ∀ node, root.Contains node → node.note.AccurateIn source) ∧
      ∀ error, parse tokens = .error error → error.span.AccurateIn source) ∧
    (∀ error, scan source = .error error → error.span.AccurateIn source) ∧
    (∀ (position : Position) (index : Nat), position.Accurate source.text.toList →
      IsBoundary source.text.toList index →
        (position.advanceTo source.text.toList index).Accurate source.text.toList ∧
          (position.advanceTo source.text.toList index).index = max position.index index) ∧
    ∀ (position : Position) (first second : Nat), first ≤ second →
      IsBoundary source.text.toList second →
        (position.advanceTo source.text.toList first).advanceTo source.text.toList second =
          position.advanceTo source.text.toList second := by
  refine ⟨fun tokens scanned => ⟨accurate_of_scan scanned, fun root parsed node contains => ?_,
    fun error => accurate_of_parse_error scanned⟩, fun error => accurate_of_scan_error,
    fun position index accurate boundary => accurate.advanceTo boundary,
    fun position first second ordered boundary => position.advanceTo_advanceTo boundary ordered⟩
  exact (wellSpanned_of_parse (inOrder_of_scan scanned) parsed contains).accurate
    (accurate_of_scan scanned)

/-- In the second line behind a character of two bytes, a program, an error of the grammar and an
error of the characters. -/
theorem positions_accurate_line :
    (∃ tokens root, scan ⟨0, "<line>", "x = \"é\"\n(x)"⟩ = .ok tokens ∧ parse tokens = .ok root ∧
      root.children.map (fun node => node.note.stop) = [⟨8, 1, 8⟩, ⟨11, 2, 3⟩] ∧
      (∀ token ∈ tokens, token.span.AccurateIn ⟨0, "<line>", "x = \"é\"\n(x)"⟩) ∧
      ∀ node, root.Contains node → node.note.AccurateIn ⟨0, "<line>", "x = \"é\"\n(x)"⟩) ∧
    (∃ tokens error, scan ⟨0, "<line>", "\"é\"\n(]"⟩ = .ok tokens ∧ parse tokens = .error error ∧
      error.span.AccurateIn ⟨0, "<line>", "\"é\"\n(]"⟩) ∧
    (∃ error, scan ⟨0, "<line>", "\"é\"\n $"⟩ = .error error ∧
      error.span.AccurateIn ⟨0, "<line>", "\"é\"\n $"⟩) ∧
    (Position.start.advanceTo "\"é\"\n".toList 5).Accurate "\"é\"\n".toList ∧
    (Position.start.advanceTo "\"é\"\n".toList 3).advanceTo "\"é\"\n".toList 5 =
      Position.start.advanceTo "\"é\"\n".toList 5 := by
  have checked : ((scan ⟨0, "<line>", "x = \"é\"\n(x)"⟩).toOption.bind fun tokens =>
      (parse tokens).toOption.map fun root => root.children.map fun node => node.note.stop) =
      some [⟨8, 1, 8⟩, ⟨11, 2, 3⟩] := by
    decide +kernel
  have rejected : ((scan ⟨0, "<line>", "\"é\"\n(]"⟩).toOption.map fun tokens =>
      (parse tokens).toOption.isSome) = some false := by
    decide +kernel
  have illegal : (scan ⟨0, "<line>", "\"é\"\n $"⟩).toOption.isSome = false := by
    decide +kernel
  have boundary : IsBoundary "\"é\"\n".toList 5 :=
    ⟨"\"é\"\n".toList, [], by decide +kernel, by decide +kernel⟩
  have moves := (positions_accurate ⟨0, "<line>", "\"é\"\n"⟩).2.2
  refine ⟨?_, ?_, ?_, (moves.1 .start 5 (Position.accurate_past [] _) boundary).1,
    moves.2 .start 3 5 (by decide) boundary⟩
  · obtain ⟨tokens, scanned, found⟩ := Option.bind_eq_some_iff.mp checked
    obtain ⟨root, parsed, places⟩ := Option.map_eq_some_iff.mp found
    have scanned := eq_ok_of_toOption scanned
    have parsed := eq_ok_of_toOption parsed
    have accurate := (positions_accurate _).1 tokens scanned
    exact ⟨tokens, root, scanned, parsed, places, accurate.1, accurate.2.1 root parsed⟩
  · obtain ⟨tokens, scanned, found⟩ := Option.map_eq_some_iff.mp rejected
    have scanned := eq_ok_of_toOption scanned
    cases failed : parse tokens with
    | ok root => simp [failed, Except.toOption] at found
    | error error =>
      have accurate := (positions_accurate _).1 tokens scanned
      exact ⟨tokens, error, scanned, failed, accurate.2.2 error failed⟩
  · cases failed : scan ⟨0, "<line>", "\"é\"\n $"⟩ with
    | ok tokens => simp [failed, Except.toOption] at illegal
    | error error => exact ⟨error, rfl, (positions_accurate _).2.1 error failed⟩

end Grammar

end Quill
