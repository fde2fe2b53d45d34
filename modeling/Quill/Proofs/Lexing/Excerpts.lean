import Quill.Proofs.Lexing.Cutting
import Quill.Proofs.Source.Positions

/-!
# Excerpts of a text

Some tokens of a text, one behind the other, are the tokens of the text that they cover: from where
the first one starts to where the last one stops. A piece that is the longest one at its place is
still the longest one if less of the text is left.
-/

namespace Quill.Token

open Quill.Lexeme Quill.Text

variable {source : Source} {position : Position} {text rest : List Char}
variable {pieces before behind : List Piece}

/-! ## Pieces in a row -/

@[simp] theorem Piece.text_append (before behind : List Piece) :
    Piece.text (before ++ behind) = Piece.text before ++ Piece.text behind :=
  List.flatMap_append

/-- Where less follows, no other piece is longer than before. -/
theorem longest_of_shorter {chars less more : List Char} {reading : Reading}
    (longest : Longest (chars ++ more) chars reading) (shorter : less <+: more) :
    Longest (chars ++ less) chars reading where
  declared := longest.declared
  begins := List.prefix_append chars less
  covers other amount declared begins :=
    longest.covers other amount declared
      (begins.trans ((List.prefix_append_right_inj chars).mpr shorter))
  reserved := longest.reserved

/-- The text that is cut begins with the characters of the pieces. -/
theorem Cut.text_eq (cut : Cut text pieces rest) : Piece.text pieces ++ rest = text := by
  induction cut with
  | done => rfl
  | piece _ _ _ ih => rw [Piece.text_cons, List.append_assoc, ih]

/-- The last pieces are cut from what the first ones leave. -/
theorem Cut.of_append (cut : Cut text (before ++ behind) rest) :
    Cut (Piece.text behind ++ rest) behind rest := by
  induction before generalizing text with
  | nil =>
    rw [List.nil_append] at cut
    rw [cut.text_eq]
    exact cut
  | cons piece before ih =>
    cases cut with
    | piece longest fits more => exact ih more

/-- The first pieces are cut from the text that they cover alone. -/
theorem Cut.alone (cut : Cut text (before ++ behind) rest) : Cut (Piece.text before) before [] := by
  induction before generalizing text with
  | nil => exact .done
  | cons piece before ih =>
    cases cut with
    | piece longest fits more =>
      refine .piece (longest_of_shorter longest ?_) fits (ih more)
      have same := more.text_eq
      rw [List.append_eq, Piece.text_append, List.append_assoc] at same
      exact ⟨_, same⟩

/-- The tokens of the last pieces stand behind those of the first ones. -/
theorem Piece.tokens_append (before behind : List Piece) :
    Piece.tokens source position (before ++ behind) = Piece.tokens source position before ++
      Piece.tokens source (position.past (Piece.text before)) behind := by
  induction before generalizing position with
  | nil => rfl
  | cons piece before ih =>
    obtain ⟨chars, reading⟩ := piece
    cases reading <;> simp [Piece.tokens, ih, Position.past_append]

/-- What the tokens among the pieces are does not depend on where they stand. -/
theorem Piece.kinds_tokens (other : Source) (place : Position) (pieces : List Piece) :
    (Piece.tokens source position pieces).map (·.kind) =
      (Piece.tokens other place pieces).map (·.kind) := by
  induction pieces generalizing position place with
  | nil => rfl
  | cons piece pieces ih =>
    obtain ⟨chars, reading⟩ := piece
    cases reading with
    | token kind => exact congrArg (kind :: ·) (ih _)
    | _ => exact ih _

/-- Each token among the pieces is one of them. -/
theorem Piece.exists_token {front back : List Token} {token : Token}
    (split : Piece.tokens source position pieces = front ++ token :: back) :
    ∃ before chars behind, pieces = before ++ ⟨chars, .token token.kind⟩ :: behind ∧
      Piece.tokens source position before = front ∧
      token.span = ⟨source, position.past (Piece.text before),
        position.past (Piece.text before ++ chars)⟩ := by
  induction pieces generalizing position front with
  | nil => simp [Piece.tokens] at split
  | cons piece pieces ih =>
    obtain ⟨chars, reading⟩ := piece
    cases reading with
    | token kind =>
      cases front with
      | nil =>
        obtain ⟨rfl, -⟩ := List.cons.inj split
        exact ⟨[], chars, pieces, rfl, rfl, rfl⟩
      | cons first front =>
        obtain ⟨rfl, later⟩ := List.cons.inj split
        obtain ⟨before, inner, behind, rfl, rfl, place⟩ := ih later
        exact ⟨_ :: before, inner, behind, rfl, rfl, by simpa [Position.past_append] using place⟩
    | _ =>
      obtain ⟨before, inner, behind, rfl, rfl, place⟩ := ih split
      exact ⟨_ :: before, inner, behind, rfl, rfl, by simpa [Position.past_append] using place⟩

/-! ## Tokens in a row -/

/-- Tokens in a row are those of some pieces in a row, which cover the text from the start of the
first token to the stop of the last one. -/
theorem Piece.exists_row {front row back : List Token} {first last : Token}
    (split : Piece.tokens source .start pieces = front ++ (row ++ back))
    (begins : row.head? = some first) (ends : row.getLast? = some last) :
    ∃ before inside behind, pieces = before ++ (inside ++ behind) ∧
      row = Piece.tokens source (Position.start.past (Piece.text before)) inside ∧
      first.span.through last.span = ⟨source, Position.start.past (Piece.text before),
        Position.start.past (Piece.text before ++ Piece.text inside)⟩ := by
  obtain ⟨init, rfl⟩ := List.getLast?_eq_some_iff.mp ends
  rw [List.append_assoc, ← List.append_assoc, List.singleton_append] at split
  obtain ⟨upTo, chars, behind, rfl, upToLast, lastPlace⟩ := Piece.exists_token split
  have shape : Piece.tokens source (Position.start.past (Piece.text upTo))
      [⟨chars, .token last.kind⟩] = [last] := by
    rw [Piece.tokens, ← Position.past_append, ← lastPlace]
    rfl
  have whole : Piece.tokens source .start (upTo ++ [⟨chars, .token last.kind⟩]) =
      front ++ (init ++ [last]) := by
    rw [Piece.tokens_append, upToLast, List.append_assoc, shape]
  -- Up to the last token, the pieces begin with those that stand in front of the first one.
  obtain ⟨more, row⟩ := List.head?_eq_some_iff.mp begins
  rw [row] at whole
  obtain ⟨before, firstChars, inside, cut, outside, firstPlace⟩ := Piece.exists_token whole
  rw [cut, Piece.tokens_append, outside] at whole
  refine ⟨before, ⟨firstChars, .token first.kind⟩ :: inside, behind, ?_, ?_, ?_⟩
  · rw [← List.append_assoc, ← cut, List.append_assoc]
    rfl
  · rw [row]
    exact (List.append_cancel_left whole).symm
  · rw [← Piece.text_append, ← cut, firstPlace, Span.through, lastPlace, Piece.text_append]
    simp

/-- The characters from the end of some pieces to the end of others are those of the pieces
between. -/
theorem text_of_pieces (before inside behind : List Char)
    (whole : source.text.toList = before ++ (inside ++ behind)) :
    Span.text ⟨source, Position.start.past before, Position.start.past (before ++ inside)⟩ =
      String.ofList inside := by
  have found : slice? source.text.toList (byteLength before) (byteLength (before ++ inside)) =
      some inside :=
    slice?_eq_some_iff.mpr ⟨before, behind, whole.symm, rfl, rfl⟩
  rw [Span.text]
  simp only [Position.past_start, found]

/-- Tokens in a row that do not reach the end of the text are the tokens of the text that they
cover, in front of its end. -/
theorem scan_excerpt {other : Source} {front row back : List Token} {first last : Token}
    (scanned : scan source = .ok (front ++ (row ++ back)))
    (unended : ∀ token ∈ row, token.kind ≠ .endOfInput)
    (begins : row.head? = some first) (ends : row.getLast? = some last)
    (same : other.text = (first.span.through last.span).text) :
    ∃ tokens span, scan other = .ok (tokens ++ [⟨.endOfInput, span⟩]) ∧
      tokens.map (·.kind) = row.map (·.kind) := by
  obtain ⟨pieces, cut, split⟩ := ((scan_longest source).1 _).mp scanned
  -- The end of the text is not in the row, so it is the last token behind it.
  obtain rfl | ⟨back, final, rfl⟩ := List.eq_nil_or_concat back
  · have final := congrArg List.getLast? split
    rw [List.append_nil, List.getLast?_append, ends, List.getLast?_concat] at final
    obtain rfl := Option.some.inj final
    exact absurd rfl (unended _ (List.mem_of_getLast? ends))
  rw [List.concat_eq_append, ← List.append_assoc, ← List.append_assoc] at split
  obtain ⟨split, -⟩ := List.append_inj' split rfl
  rw [List.append_assoc] at split
  obtain ⟨before, inside, behind, rfl, rfl, place⟩ := Piece.exists_row split.symm begins ends
  have whole := cut.text_eq
  rw [List.append_nil, Piece.text_append, Piece.text_append] at whole
  rw [place, text_of_pieces _ _ _ whole.symm] at same
  have alone := cut.of_append.alone
  rw [← String.toList_ofList (l := Piece.text inside), ← same] at alone
  exact ⟨_, _, scanFrom_of_cut alone rfl (Nat.le_refl _), Piece.kinds_tokens _ _ _⟩

end Quill.Token
