import Quill.Proofs.Lexing.Patterns

/-!
# Cutting a text into its longest pieces

A text is cut from left to right, always at the end of the longest text that a pattern covers. It
has tokens if this goes on to its end without a number that is too large. Otherwise the place where
it cannot go on is the place of the error, and no token is left.

The tokens of a text stand in it one behind the other. What lies between two of them is made of
blanks and comments, and the end of the text follows the last one.
-/

namespace Quill.Token

open Quill.Lexeme Quill.Text

/-- Characters of a text and what they amount to. -/
structure Piece where
  /-- The characters. -/
  chars : List Char
  /-- What they amount to. -/
  reading : Reading

namespace Piece

/-- The characters of the pieces, one behind the other. -/
def text (pieces : List Piece) : List Char :=
  pieces.flatMap Piece.chars

/-- The tokens among the pieces, of which the first one stands at the position. -/
def tokens (source : Source) (position : Position) : List Piece → List Token
  | [] => []
  | piece :: pieces =>
    let stop := position.past piece.chars
    match piece.reading with
    | .token kind => ⟨kind, ⟨source, position, stop⟩⟩ :: tokens source stop pieces
    | _ => tokens source stop pieces

@[simp] theorem text_nil : text [] = [] := rfl

@[simp] theorem text_cons (piece : Piece) (pieces : List Piece) :
    text (piece :: pieces) = piece.chars ++ text pieces := rfl

end Piece

/-- The pieces are cut from the head of the text one by one, each of them the longest one that a
pattern covers there, and the rest stands behind them. -/
inductive Cut : List Char → List Piece → List Char → Prop where
  /-- Nothing is cut. -/
  | done {rest : List Char} : Cut rest [] rest
  /-- A piece that is no number out of range, and more pieces behind it. -/
  | piece {chars behind rest : List Char} {reading : Reading} {pieces : List Piece}
      (longest : Longest (chars ++ behind) chars reading) (fits : reading ≠ .oversized)
      (more : Cut behind pieces rest) : Cut (chars ++ behind) (⟨chars, reading⟩ :: pieces) rest

/-- The text, which stands at the position, offers no piece to go on with. -/
inductive Broken (source : Source) (position : Position) : List Char → ScanError → Prop where
  /-- No pattern covers anything there. -/
  | illegal {c : Char} {behind : List Char}
      (uncovered : ∀ chars reading, Declared chars reading → ¬ chars <+: c :: behind) :
      Broken source position (c :: behind)
        (.illegalCharacter c ⟨source, position, position.advance c⟩)
  /-- What stands there is a number out of range. -/
  | tooLarge {digits behind : List Char} (longest : Longest (digits ++ behind) digits .oversized) :
      Broken source position (digits ++ behind)
        (.integerTooLarge (String.ofList digits) ⟨source, position, position.past digits⟩)

/-- The characters are blanks and comments, one behind the other. -/
inductive Filler : List Char → Prop where
  /-- No character at all. -/
  | none : Filler []
  /-- A run of blanks or a comment, and more of them. -/
  | more {part rest : List Char} (skipped : Declared part .skipped) (filler : Filler rest) :
      Filler (part ++ rest)

/-- The tokens tile the rest of a source behind its front: in front of each token stands nothing but
blanks and comments, and the last token is empty and marks the end. -/
inductive Tiles (source : Source) : List Char → List Char → List Token → Prop where
  /-- Blanks and comments, and the end. -/
  | last {front gap : List Char} (filler : Filler gap) :
      Tiles source front gap [⟨.endOfInput,
        ⟨source, Position.start.past (front ++ gap), Position.start.past (front ++ gap)⟩⟩]
  /-- Blanks and comments, a token that is not empty, and what follows it. -/
  | token {front gap chars behind : List Char} {kind : Kind} {tokens : List Token}
      (filler : Filler gap) (declared : Declared chars (.token kind)) (filled : chars ≠ [])
      (written : kind ≠ .endOfInput) (later : Tiles source (front ++ gap ++ chars) behind tokens) :
      Tiles source front (gap ++ chars ++ behind) (⟨kind, ⟨source,
        Position.start.past (front ++ gap), Position.start.past (front ++ gap ++ chars)⟩⟩ :: tokens)

variable {source : Source} {position : Position} {text rest front : List Char}
variable {pieces : List Piece} {tokens : List Token} {bound : Nat}

/-! ## From a cut to the scan -/

/-- What the scan does with the longest piece at the head of a text. -/
theorem scanFrom_longest {chars behind : List Char} {reading : Reading} :
    Longest (chars ++ behind) chars reading →
    scanFrom source (bound + 1) position (chars ++ behind) =
      match reading with
      | .oversized => .error (.integerTooLarge (String.ofList chars)
          ⟨source, position, position.past chars⟩)
      | .skipped => scanFrom source bound (position.past chars) behind
      | .token kind => (scanFrom source bound (position.past chars) behind).map
          (⟨kind, ⟨source, position, position.past chars⟩⟩ :: ·) := by
  intro longest
  have found := longest?_of_longest longest
  have covers := (length_of_longest? found).1
  obtain ⟨first, more, rfl⟩ := List.exists_cons_of_length_pos covers
  rw [List.cons_append] at found ⊢
  rw [scanFrom, found]
  simp only [← List.cons_append, List.take_left', List.drop_left']
  cases reading <;> rfl

/-- A piece covers a character, so the text behind it has a smaller bound. -/
theorem exists_bound {chars behind : List Char} {reading : Reading}
    (longest : Longest (chars ++ behind) chars reading)
    (enough : (chars ++ behind).length ≤ bound) :
    ∃ less, bound = less + 1 ∧ behind.length ≤ less := by
  have covers : 1 ≤ chars.length := (length_of_longest? (longest?_of_longest longest)).1
  rw [List.length_append] at enough
  exact ⟨bound - 1, by omega, by omega⟩

/-- A text that is cut up to its end has the tokens among its pieces. -/
theorem scanFrom_of_cut (cut : Cut text pieces rest) (whole : rest = [])
    (enough : text.length ≤ bound) :
    scanFrom source bound position text = .ok (Piece.tokens source position pieces ++
      [⟨.endOfInput, ⟨source, position.past text, position.past text⟩⟩]) := by
  induction cut generalizing bound position with
  | done =>
    subst whole
    cases bound <;> rfl
  | @piece chars behind rest reading pieces longest fits more ih =>
    obtain ⟨less, rfl, within⟩ := exists_bound longest enough
    rw [scanFrom_longest longest, position.past_append]
    have continued := @ih (position.past chars) less whole within
    cases reading with
    | oversized => exact absurd rfl fits
    | skipped => exact continued
    | token kind =>
      dsimp only
      rw [continued]
      rfl

/-- A text that is cut up to a place where nothing goes on has no tokens, but an error there. -/
theorem scanFrom_of_broken {error : ScanError} (cut : Cut text pieces rest)
    (broken : Broken source (position.past (Piece.text pieces)) rest error)
    (enough : text.length ≤ bound) : scanFrom source bound position text = .error error := by
  induction cut generalizing bound position with
  | done =>
    cases broken with
    | @illegal c behind uncovered =>
      obtain ⟨less, rfl⟩ := Nat.exists_eq_add_of_le' (show 1 ≤ bound by
        simp only [List.length_cons] at enough
        omega)
      rw [scanFrom, longest?_eq_none_iff.mpr uncovered]
      rfl
    | tooLarge longest =>
      obtain ⟨less, rfl, -⟩ := exists_bound longest enough
      exact scanFrom_longest longest
  | @piece chars behind rest reading pieces longest fits more ih =>
    obtain ⟨less, rfl, within⟩ := exists_bound longest enough
    rw [scanFrom_longest longest]
    rw [Piece.text_cons, position.past_append] at broken
    have continued := ih broken within
    cases reading with
    | oversized => exact absurd rfl fits
    | skipped => exact continued
    | token kind =>
      dsimp only
      rw [continued]
      rfl

/-- Every text is cut up to its end or up to a place where nothing goes on. -/
theorem exists_cut (source : Source) (position : Position) (text : List Char) :
    ∃ pieces rest, Cut text pieces rest ∧
      (rest = [] ∨ ∃ error, Broken source (position.past (Piece.text pieces)) rest error) := by
  induction size : text.length using Nat.strongRecOn generalizing text position with
  | ind count ih =>
    cases found : longest? text with
    | none =>
      refine ⟨[], text, .done, ?_⟩
      cases text with
      | nil => exact .inl rfl
      | cons c behind => exact .inr ⟨_, .illegal (longest?_eq_none_iff.mp found)⟩
    | some lexeme =>
      obtain ⟨covers, within⟩ := length_of_longest? found
      have longest := longest_of_longest? found
      have split := List.take_append_drop lexeme.length text
      have shorter : (text.drop lexeme.length).length < count := by
        rw [List.length_drop]
        omega
      generalize text.take lexeme.length = chars at longest split
      generalize text.drop lexeme.length = behind at split shorter
      subst split
      by_cases fits : lexeme.reading = .oversized
      · rw [fits] at longest
        exact ⟨[], _, .done, .inr ⟨_, .tooLarge longest⟩⟩
      · obtain ⟨pieces, rest, cut, ends⟩ := ih _ shorter (position.past chars) behind rfl
        refine ⟨⟨chars, lexeme.reading⟩ :: pieces, rest, .piece longest fits cut, ?_⟩
        rw [Piece.text_cons, position.past_append]
        exact ends

/-! ## Tiling -/

theorem declared_ne_nil {chars : List Char} {reading : Reading}
    (declared : Declared chars reading) : chars ≠ [] := by
  rintro rfl
  obtain ⟨lexeme, listed, -⟩ := exists_candidate declared []
  have empty := length_of_candidates listed
  simp only [List.append_nil, List.length_nil] at empty
  omega

/-- No pattern covers the end of a text. -/
theorem declared_ne_endOfInput {chars : List Char} {kind : Kind}
    (declared : Declared chars (.token kind)) : kind ≠ .endOfInput := by
  cases declared with
  | fixed listed =>
    obtain ⟨chars, spells⟩ := spells_of_spelling listed
    exact ne_endOfInput_of_spells spells
  | _ => simp

/-- More blanks, or one more comment, in front of the first token. -/
theorem Tiles.skip {part : List Char} (skipped : Declared part .skipped)
    (tiles : Tiles source (front ++ part) text tokens) :
    Tiles source front (part ++ text) tokens := by
  cases tiles with
  | last filler =>
    rw [List.append_assoc]
    exact .last (.more skipped filler)
  | @token _ gap chars behind kind tokens filler declared filled written later =>
    rw [List.append_assoc front] at later ⊢
    rw [← List.append_assoc part, ← List.append_assoc part]
    exact .token (.more skipped filler) declared filled written later

/-- The tokens among the pieces that a text is cut into tile it. -/
theorem tiles_of_cut (cut : Cut text pieces rest) (whole : rest = []) :
    Tiles source front text (Piece.tokens source (Position.start.past front) pieces ++
      [⟨.endOfInput, ⟨source, Position.start.past (front ++ text),
        Position.start.past (front ++ text)⟩⟩]) := by
  induction cut generalizing front with
  | done =>
    subst whole
    exact .last .none
  | @piece chars behind rest reading pieces longest fits more ih =>
    have continued := @ih (front ++ chars) whole
    rw [Position.past_append, List.append_assoc] at continued
    have declared := longest.declared
    cases reading with
    | oversized => exact absurd rfl fits
    | skipped => exact continued.skip declared
    | token kind =>
      have placed := @Tiles.token source front [] chars behind kind _ .none declared
        (declared_ne_nil declared) (declared_ne_endOfInput declared) (by rwa [List.append_nil])
      rw [List.append_nil, List.nil_append, Position.past_append] at placed
      exact placed

theorem index_le_past (position : Position) (passed : List Char) :
    position.index ≤ (position.past passed).index := by
  rw [Position.index_past]
  exact Nat.le_add_right _ _

/-- No token that tiles the rest of a source begins in its front. -/
theorem Tiles.behind (tiles : Tiles source front text tokens) :
    ∀ token ∈ tokens, (Position.start.past front).index ≤ token.span.start.index := by
  induction tiles with
  | last filler =>
    intro token listed
    obtain rfl := List.mem_singleton.mp listed
    rw [Position.past_append]
    exact index_le_past _ _
  | token filler declared filled written later ih =>
    intro token listed
    rcases List.mem_cons.mp listed with rfl | listed
    · rw [Position.past_append]
      exact index_le_past _ _
    · refine Nat.le_trans ?_ (ih token listed)
      rw [Position.past_append, Position.past_append]
      exact Nat.le_trans (index_le_past _ _) (index_le_past _ _)

/-- Tokens that tile a text do not overlap, and stand in the order of the text. -/
theorem Tiles.pairwise (tiles : Tiles source front text tokens) :
    tokens.Pairwise fun earlier later => earlier.span.stop.index ≤ later.span.start.index := by
  induction tiles with
  | last filler => exact List.pairwise_singleton _ _
  | token filler declared filled written later ih =>
    exact List.pairwise_cons.mpr ⟨fun token listed => later.behind token listed, ih⟩

/-- A text has tokens if and only if it is cut up to its end, and then its tokens are those among
its pieces and one for the end. It has an error if and only if it is cut up to a place where nothing
goes on, and then the error is the one of that place. The tokens of a text tile it, and each one
ends before the next one begins. -/
theorem scan_longest (source : Source) :
    (∀ tokens, scan source = .ok tokens ↔
      ∃ pieces, Cut source.text.toList pieces [] ∧
        tokens = Piece.tokens source .start pieces ++ [⟨.endOfInput, ⟨source,
          Position.start.past source.text.toList, Position.start.past source.text.toList⟩⟩]) ∧
    (∀ error, scan source = .error error ↔
      ∃ pieces rest, Cut source.text.toList pieces rest ∧
        Broken source (Position.start.past (Piece.text pieces)) rest error) ∧
    (∀ tokens, scan source = .ok tokens →
      Tiles source [] source.text.toList tokens ∧
        tokens.Pairwise fun earlier later =>
          earlier.span.stop.index ≤ later.span.start.index) := by
  have scanned {pieces : List Piece} (cut : Cut source.text.toList pieces []) :
      scan source = .ok _ :=
    scanFrom_of_cut cut rfl (Nat.le_refl _)
  have failed {pieces : List Piece} {rest : List Char} {error : ScanError}
      (cut : Cut source.text.toList pieces rest)
      (broken : Broken source (Position.start.past (Piece.text pieces)) rest error) :=
    scanFrom_of_broken cut broken (Nat.le_refl _)
  have found (tokens : List Token) (read : scan source = .ok tokens) :
      ∃ pieces, Cut source.text.toList pieces [] ∧
        tokens = Piece.tokens source .start pieces ++ [⟨.endOfInput, ⟨source,
          Position.start.past source.text.toList, Position.start.past source.text.toList⟩⟩] := by
    obtain ⟨pieces, rest, cut, rfl | ⟨error, broken⟩⟩ :=
      exists_cut source .start source.text.toList
    · exact ⟨pieces, cut, Except.ok.inj (read.symm.trans (scanned cut))⟩
    · cases read.symm.trans (failed cut broken)
  refine ⟨fun tokens => ⟨found tokens, ?_⟩, fun error => ⟨fun read => ?_, ?_⟩,
    fun tokens read => ?_⟩
  · rintro ⟨pieces, cut, rfl⟩
    exact scanned cut
  · obtain ⟨pieces, rest, cut, rfl | ⟨other, broken⟩⟩ :=
      exists_cut source .start source.text.toList
    · cases read.symm.trans (scanned cut)
    · obtain rfl := Except.error.inj (read.symm.trans (failed cut broken))
      exact ⟨pieces, rest, cut, broken⟩
  · rintro ⟨pieces, rest, cut, broken⟩
    exact failed cut broken
  · obtain ⟨pieces, cut, rfl⟩ := found tokens read
    have tiles : Tiles source [] source.text.toList _ := tiles_of_cut cut rfl
    exact ⟨tiles, tiles.pairwise⟩

/-- In a line with a comment the arrow is one token, and the comment lies in front of the end. -/
theorem scan_longest_arrow :
    ∃ tokens, scan ⟨0, "<line>", "x->7 # y"⟩ = .ok tokens ∧
      tokens.map (fun token => (token.kind, token.span.start.index, token.span.stop.index)) =
        [(.identifier "x", 0, 1), (.mark .arrow, 1, 3), (.int 7, 3, 4), (.endOfInput, 8, 8)] ∧
      Tiles ⟨0, "<line>", "x->7 # y"⟩ [] "x->7 # y".toList tokens ∧
      tokens.Pairwise fun earlier later => earlier.span.stop.index ≤ later.span.start.index :=
  ⟨_, rfl, rfl, (scan_longest ⟨0, "<line>", "x->7 # y"⟩).2.2 _ rfl⟩

end Quill.Token
