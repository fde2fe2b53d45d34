import Quill.Proofs.Lexing.Excerpts

/-!
# Where the tokens of a text stand

The tokens of a text stand in it one behind the other. Each of them reaches from a place of the
text to another one, and so does what keeps a text from having tokens.
-/

namespace Quill.Token

open Quill.Position

/-- The tokens stand in the source one behind the other. -/
structure InOrder (source : Source) (tokens : List Token) : Prop where
  /-- They are tokens of this source. -/
  located : ∀ token ∈ tokens, token.span.source = source
  /-- Each one stops where it starts or behind. -/
  forward : ∀ token ∈ tokens, token.span.start.index ≤ token.span.stop.index
  /-- Each one starts where the ones in front of it have stopped, or behind. -/
  apart : tokens.Pairwise fun earlier later => earlier.span.stop.index ≤ later.span.start.index

variable {source : Source} {tokens before rest : List Token} {token : Token} {text : List Char}
variable {front : List Char}

theorem InOrder.suffix (ordered : InOrder source tokens) (within : before <:+ tokens) :
    InOrder source before where
  located token listed := ordered.located token (within.subset listed)
  forward token listed := ordered.forward token (within.subset listed)
  apart := ordered.apart.sublist within.sublist

/-- What follows a token starts behind it. -/
theorem InOrder.behind (ordered : InOrder source tokens) (within : token :: rest <:+ tokens)
    (later : Token) (listed : later ∈ rest) : token.span.stop.index ≤ later.span.start.index :=
  (List.pairwise_cons.mp (ordered.suffix within).apart).1 later listed

theorem InOrder.forward_of_suffix (ordered : InOrder source tokens)
    (within : token :: rest <:+ tokens) : token.span.start.index ≤ token.span.stop.index :=
  ordered.forward token (within.subset List.mem_cons_self)

/-! ## Tokens of a text -/

/-- The part of a text between two places is a span of it. -/
theorem accurateIn_past {before inside after : List Char}
    (whole : before ++ (inside ++ after) = source.text.toList) :
    Span.AccurateIn source ⟨source, start.past before, start.past (before ++ inside)⟩ where
  located := rfl
  start := whole ▸ accurate_past before (inside ++ after)
  stop := by
    rw [← whole, ← List.append_assoc]
    exact accurate_past (before ++ inside) after
  forward := by
    rw [past_append]
    exact index_le_past _ _

/-- Tokens that tile the rest of a text are parts of the text. -/
theorem Tiles.accurate (tiles : Tiles source front text tokens)
    (whole : front ++ text = source.text.toList) :
    ∀ token ∈ tokens, token.span.AccurateIn source := by
  induction tiles with
  | @last front gap filler =>
    intro token listed
    obtain rfl := List.mem_singleton.mp listed
    have empty : front ++ gap ++ ([] ++ []) = source.text.toList := by simpa using whole
    simpa using accurateIn_past empty
  | @token front gap chars behind kind tokens filler declared filled written later ih =>
    have joined : front ++ gap ++ (chars ++ behind) = source.text.toList := by simpa using whole
    intro token listed
    rcases List.mem_cons.mp listed with rfl | listed
    · exact accurateIn_past joined
    · exact ih (by simpa using joined) token listed

/-- The tokens that a scan has found tile the text. -/
theorem tiles_of_scan (scanned : scan source = .ok tokens) :
    Tiles source [] source.text.toList tokens := by
  obtain ⟨pieces, rest, cut, rfl | ⟨error, broken⟩⟩ := exists_cut source .start source.text.toList
  · have found : scan source = .ok _ := scanFrom_of_cut cut rfl (Nat.le_refl _)
    obtain rfl := Except.ok.inj (scanned.symm.trans found)
    exact tiles_of_cut cut rfl
  · cases scanned.symm.trans (scanFrom_of_broken cut broken (Nat.le_refl _))

theorem accurate_of_scan (scanned : scan source = .ok tokens) :
    ∀ token ∈ tokens, token.span.AccurateIn source :=
  (tiles_of_scan scanned).accurate rfl

theorem inOrder_of_scan (scanned : scan source = .ok tokens) : InOrder source tokens where
  located token listed := (accurate_of_scan scanned token listed).located
  forward token listed := (accurate_of_scan scanned token listed).forward
  apart := (tiles_of_scan scanned).pairwise

/-! ## What keeps a text from having tokens -/

/-- The place where a text cannot be cut any further is a part of the text. -/
theorem Broken.accurate {error : ScanError} (broken : Broken source (start.past front) text error)
    (whole : front ++ text = source.text.toList) : error.span.AccurateIn source := by
  cases broken with
  | @illegal c behind _ =>
    have place := accurateIn_past (show front ++ ([c] ++ behind) = _ from whole)
    rwa [past_append] at place
  | @tooLarge digits behind _ =>
    have place := accurateIn_past whole
    rwa [past_append] at place

theorem accurate_of_scan_error {error : ScanError} (failed : scan source = .error error) :
    error.span.AccurateIn source := by
  obtain ⟨pieces, rest, cut, rfl | ⟨other, broken⟩⟩ := exists_cut source .start source.text.toList
  · cases failed.symm.trans (scanFrom_of_cut cut rfl (Nat.le_refl _))
  · have found := scanFrom_of_broken cut broken (Nat.le_refl _)
    obtain rfl := Except.error.inj (failed.symm.trans found)
    exact broken.accurate cut.text_eq

end Quill.Token
