import Mathlib.Data.List.Basic
import Quill.Proofs.Lexing.Scanning

/-!
# Scanning at line feeds

No lexeme goes on behind a line feed that does not begin it, so a line feed between two texts keeps
the lexemes of the one apart from those of the other. What the tokens of a text are depends on its
place only insofar as their spans do.
-/

namespace Quill

/-- A way to move places into another source: further back by some bytes and some lines. -/
structure Relocation where
  /-- Where the places are moved to. -/
  source : Source
  /-- How many bytes stand in front of the moved text. -/
  bytes : Nat
  /-- How many lines end in front of the moved text. -/
  lines : Nat

namespace Relocation

/-- Moves a place. It stays in its column, as the moved text begins a line. -/
def place (move : Relocation) (position : Position) : Position :=
  ⟨position.index + move.bytes, position.line + move.lines, position.column⟩

/-- Moves both ends of a span. -/
def span (move : Relocation) (span : Span) : Span :=
  ⟨move.source, move.place span.start, move.place span.stop⟩

/-- Moves a token. -/
def token (move : Relocation) (token : Token) : Token :=
  ⟨token.kind, move.span token.span⟩

/-- Moves what is wrong with the characters of a text. -/
def scanError (move : Relocation) : ScanError → ScanError
  | .illegalCharacter character span => .illegalCharacter character (move.span span)
  | .integerTooLarge literal span => .integerTooLarge literal (move.span span)

/-- Moves the outcome of a scan. -/
def scanned (move : Relocation) : Except ScanError (List Token) → Except ScanError (List Token)
  | .ok tokens => .ok (tokens.map move.token)
  | .error error => .error (move.scanError error)

variable (move : Relocation)

theorem advance_place (position : Position) (c : Char) :
    (move.place position).advance c = move.place (position.advance c) := by
  unfold Position.advance place
  split <;> simp [Nat.add_right_comm]

theorem past_place (position : Position) (text : List Char) :
    (move.place position).past text = move.place (position.past text) := by
  induction text generalizing position with
  | nil => rfl
  | cons c text ih => rw [Position.past_cons, Position.past_cons, advance_place, ih]

theorem through_span (first last : Span) :
    (move.span first).through (move.span last) = move.span (first.through last) :=
  rfl

end Relocation

namespace Lexeme

open Quill.Text Quill.Token

variable {c : Char} {text rest : List Char}

/-! ## The lengths of lexemes -/

theorem length_of_body? {body : List Char} (found : Quoted.body? text = some body) :
    body.length + 1 ≤ text.length := by
  fun_induction Quoted.body? text generalizing body with
  | case2 =>
    cases found
    simp
  | case6 c text noLine ih | case7 c text noQuote noLine atEnd _ before ih =>
    obtain ⟨inner, read, rfl⟩ := Option.map_eq_some_iff.mp found
    have shorter := ih read
    simp only [List.length_cons]
    omega
  | _ => cases found

theorem length_takeWhile_le (p : Char → Bool) (text : List Char) :
    (text.takeWhile p).length ≤ text.length :=
  (List.takeWhile_prefix p).length_le

variable {lexeme : Lexeme}

theorem length_of_float? (found : float? text = some lexeme) :
    1 ≤ lexeme.length ∧ lexeme.length ≤ text.length := by
  unfold float? at found
  dsimp only at found
  split at found
  · rename_i fraction behind
    split at found
    · cases found
    · cases found
      have parts : text.takeWhile isDigit ++ text.dropWhile isDigit = text :=
        List.takeWhile_append_dropWhile
      have whole := congrArg List.length parts
      have shorter := length_takeWhile_le isDigit fraction
      simp only [behind, List.length_append, List.length_cons] at whole ⊢
      omega
  · cases found

theorem length_of_int? (found : int? text = some lexeme) :
    1 ≤ lexeme.length ∧ lexeme.length ≤ text.length := by
  unfold int? at found
  dsimp only at found
  split at found
  · cases found
  · rename_i filled
    cases found
    exact ⟨List.length_pos_iff.mpr (by simpa using filled), length_takeWhile_le _ _⟩

theorem length_of_str? (found : str? text = some lexeme) :
    1 ≤ lexeme.length ∧ lexeme.length ≤ text.length := by
  unfold str? at found
  split at found
  · obtain ⟨body, read, rfl⟩ := Option.map_eq_some_iff.mp found
    have shorter := length_of_body? read
    simp only [List.length_cons]
    omega
  · cases found

theorem length_of_name? (found : name? text = some lexeme) :
    1 ≤ lexeme.length ∧ lexeme.length ≤ text.length := by
  unfold name? at found
  split at found
  · cases found
  · rename_i first rest
    split at found
    · cases found
      have shorter := length_takeWhile_le isNamePart rest
      simp only [List.length_cons]
      omega
    · cases found

theorem length_of_comment? (found : comment? text = some lexeme) :
    1 ≤ lexeme.length ∧ lexeme.length ≤ text.length := by
  unfold comment? at found
  split at found
  · rename_i rest
    cases found
    have shorter := length_takeWhile_le (· ≠ '\n') rest
    simp only [List.length_cons]
    omega
  · cases found

theorem length_of_blanks? (found : blanks? text = some lexeme) :
    1 ≤ lexeme.length ∧ lexeme.length ≤ text.length := by
  unfold blanks? at found
  dsimp only at found
  split at found
  · cases found
  · rename_i filled
    cases found
    exact ⟨List.length_pos_iff.mpr (by simpa using filled), length_takeWhile_le _ _⟩

/-- Every match covers a character at least, and only characters that are there. -/
theorem length_of_candidates (listed : lexeme ∈ candidates text) :
    1 ≤ lexeme.length ∧ lexeme.length ≤ text.length := by
  rw [candidates_eq] at listed
  rcases List.mem_append.mp listed with fixed | other
  · obtain ⟨spelling, kind, known, begins, rfl⟩ := mem_fixedMatches.mp fixed
    exact ⟨List.length_pos_iff.mpr (spelling_ne_nil known), begins.length_le⟩
  simp only [List.mem_filterMap, List.mem_cons, List.not_mem_nil, or_false, id] at other
  obtain ⟨found, rfl | rfl | rfl | rfl | rfl | rfl, same⟩ := other
  · exact length_of_float? same
  · exact length_of_int? same
  · exact length_of_str? same
  · exact length_of_name? same
  · exact length_of_comment? same
  · exact length_of_blanks? same

/-- The longest match covers a character at least, and only characters that are there. -/
theorem length_of_longest? (found : longest? text = some lexeme) :
    1 ≤ lexeme.length ∧ lexeme.length ≤ text.length := by
  obtain ⟨earlier, later, split, -, -⟩ := candidates_of_longest? found
  exact length_of_candidates (split ▸ List.mem_append_right _ List.mem_cons_self)

/-! ## Lexemes in front of a line feed -/

theorem takeWhile_append_newline {p : Char → Bool} (stops : p '\n' = false) :
    (text ++ '\n' :: rest).takeWhile p = text.takeWhile p := by
  induction text with
  | nil => simp [stops]
  | cons c text ih => simp only [List.cons_append, List.takeWhile_cons, ih]

theorem dropWhile_append_newline {p : Char → Bool} (stops : p '\n' = false) :
    (text ++ '\n' :: rest).dropWhile p = text.dropWhile p ++ '\n' :: rest := by
  induction text with
  | nil => simp [stops]
  | cons c text ih =>
    simp only [List.cons_append, List.dropWhile_cons, ih]
    split <;> rfl

theorem body?_append_newline : Quoted.body? (text ++ '\n' :: rest) = Quoted.body? text := by
  fun_induction Quoted.body? text with
  | case6 c text noLine ih =>
    rw [List.cons_append, List.cons_append, Quoted.body?, ih]
    · exact noLine
  | case7 c text noQuote noLine atEnd onLine before ih =>
    have noSlash : c ≠ '\\' := by
      intro slash
      cases text with
      | nil => exact atEnd slash rfl
      | cons next text => exact before next text slash rfl
    rw [List.cons_append, Quoted.body?, ih]
    · exact noQuote
    · exact noLine
    · exact fun slash => absurd slash noSlash
    · exact fun _ slash => absurd slash noSlash
    · exact fun _ _ slash => absurd slash noSlash
  | _ => rfl

/-- No spelling goes on with a line feed. -/
theorem not_mem_tail_of_spelling {spelling : List Char} {kind : Kind}
    (listed : (spelling, kind) ∈ spellings) : '\n' ∉ spelling.tail := by
  have tails : spellings.all (fun entry => !entry.1.tail.contains '\n') = true := by decide
  simpa using List.all_eq_true.mp tails _ listed

theorem prefix_append_newline {spelling : List Char} {kind : Kind}
    (listed : (spelling, kind) ∈ spellings) :
    spelling <+: c :: text ++ '\n' :: rest ↔ spelling <+: c :: text := by
  refine ⟨fun begins => ?_, fun begins => begins.trans (List.prefix_append _ _)⟩
  rcases Nat.lt_or_ge (c :: text).length spelling.length with longer | shorter
  · obtain ⟨more, rfl⟩ := List.prefix_of_prefix_length_le (List.prefix_append _ _) begins
      (Nat.le_of_lt longer)
    have inside := not_mem_tail_of_spelling listed
    cases more with
    | nil => simp at longer
    | cons d more =>
      obtain ⟨rfl, -⟩ := List.cons_prefix_cons.mp ((List.prefix_append_right_inj _).mp begins)
      simp at inside
  · exact List.prefix_of_prefix_length_le begins (List.prefix_append _ _) shorter

theorem fixedMatches_append_newline :
    fixedMatches (c :: text ++ '\n' :: rest) = fixedMatches (c :: text) := by
  refine List.filterMap_congr fun entry listed => ?_
  obtain ⟨spelling, kind⟩ := entry
  have same : spelling.isPrefixOf (c :: text ++ '\n' :: rest) =
      spelling.isPrefixOf (c :: text) := by
    rw [Bool.eq_iff_iff, List.isPrefixOf_iff_prefix, List.isPrefixOf_iff_prefix]
    exact prefix_append_newline listed
  simp only [fixed?, same]

theorem float?_append_newline : float? (text ++ '\n' :: rest) = float? text := by
  have noDigit : isDigit '\n' = false := by decide
  rw [float?, float?, takeWhile_append_newline noDigit, dropWhile_append_newline noDigit]
  cases text.dropWhile isDigit with
  | nil => rfl
  | cons d fraction =>
    by_cases point : d = '.'
    · subst point
      simp only [List.cons_append, takeWhile_append_newline noDigit]
    · simp [point]

theorem str?_append_newline : str? (c :: text ++ '\n' :: rest) = str? (c :: text) := by
  by_cases quote : c = '"'
  · subst quote
    simp only [str?, List.cons_append, body?_append_newline]
  · rw [List.cons_append, str?_of_head _ quote, str?_of_head _ quote]

theorem comment?_append_newline : comment? (c :: text ++ '\n' :: rest) = comment? (c :: text) := by
  by_cases sign : c = '#'
  · subst sign
    have stops : decide ('\n' ≠ '\n') = false := by decide
    simp only [comment?, List.cons_append]
    rw [takeWhile_append_newline stops]
  · rw [List.cons_append, comment?_of_head _ sign, comment?_of_head _ sign]

/-- The lexeme at the head of a text does not depend on anything behind a line feed. -/
theorem longest?_append_newline : longest? (c :: text ++ '\n' :: rest) = longest? (c :: text) := by
  have whole : int? (c :: text ++ '\n' :: rest) = int? (c :: text) := by
    rw [int?, int?, takeWhile_append_newline (by decide)]
  have name : name? (c :: text ++ '\n' :: rest) = name? (c :: text) := by
    rw [List.cons_append, name?, name?, takeWhile_append_newline (by decide)]
  have blanks : blanks? (c :: text ++ '\n' :: rest) = blanks? (c :: text) := by
    rw [blanks?, blanks?, takeWhile_append_newline (by decide)]
  have same : candidates (c :: text ++ '\n' :: rest) = candidates (c :: text) := by
    rw [candidates_eq, candidates_eq, fixedMatches_append_newline, float?_append_newline, whole,
      str?_append_newline, name, comment?_append_newline, blanks]
  rw [longest?, longest?, same]

end Lexeme

namespace Token

open Quill.Lexeme

variable {source : Source} {bound other : Nat} {position : Position} {text rest : List Char}

/-! ## Scans -/

/-- A scan finds the same tokens and the same errors wherever the text stands, and whatever bound
it is given. -/
theorem scanFrom_place (move : Relocation) (enough : text.length ≤ bound)
    (otherEnough : text.length ≤ other) :
    scanFrom move.source other (move.place position) text =
      move.scanned (scanFrom source bound position text) := by
  induction bound generalizing other position text with
  | zero =>
    obtain rfl := List.length_eq_zero_iff.mp (Nat.le_zero.mp enough)
    cases other <;> rfl
  | succ bound ih =>
    cases text with
    | nil => cases other <;> rfl
    | cons c text =>
      simp only [List.length_cons] at enough otherEnough
      obtain ⟨other, rfl⟩ := Nat.exists_eq_add_of_le' (show 1 ≤ other by omega)
      rw [scanFrom, scanFrom]
      cases found : longest? (c :: text) with
      | none => simp [Relocation.scanned, Relocation.scanError, Relocation.span, move.advance_place]
      | some lexeme =>
        obtain ⟨length, reading⟩ := lexeme
        have within := length_of_longest? found
        have continued := @ih other (position.past ((c :: text).take length))
          ((c :: text).drop length) (by simp at within ⊢; omega) (by simp at within ⊢; omega)
        simp only [move.past_place]
        cases reading with
        | oversized => rfl
        | skipped => exact continued
        | token kind =>
          simp only
          rw [continued]
          cases scanFrom source bound (position.past ((c :: text).take length))
            ((c :: text).drop length) <;> rfl

/-- All bounds that allow for the text are alike. -/
theorem scanFrom_eq_of_le (enough : text.length ≤ bound) (otherEnough : text.length ≤ other) :
    scanFrom source bound position text = scanFrom source other position text := by
  let stay : Relocation := ⟨source, 0, 0⟩
  have moved (bound : Nat) (enough : text.length ≤ bound) :
      scanFrom source bound position text =
        stay.scanned (scanFrom source text.length position text) :=
    scanFrom_place stay (Nat.le_refl _) enough
  exact (moved bound enough).trans (moved other otherEnough).symm

/-- What the scan of a text makes of a line feed and another text behind it. -/
def joined (source : Source) (front : List Token) (stop : Position) (rest : List Char) :
    Except ScanError (List Token) :=
  (fun tokens => front ++ ⟨.newline, ⟨source, stop, stop.advance '\n'⟩⟩ :: tokens) <$>
    scanFrom source rest.length (stop.advance '\n') rest

theorem joined_cons (token : Token) (front : List Token) (stop : Position) :
    joined source (token :: front) stop rest =
      (token :: ·) <$> joined source front stop rest := by
  unfold joined
  cases scanFrom source rest.length (stop.advance '\n') rest <;> rfl

theorem scanFrom_newline (enough : rest.length + 1 ≤ bound) :
    scanFrom source bound position ('\n' :: rest) = joined source [] position rest := by
  obtain ⟨bound, rfl⟩ := Nat.exists_eq_add_of_le' (show 1 ≤ bound by omega)
  have found : longest? ('\n' :: rest) = some ⟨1, .token .newline⟩ :=
    longest?_spells .newline fun _ _ => rfl
  have long : rest.length ≤ bound := by omega
  rw [scanFrom, found, joined, scanFrom_eq_of_le (Nat.le_refl _) long]
  simp only [List.take_succ_cons, List.take_zero, List.drop_succ_cons, List.drop_zero,
    Position.past_cons, Position.past_nil]
  cases scanFrom source bound (position.advance '\n') rest <;> rfl

/-- The tokens of a text are found in front of a line feed, too. There, a line feed takes the place
of the end of the input, and the text behind it is scanned as it would be on its own. -/
theorem scanFrom_append_newline {tokens : List Token}
    (scanned : scanFrom source bound position text = .ok tokens) (enough : text.length ≤ bound)
    (otherEnough : text.length + rest.length + 1 ≤ other) :
    scanFrom source other position (text ++ '\n' :: rest) =
      joined source tokens.dropLast (position.past text) rest := by
  induction bound generalizing other position text tokens with
  | zero =>
    obtain rfl := List.length_eq_zero_iff.mp (Nat.le_zero.mp enough)
    cases scanned
    exact scanFrom_newline (by simpa using otherEnough)
  | succ bound ih =>
    cases text with
    | nil =>
      cases scanned
      exact scanFrom_newline (by simpa using otherEnough)
    | cons c text =>
      simp only [List.length_cons] at enough otherEnough
      obtain ⟨other, rfl⟩ := Nat.exists_eq_add_of_le' (show 1 ≤ other by omega)
      rw [scanFrom] at scanned
      rw [List.cons_append, scanFrom, ← List.cons_append, longest?_append_newline]
      cases found : longest? (c :: text) with
      | none => simp [found] at scanned
      | some lexeme =>
        obtain ⟨length, reading⟩ := lexeme
        obtain ⟨covers, within⟩ := length_of_longest? found
        have whole := position.past_append ((c :: text).take length) ((c :: text).drop length)
        rw [List.take_append_drop] at whole
        have shorter : ((c :: text).drop length).length ≤ text.length := by
          simp only [List.length_drop, List.length_cons] at covers ⊢
          omega
        simp only [List.take_append_of_le_length within, List.drop_append_of_le_length within,
          whole]
        cases reading with
        | oversized => simp [found] at scanned
        | skipped =>
          simp only [found] at scanned
          exact ih scanned (by omega) (by omega)
        | token kind =>
          simp only [found] at scanned
          cases continued : scanFrom source bound (position.past ((c :: text).take length))
              ((c :: text).drop length) with
          | error error =>
            rw [continued] at scanned
            cases scanned
          | ok later =>
            obtain ⟨front, last, shape, -⟩ := exists_end_of_scanFrom continued
            have filled : later ≠ [] := by simp [shape]
            rw [continued] at scanned
            cases scanned
            rw [List.dropLast_cons_of_ne_nil filled, joined_cons]
            simp only [ih continued (show _ ≤ bound by omega) (show _ ≤ other by omega)]
            rfl

end Token

/-! ## Sources -/

/-- The line feeds passed over are the lines. -/
theorem Position.line_past (position : Position) (text : List Char) :
    (position.past text).line = position.line + text.count '\n' := by
  induction text generalizing position with
  | nil => rfl
  | cons c text ih =>
    rw [past_cons, ih, List.count_cons]
    by_cases feed : c = '\n'
    · subst feed
      simp [advance]
      omega
    · simp [advance, feed]

namespace Relocation

/-- The way of places into another source where they keep their position. -/
def into (source : Source) : Relocation :=
  ⟨source, 0, 0⟩

/-- The way of places into another source where they stand behind a text and a line feed. -/
def behind (front : String) (source : Source) : Relocation :=
  ⟨source, Text.byteLength front.toList + 1, front.toList.count '\n' + 1⟩

theorem place_behind_start (front : String) (source : Source) :
    (behind front source).place .start = (Position.start.past front.toList).advance '\n' := by
  have index := Position.index_past .start front.toList
  have line := Position.line_past .start front.toList
  have feed : Char.utf8Size '\n' = 1 := rfl
  simp only [Position.start] at index line
  simp only [place, behind, Position.advance, Position.start, Position.mk.injEq, if_true, feed,
    index, line, and_true]
  omega

end Relocation

/-- The tokens of a text, a line feed and another text are those of the first text up to its end, a
line feed, and then those of the second text. -/
theorem Token.scan_join {first second whole : Source} {tokens : List Token}
    (joined : whole.text = first.text ++ "\n" ++ second.text) (scanned : scan first = .ok tokens) :
    ∃ span, scan whole =
      (fun later => (tokens.map (Relocation.into whole).token).dropLast ++
          ⟨.newline, span⟩ :: later) <$>
        (Relocation.behind first.text whole).scanned (scan second) := by
  have text : whole.text.toList = first.text.toList ++ '\n' :: second.text.toList := by
    simp [joined]
  have front : scanFrom whole first.text.toList.length .start first.text.toList =
      .ok (tokens.map (Relocation.into whole).token) := by
    have moved : _ = (Relocation.into whole).scanned (scan first) :=
      scanFrom_place (Relocation.into whole) (Nat.le_refl _) (Nat.le_refl _)
    rw [scanned] at moved
    exact moved
  have back : scanFrom whole second.text.toList.length
      ((Position.start.past first.text.toList).advance '\n') second.text.toList =
      (Relocation.behind first.text whole).scanned (scan second) := by
    rw [← Relocation.place_behind_start first.text whole]
    exact scanFrom_place (Relocation.behind first.text whole) (Nat.le_refl _) (Nat.le_refl _)
  let stop := Position.start.past first.text.toList
  refine ⟨⟨whole, stop, stop.advance '\n'⟩, ?_⟩
  rw [← back]
  unfold scan
  dsimp only
  rw [text]
  exact scanFrom_append_newline front (Nat.le_refl _) (by simp [Nat.add_assoc])

end Quill
