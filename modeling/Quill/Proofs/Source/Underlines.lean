import Quill.Proofs.Source.Lines

/-!
# What the carets stand under

A span that is shown covers some characters of its text. The lines that are shown begin with the one
that the span starts in, and the carets under a line stand under those of its characters that the
span covers. Where the span covers nothing of a line but its end, there is one caret to the right of
the line.

The last line is an exception if the span stops in its first column. The span has none of its
characters, but the line is shown as well, and a caret stands in the first column under it.
-/

namespace Quill

open Text

namespace Span

/-- The span has the character of the text that stands in the line and in the column. A line feed
stands behind the other characters of its line. -/
def Covers (span : Span) (line column : Nat) : Prop :=
  ∃ place : Position, place.Accurate span.source.text.toList ∧ place.line = line ∧
    place.column = column ∧ span.start.index ≤ place.index ∧ place.index < span.stop.index

/-- The carets tell which characters of a shown line are in the span. -/
structure Marks (span : Span) (number : Nat) (line carets : List Char) : Prop where
  /-- Apart from the carets, there are blanks only. -/
  signs : ∀ c ∈ carets, c = ' ' ∨ c = '^'
  /-- A character has a caret under it if and only if the span has the character. -/
  under : ∀ offset < line.length, (carets[offset]? = some '^' ↔ span.Covers number (offset + 1))
  /-- If the span has none of the characters, there is a single caret to their right. -/
  ending : (∀ offset < line.length, ¬ span.Covers number (offset + 1)) →
    ∃ blanks, line.length ≤ blanks ∧ carets = List.replicate blanks ' ' ++ ['^']

/-- Lines, each of them followed by its carets. -/
def rendered (rows : List (List Char × List Char)) : List String :=
  rows.flatMap fun row => [String.ofList row.1, String.ofList row.2]

/-- The rows are the lines that the span has characters of, one behind the other, with carets that
mark these characters. -/
structure Shows (span : Span) (rows : List (List Char × List Char)) : Prop where
  /-- The span has characters of these lines and of no other ones. -/
  covered : ∀ number, (∃ column, span.Covers number column) ↔
    span.start.line ≤ number ∧ number < span.start.line + rows.length
  /-- They are lines of the text, and their characters are marked. -/
  marked : ∀ offset line carets, rows[offset]? = some (line, carets) →
    span.source.lines[span.start.line - 1 + offset]? = some line ∧
      span.Marks (span.start.line + offset) line carets

variable {span : Span} {line column number : Nat} {shown : List Char}

/-! ## Covered characters -/

/-- The characters of the span are those that stand between its ends. -/
theorem covers_iff (accurate : span.AccurateIn span.source) : span.Covers line column ↔
    (1 ≤ line ∧ ∃ row, (span.source.text.toList.splitOn '\n')[line - 1]? = some row ∧
      1 ≤ column ∧ column ≤ row.length + 1) ∧
    (span.start.line < line ∨ span.start.line = line ∧ span.start.column ≤ column) ∧
    (line < span.stop.line ∨ line = span.stop.line ∧ column < span.stop.column) := by
  rw [← Position.exists_place_iff]
  constructor
  · rintro ⟨place, there, rfl, rfl, from', upTo⟩
    have first := mt (there.index_lt_iff accurate.start).mpr (by omega)
    have last := (there.index_lt_iff accurate.stop).mp upTo
    unfold Position.Precedes at first last
    exact ⟨⟨place, there, rfl, rfl⟩, by omega, by omega⟩
  · rintro ⟨⟨place, there, rfl, rfl⟩, first, last⟩
    have upTo := (there.index_lt_iff accurate.stop).mpr last
    have from' := mt (there.index_lt_iff accurate.start).mp
      (by unfold Position.Precedes; omega)
    exact ⟨place, there, rfl, rfl, by omega, upTo⟩

/-- The places at both ends of a span that is not empty. -/
structure Ends (span : Span) : Prop where
  /-- They are places of the text. -/
  accurate : span.AccurateIn span.source
  /-- The lines are counted from one. -/
  line : 1 ≤ span.start.line
  /-- So are the columns. -/
  column : 1 ≤ span.start.column
  /-- The span has the character where it starts. -/
  first : span.Covers span.start.line span.start.column
  /-- It stops in a line and in one of its columns. -/
  last : ∃ row, (span.source.text.toList.splitOn '\n')[span.stop.line - 1]? = some row ∧
    1 ≤ span.stop.column ∧ span.stop.column ≤ row.length + 1
  /-- It stops behind its start. -/
  ordered : span.start.line < span.stop.line ∨
    span.start.line = span.stop.line ∧ span.start.column < span.stop.column

theorem AccurateIn.ends (accurate : span.AccurateIn span.source)
    (filled : span.start.index < span.stop.index) : span.Ends := by
  obtain ⟨line, row, -, column, -⟩ :=
    Position.exists_place_iff.mp ⟨_, accurate.start, rfl, rfl⟩
  exact
    { accurate := accurate
      line := line
      column := column
      first := ⟨_, accurate.start, rfl, rfl, Nat.le_refl _, filled⟩
      last := (Position.exists_place_iff.mp ⟨_, accurate.stop, rfl, rfl⟩).2
      ordered := (accurate.start.index_lt_iff accurate.stop).mp filled }

/-! ## The carets of a line -/

theorem toList_pushn (text : String) (c : Char) (count : Nat) :
    (text.pushn c count).toList = text.toList ++ List.replicate count c := by
  rw [String.pushn_eq_repeat_push]
  induction count with
  | zero => simp [Nat.repeat]
  | succ count ih => simp [Nat.repeat, ih, List.replicate_succ']

/-- The column of a line that its carets start in. -/
def firstColumn (span : Span) (number : Nat) : Nat :=
  if number = span.start.line then span.start.column else 1

/-- The column of a line that its carets stop in, unless that leaves none of them. -/
def stopColumn (span : Span) (number : Nat) (line : List Char) : Nat :=
  if number = span.stop.line then span.stop.column else line.length + 1

/-- Blanks up to the first caret, and at least one caret. -/
theorem toList_carets (span : Span) (number : Nat) (line : List Char) :
    (span.carets number line).toList = List.replicate (span.firstColumn number - 1) ' ' ++
      List.replicate (max (span.stopColumn number line - span.firstColumn number) 1) '^' := by
  simp [carets, firstColumn, stopColumn, toList_pushn]

/-- Behind blanks, the carets begin and end. -/
theorem getElem?_carets {blanks carets offset : Nat} :
    (List.replicate blanks ' ' ++ List.replicate carets '^')[offset]? = some '^' ↔
      blanks ≤ offset ∧ offset < blanks + carets := by
  rw [List.getElem?_append]
  simp only [List.length_replicate, List.getElem?_replicate]
  split
  · simp
    omega
  · simp
    omega

theorem Ends.one_le_firstColumn (ends : span.Ends) (number : Nat) :
    1 ≤ span.firstColumn number := by
  have column := ends.column
  unfold firstColumn
  split <;> omega

/-- The span has those characters of a shown line that its start and its stop leave. -/
theorem Ends.covers_shown_iff {offset : Nat} (ends : span.Ends) (begun : span.start.line ≤ number)
    (found : span.source.lines[number - 1]? = some shown) (inside : offset < shown.length) :
    span.Covers number (offset + 1) ↔
      (span.start.line < number ∨ span.start.line = number ∧ span.start.column ≤ offset + 1) ∧
      (number < span.stop.line ∨ number = span.stop.line ∧ offset + 1 < span.stop.column) := by
  have line := ends.line
  obtain ⟨row, there, shorter, -⟩ := Source.exists_row found
  rw [covers_iff ends.accurate, and_iff_right]
  exact ⟨by omega, row, there, by omega, by omega⟩

/-- The carets start under the first character that the span has of a line. -/
theorem Ends.covers_firstColumn (ends : span.Ends) (begun : span.start.line ≤ number)
    (unended : number < span.stop.line ∨ number = span.stop.line ∧ 1 < span.stop.column)
    (found : span.source.lines[number - 1]? = some shown) :
    span.Covers number (span.firstColumn number) := by
  have line := ends.line
  obtain ⟨row, there, -⟩ := Source.exists_row found
  unfold firstColumn
  split
  · subst number
    exact ends.first
  · rw [covers_iff ends.accurate]
    exact ⟨⟨by omega, row, there, by omega, by omega⟩, by omega, by omega⟩

theorem Ends.stop_le (ends : span.Ends) : span.stop.line ≤ span.source.lines.length := by
  obtain ⟨last, there, -⟩ := ends.last
  have within := (List.getElem?_eq_some_iff.mp there).1
  rw [Source.lines, List.length_map]
  omega

/-- The span has characters of the lines from where it starts to where it stops, but none of a line
that it stops in front of. -/
theorem Ends.exists_covers_iff (ends : span.Ends) : (∃ column, span.Covers number column) ↔
    span.start.line ≤ number ∧
      (number < span.stop.line ∨ number = span.stop.line ∧ 1 < span.stop.column) := by
  constructor
  · rintro ⟨column, covers⟩
    obtain ⟨⟨-, row, -, first, -⟩, begins, stops⟩ := (covers_iff ends.accurate).mp covers
    omega
  · rintro ⟨begun, unended⟩
    have line := ends.line
    have long := ends.stop_le
    have within : number - 1 < span.source.lines.length := by omega
    exact ⟨_, ends.covers_firstColumn begun unended (List.getElem?_eq_getElem within)⟩

/-- The carets do not go further than over a carriage return behind a shown line. -/
theorem Ends.stopColumn_le (ends : span.Ends)
    (found : span.source.lines[number - 1]? = some shown) :
    span.stopColumn number shown ≤ shown.length + 2 := by
  obtain ⟨row, there, -, longer⟩ := Source.exists_row found
  obtain ⟨last, stops, -, within⟩ := ends.last
  unfold stopColumn
  split
  · subst number
    obtain rfl := Option.some.inj (there.symm.trans stops)
    omega
  · omega

/-- In each line that the span has characters of, the carets mark them. -/
theorem Ends.marks_carets (ends : span.Ends) (begun : span.start.line ≤ number)
    (unended : number < span.stop.line ∨ number = span.stop.line ∧ 1 < span.stop.column)
    (found : span.source.lines[number - 1]? = some shown) :
    span.Marks number shown (span.carets number shown).toList := by
  have column := ends.column
  have ordered := ends.ordered
  rw [toList_carets]
  refine ⟨fun c listed => ?_, fun offset inside => ?_, fun uncovered => ?_⟩
  · exact (List.mem_append.mp listed).imp List.eq_of_mem_replicate List.eq_of_mem_replicate
  · rw [getElem?_carets, ends.covers_shown_iff begun found inside, firstColumn, stopColumn]
    split <;> split <;> omega
  · -- The span has the character at the first caret, so that one is none of the shown characters.
    have positive := ends.one_le_firstColumn number
    have beyond : shown.length < span.firstColumn number := by
      by_contra short
      refine uncovered (span.firstColumn number - 1) (by omega) ?_
      rw [Nat.sub_add_cancel positive]
      exact ends.covers_firstColumn begun unended found
    have stops := ends.stopColumn_le found
    have single : max (span.stopColumn number shown - span.firstColumn number) 1 = 1 := by omega
    rw [single]
    exact ⟨span.firstColumn number - 1, by omega, rfl⟩

/-! ## The lines of a span -/

/-- A line with its number, as it is shown. -/
def row (span : Span) (entry : List Char × Nat) : List Char × List Char :=
  (entry.1, (span.carets entry.2 entry.1).toList)

/-- So many lines as they are shown, from the one that the span starts in. -/
def rows (span : Span) (count : Nat) : List (List Char × List Char) :=
  (((span.source.lines.drop (span.start.line - 1)).take count).zipIdx span.start.line).map span.row

theorem getElem?_rows {count offset : Nat} {carets : List Char}
    (found : (span.rows count)[offset]? = some (shown, carets)) :
    offset < count ∧ span.source.lines[span.start.line - 1 + offset]? = some shown ∧
      carets = (span.carets (span.start.line + offset) shown).toList := by
  simp only [rows, List.getElem?_map, List.getElem?_zipIdx, List.getElem?_take, Option.map_map,
    Option.map_eq_some_iff] at found
  obtain ⟨listed, there, same⟩ := found
  obtain ⟨rfl, rfl⟩ := Prod.mk.inj same
  split at there
  · rw [List.getElem?_drop] at there
    exact ⟨‹_›, there, rfl⟩
  · cases there

theorem rows_add_one {count : Nat}
    (found : span.source.lines[span.start.line - 1 + count]? = some shown) :
    span.rows (count + 1) =
      span.rows count ++ [(shown, (span.carets (span.start.line + count) shown).toList)] := by
  have long := (List.getElem?_eq_some_iff.mp found).1
  have length : ((span.source.lines.drop (span.start.line - 1)).take count).length = count := by
    rw [List.length_take, List.length_drop]
    omega
  rw [rows, List.take_add_one, List.getElem?_drop, found, List.zipIdx_append, length,
    List.map_append]
  rfl

/-- Lines are shown up to the one that the span stops in. -/
theorem marked_eq (span : Span) (number : Nat) (lines : List (List Char)) :
    span.marked number lines = rendered
      (((lines.take (max span.stop.line span.start.line + 1 - number)).zipIdx number).map
        span.row) := by
  induction lines generalizing number with
  | nil => simp [marked, rendered]
  | cons line rest ih =>
    rw [marked]
    split
    · rename_i within
      have more : max span.stop.line span.start.line + 1 - number =
          max span.stop.line span.start.line + 1 - (number + 1) + 1 := by omega
      rw [ih, more]
      simp [rendered, row]
    · rename_i beyond
      have none : max span.stop.line span.start.line + 1 - number = 0 := by omega
      simp [none, rendered]

theorem underline_eq (span : Span) (line : 1 ≤ span.start.line) :
    span.underline = "\n".intercalate
      (rendered (span.rows (max span.stop.line span.start.line + 1 - span.start.line))) := by
  rw [underline, if_neg (by omega), marked_eq, rows]

/-- The span has characters of so many lines, and their rows show them. -/
theorem Ends.shows_rows {count : Nat} (ends : span.Ends)
    (counted : span.start.line + count =
      if span.stop.column = 1 then span.stop.line else span.stop.line + 1) :
    span.Shows (span.rows count) := by
  have line := ends.line
  have ordered := ends.ordered
  have long := ends.stop_le
  obtain ⟨-, -, positive, -⟩ := ends.last
  have length : (span.rows count).length = count := by
    simp only [rows, List.length_map, List.length_zipIdx, List.length_take, List.length_drop]
    split at counted <;> omega
  refine ⟨fun number => ?_, fun offset shown carets found => ?_⟩
  · rw [ends.exists_covers_iff, length, counted]
    split <;> omega
  · obtain ⟨within, listed, rfl⟩ := getElem?_rows found
    refine ⟨listed, ends.marks_carets (Nat.le_add_right _ _) ?_ ?_⟩
    · split at counted <;> omega
    · rwa [Nat.sub_add_comm line]

/-- The underlined lines of a span that is not empty are those that it has characters of, and the
carets mark these characters. If the span stops in the first column of a line, that line is shown
behind them, with a caret in its first column. -/
theorem underline_marks_covered (accurate : span.AccurateIn span.source)
    (filled : span.start.index < span.stop.index) :
    ∃ rows surplus, span.underline = "\n".intercalate (rendered (rows ++ surplus)) ∧
      span.Shows rows ∧ (span.stop.column ≠ 1 → surplus = []) ∧
      (span.stop.column = 1 → ∃ line,
        span.source.lines[span.stop.line - 1]? = some line ∧ surplus = [(line, ['^'])]) := by
  have ends := accurate.ends filled
  have line := ends.line
  have column := ends.column
  have ordered := ends.ordered
  obtain ⟨count, counted⟩ := Nat.exists_eq_add_of_le
    (show span.start.line ≤ span.stop.line by omega)
  have shown : max span.stop.line span.start.line + 1 - span.start.line = count + 1 := by omega
  rw [underline_eq span line, shown]
  by_cases feed : span.stop.column = 1
  · obtain ⟨last, there, -⟩ := ends.last
    have listed : span.source.lines[span.stop.line - 1]? = some (Source.shownLine last) := by
      rw [Source.lines, List.getElem?_map, there]
      rfl
    have found : span.source.lines[span.start.line - 1 + count]? =
        some (Source.shownLine last) := by
      rwa [← Nat.sub_add_comm line, ← counted]
    have single : (span.carets (span.start.line + count) (Source.shownLine last)).toList =
        ['^'] := by
      rw [toList_carets, firstColumn, stopColumn, if_neg (by omega), if_pos counted.symm, feed]
      rfl
    refine ⟨span.rows count, [(Source.shownLine last, ['^'])], ?_,
      ends.shows_rows (by rw [if_pos feed, counted]), fun other => absurd feed other,
      fun _ => ⟨_, listed, rfl⟩⟩
    rw [rows_add_one found, single]
  · refine ⟨_, [], by rw [List.append_nil], ends.shows_rows ?_, fun _ => rfl,
      fun other => absurd other feed⟩
    rw [if_neg feed]
    omega

/-- A span from the last letter of a line, over a carriage return, to the first letter of the next
line. -/
theorem underline_marks_covered_lines : ∃ span : Span,
    span.source = ⟨0, "<line>", "ab\r\ncd"⟩ ∧ span.AccurateIn span.source ∧
      span.start.index < span.stop.index ∧ span.underline = "ab\n ^\ncd\n^" ∧
      ∃ rows, span.underline = "\n".intercalate (rendered rows) ∧ span.Shows rows := by
  obtain ⟨span, source, accurate, filled, column, underlined⟩ : ∃ span : Span,
      span.source = ⟨0, "<line>", "ab\r\ncd"⟩ ∧ span.AccurateIn span.source ∧
        span.start.index < span.stop.index ∧ span.stop.column ≠ 1 ∧
        span.underline = "ab\n ^\ncd\n^" :=
    ⟨⟨⟨0, "<line>", "ab\r\ncd"⟩, ⟨1, 1, 2⟩, ⟨5, 2, 2⟩⟩, rfl,
      ⟨rfl, Position.accurate_past ['a'] "b\r\ncd".toList,
        Position.accurate_past "ab\r\nc".toList ['d'], by decide⟩,
      by decide, by decide, by decide +kernel⟩
  obtain ⟨rows, surplus, same, shows, none, -⟩ := underline_marks_covered accurate filled
  obtain rfl := none column
  rw [List.append_nil] at same
  exact ⟨span, source, accurate, filled, underlined, rows, same, shows⟩

/-- A line feed alone: the line behind it is shown, and its first character is marked. -/
theorem underline_marks_uncovered : ∃ span : Span, span.source = ⟨0, "<line>", "(1\n2"⟩ ∧
    span.AccurateIn span.source ∧ span.start.index < span.stop.index ∧
    span.underline = "(1\n  ^\n2\n^" ∧
    ∀ rows, span.Shows rows → span.underline ≠ "\n".intercalate (rendered rows) := by
  obtain ⟨span, source, line, first, last, accurate, underlined⟩ : ∃ span : Span,
      span.source = ⟨0, "<line>", "(1\n2"⟩ ∧ span.start.line = 1 ∧ span.start.index = 2 ∧
        span.stop.index = 3 ∧ span.AccurateIn span.source ∧ span.underline = "(1\n  ^\n2\n^" :=
    ⟨⟨⟨0, "<line>", "(1\n2"⟩, ⟨2, 1, 3⟩, ⟨3, 2, 1⟩⟩, rfl, rfl, rfl, rfl,
      ⟨rfl, Position.accurate_past ['(', '1'] ['\n', '2'],
        Position.accurate_past ['(', '1', '\n'] ['2'], by decide⟩,
      by decide +kernel⟩
  have filled : span.start.index < span.stop.index := by omega
  refine ⟨span, source, accurate, filled, underlined, fun rows shows same => ?_⟩
  have several := ((shows.covered span.start.line).mp ⟨_, (accurate.ends filled).first⟩).2
  have single : ¬ 2 < span.start.line + rows.length := by
    intro more
    obtain ⟨column, place, there, below, -, from', upTo⟩ :=
      (shows.covered 2).mpr ⟨by omega, more⟩
    obtain rfl := there.eq_of_index_eq accurate.start (by omega)
    omega
  obtain ⟨⟨shown, carets⟩, rfl⟩ := List.length_eq_one_iff.mp (show rows.length = 1 by omega)
  obtain ⟨listed, marks⟩ := shows.marked 0 shown carets rfl
  have lines : Source.lines ⟨0, "<line>", "(1\n2"⟩ = [['(', '1'], ['2']] := by decide +kernel
  rw [source, line, lines] at listed
  cases listed
  have joined : "\n".intercalate (rendered [(['(', '1'], carets)]) =
      "(1\n" ++ String.ofList carets := rfl
  have chars := congrArg String.toList (underlined.symm.trans (same.trans joined))
  have under : "  ^\n2\n^".toList = carets := by simpa using chars
  subst under
  exact absurd (marks.signs '2' (by decide)) (by decide)

end Span

end Quill
