import Quill.Source.Position

/-!
# Program texts and the parts of them that errors point at

Every text that is loaded gets an identity of its own, so two loads of the same file are two
sources. A span is a part of one source between two positions. It knows how to show itself: its
place in one line of prose, its characters, and the lines it covers with a row of carets under
each of them.
-/

namespace Quill

/-- A text that was loaded under a name. -/
structure Source where
  /-- Tells this load apart from every other one. -/
  id : Nat
  /-- The name that messages show, usually a path. -/
  name : String
  /-- The text itself. -/
  text : String
deriving DecidableEq, Repr

namespace Source

/-- A line as it is shown: the carriage return of a line ending is not part of it. -/
def shownLine (line : List Char) : List Char :=
  if line.getLast? = some '\r' then line.dropLast else line

/-- The lines of the text in order. There is always at least one. -/
def lines (source : Source) : List (List Char) :=
  (source.text.toList.splitOn '\n').map shownLine

/-- The line with the given number, counted from one. -/
def line? (source : Source) (number : Nat) : Option String :=
  if number = 0 then none else source.lines[number - 1]?.map String.ofList

end Source

/-- A part of a source. -/
structure Span where
  /-- The text that the span is a part of. -/
  source : Source
  /-- The place before the first character. -/
  start : Position
  /-- The place behind the last character. -/
  stop : Position
deriving DecidableEq, Repr

namespace Span

/-- The span from the start of one span to the end of another one. -/
def through (first last : Span) : Span :=
  { first with stop := last.stop }

@[simp] theorem source_through (first last : Span) :
    (first.through last).source = first.source := rfl

@[simp] theorem start_through (first last : Span) :
    (first.through last).start = first.start := rfl

@[simp] theorem stop_through (first last : Span) :
    (first.through last).stop = last.stop := rfl

/-- The line that the span starts on. -/
def line (span : Span) : Nat :=
  span.start.line

/-- The characters of the span, none at all if its ends do not bound a slice of the text. -/
def text (span : Span) : String :=
  match Text.slice? span.source.text.toList span.start.index span.stop.index with
  | some inside => String.ofList inside
  | none => ""

/-- The place as messages state it: the line, then the first and the last column. -/
def place (span : Span) : String :=
  s!"Line {span.start.line} ({span.start.column}, {span.stop.column})"

/-- The place with its file and with both ends in full. -/
def locator (span : Span) : String :=
  s!"{span.source.name}:{span.start.line}:{span.start.column}.." ++
    s!"{span.stop.line}:{span.stop.column}"

/-- The row of carets under one line. The first line starts at the span's own column and the last
line stops at it; the lines between are covered from end to end. A line never gets fewer than one
caret. -/
def carets (span : Span) (number : Nat) (line : List Char) : String :=
  let start := if number = span.start.line then span.start.column else 1
  let stop := if number = span.stop.line then span.stop.column else line.length + 1
  "".pushn ' ' (start - 1) |>.pushn '^' (max (stop - start) 1)

/-- The covered lines, from line `number` on, each followed by its carets. -/
def marked (span : Span) (number : Nat) : List (List Char) → List String
  | [] => []
  | line :: rest =>
    if number ≤ max span.stop.line span.start.line then
      String.ofList line :: span.carets number line :: span.marked (number + 1) rest
    else
      []

/-- The covered lines of the source with carets under the covered characters. -/
def underline (span : Span) : String :=
  if span.start.line = 0 then
    ""
  else
    "\n".intercalate (span.marked span.start.line (span.source.lines.drop (span.start.line - 1)))

end Span

end Quill
