import Quill.Text.Slice

/-!
# Positions in a program text

A position counts the bytes before it and names the line and the column of the character that
follows it. Lines and columns start at one, and a column counts characters. Only a line feed ends
a line: a carriage return is an ordinary character of the line that it closes.
-/

namespace Quill

/-- A place between two characters of a text. -/
structure Position where
  /-- How many bytes stand before the place. -/
  index : Nat
  /-- The line, counted from one. -/
  line : Nat
  /-- The column, counted from one in characters. -/
  column : Nat
deriving DecidableEq, Repr

namespace Position

/-- The place before the first character. -/
def start : Position := ⟨0, 1, 1⟩

/-- The place behind one more character. -/
def advance (position : Position) (c : Char) : Position :=
  if c = '\n' then
    ⟨position.index + c.utf8Size, position.line + 1, 1⟩
  else
    ⟨position.index + c.utf8Size, position.line, position.column + 1⟩

/-- The place behind all the given characters. -/
def past (position : Position) (text : List Char) : Position :=
  text.foldl advance position

@[simp] theorem past_nil (position : Position) : position.past [] = position := rfl

@[simp] theorem past_cons (position : Position) (c : Char) (text : List Char) :
    position.past (c :: text) = (position.advance c).past text := rfl

/-- Moving over two texts one after the other is moving over their concatenation. -/
theorem past_append (position : Position) (first second : List Char) :
    position.past (first ++ second) = (position.past first).past second := by
  simp [past]

/-- A character moves the index by its own bytes, whatever it does to the line. -/
@[simp] theorem index_advance (position : Position) (c : Char) :
    (position.advance c).index = position.index + c.utf8Size := by
  unfold advance
  split <;> rfl

/-- The index counts exactly the bytes passed over. -/
theorem index_past (position : Position) (text : List Char) :
    (position.past text).index = position.index + Text.byteLength text := by
  induction text generalizing position with
  | nil => simp
  | cons c text ih => simp [ih, Nat.add_assoc]

/-- Moves forward to a byte offset of the text. The position stays where it is if the offset is
not ahead of it, lies beyond the end, or falls inside a character. -/
def advanceTo (position : Position) (text : List Char) (index : Nat) : Position :=
  if index ≤ position.index then
    position
  else
    match Text.slice? text position.index index with
    | some passed => position.past passed
    | none => position

end Position

end Quill
