import Quill.Proofs.Source.Positions

/-!
# Lines and columns

The places of a text can be told apart by their lines and columns as well as by the bytes in front
of them, and both ways put them into the same order. A line has a place in front of each of its
characters and one behind the last of them. Where it is shown, a carriage return at its end is left
out.
-/

namespace Quill

open Text

namespace Position

variable {text : List Char} {position other : Position} {line column : Nat}

/-- The position is in an earlier line, or further to the front of the same line. -/
def Precedes (position other : Position) : Prop :=
  position.line < other.line ∨ position.line = other.line ∧ position.column < other.column

theorem Precedes.trans {middle : Position} (first : position.Precedes middle)
    (second : middle.Precedes other) : position.Precedes other := by
  unfold Precedes at *
  omega

theorem Precedes.asymm (precedes : position.Precedes other) : ¬ other.Precedes position := by
  unfold Precedes at *
  omega

theorem precedes_advance (position : Position) (c : Char) :
    position.Precedes (position.advance c) := by
  unfold Precedes advance
  split <;> simp

theorem precedes_past (position : Position) (c : Char) (passed : List Char) :
    position.Precedes (position.past (c :: passed)) := by
  induction passed generalizing position c with
  | nil => exact position.precedes_advance c
  | cons next passed ih => exact (position.precedes_advance c).trans (ih _ next)

theorem Accurate.precedes (first : position.Accurate text) (second : other.Accurate text)
    (ahead : position.index < other.index) : position.Precedes other := by
  obtain ⟨before, after, rfl, rfl⟩ := accurate_iff.mp first
  obtain ⟨front, back, split, rfl⟩ := accurate_iff.mp second
  rw [past_start, past_start] at ahead
  obtain ⟨passed, rfl, -⟩ := exists_between split.symm (Nat.le_of_lt ahead)
  cases passed with
  | nil => simp at ahead
  | cons c passed =>
    rw [past_append]
    exact precedes_past _ c passed

/-- Of two places of a text, one has fewer bytes in front of it if and only if its line and column
come first. -/
theorem Accurate.index_lt_iff (first : position.Accurate text) (second : other.Accurate text) :
    position.index < other.index ↔ position.Precedes other := by
  refine ⟨first.precedes second, fun precedes => ?_⟩
  by_contra reached
  obtain same | behind := (Nat.le_of_not_lt reached).eq_or_lt
  · obtain rfl := second.eq_of_index_eq first same
    exact precedes.asymm precedes
  · exact precedes.asymm (second.precedes first behind)

/-! ## The places of a line -/

/-- From the position, the text leads to a place of this line and this column. -/
def Leads (position : Position) (text : List Char) (line column : Nat) : Prop :=
  ∃ front back, front ++ back = text ∧ (position.past front).line = line ∧
    (position.past front).column = column

theorem leads_nil :
    position.Leads [] line column ↔ position.line = line ∧ position.column = column := by
  constructor
  · rintro ⟨front, back, split, same⟩
    obtain ⟨rfl, rfl⟩ := List.append_eq_nil_iff.mp split
    exact same
  · exact fun same => ⟨[], [], rfl, same⟩

theorem leads_cons {c : Char} : position.Leads (c :: text) line column ↔
    position.line = line ∧ position.column = column ∨
      (position.advance c).Leads text line column := by
  constructor
  · rintro ⟨front, back, split, sameLine, sameColumn⟩
    cases front with
    | nil => exact .inl ⟨sameLine, sameColumn⟩
    | cons _ front =>
      obtain ⟨rfl, rfl⟩ := List.cons.inj split
      exact .inr ⟨front, back, rfl, sameLine, sameColumn⟩
  · rintro (⟨sameLine, sameColumn⟩ | ⟨front, back, rfl, sameLine, sameColumn⟩)
    · exact ⟨[], c :: text, rfl, sameLine, sameColumn⟩
    · exact ⟨c :: front, back, rfl, sameLine, sameColumn⟩

/-- From a position, a text leads to the places in front of and behind the characters of its lines.
All lines but the first one begin in the first column. -/
theorem leads_iff : position.Leads text line column ↔
    position.line ≤ line ∧ ∃ row, (text.splitOn '\n')[line - position.line]? = some row ∧
      (if line = position.line then position.column else 1) ≤ column ∧
        column ≤ (if line = position.line then position.column else 1) + row.length := by
  induction text generalizing position with
  | nil =>
    rw [leads_nil, List.splitOn_nil]
    obtain before | rfl | behind := Nat.lt_trichotomy line position.line
    · omega
    · simp
      omega
    · have far : [([] : List Char)][line - position.line]? = none := by simp; omega
      simp [far, behind.ne]
  | cons c text ih =>
    -- A line feed leaves an empty first row, and any other character makes the first row longer.
    rw [leads_cons, ih, List.splitOn_cons_eq_if_modifyHead, advance]
    obtain ⟨head, rows, shape⟩ := List.exists_cons_of_ne_nil (List.splitOn_ne_nil '\n' text)
    obtain before | rfl | behind := Nat.lt_trichotomy line position.line
    · by_cases feed : c = '\n' <;> simp [feed] <;> omega
    · by_cases feed : c = '\n' <;> simp [feed, shape] <;> omega
    · obtain ⟨distance, rfl⟩ := Nat.exists_eq_add_of_lt behind
      have next : position.line + distance + 1 - position.line = distance + 1 := by omega
      have skip : position.line + distance + 1 - (position.line + 1) = distance := by omega
      by_cases feed : c = '\n'
      · simp [feed, next, skip, behind.ne', behind.ne, behind.le]
      · simp [feed, shape, next, behind.ne', behind.ne]

/-- A line has as many places as characters, and one more. -/
theorem exists_place_iff : (∃ place : Position, place.Accurate text ∧ place.line = line ∧
      place.column = column) ↔
    1 ≤ line ∧ ∃ row, (text.splitOn '\n')[line - 1]? = some row ∧
      1 ≤ column ∧ column ≤ row.length + 1 := by
  have leads : (∃ place : Position, place.Accurate text ∧ place.line = line ∧
      place.column = column) ↔ start.Leads text line column := by
    constructor
    · rintro ⟨place, accurate, sameLine, sameColumn⟩
      obtain ⟨before, after, split, rfl⟩ := accurate_iff.mp accurate
      exact ⟨before, after, split, sameLine, sameColumn⟩
    · rintro ⟨front, back, rfl, sameLine, sameColumn⟩
      exact ⟨_, accurate_past front back, sameLine, sameColumn⟩
  have first : (if line = start.line then start.column else 1) = 1 := ite_self 1
  rw [leads, leads_iff, first]
  simp only [start, Nat.add_comm]

end Position

/-! ## Shown lines -/

namespace Source

theorem length_shownLine (row : List Char) :
    (shownLine row).length ≤ row.length ∧ row.length ≤ (shownLine row).length + 1 := by
  unfold shownLine
  split <;> simp
  omega

/-- A line is shown as it is, or without the carriage return at its end. -/
theorem exists_row {source : Source} {index : Nat} {shown : List Char}
    (found : source.lines[index]? = some shown) :
    ∃ row, (source.text.toList.splitOn '\n')[index]? = some row ∧ shown.length ≤ row.length ∧
      row.length ≤ shown.length + 1 := by
  unfold lines at found
  rw [List.getElem?_map] at found
  obtain ⟨row, there, rfl⟩ := Option.map_eq_some_iff.mp found
  exact ⟨row, there, length_shownLine row⟩

end Source

end Quill
