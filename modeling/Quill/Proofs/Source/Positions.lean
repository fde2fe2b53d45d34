import Mathlib.Data.List.DropRight
import Quill.Source.Span

/-!
# Places that fit to a text

A position states the same place in two ways: by the bytes in front of it, and by its line and its
column. It fits to a text if both belong to one place between two characters. Then the bytes alone
say which position it is, and it is the one that is reached from the start by passing over all that
stands in front of it.

Moving to a byte offset passes over what lies between, so it does not matter in how many steps it
is done.
-/

namespace Quill

namespace Text

/-- The offset does not fall into a character, nor behind the end of the text. -/
def IsBoundary (text : List Char) (index : Nat) : Prop :=
  ∃ before after, before ++ after = text ∧ byteLength before = index

/-- A text has one front of a given number of bytes. -/
theorem front_inj {front back other rest : List Char} (same : front ++ back = other ++ rest)
    (length : byteLength front = byteLength other) : front = other ∧ back = rest := by
  have cut := cut?_byteLength front back
  rw [same, length, cut?_byteLength] at cut
  exact Prod.mk.inj (Option.some.inj cut.symm)

/-- A front of a text goes on to a longer one. -/
theorem exists_between {front back other rest : List Char} (same : front ++ back = other ++ rest)
    (shorter : byteLength front ≤ byteLength other) :
    ∃ inside, other = front ++ inside ∧ back = inside ++ rest := by
  obtain ⟨inside, rfl, rfl⟩ | ⟨inside, rfl, rfl⟩ := List.append_eq_append_iff.mp same
  · exact ⟨inside, rfl, rfl⟩
  · have nothing : byteLength inside = 0 := by
      rw [byteLength_append] at shorter
      omega
    cases inside with
    | nil => exact ⟨[], by simp, by simp⟩
    | cons c inside =>
      have positive := c.utf8Size_pos
      simp only [byteLength_cons] at nothing
      omega

/-- A slice lies between a front and a back of the text. -/
theorem slice?_eq_some_iff {text inside : List Char} {start stop : Nat} :
    slice? text start stop = some inside ↔ ∃ front back, front ++ (inside ++ back) = text ∧
      byteLength front = start ∧ byteLength (front ++ inside) = stop := by
  constructor
  · intro found
    unfold slice? at found
    split at found
    · rename_i ordered
      obtain ⟨⟨front, rest⟩, first, found⟩ := Option.bind_eq_some_iff.mp found
      obtain ⟨⟨_, back⟩, second, same⟩ := Option.bind_eq_some_iff.mp found
      cases same
      obtain ⟨rfl, rfl⟩ := append_eq_of_cut? first
      obtain ⟨rfl, length⟩ := append_eq_of_cut? second
      exact ⟨front, back, rfl, rfl, by rw [byteLength_append, length]; omega⟩
    · cases found
  · rintro ⟨front, back, rfl, rfl, rfl⟩
    have length : byteLength (front ++ inside) - byteLength front = byteLength inside := by simp
    rw [slice?, if_pos (by simp), cut?_byteLength, length]
    simp [cut?_byteLength]

end Text

open Text

namespace Position

variable {text : List Char} {position other : Position}

/-- The position names one place of the text: so many bytes stand in front of it, its line follows
the line feeds among them, and its column follows the characters behind the last line feed. -/
def Accurate (position : Position) (text : List Char) : Prop :=
  ∃ before after, before ++ after = text ∧ position.index = byteLength before ∧
    position.line = 1 + before.count '\n' ∧
    position.column = 1 + (before.rtakeWhile (· ≠ '\n')).length

/-- What is passed over from the start is what stands in front of the place. -/
theorem past_start (before : List Char) : start.past before =
    ⟨byteLength before, 1 + before.count '\n', 1 + (before.rtakeWhile (· ≠ '\n')).length⟩ := by
  induction before using List.reverseRecOn with
  | nil => rfl
  | append_singleton before c ih =>
    rw [past_append, ih, past_cons, past_nil, advance]
    by_cases feed : c = '\n'
    · simp [feed, List.rtakeWhile_concat_neg, Nat.add_assoc]
    · simp [feed, List.rtakeWhile_concat_pos, Nat.add_assoc]

theorem accurate_iff : position.Accurate text ↔
    ∃ before after, before ++ after = text ∧ position = start.past before := by
  refine exists₂_congr fun before after => and_congr_right fun _ => ?_
  rw [past_start]
  obtain ⟨index, line, column⟩ := position
  simp

theorem accurate_past (before after : List Char) :
    (start.past before).Accurate (before ++ after) :=
  accurate_iff.mpr ⟨before, after, rfl, rfl⟩

/-- Two places of a text are the same if the same number of bytes stands in front of them. -/
theorem Accurate.eq_of_index_eq (first : position.Accurate text) (second : other.Accurate text)
    (same : position.index = other.index) : position = other := by
  obtain ⟨before, after, rfl, rfl⟩ := accurate_iff.mp first
  obtain ⟨front, back, split, rfl⟩ := accurate_iff.mp second
  rw [past_start, past_start] at same
  rw [(front_inj split same.symm).1]

/-! ## Moving to an offset -/

theorem advanceTo_of_le {index : Nat} (behind : index ≤ position.index) :
    position.advanceTo text index = position :=
  if_pos behind

theorem advanceTo_of_slice {index : Nat} {passed : List Char} (ahead : position.index < index)
    (found : slice? text position.index index = some passed) :
    position.advanceTo text index = position.past passed := by
  rw [advanceTo, if_neg (by omega), found]

theorem advanceTo_of_none {index : Nat} (nothing : slice? text position.index index = none) :
    position.advanceTo text index = position := by
  rw [advanceTo, nothing]
  split <;> rfl

/-- From a place of a text, an offset ahead that falls into no character leads to the place that
has as many bytes in front of it. -/
theorem Accurate.advanceTo {index : Nat} (accurate : position.Accurate text)
    (boundary : IsBoundary text index) : (position.advanceTo text index).Accurate text ∧
      (position.advanceTo text index).index = max position.index index := by
  by_cases behind : index ≤ position.index
  · rw [advanceTo_of_le behind, Nat.max_eq_left behind]
    exact ⟨accurate, rfl⟩
  obtain ⟨before, after, rfl, rfl⟩ := accurate_iff.mp accurate
  obtain ⟨front, back, split, rfl⟩ := boundary
  have reached : (start.past before).index = byteLength before := by rw [past_start]
  have ahead : (start.past before).index < byteLength front := by omega
  obtain ⟨passed, rfl, rfl⟩ := exists_between split.symm (by omega)
  have found : slice? (before ++ (passed ++ back)) (start.past before).index
      (byteLength (before ++ passed)) = some passed :=
    slice?_eq_some_iff.mpr ⟨before, back, rfl, reached.symm, rfl⟩
  rw [advanceTo_of_slice ahead found, ← past_append, ← List.append_assoc]
  refine ⟨accurate_past _ _, ?_⟩
  rw [Nat.max_eq_right ahead.le, past_start]

/-- Moving to an offset in two steps or in one is the same. -/
theorem advanceTo_advanceTo (position : Position) {first second : Nat}
    (boundary : IsBoundary text second) (ordered : first ≤ second) :
    (position.advanceTo text first).advanceTo text second = position.advanceTo text second := by
  by_cases behind : first ≤ position.index
  · rw [advanceTo_of_le behind]
  cases found : slice? text position.index first with
  | none => rw [advanceTo_of_none found]
  | some passed =>
    have ahead : position.index < first := by omega
    obtain ⟨front, back, rfl, begins, ends⟩ := slice?_eq_some_iff.mp found
    have reached : (position.past passed).index = first := by
      rw [index_past, ← begins, ← ends, byteLength_append]
    rw [advanceTo_of_slice ahead found]
    obtain rfl | further := ordered.eq_or_lt
    · rw [advanceTo_of_slice ahead found, advanceTo_of_le reached.ge]
    -- What the two steps pass over is what the single step does.
    obtain ⟨before, after, split, rfl⟩ := boundary
    rw [← List.append_assoc] at split
    obtain ⟨more, rfl, rfl⟩ := exists_between split.symm (by omega)
    have second : slice? (front ++ (passed ++ (more ++ after))) (position.past passed).index
        (byteLength (front ++ passed ++ more)) = some more :=
      slice?_eq_some_iff.mpr ⟨front ++ passed, after, by simp, by rw [ends, reached], rfl⟩
    have whole : slice? (front ++ (passed ++ (more ++ after))) position.index
        (byteLength (front ++ passed ++ more)) = some (passed ++ more) :=
      slice?_eq_some_iff.mpr ⟨front, after, by simp, begins, by simp⟩
    rw [advanceTo_of_slice (by omega) second, advanceTo_of_slice (by omega) whole, past_append]

end Position

/-- The span is a part of the source from one of its places to another one that is not in front of
it. -/
structure Span.AccurateIn (source : Source) (span : Span) : Prop where
  /-- It is a part of this source. -/
  located : span.source = source
  /-- It starts at a place of the text. -/
  start : span.start.Accurate source.text.toList
  /-- It stops at a place of the text. -/
  stop : span.stop.Accurate source.text.toList
  /-- It stops where it starts or behind. -/
  forward : span.start.index ≤ span.stop.index

end Quill
