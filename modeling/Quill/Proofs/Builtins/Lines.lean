import Mathlib.Data.List.DropRight
import Quill.Eval.Console

/-!
# Lines of bytes

Bytes are read line by line. A line goes up to and including the next line feed, and only the last
one may go to the end without any. The text of a line is shown without the characters that end it,
and an integer is looked for in what lies between the white space around it. Cutting off the end of
a line does not change what lies there.
-/

namespace Quill

/-- The bytes are those of the text in UTF-8. -/
def Encodes (bytes : List UInt8) (text : String) : Prop :=
  text.toByteArray.data.toList = bytes

theorem decodeUtf8?_eq_some_iff {bytes : List UInt8} {text : String} :
    decodeUtf8? bytes = some text ↔ Encodes bytes text := by
  unfold decodeUtf8? String.fromUTF8? Encodes
  constructor
  · intro decoded
    split at decoded
    · cases decoded
      rfl
    · cases decoded
  · rintro rfl
    have valid : (⟨text.toByteArray.data.toList.toArray⟩ : ByteArray).IsValidUTF8 :=
      text.isValidUTF8
    rw [dif_pos valid]
    rfl

namespace Console

/-- Some lines, one behind the other, are taken from the front of some bytes. -/
inductive Takes : List UInt8 → List (List UInt8) → List UInt8 → Prop where
  /-- Nothing is taken. -/
  | none (bytes : List UInt8) : Takes bytes [] bytes
  /-- A line is taken that has a line feed at its end and nowhere else, or that goes to the end of
  the bytes. -/
  | line {line rest last : List UInt8} {lines : List (List UInt8)} (nonempty : line ≠ [])
      (inner : 10 ∉ line.dropLast) (ends : line.getLast? = some 10 ∨ rest = [])
      (more : Takes rest lines last) : Takes (line ++ rest) (line :: lines) last

/-- The text is shown without the line feeds and carriage returns at its end. -/
structure Stripped (text shown : String) : Prop where
  /-- Nothing else is missing, and nothing but at the end. -/
  split : ∃ ending : List Char, text.toList = shown.toList ++ ending ∧
    ∀ c ∈ ending, c = '\n' ∨ c = '\r'
  /-- None of these characters is left at the end. -/
  stop : ∀ c, shown.toList.getLast? = some c → ¬(c = '\n' ∨ c = '\r')

/-- The text is cut down to what lies between the white space around it. -/
structure Trimmed (text inner : String) : Prop where
  /-- Nothing but white space is missing, and nothing but at the ends. -/
  split : ∃ before behind : List Char, text.toList = before ++ (inner.toList ++ behind) ∧
    (∀ c ∈ before, Text.isWhite c = true) ∧ ∀ c ∈ behind, Text.isWhite c = true
  /-- No white space is left at the beginning. -/
  start : ∀ c, inner.toList.head? = some c → Text.isWhite c = false
  /-- No white space is left at the end. -/
  stop : ∀ c, inner.toList.getLast? = some c → Text.isWhite c = false

/-- The characters are a decimal numeral with at most one sign. -/
inductive Numeral : List Char → Int → Prop where
  | unsigned {digits : List Char} (nonempty : digits ≠ [])
      (all : ∀ c ∈ digits, Text.isDigit c = true) :
      Numeral digits (Text.natural digits)
  | positive {digits : List Char} (nonempty : digits ≠ [])
      (all : ∀ c ∈ digits, Text.isDigit c = true) :
      Numeral ('+' :: digits) (Text.natural digits)
  | negative {digits : List Char} (nonempty : digits ≠ [])
      (all : ∀ c ∈ digits, Text.isDigit c = true) :
      Numeral ('-' :: digits) (-(Text.natural digits : Int))

/-- The line is a text, and this is what lies between the white space around it. -/
def Reads (line : List UInt8) (inner : String) : Prop :=
  ∃ text, Encodes line text ∧ Trimmed text inner

/-! ## Taking lines -/

variable {bytes middle last : List UInt8} {lines others : List (List UInt8)}

theorem Takes.append (first : Takes bytes lines middle) (second : Takes middle others last) :
    Takes bytes (lines ++ others) last := by
  induction first with
  | none => exact second
  | line nonempty inner ends _ ih => exact .line nonempty inner ends (ih second)

/-- What is taken is the front of the bytes, and what is left is the rest of them. -/
theorem Takes.eq_append (takes : Takes bytes lines last) : bytes = lines.flatten ++ last := by
  induction takes with
  | none => rfl
  | line _ _ _ _ ih => rw [List.flatten_cons, List.append_assoc, ← ih]

/-- Taking a line leaves fewer bytes. -/
theorem Takes.length_lt {line : List UInt8} (takes : Takes bytes [line] last) :
    last.length < bytes.length := by
  cases takes with
  | line nonempty _ _ more =>
    cases more
    rw [List.length_append]
    exact Nat.lt_add_of_pos_left (List.length_pos_iff.mpr nonempty)

/-- A line is split from all bytes that there are. -/
theorem takes_splitLine (more : bytes ≠ []) :
    Takes bytes [(splitLine bytes).1] (splitLine bytes).2 := by
  have whole := List.takeWhile_append_dropWhile (p := (· ≠ 10)) (l := bytes)
  have inner : 10 ∉ bytes.takeWhile (· ≠ 10) := fun member => by
    simpa using List.mem_takeWhile_imp member
  have stops := List.head?_dropWhile_not (· ≠ 10) bytes
  unfold splitLine
  cases dropped : bytes.dropWhile (· ≠ 10) with
  | nil =>
    rw [dropped, List.append_nil] at whole
    rw [whole] at inner
    have inside : 10 ∉ bytes.dropLast := fun member =>
      inner ((List.dropLast_sublist bytes).mem member)
    have takes : Takes (bytes ++ []) [bytes] [] := .line more inside (.inr rfl) (.none [])
    rw [List.append_nil] at takes
    rw [whole]
    exact takes
  | cons feed rest =>
    rw [dropped] at whole stops
    have ten : feed = 10 := by simpa using stops
    subst ten
    have takes : Takes (bytes.takeWhile (· ≠ 10) ++ [10] ++ rest)
        [bytes.takeWhile (· ≠ 10) ++ [10]] rest :=
      .line (by simp) (by rwa [List.dropLast_concat]) (.inl List.getLast?_concat) (.none rest)
    rw [List.append_assoc, List.singleton_append, whole] at takes
    exact takes

/-! ## Texts of lines -/

section

variable {idle : Char → Bool} (text : List Char)

/-- What is cut off at the end is idle, and what is left does not end idly. -/
theorem exists_trimEnd : ∃ ending, text = Text.trimEnd idle text ++ ending ∧
    (∀ c ∈ ending, idle c = true) ∧
    ∀ c, (Text.trimEnd idle text).getLast? = some c → idle c = false := by
  refine ⟨(text.reverse.takeWhile idle).reverse, ?_, fun c member => ?_, fun c last => ?_⟩
  · rw [Text.trimEnd, ← List.reverse_append, List.takeWhile_append_dropWhile, List.reverse_reverse]
  · exact List.mem_takeWhile_imp (List.mem_reverse.mp member)
  · rw [Text.trimEnd, List.getLast?_reverse] at last
    have stops := List.head?_dropWhile_not idle text.reverse
    rw [last] at stops
    exact stops

variable {text}

theorem trimEnd_append {ending : List Char} (cut : ∀ c ∈ ending, idle c = true) :
    Text.trimEnd idle (text ++ ending) = Text.trimEnd idle text := by
  rw [Text.trimEnd, List.reverse_append, List.dropWhile_append_of_pos, Text.trimEnd]
  exact fun c member => cut c (List.mem_reverse.mp member)

theorem trimEnd_of_stop (stop : ∀ c, text.getLast? = some c → idle c = false) :
    Text.trimEnd idle text = text := by
  obtain ⟨ending, split, cut, _⟩ := @exists_trimEnd idle text
  cases h : ending.getLast? with
  | none => rw [List.getLast?_eq_none_iff.mp h, List.append_nil] at split; exact split.symm
  | some c =>
    have idle := cut c (List.mem_of_getLast? h)
    rw [stop c (by rw [split, List.getLast?_append, h]; rfl)] at idle
    cases idle

end

theorem stripped_shown (text : String) : Stripped text (shown text) := by
  obtain ⟨ending, split, cut, stop⟩ :=
    @exists_trimEnd (fun c => c = '\n' || c = '\r') text.toList
  refine ⟨⟨ending, ?_, fun c member => by simpa using cut c member⟩, fun c last => ?_⟩
  · rw [shown, String.toList_ofList]
    exact split
  · rw [shown, String.toList_ofList] at last
    simpa using stop c last

theorem trimmed_trim (text : String) :
    Trimmed text (String.ofList (Text.trim text.toList)) := by
  have front := List.takeWhile_append_dropWhile (p := Text.isWhite) (l := text.toList)
  have begins := List.head?_dropWhile_not Text.isWhite text.toList
  obtain ⟨behind, split, cut, stop⟩ :=
    @exists_trimEnd Text.isWhite (text.toList.dropWhile Text.isWhite)
  rw [split] at front begins
  rw [← String.toList_ofList (l := Text.trimEnd _ _)] at front begins stop
  refine ⟨⟨_, behind, front.symm, fun c => List.mem_takeWhile_imp, cut⟩, fun c first => ?_, stop⟩
  rw [Text.trim] at first
  rw [List.head?_append, first] at begins
  exact begins

/-- There is only one way to cut down a text. -/
theorem Trimmed.trim_eq {text inner : String} (trimmed : Trimmed text inner) :
    Text.trim text.toList = inner.toList := by
  obtain ⟨before, behind, split, white, cut⟩ := trimmed.split
  rw [split, Text.trim, List.dropWhile_append_of_pos white]
  cases letters : inner.toList with
  | nil =>
    rw [List.nil_append, List.dropWhile_eq_nil_iff.mpr cut]
    rfl
  | cons c others =>
    have black := trimmed.start c (by rw [letters]; rfl)
    rw [List.cons_append, List.dropWhile_cons_of_neg (by rw [black]; decide), ← List.cons_append,
      trimEnd_append cut, ← letters, trimEnd_of_stop trimmed.stop]

/-- The characters that end a line are white space, so without them the same lies in between. -/
theorem trimmed_iff_of_stripped {text shown inner : String} (stripped : Stripped text shown) :
    Trimmed shown inner ↔ Trimmed text inner := by
  have outer {inner : String} (trimmed : Trimmed shown inner) : Trimmed text inner := by
    obtain ⟨ending, whole, ends⟩ := stripped.split
    obtain ⟨before, behind, split, white, cut⟩ := trimmed.split
    refine ⟨⟨before, behind ++ ending, ?_, white, fun c member => ?_⟩, trimmed.start, trimmed.stop⟩
    · rw [whole, split]
      simp only [List.append_assoc]
    · obtain inside | outside := List.mem_append.mp member
      · exact cut c inside
      · obtain rfl | rfl := ends c outside <;> decide
  refine ⟨outer, fun trimmed => ?_⟩
  have cut := trimmed_trim shown
  have same : String.ofList (Text.trim shown.toList) = inner :=
    String.toList_inj.mp ((outer cut).trim_eq.symm.trans trimmed.trim_eq)
  rwa [same] at cut

/-! ## Numerals -/

theorem unsigned?_eq_some_iff {digits : List Char} {value : Nat} :
    Text.unsigned? digits = some value ↔
      digits ≠ [] ∧ (∀ c ∈ digits, Text.isDigit c = true) ∧ Text.natural digits = value := by
  unfold Text.unsigned?
  split
  · rename_i refused
    simp only [Bool.or_eq_true, List.isEmpty_iff, List.any_eq_true, Bool.not_eq_true'] at refused
    refine ⟨nofun, fun ⟨nonempty, all, _⟩ => ?_⟩
    obtain empty | ⟨c, member, other⟩ := refused
    · exact absurd empty nonempty
    · exact absurd (all c member) (by simp [other])
  · rename_i accepted
    simp only [Bool.or_eq_true, List.isEmpty_iff, List.any_eq_true, Bool.not_eq_true', not_or,
      not_exists, not_and, Bool.not_eq_false] at accepted
    exact ⟨fun made => ⟨accepted.1, accepted.2, Option.some.inj made⟩,
      fun ⟨_, _, same⟩ => same ▸ rfl⟩

/-- Whole numbers are read from numerals. -/
theorem whole?_eq_some_iff {text : List Char} {value : Int} :
    Text.whole? text = some value ↔ Numeral text value := by
  constructor
  · intro made
    unfold Text.whole? at made
    split at made
    · obtain ⟨magnitude, read, rfl⟩ := Option.map_eq_some_iff.mp made
      obtain ⟨digits, read, same⟩ := Option.bind_eq_some_iff.mp read
      obtain ⟨nonempty, all, rfl⟩ := unsigned?_eq_some_iff.mp read
      cases same
      exact .negative nonempty all
    · obtain ⟨magnitude, read, rfl⟩ := Option.map_eq_some_iff.mp made
      obtain ⟨nonempty, all, rfl⟩ := unsigned?_eq_some_iff.mp read
      exact .positive nonempty all
    · obtain ⟨magnitude, read, rfl⟩ := Option.map_eq_some_iff.mp made
      obtain ⟨nonempty, all, rfl⟩ := unsigned?_eq_some_iff.mp read
      exact .unsigned nonempty all
  · intro numeral
    cases numeral with
    | unsigned nonempty all =>
      have read := unsigned?_eq_some_iff.mpr ⟨nonempty, all, rfl⟩
      unfold Text.whole?
      split
      -- A sign is no digit.
      · exact absurd (all _ List.mem_cons_self) (by decide)
      · exact absurd (all _ List.mem_cons_self) (by decide)
      · rw [read]
        rfl
    | positive nonempty all =>
      rw [Text.whole?, unsigned?_eq_some_iff.mpr ⟨nonempty, all, rfl⟩]
      rfl
    | negative nonempty all =>
      rw [Text.whole?, unsigned?_eq_some_iff.mpr ⟨nonempty, all, rfl⟩]
      rfl

/-- A text holds an integer if the numeral of the integer lies between the white space. -/
theorem integer?_eq_some_iff {text inner : String} (trimmed : Trimmed text inner) {n : Int64} :
    integer? text = some n ↔ Numeral inner.toList n.toInt := by
  rw [integer?, trimmed.trim_eq, Option.bind_eq_some_iff]
  constructor
  · rintro ⟨value, read, fits⟩
    rw [← Integer.ofInt?_eq_some_iff.mp fits] at read
    exact whole?_eq_some_iff.mp read
  · exact fun numeral => ⟨_, whole?_eq_some_iff.mpr numeral, Integer.ofInt?_eq_some_iff.mpr rfl⟩

end Console

end Quill
