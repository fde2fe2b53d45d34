import Quill.Token.Scan

/-!
# Spellings

The ways to write a token, and the longest match at the head of a text that begins with one of them.
The match is the token as it was written, unless the character behind it could continue it: a letter
a word, a digit or a point a number, an equals sign an assignment mark.
-/

namespace Quill.Lexeme

open Quill.Token Quill.Text

/-! ## The longest match -/

theorem foldl_longer (first : Lexeme) (rest : List Lexeme) :
    ∃ earlier later, first :: rest = earlier ++ rest.foldl longer first :: later ∧
      (∀ other ∈ earlier, other.length < (rest.foldl longer first).length) ∧
      ∀ other ∈ later, other.length ≤ (rest.foldl longer first).length := by
  induction rest generalizing first with
  | nil => exact ⟨[], [], rfl, by simp, by simp⟩
  | cons next rest ih =>
    obtain ⟨earlier, later, split, shorter, noLonger⟩ := ih (longer first next)
    simp only [List.foldl_cons]
    by_cases grows : first.length < next.length
    · have same : longer first next = next := if_pos grows
      rw [same] at split shorter noLonger ⊢
      generalize rest.foldl longer next = best at split shorter noLonger ⊢
      refine ⟨first :: earlier, later, by rw [split]; rfl, ?_, noLonger⟩
      have bound : next.length ≤ best.length := by
        have member : next ∈ earlier ++ best :: later := by
          rw [← split]
          exact List.mem_cons_self
        rcases List.mem_append.mp member with early | late
        · exact Nat.le_of_lt (shorter next early)
        · rcases List.mem_cons.mp late with rfl | late
          · exact Nat.le_refl _
          · exact noLonger next late
      intro other listed
      rcases List.mem_cons.mp listed with rfl | listed
      · omega
      · exact shorter other listed
    · have same : longer first next = first := if_neg grows
      rw [same] at split shorter noLonger ⊢
      generalize rest.foldl longer first = best at split shorter noLonger ⊢
      cases earlier with
      | nil =>
        obtain ⟨rfl, rfl⟩ := List.cons.inj split
        refine ⟨[], next :: rest, rfl, by simp, ?_⟩
        intro other listed
        rcases List.mem_cons.mp listed with rfl | listed
        · omega
        · exact noLonger other listed
      | cons head earlier =>
        obtain ⟨rfl, tail⟩ := List.cons.inj split
        refine ⟨first :: next :: earlier, later, by rw [tail]; rfl, ?_, noLonger⟩
        have bound := shorter first List.mem_cons_self
        intro other listed
        rcases List.mem_cons.mp listed with rfl | listed
        · exact bound
        rcases List.mem_cons.mp listed with rfl | listed
        · omega
        · exact shorter other (List.mem_cons_of_mem _ listed)

/-- The longest match is a candidate that is longer than every earlier one and at least as long as
every later one. -/
theorem candidates_of_longest? {text : List Char} {best : Lexeme}
    (found : longest? text = some best) :
    ∃ earlier later, candidates text = earlier ++ best :: later ∧
      (∀ other ∈ earlier, other.length < best.length) ∧
      ∀ other ∈ later, other.length ≤ best.length := by
  unfold longest? at found
  cases listed : candidates text with
  | nil => simp [listed] at found
  | cons first rest =>
    rw [listed] at found
    obtain rfl := Option.some.inj found
    exact foldl_longer first rest

theorem foldl_longer_of_le {best : Lexeme} {others : List Lexeme}
    (noLonger : ∀ other ∈ others, other.length ≤ best.length) :
    others.foldl longer best = best := by
  induction others with
  | nil => rfl
  | cons other others ih =>
    have kept : longer best other = best :=
      if_neg (Nat.not_lt.mpr (noLonger other List.mem_cons_self))
    rw [List.foldl_cons, kept]
    exact ih fun other listed => noLonger other (List.mem_cons_of_mem _ listed)

theorem foldl_longer_of_lt {best first : Lexeme} {earlier later : List Lexeme}
    (below : first.length < best.length) (shorter : ∀ other ∈ earlier, other.length < best.length)
    (noLonger : ∀ other ∈ later, other.length ≤ best.length) :
    (earlier ++ best :: later).foldl longer first = best := by
  induction earlier generalizing first with
  | nil =>
    have grows : longer first best = best := if_pos below
    rw [List.nil_append, List.foldl_cons, grows]
    exact foldl_longer_of_le noLonger
  | cons other earlier ih =>
    rw [List.cons_append, List.foldl_cons]
    refine ih ?_ fun other listed => shorter other (List.mem_cons_of_mem _ listed)
    unfold longer
    split
    · exact shorter other List.mem_cons_self
    · exact below

/-- A candidate that is longer than every earlier one and at least as long as every later one is the
longest match. -/
theorem longest?_of_candidates {text : List Char} {best : Lexeme} {earlier later : List Lexeme}
    (split : candidates text = earlier ++ best :: later)
    (shorter : ∀ other ∈ earlier, other.length < best.length)
    (noLonger : ∀ other ∈ later, other.length ≤ best.length) : longest? text = some best := by
  unfold longest?
  rw [split]
  cases earlier with
  | nil => exact congrArg some (foldl_longer_of_le noLonger)
  | cons first earlier =>
    refine congrArg some (foldl_longer_of_lt (shorter first List.mem_cons_self) ?_ noLonger)
    exact fun other listed => shorter other (List.mem_cons_of_mem _ listed)

/-- The first candidate is the longest match if no other one is longer. -/
theorem longest?_of_first {text : List Char} {best : Lexeme} {later : List Lexeme}
    (split : candidates text = best :: later)
    (noLonger : ∀ other ∈ later, other.length ≤ best.length) : longest? text = some best :=
  longest?_of_candidates (split.trans (List.nil_append _).symm) (by simp) noLonger

/-! ## Spellings -/

/-- The characters are a way to write the token. -/
inductive Spells : List Char → Kind → Prop where
  /-- A float is written as digits, a point and digits. -/
  | float {whole fraction : List Char} (wholeDigits : ∀ c ∈ whole, isDigit c = true)
      (fractionDigits : ∀ c ∈ fraction, isDigit c = true) (wholeSome : whole ≠ [])
      (fractionSome : fraction ≠ []) :
      Spells (whole ++ '.' :: fraction)
        (.float (Float.ofScientific (natural (whole ++ fraction)) true fraction.length))
  /-- An integer is written in digits. -/
  | int {digits : List Char} (digital : ∀ c ∈ digits, isDigit c = true) (filled : digits ≠ [])
      (small : natural digits ≤ maxMagnitude) : Spells digits (.int (natural digits))
  /-- A string is written between quotes. -/
  | str {body : List Char} (closed : ∀ rest, Quoted.body? (body ++ '"' :: rest) = some body) :
      Spells ('"' :: body ++ ['"']) (.str (String.ofList (Quoted.decode body)))
  /-- A name is written in its letters. The letters of reserved words are no name. -/
  | identifier {first : Char} {rest : List Char} (starts : isNameStart first = true)
      (parts : ∀ c ∈ rest, isNamePart c = true)
      (free : ∀ word : Keyword, word.text.toList ≠ first :: rest) :
      Spells (first :: rest) (.identifier (String.ofList (first :: rest)))
  /-- A reserved word is written in its letters. -/
  | keyword (word : Keyword) : Spells word.text.toList (.keyword word)
  /-- A mark is written in its characters. -/
  | mark (sign : Mark) : Spells sign.text.toList (.mark sign)
  | newline : Spells ['\n'] .newline
  | semicolon : Spells [';'] .semicolon

/-- Whether the character would make another token of a written one that it follows. -/
def continues : Kind → Char → Bool
  | .float _, c => isDigit c
  | .int _, c => isDigit c || c = '.'
  | .identifier _, c | .keyword _, c => isNamePart c
  | .mark .minus, c => c = '>'
  | .mark .assign, c | .mark .less, c | .mark .greater, c => c = '='
  | _, _ => false

/-- The text does not begin with a character that continues the token. -/
def Stops (kind : Kind) (rest : List Char) : Prop :=
  ∀ c, rest.head? = some c → continues kind c = false

/-! ## Candidates -/

theorem takeWhile_append_of_stop {p : Char → Bool} {inside rest : List Char}
    (all : ∀ c ∈ inside, p c = true) (stop : ∀ c, rest.head? = some c → p c = false) :
    (inside ++ rest).takeWhile p = inside := by
  rw [List.takeWhile_append_of_pos all]
  cases rest with
  | nil => simp
  | cons c rest => simp [stop c rfl]

theorem dropWhile_append_of_stop {p : Char → Bool} {inside rest : List Char}
    (all : ∀ c ∈ inside, p c = true) (stop : ∀ c, rest.head? = some c → p c = false) :
    (inside ++ rest).dropWhile p = rest := by
  rw [List.dropWhile_append_of_pos all]
  cases rest with
  | nil => rfl
  | cons c rest => simp [stop c rfl]

/-- The matches of the fixed spellings. -/
def fixedMatches (text : List Char) : List Lexeme :=
  spellings.filterMap fun (spelling, kind) => fixed? text spelling kind

theorem candidates_eq (text : List Char) :
    candidates text = fixedMatches text ++
      [float? text, int? text, str? text, name? text, comment? text, blanks? text].filterMap id :=
  rfl

/-- A fixed spelling that matches is the beginning of the text. -/
theorem mem_fixedMatches {text : List Char} {lexeme : Lexeme} :
    lexeme ∈ fixedMatches text ↔ ∃ spelling kind, (spelling, kind) ∈ spellings ∧
      spelling <+: text ∧ lexeme = ⟨spelling.length, .token kind⟩ := by
  simp only [fixedMatches, List.mem_filterMap, Prod.exists, fixed?]
  constructor
  · rintro ⟨spelling, kind, listed, same⟩
    split at same
    · rename_i begins
      exact ⟨spelling, kind, listed, List.isPrefixOf_iff_prefix.mp begins,
        (Option.some.inj same).symm⟩
    · cases same
  · rintro ⟨spelling, kind, listed, begins, rfl⟩
    exact ⟨spelling, kind, listed, if_pos (List.isPrefixOf_iff_prefix.mpr begins)⟩

/-- A longest match that is as long as a fixed spelling there is the match of a fixed spelling, as
these come before all other patterns. -/
theorem mem_fixedMatches_of_longest? {text : List Char} {best fixed : Lexeme}
    (found : longest? text = some best) (listed : fixed ∈ fixedMatches text)
    (same : fixed.length = best.length) : best ∈ fixedMatches text := by
  obtain ⟨earlier, later, split, shorter, -⟩ := candidates_of_longest? found
  have late : fixed ∉ earlier := fun early => Nat.lt_irrefl _ (same ▸ shorter fixed early)
  rw [candidates_eq] at split
  rcases List.append_eq_append_iff.mp split with ⟨more, rfl, -⟩ | ⟨more, front, back⟩
  · exact absurd (List.mem_append_left _ listed) late
  · cases more with
    | nil =>
      rw [List.append_nil] at front
      exact absurd (front ▸ listed) late
    | cons head more =>
      obtain ⟨rfl, -⟩ := List.cons.inj back
      rw [front]
      simp

/-- No spelling is empty. -/
theorem spelling_ne_nil {spelling : List Char} {kind : Kind}
    (listed : (spelling, kind) ∈ spellings) : spelling ≠ [] := by
  have filled : spellings.all (fun entry => !entry.1.isEmpty) = true := by decide
  have present := List.all_eq_true.mp filled _ listed
  rintro rfl
  simp at present

/-- No spelling begins with a digit, a quote, a number sign or a blank. -/
theorem spelling_head {spelling : List Char} {kind : Kind} {c : Char} {rest : List Char}
    (listed : (spelling, kind) ∈ spellings) (begins : spelling <+: c :: rest) :
    isDigit c = false ∧ c ≠ '"' ∧ c ≠ '#' ∧ isBlank c = false := by
  have heads : spellings.all (fun entry => entry.1.head?.all fun c =>
      !isDigit c && c != '"' && c != '#' && !isBlank c) = true := by decide
  have head := List.all_eq_true.mp heads _ listed
  cases spelling with
  | nil => exact absurd rfl (spelling_ne_nil listed)
  | cons first spelling =>
    obtain ⟨rfl, -⟩ := List.cons_prefix_cons.mp begins
    simpa [and_assoc] using head

/-- Where a text begins with a digit, a quote, a number sign or a blank, no fixed spelling
matches. -/
theorem fixedMatches_of_head {c : Char} (rest : List Char)
    (other : (isDigit c || c == '"' || c == '#' || isBlank c) = true) :
    fixedMatches (c :: rest) = [] := by
  refine List.eq_nil_iff_forall_not_mem.mpr fun lexeme listed => ?_
  obtain ⟨spelling, kind, known, begins, -⟩ := mem_fixedMatches.mp listed
  have head := spelling_head known begins
  simp [head] at other

/-- A spelling that begins with a letter is a reserved word. -/
theorem keyword_of_spelling {spelling : List Char} {kind : Kind} {c : Char} {rest : List Char}
    (listed : (spelling, kind) ∈ spellings) (begins : spelling <+: c :: rest)
    (letter : isNameStart c = true) :
    (∀ c ∈ spelling, isNamePart c = true) ∧
      ∃ word : Keyword, spelling = word.text.toList ∧ kind = .keyword word := by
  have letters : Keyword.all.all (fun word => word.text.toList.all isNamePart) = true := by decide
  have others : (spellings.drop Keyword.all.length).all (fun entry =>
      entry.1.head?.all fun c => !isNameStart c) = true := by decide
  have split : spellings = Keyword.all.map (fun word => (word.text.toList, .keyword word)) ++
      spellings.drop Keyword.all.length := rfl
  rw [split] at listed
  rcases List.mem_append.mp listed with reserved | other
  · obtain ⟨word, known, same⟩ := List.mem_map.mp reserved
    obtain ⟨rfl, rfl⟩ := Prod.mk.inj same
    refine ⟨?_, word, rfl, rfl⟩
    simpa using List.all_eq_true.mp letters word known
  · have head := List.all_eq_true.mp others _ other
    cases spelling with
    | nil => exact absurd rfl (spelling_ne_nil (split ▸ listed))
    | cons first spelling =>
      obtain ⟨rfl, -⟩ := List.cons_prefix_cons.mp begins
      simp [letter] at head

/-! ## Classes of characters -/

theorem char_le_iff {a b : Char} : a ≤ b ↔ a.toNat ≤ b.toNat :=
  Iff.rfl

/-- No name begins with a digit. -/
theorem not_isNameStart_of_isDigit {c : Char} (digit : isDigit c = true) :
    isNameStart c = false := by
  simp [isDigit, isNameStart, char_le_iff, ← Char.toNat_inj] at digit ⊢
  omega

/-- A digit is none of the signs that other patterns begin with. -/
theorem of_isDigit {c : Char} (digit : isDigit c = true) :
    c ≠ '"' ∧ c ≠ '#' ∧ c ≠ '.' ∧ isBlank c = false := by
  refine ⟨?_, ?_, ?_, ?_⟩
  · rintro rfl
    exact absurd digit (by decide)
  · rintro rfl
    exact absurd digit (by decide)
  · rintro rfl
    exact absurd digit (by decide)
  · simp [isDigit, isBlank, char_le_iff, ← Char.toNat_inj] at digit ⊢
    omega

/-- A letter is none of the signs that other patterns begin with. -/
theorem of_isNameStart {c : Char} (letter : isNameStart c = true) :
    c ≠ '"' ∧ c ≠ '#' ∧ isBlank c = false := by
  refine ⟨?_, ?_, ?_⟩
  · rintro rfl
    exact absurd letter (by decide)
  · rintro rfl
    exact absurd letter (by decide)
  · simp [isNameStart, isBlank, char_le_iff, ← Char.toNat_inj] at letter ⊢
    omega

/-- A blank is none of the signs that other patterns begin with. -/
theorem of_isBlank {c : Char} (blank : isBlank c = true) :
    isDigit c = false ∧ isNameStart c = false ∧ c ≠ '"' ∧ c ≠ '#' := by
  simp only [isBlank, Bool.or_eq_true, decide_eq_true_eq] at blank
  rcases blank with ((rfl | rfl) | rfl) | rfl <;> decide

/-! ## The match of a written token -/

theorem str?_of_head {c : Char} (rest : List Char) (other : c ≠ '"') : str? (c :: rest) = none := by
  unfold str?
  split
  · rename_i same
    exact absurd (List.cons.inj same).1 other
  · rfl

theorem comment?_of_head {c : Char} (rest : List Char) (other : c ≠ '#') :
    comment? (c :: rest) = none := by
  unfold comment?
  split
  · rename_i same
    exact absurd (List.cons.inj same).1 other
  · rfl

theorem blanks?_of_head {c : Char} (rest : List Char) (other : isBlank c = false) :
    blanks? (c :: rest) = none := by
  simp [blanks?, other]

theorem name?_of_head {c : Char} (rest : List Char) (other : isNameStart c = false) :
    name? (c :: rest) = none := by
  simp [name?, other]

theorem int?_of_head {c : Char} (rest : List Char) (other : isDigit c = false) :
    int? (c :: rest) = none := by
  simp [int?, other]

theorem float?_of_head {c : Char} (rest : List Char) (other : isDigit c = false) :
    float? (c :: rest) = none := by
  simp only [float?, List.takeWhile_cons, List.dropWhile_cons, other]
  split <;> rfl

/-- Where a text begins with a digit, only the patterns of numbers match. -/
theorem candidates_of_digit {c : Char} (rest : List Char) (digit : isDigit c = true) :
    candidates (c :: rest) = [float? (c :: rest), int? (c :: rest)].filterMap id := by
  obtain ⟨noQuote, noSign, -, noBlank⟩ := of_isDigit digit
  rw [candidates_eq, fixedMatches_of_head rest (by simp [digit]), str?_of_head rest noQuote,
    comment?_of_head rest noSign, blanks?_of_head rest noBlank,
    name?_of_head rest (not_isNameStart_of_isDigit digit)]
  rfl

/-- Where a text begins with a letter, only reserved words and the pattern of names match. -/
theorem candidates_of_letter {c : Char} (rest : List Char) (letter : isNameStart c = true) :
    candidates (c :: rest) = fixedMatches (c :: rest) ++
      [⟨(c :: rest.takeWhile isNamePart).length,
        .token (.identifier (String.ofList (c :: rest.takeWhile isNamePart)))⟩] := by
  obtain ⟨noQuote, noSign, noBlank⟩ := of_isNameStart letter
  have noDigit : isDigit c = false := by
    cases digit : isDigit c with
    | false => rfl
    | true =>
      rw [not_isNameStart_of_isDigit digit] at letter
      cases letter
  rw [candidates_eq, float?_of_head rest noDigit, int?_of_head rest noDigit,
    str?_of_head rest noQuote, comment?_of_head rest noSign, blanks?_of_head rest noBlank]
  simp [name?, letter]

/-- The reserved words that match are no longer than the whole name. -/
theorem length_of_fixedMatches {c : Char} {inside rest : List Char}
    (letter : isNameStart c = true)
    (stop : ∀ c, rest.head? = some c → isNamePart c = false) {lexeme : Lexeme}
    (listed : lexeme ∈ fixedMatches (c :: inside ++ rest)) :
    lexeme.length ≤ (c :: inside).length ∧ (lexeme.length = (c :: inside).length →
      ∃ word : Keyword,
        word.text.toList = c :: inside ∧ lexeme.reading = .token (.keyword word)) := by
  obtain ⟨spelling, kind, known, begins, rfl⟩ := mem_fixedMatches.mp listed
  obtain ⟨parts, word, rfl, rfl⟩ := keyword_of_spelling known begins letter
  obtain ⟨tail, split⟩ := begins
  have within : word.text.toList <+: c :: inside := by
    rcases List.append_eq_append_iff.mp split with ⟨more, same, -⟩ | ⟨more, same, beyond⟩
    · exact ⟨more, same.symm⟩
    · cases more with
      | nil => exact ⟨[], by simpa using same⟩
      | cons d more =>
        have part := parts d (by rw [same]; simp)
        rw [stop d (by rw [beyond]; rfl)] at part
        cases part
  refine ⟨within.length_le, fun same => ⟨word, within.eq_of_length same, rfl⟩⟩

theorem longest?_float {whole fraction rest : List Char}
    (wholeDigits : ∀ c ∈ whole, isDigit c = true)
    (fractionDigits : ∀ c ∈ fraction, isDigit c = true) (wholeSome : whole ≠ [])
    (fractionSome : fraction ≠ []) (stop : ∀ c, rest.head? = some c → isDigit c = false) :
    longest? (whole ++ '.' :: fraction ++ rest) = some ⟨(whole ++ '.' :: fraction).length,
      .token (.float (Float.ofScientific (natural (whole ++ fraction)) true fraction.length))⟩ := by
  obtain ⟨first, more, rfl⟩ := List.exists_cons_of_ne_nil wholeSome
  have atPoint : ∀ c, ('.' :: (fraction ++ rest)).head? = some c → isDigit c = false := by
    rintro c ⟨⟩
    decide
  have text : first :: more ++ '.' :: fraction ++ rest =
      (first :: more) ++ '.' :: (fraction ++ rest) := by simp
  have taken := takeWhile_append_of_stop wholeDigits atPoint
  have dropped := dropWhile_append_of_stop wholeDigits atPoint
  have float : float? (first :: more ++ '.' :: fraction ++ rest) =
      some ⟨(first :: more ++ '.' :: fraction).length, .token (.float
        (Float.ofScientific (natural (first :: more ++ fraction)) true fraction.length))⟩ := by
    rw [text]
    unfold float?
    rw [taken, dropped]
    simp only [takeWhile_append_of_stop fractionDigits stop]
    simp [fractionSome]
    omega
  have int : int? (first :: more ++ '.' :: fraction ++ rest) = some ⟨(first :: more).length,
      if natural (first :: more) ≤ maxMagnitude then .token (.int (natural (first :: more)))
      else .oversized⟩ := by
    rw [text]
    unfold int?
    rw [taken]
    rfl
  have listed := candidates_of_digit (more ++ '.' :: fraction ++ rest)
    (wholeDigits first List.mem_cons_self)
  rw [← List.cons_append, ← List.cons_append, float, int] at listed
  refine longest?_of_first listed ?_
  intro other late
  obtain rfl := List.mem_singleton.mp late
  simp

theorem longest?_int {digits rest : List Char} (digital : ∀ c ∈ digits, isDigit c = true)
    (filled : digits ≠ []) (small : natural digits ≤ maxMagnitude)
    (stop : ∀ c, rest.head? = some c → isDigit c = false ∧ c ≠ '.') :
    longest? (digits ++ rest) = some ⟨digits.length, .token (.int (natural digits))⟩ := by
  obtain ⟨first, more, rfl⟩ := List.exists_cons_of_ne_nil filled
  have atEnd : ∀ c, rest.head? = some c → isDigit c = false := fun c head => (stop c head).1
  have float : float? (first :: more ++ rest) = none := by
    unfold float?
    rw [takeWhile_append_of_stop digital atEnd, dropWhile_append_of_stop digital atEnd]
    cases rest with
    | nil => rfl
    | cons c rest =>
      have noPoint := (stop c rfl).2
      split
      · rename_i same
        exact absurd (List.cons.inj same).1 noPoint
      · rfl
  have int : int? (first :: more ++ rest) =
      some ⟨(first :: more).length, .token (.int (natural (first :: more)))⟩ := by
    unfold int?
    rw [takeWhile_append_of_stop digital atEnd]
    simp [small]
  have listed := candidates_of_digit (more ++ rest) (digital first List.mem_cons_self)
  rw [← List.cons_append, float, int] at listed
  exact longest?_of_first listed (by simp)

/-- A name that is no reserved word is longer than every word that it begins with. -/
theorem longest?_identifier {first : Char} {inside rest : List Char}
    (starts : isNameStart first = true) (parts : ∀ c ∈ inside, isNamePart c = true)
    (free : ∀ word : Keyword, word.text.toList ≠ first :: inside)
    (stop : ∀ c, rest.head? = some c → isNamePart c = false) :
    longest? (first :: inside ++ rest) = some ⟨(first :: inside).length,
      .token (.identifier (String.ofList (first :: inside)))⟩ := by
  have listed := candidates_of_letter (inside ++ rest) starts
  rw [takeWhile_append_of_stop parts stop] at listed
  refine longest?_of_candidates listed (fun other early => ?_) (by simp)
  obtain ⟨within, whole⟩ := length_of_fixedMatches starts stop early
  refine Nat.lt_of_le_of_ne within fun same => ?_
  obtain ⟨word, taken, -⟩ := whole same
  exact free word taken

/-- A reserved word wins against the name of the same letters, which is declared later. -/
theorem longest?_keyword (word : Keyword) {rest : List Char}
    (stop : ∀ c, rest.head? = some c → isNamePart c = false) :
    longest? (word.text.toList ++ rest) =
      some ⟨word.text.toList.length, .token (.keyword word)⟩ := by
  have only : fixedMatches (word.text.toList ++ rest) =
      [⟨word.text.toList.length, .token (.keyword word)⟩] := by
    cases word <;> rfl
  have letters : Keyword.all.all (fun word => word.text.toList.all isNamePart &&
      word.text.toList.head?.any isNameStart) = true := by decide
  have spelled := List.all_eq_true.mp letters word (Keyword.mem_all word)
  generalize word.text.toList = text at only spelled
  cases text with
  | nil => simp at spelled
  | cons first inside =>
    simp only [List.all_cons, List.head?_cons, Option.any_some, Bool.and_eq_true,
      List.all_eq_true] at spelled
    obtain ⟨⟨-, parts⟩, starts⟩ := spelled
    have listed := candidates_of_letter (inside ++ rest) starts
    rw [takeWhile_append_of_stop parts stop, ← List.cons_append, only] at listed
    refine longest?_of_first listed ?_
    intro other late
    obtain rfl := List.mem_singleton.mp late
    exact Nat.le_refl _

theorem longest?_str {body rest : List Char}
    (closed : Quoted.body? (body ++ '"' :: rest) = some body) :
    longest? ('"' :: body ++ ['"'] ++ rest) = some ⟨('"' :: body ++ ['"']).length,
      .token (.str (String.ofList (Quoted.decode body)))⟩ := by
  have listed : candidates ('"' :: body ++ ['"'] ++ rest) = [⟨body.length + 2,
      .token (.str (String.ofList (Quoted.decode body)))⟩] := by
    have text : '"' :: body ++ ['"'] ++ rest = '"' :: (body ++ '"' :: rest) := by simp
    have unlisted : fixedMatches ('"' :: (body ++ '"' :: rest)) = [] := rfl
    rw [text, candidates_eq, unlisted, name?_of_head _ rfl, comment?_of_head _ (by decide),
      blanks?_of_head _ rfl, int?_of_head _ rfl, float?_of_head _ rfl]
    simp [str?, closed]
  refine (longest?_of_first listed (by simp)).trans ?_
  simp

/-- Where a text begins with a sign that only fixed spellings begin with, and just one of them
matches, that is the longest match. -/
theorem longest?_of_fixed {c : Char} {rest : List Char} {lexeme : Lexeme}
    (only : fixedMatches (c :: rest) = [lexeme])
    (sign : !isDigit c && !isNameStart c && !isBlank c && c != '"' && c != '#') :
    longest? (c :: rest) = some lexeme := by
  simp only [Bool.and_eq_true, Bool.not_eq_true', bne_iff_ne, and_assoc] at sign
  obtain ⟨noDigit, noLetter, noBlank, noQuote, noSign⟩ := sign
  have listed := candidates_eq (c :: rest)
  rw [only, float?_of_head rest noDigit, int?_of_head rest noDigit, str?_of_head rest noQuote,
    name?_of_head rest noLetter, comment?_of_head rest noSign, blanks?_of_head rest noBlank]
    at listed
  exact longest?_of_first listed (by simp)

theorem longest?_mark (sign : Mark) {rest : List Char} (stops : Stops (.mark sign) rest) :
    longest? (sign.text.toList ++ rest) = some ⟨sign.text.toList.length, .token (.mark sign)⟩ := by
  cases rest with
  | nil => cases sign <;> rfl
  | cons c rest =>
    have stop : continues (.mark sign) c = false := stops c rfl
    cases sign with
    | minus =>
      change longest? ('-' :: c :: rest) = some ⟨1, .token (.mark .minus)⟩
      have other : '>' ≠ c := by simpa [continues, eq_comm] using stop
      refine longest?_of_fixed ?_ rfl
      simp [fixedMatches, spellings, Keyword.all, Keyword.text, Mark.all, Mark.text, fixed?, other]
    | assign =>
      change longest? ('=' :: c :: rest) = some ⟨1, .token (.mark .assign)⟩
      have other : '=' ≠ c := by simpa [continues, eq_comm] using stop
      refine longest?_of_fixed ?_ rfl
      simp [fixedMatches, spellings, Keyword.all, Keyword.text, Mark.all, Mark.text, fixed?, other]
    | less =>
      change longest? ('<' :: c :: rest) = some ⟨1, .token (.mark .less)⟩
      have other : '=' ≠ c := by simpa [continues, eq_comm] using stop
      refine longest?_of_fixed ?_ rfl
      simp [fixedMatches, spellings, Keyword.all, Keyword.text, Mark.all, Mark.text, fixed?, other]
    | greater =>
      change longest? ('>' :: c :: rest) = some ⟨1, .token (.mark .greater)⟩
      have other : '=' ≠ c := by simpa [continues, eq_comm] using stop
      refine longest?_of_fixed ?_ rfl
      simp [fixedMatches, spellings, Keyword.all, Keyword.text, Mark.all, Mark.text, fixed?, other]
    | _ => rfl

/-- A written token is the longest match, unless the character behind it continues it. -/
theorem longest?_spells {chars rest : List Char} {kind : Kind} (spells : Spells chars kind)
    (stops : Stops kind rest) :
    longest? (chars ++ rest) = some ⟨chars.length, .token kind⟩ := by
  cases spells with
  | float wholeDigits fractionDigits wholeSome fractionSome =>
    exact longest?_float wholeDigits fractionDigits wholeSome fractionSome stops
  | int digital filled small =>
    refine longest?_int digital filled small fun c head => ?_
    simpa [continues] using stops c head
  | str closed => exact longest?_str (closed rest)
  | identifier starts parts free => exact longest?_identifier starts parts free stops
  | keyword word => exact longest?_keyword word stops
  | mark sign => exact longest?_mark sign stops
  | newline => rfl
  | semicolon => rfl

end Quill.Lexeme
