import Mathlib.Algebra.Group.Nat.Defs
import Quill.Proofs.Lexing.Joining

/-!
# The declared patterns

A pattern covers certain texts, and a text that it covers amounts to a token, to an integer that is
too large, or to nothing that anybody would look at. Which text stands at the head of a longer one
is up to all patterns together: the longest one that any of them covers. Two patterns cover the same
text only where a name has the letters of a reserved word, and then the word is meant.

The patterns are told here by what they cover. The functions that look for a match at the head of a
text find the longest one of each pattern, so the longest of all they find is the one meant here.
-/

namespace Quill.Lexeme

open Quill.Token Quill.Text

/-- What stands between the quotes of a string, as it is written and as it is meant. -/
inductive Quotes : List Char → List Char → Prop where
  /-- Nothing. -/
  | nil : Quotes [] []
  /-- A character that stands for itself. -/
  | plain {c : Char} {written meant : List Char} (noQuote : c ≠ '"') (noSlash : c ≠ '\\')
      (noFeed : c ≠ '\n') (rest : Quotes written meant) : Quotes (c :: written) (c :: meant)
  /-- A character behind a backslash. -/
  | escape {c : Char} {written meant : List Char} (noFeed : c ≠ '\n')
      (rest : Quotes written meant) : Quotes ('\\' :: c :: written) (Quoted.escaped c :: meant)

/-- One of the patterns covers the characters, which amount to the reading by it. -/
inductive Declared : List Char → Reading → Prop where
  /-- Digits, a point and digits. -/
  | float {whole fraction : List Char} (wholeDigits : ∀ c ∈ whole, isDigit c = true)
      (fractionDigits : ∀ c ∈ fraction, isDigit c = true) (wholeSome : whole ≠ [])
      (fractionSome : fraction ≠ []) :
      Declared (whole ++ '.' :: fraction)
        (.token (.float (Float.ofScientific (natural (whole ++ fraction)) true fraction.length)))
  /-- Digits. -/
  | int {digits : List Char} (digital : ∀ c ∈ digits, isDigit c = true) (filled : digits ≠ [])
      (small : natural digits ≤ 2 ^ 63) : Declared digits (.token (.int (natural digits)))
  /-- Digits that stand for too large a number. -/
  | oversized {digits : List Char} (digital : ∀ c ∈ digits, isDigit c = true)
      (large : 2 ^ 63 < natural digits) : Declared digits .oversized
  /-- A string between quotes. -/
  | str {written meant : List Char} (quotes : Quotes written meant) :
      Declared ('"' :: written ++ ['"']) (.token (.str (String.ofList meant)))
  /-- A reserved word, a mark or a separator. -/
  | fixed {spelling : List Char} {kind : Kind} (listed : (spelling, kind) ∈ spellings) :
      Declared spelling (.token kind)
  /-- A letter or an underscore, and then letters, underscores and digits. -/
  | name {first : Char} {rest : List Char} (starts : isNameStart first = true)
      (parts : ∀ c ∈ rest, isNamePart c = true) :
      Declared (first :: rest) (.token (.identifier (String.ofList (first :: rest))))
  /-- A number sign and the rest of a line. -/
  | comment {line : List Char} (feedless : ∀ c ∈ line, c ≠ '\n') : Declared ('#' :: line) .skipped
  /-- Blanks. -/
  | blanks {run : List Char} (blank : ∀ c ∈ run, isBlank c = true) (filled : run ≠ []) :
      Declared run .skipped

/-- The characters are the longest ones at the head of the text that a pattern covers. If they are
the letters of a reserved word, it is this word that they amount to. -/
structure Longest (text chars : List Char) (reading : Reading) : Prop where
  /-- A pattern covers them. -/
  declared : Declared chars reading
  /-- The text begins with them. -/
  begins : chars <+: text
  /-- No pattern covers more. -/
  covers : ∀ other amount, Declared other amount → other <+: text → other.length ≤ chars.length
  /-- A reserved word wins against a name. -/
  reserved : ∀ word : Keyword, chars = word.text.toList → reading = .token (.keyword word)

/-! ## Every match is declared -/

variable {text chars : List Char} {lexeme : Lexeme} {reading : Reading}

theorem maxMagnitude_eq : maxMagnitude = 2 ^ 63 := by
  decide

theorem takeWhile_eq_self {p : Char → Bool} (all : ∀ c ∈ text, p c = true) :
    text.takeWhile p = text := by
  simpa using @takeWhile_append_of_stop p text [] all (by simp)

theorem take_takeWhile (p : Char → Bool) (text : List Char) :
    text.take (text.takeWhile p).length = text.takeWhile p :=
  (List.prefix_iff_eq_take.mp (List.takeWhile_prefix p)).symm

/-- What stands in front of the closing quote is read as it is meant, and nothing but the quote
itself stands behind it. -/
theorem quotes_of_body? {body : List Char} (found : Quoted.body? text = some body) :
    Quotes body (Quoted.decode body) ∧ body ++ ['"'] <+: text := by
  fun_induction Quoted.body? text generalizing body with
  | case2 rest =>
    cases found
    exact ⟨.nil, rest, rfl⟩
  | case6 c rest noFeed ih =>
    obtain ⟨inner, read, rfl⟩ := Option.map_eq_some_iff.mp found
    obtain ⟨quotes, behind, rfl⟩ := ih read
    exact ⟨.escape (fun feed => noFeed feed) quotes, behind, rfl⟩
  | case7 c rest noQuote noFeed atEnd onLine before ih =>
    obtain ⟨inner, read, rfl⟩ := Option.map_eq_some_iff.mp found
    obtain ⟨quotes, behind, rfl⟩ := ih read
    have noSlash : c ≠ '\\' := by
      intro slash
      cases inner with
      | nil => exact before '"' behind slash rfl
      | cons next inner => exact before next _ slash rfl
    refine ⟨?_, behind, rfl⟩
    rw [Quoted.decode]
    · exact .plain (fun quote => noQuote quote) noSlash (fun feed => noFeed feed) quotes
    · exact fun slash => absurd slash noSlash
    · exact fun _ _ slash => absurd slash noSlash
  | _ => cases found

theorem declared_of_float? (found : float? text = some lexeme) :
    Declared (text.take lexeme.length) lexeme.reading := by
  unfold float? at found
  dsimp only at found
  split at found
  · rename_i rest behind
    split at found
    · cases found
    · rename_i filled
      simp only [Bool.or_eq_true, List.isEmpty_iff, not_or] at filled
      cases found
      have digits : ∀ c ∈ text.takeWhile isDigit, isDigit c = true := all_of_takeWhile
      have split : text.takeWhile isDigit ++ '.' :: rest = text := by
        rw [← behind, List.takeWhile_append_dropWhile]
      generalize text.takeWhile isDigit = whole at split digits filled ⊢
      subst split
      have taken : (whole ++ '.' :: rest).take (whole.length + 1 +
          (rest.takeWhile isDigit).length) = whole ++ '.' :: rest.takeWhile isDigit := by
        rw [Nat.add_assoc, List.take_length_add_append, Nat.add_comm 1, List.take_succ_cons,
          take_takeWhile]
      dsimp only
      rw [taken]
      exact .float digits all_of_takeWhile filled.1 filled.2
  · cases found

theorem declared_of_int? (found : int? text = some lexeme) :
    Declared (text.take lexeme.length) lexeme.reading := by
  unfold int? at found
  dsimp only at found
  split at found
  · cases found
  · rename_i filled
    cases found
    dsimp only
    rw [take_takeWhile, maxMagnitude_eq]
    split
    · rename_i small
      exact .int all_of_takeWhile (by simpa using filled) small
    · rename_i large
      exact .oversized all_of_takeWhile (Nat.not_le.mp large)

theorem declared_of_str? (found : str? text = some lexeme) :
    Declared (text.take lexeme.length) lexeme.reading := by
  unfold str? at found
  split at found
  · obtain ⟨body, read, rfl⟩ := Option.map_eq_some_iff.mp found
    obtain ⟨quotes, behind, rfl⟩ := quotes_of_body? read
    have taken : ('"' :: (body ++ ['"'] ++ behind)).take (body.length + 2) =
        '"' :: body ++ ['"'] := @List.take_left' _ ('"' :: body ++ ['"']) _ _ (by simp)
    dsimp only
    rw [taken]
    exact .str quotes
  · cases found

theorem declared_of_name? (found : name? text = some lexeme) :
    Declared (text.take lexeme.length) lexeme.reading := by
  unfold name? at found
  split at found
  · cases found
  · rename_i first rest
    split at found
    · rename_i starts
      cases found
      dsimp only
      rw [List.length_cons, List.take_succ_cons, take_takeWhile]
      exact .name starts all_of_takeWhile
    · cases found

theorem declared_of_comment? (found : comment? text = some lexeme) :
    Declared (text.take lexeme.length) lexeme.reading := by
  unfold comment? at found
  split at found
  · cases found
    dsimp only
    rw [List.take_succ_cons, take_takeWhile]
    refine .comment fun c inside => ?_
    simpa using all_of_takeWhile c inside
  · cases found

theorem declared_of_blanks? (found : blanks? text = some lexeme) :
    Declared (text.take lexeme.length) lexeme.reading := by
  unfold blanks? at found
  dsimp only at found
  split at found
  · cases found
  · rename_i filled
    cases found
    dsimp only
    rw [take_takeWhile]
    exact .blanks all_of_takeWhile (by simpa using filled)

theorem declared_of_candidates (listed : lexeme ∈ candidates text) :
    Declared (text.take lexeme.length) lexeme.reading := by
  rw [candidates_eq] at listed
  rcases List.mem_append.mp listed with fixed | other
  · obtain ⟨spelling, kind, known, begins, rfl⟩ := mem_fixedMatches.mp fixed
    dsimp only
    rw [← List.prefix_iff_eq_take.mp begins]
    exact .fixed known
  simp only [List.mem_filterMap, List.mem_cons, List.not_mem_nil, or_false, id] at other
  obtain ⟨found, rfl | rfl | rfl | rfl | rfl | rfl, same⟩ := other
  · exact declared_of_float? same
  · exact declared_of_int? same
  · exact declared_of_str? same
  · exact declared_of_name? same
  · exact declared_of_comment? same
  · exact declared_of_blanks? same

/-! ## Every declared text is matched -/

/-- A run of characters of one class at the head of a text goes on as long as the class does. -/
theorem length_le_takeWhile (p : Char → Bool) {inside : List Char}
    (all : ∀ c ∈ inside, p c = true) (rest : List Char) :
    inside.length ≤ ((inside ++ rest).takeWhile p).length := by
  rw [List.takeWhile_append_of_pos all, List.length_append]
  exact Nat.le_add_right _ _

theorem body?_of_quotes {written meant : List Char} (quotes : Quotes written meant)
    (rest : List Char) : Quoted.body? (written ++ '"' :: rest) = some written := by
  induction quotes with
  | nil => rfl
  | @plain c written meant noQuote noSlash noFeed inner ih =>
    rw [List.cons_append, Quoted.body?, ih]
    · rfl
    · exact fun quote => noQuote quote
    · exact fun feed => noFeed feed
    · exact fun slash => absurd slash noSlash
    · exact fun _ slash => absurd slash noSlash
    · exact fun _ _ slash => absurd slash noSlash
  | @escape c written meant noFeed inner ih =>
    rw [List.cons_append, List.cons_append, Quoted.body?, ih]
    · rfl
    · exact fun feed => noFeed feed

/-- Whatever a pattern covers at the head of a text, a match covers at least as much. -/
theorem exists_candidate (declared : Declared chars reading) (rest : List Char) :
    ∃ lexeme ∈ candidates (chars ++ rest), chars.length ≤ lexeme.length := by
  have among (found : Option Lexeme)
      (listed : found ∈ [float? (chars ++ rest), int? (chars ++ rest), str? (chars ++ rest),
        name? (chars ++ rest), comment? (chars ++ rest), blanks? (chars ++ rest)])
      (enough : ∃ lexeme, found = some lexeme ∧ chars.length ≤ lexeme.length) :
      ∃ lexeme ∈ candidates (chars ++ rest), chars.length ≤ lexeme.length := by
    obtain ⟨lexeme, rfl, long⟩ := enough
    refine ⟨lexeme, ?_, long⟩
    rw [candidates_eq]
    exact List.mem_append_right _ (List.mem_filterMap.mpr ⟨_, listed, rfl⟩)
  have digits (digital : ∀ c ∈ chars, isDigit c = true) (filled : chars ≠ []) :
      ∃ lexeme ∈ candidates (chars ++ rest), chars.length ≤ lexeme.length := by
    have long := length_le_takeWhile isDigit digital rest
    have most : (chars ++ rest).takeWhile isDigit ≠ [] :=
      List.length_pos_iff.mp (Nat.lt_of_lt_of_le (List.length_pos_iff.mpr filled) long)
    refine among (int? (chars ++ rest)) (by simp) ?_
    simp only [int?, List.isEmpty_iff, most, if_false, Option.some.injEq, exists_eq_left', long]
  cases declared with
  | @float whole fraction wholeDigits fractionDigits wholeSome fractionSome =>
    have atPoint : ∀ c, ('.' :: (fraction ++ rest)).head? = some c → isDigit c = false := by
      rintro c ⟨⟩
      decide
    have text : whole ++ '.' :: fraction ++ rest = whole ++ '.' :: (fraction ++ rest) := by simp
    have taken := takeWhile_append_of_stop wholeDigits atPoint
    have dropped := dropWhile_append_of_stop wholeDigits atPoint
    have long := length_le_takeWhile isDigit fractionDigits rest
    have most : (fraction ++ rest).takeWhile isDigit ≠ [] :=
      List.length_pos_iff.mp (Nat.lt_of_lt_of_le (List.length_pos_iff.mpr fractionSome) long)
    refine among (float? (whole ++ '.' :: fraction ++ rest)) (by simp) ?_
    rw [text]
    simp only [float?, taken, dropped, Bool.or_eq_true, List.isEmpty_iff, wholeSome, most, or_self,
      if_false, Option.some.injEq, exists_eq_left', List.length_append, List.length_cons]
    omega
  | int digital filled => exact digits digital filled
  | oversized digital large =>
    refine digits digital ?_
    rintro rfl
    exact absurd large (by decide)
  | @str written meant quotes =>
    refine among (str? ('"' :: written ++ ['"'] ++ rest)) (by simp) ?_
    have body : Quoted.body? (written ++ ['"'] ++ rest) = some written := by
      simpa using body?_of_quotes quotes rest
    simp only [str?, List.cons_append, body, Option.map_some, Option.some.injEq, exists_eq_left']
    simp
  | fixed listed =>
    refine ⟨_, List.mem_append_left _ (mem_fixedMatches.mpr ⟨_, _, listed, ?_, rfl⟩), Nat.le_refl _⟩
    exact List.prefix_append _ _
  | @name first tail starts parts =>
    have long := length_le_takeWhile isNamePart parts rest
    refine among (name? (first :: tail ++ rest)) (by simp) ?_
    simp only [name?, List.cons_append, starts, if_true, Option.some.injEq, exists_eq_left']
    exact Nat.succ_le_succ long
  | @comment line feedless =>
    have long := length_le_takeWhile (· ≠ '\n')
      (fun c inside => decide_eq_true (feedless c inside)) rest
    refine among (comment? ('#' :: line ++ rest)) (by simp) ?_
    simp only [comment?, List.cons_append, Option.some.injEq, exists_eq_left']
    exact Nat.succ_le_succ long
  | blanks blank filled =>
    have long := length_le_takeWhile isBlank blank rest
    have most : (chars ++ rest).takeWhile isBlank ≠ [] :=
      List.length_pos_iff.mp (Nat.lt_of_lt_of_le (List.length_pos_iff.mpr filled) long)
    refine among (blanks? (chars ++ rest)) (by simp) ?_
    simp only [blanks?, List.isEmpty_iff, most, if_false, Option.some.injEq, exists_eq_left', long]

/-! ## The longest declared text -/

theorem decode_of_quotes {written meant : List Char} (quotes : Quotes written meant) :
    Quoted.decode written = meant := by
  induction quotes with
  | nil => rfl
  | @plain c written meant noQuote noSlash noFeed inner ih =>
    rw [Quoted.decode, ih]
    · exact fun slash => absurd slash noSlash
    · exact fun _ _ slash => absurd slash noSlash
  | @escape c written meant noFeed inner ih => rw [Quoted.decode, ih]

/-- The letters of a word make up that word and no other one. -/
theorem keyword_of_letters {word : Keyword} {kind : Kind}
    (listed : (word.text.toList, kind) ∈ spellings) : kind = .keyword word := by
  have letter : ∃ c rest, word.text.toList = c :: rest ∧ isNameStart c = true := by
    cases word <;> exact ⟨_, _, rfl, rfl⟩
  obtain ⟨c, rest, whole, starts⟩ := letter
  have begins : word.text.toList <+: c :: rest := ⟨[], by rw [List.append_nil, whole]⟩
  obtain ⟨-, other, same, rfl⟩ := keyword_of_spelling listed begins starts
  have alike : word = other := by
    cases word <;> cases other <;> first | rfl | exact absurd same (by decide)
  rw [alike]

/-- A written token on its own is matched as a whole. -/
theorem longest?_of_spells {kind : Kind} (spells : Spells chars kind) :
    longest? chars = some ⟨chars.length, .token kind⟩ := by
  have stops : Stops kind [] := fun c head => by cases head
  simpa using longest?_spells spells stops

/-- A fixed spelling on its own is matched as a whole. -/
theorem longest?_spelling {spelling : List Char} {kind : Kind}
    (listed : (spelling, kind) ∈ spellings) :
    longest? spelling = some ⟨spelling.length, .token kind⟩ := by
  simp only [spellings, List.mem_append, List.mem_map, List.mem_cons, List.not_mem_nil, or_false,
    Prod.mk.injEq] at listed
  rcases listed with ((⟨word, -, rfl, rfl⟩ | ⟨rfl, rfl⟩ | ⟨rfl, rfl⟩ | ⟨rfl, rfl⟩) |
    ⟨sign, -, rfl, rfl⟩) | ⟨rfl, rfl⟩ | ⟨rfl, rfl⟩
  · exact longest?_of_spells (.keyword word)
  · rfl
  · rfl
  · rfl
  · exact longest?_of_spells (.mark sign)
  · exact longest?_of_spells .newline
  · exact longest?_of_spells .semicolon

/-- Characters that a pattern covers are matched as a whole when nothing follows them, so they
amount to one thing only. -/
theorem longest?_of_declared (declared : Declared chars reading)
    (reserved : ∀ word : Keyword, chars = word.text.toList → reading = .token (.keyword word)) :
    longest? chars = some ⟨chars.length, reading⟩ := by
  cases declared with
  | float wholeDigits fractionDigits wholeSome fractionSome =>
    exact longest?_of_spells (.float wholeDigits fractionDigits wholeSome fractionSome)
  | int digital filled small =>
    exact longest?_of_spells (.int digital filled (maxMagnitude_eq ▸ small))
  | oversized digital large =>
    obtain ⟨first, more, rfl⟩ := List.exists_cons_of_ne_nil (l := chars) (by
      rintro rfl
      exact absurd large (by decide))
    have float : float? (first :: more) = none := by
      have dropped := @dropWhile_append_of_stop isDigit _ [] digital (by simp)
      rw [List.append_nil] at dropped
      rw [float?, dropped]
    have int : int? (first :: more) = some ⟨(first :: more).length, .oversized⟩ := by
      have tooLarge : ¬natural (first :: more) ≤ maxMagnitude := by
        rw [maxMagnitude_eq]
        exact Nat.not_le.mpr large
      rw [int?, takeWhile_eq_self digital]
      simp only [List.isEmpty_cons, Bool.false_eq_true, if_false, if_neg tooLarge]
    have listed := candidates_of_digit more (digital first List.mem_cons_self)
    rw [float, int] at listed
    exact longest?_of_first listed (by simp)
  | @str written meant quotes =>
    have spells : Spells ('"' :: written ++ ['"']) (.str (String.ofList (Quoted.decode written))) :=
      .str (body?_of_quotes quotes)
    rw [decode_of_quotes quotes] at spells
    exact longest?_of_spells spells
  | fixed listed => exact longest?_spelling listed
  | name starts parts =>
    refine longest?_of_spells (.identifier starts parts fun word letters => ?_)
    exact absurd (reserved word letters.symm) (by simp)
  | @comment line feedless =>
    have listed : candidates ('#' :: line) = [⟨('#' :: line).length, .skipped⟩] := by
      have most : line.takeWhile (· ≠ '\n') = line :=
        takeWhile_eq_self fun c inside => decide_eq_true (feedless c inside)
      have comment : comment? ('#' :: line) = some ⟨('#' :: line).length, .skipped⟩ := by
        rw [comment?, most]
        rfl
      rw [candidates_eq, fixedMatches_of_head line (by decide), float?_of_head _ (by decide),
        int?_of_head _ (by decide), str?_of_head _ (by decide), name?_of_head _ (by decide),
        comment, blanks?_of_head _ (by decide)]
      rfl
    exact longest?_of_first listed (by simp)
  | blanks blank filled =>
    obtain ⟨first, more, rfl⟩ := List.exists_cons_of_ne_nil filled
    have listed : candidates (first :: more) = [⟨(first :: more).length, .skipped⟩] := by
      have run : blanks? (first :: more) = some ⟨(first :: more).length, .skipped⟩ := by
        rw [blanks?, takeWhile_eq_self blank]
        rfl
      obtain ⟨noDigit, noLetter, noQuote, noSign⟩ := of_isBlank (blank first List.mem_cons_self)
      rw [candidates_eq, fixedMatches_of_head more (by simp [blank first]),
        float?_of_head _ noDigit, int?_of_head _ noDigit, str?_of_head _ noQuote,
        name?_of_head _ noLetter, comment?_of_head _ noSign, run]
      rfl
    exact longest?_of_first listed (by simp)

theorem longest?_ne_none (listed : lexeme ∈ candidates text) : longest? text ≠ none := by
  unfold longest?
  cases split : candidates text with
  | nil =>
    rw [split] at listed
    cases listed
  | cons first rest => simp

/-- The match at the head of a text is the longest declared text there. -/
theorem longest_of_longest? (found : longest? text = some lexeme) :
    Longest text (text.take lexeme.length) lexeme.reading := by
  obtain ⟨earlier, later, split, shorter, noLonger⟩ := candidates_of_longest? found
  have most (other : Lexeme) (listed : other ∈ candidates text) :
      other.length ≤ lexeme.length := by
    rw [split] at listed
    rcases List.mem_append.mp listed with early | late
    · exact Nat.le_of_lt (shorter other early)
    · rcases List.mem_cons.mp late with rfl | late
      · exact Nat.le_refl _
      · exact noLonger other late
  have listed : lexeme ∈ candidates text := by
    rw [split]
    simp
  have whole : (text.take lexeme.length).length = lexeme.length :=
    List.length_take_of_le (length_of_candidates listed).2
  constructor
  · exact declared_of_candidates listed
  · exact List.take_prefix _ _
  · rintro other amount declared ⟨rest, rfl⟩
    obtain ⟨candidate, among, long⟩ := exists_candidate declared rest
    rw [whole]
    exact Nat.le_trans long (most candidate among)
  · intro word letters
    have reserved : (⟨word.text.toList.length, .token (.keyword word)⟩ : Lexeme) ∈
        fixedMatches text := by
      refine mem_fixedMatches.mpr ⟨_, _, ?_, ?_, rfl⟩
      · exact List.mem_append_left _ (List.mem_append_left _ (List.mem_append_left _
          (List.mem_map.mpr ⟨word, Keyword.mem_all word, rfl⟩)))
      · rw [← letters]
        exact List.take_prefix _ _
    have fixed := mem_fixedMatches_of_longest? found reserved (by
      rw [← letters]
      exact whole)
    obtain ⟨spelling, kind, known, begins, rfl⟩ := mem_fixedMatches.mp fixed
    dsimp only at letters
    rw [← List.prefix_iff_eq_take.mp begins] at letters
    rw [letters] at known
    rw [keyword_of_letters known]

/-- The longest declared text at the head of a text is the match there. -/
theorem longest?_of_longest (longest : Longest text chars reading) :
    longest? text = some ⟨chars.length, reading⟩ := by
  obtain ⟨rest, rfl⟩ := longest.begins
  obtain ⟨candidate, among, -⟩ := exists_candidate longest.declared rest
  cases found : longest? (chars ++ rest) with
  | none => exact absurd found (longest?_ne_none among)
  | some best =>
    have other := longest_of_longest? found
    have whole : best.length = chars.length := by
      have most := other.covers chars reading longest.declared longest.begins
      have least := longest.covers _ _ other.declared other.begins
      rw [List.length_take_of_le (length_of_longest? found).2] at most least
      exact Nat.le_antisymm least most
    rw [List.take_left' whole.symm] at other
    have first := longest?_of_declared other.declared other.reserved
    rw [longest?_of_declared longest.declared longest.reserved] at first
    rw [Option.some.inj first, ← whole]

/-- There is no match only where no pattern covers anything. -/
theorem longest?_eq_none_iff :
    longest? text = none ↔ ∀ chars reading, Declared chars reading → ¬ chars <+: text := by
  constructor
  · rintro missing chars reading declared ⟨rest, rfl⟩
    obtain ⟨candidate, among, -⟩ := exists_candidate declared rest
    exact longest?_ne_none among missing
  · intro uncovered
    cases found : longest? text with
    | none => rfl
    | some lexeme =>
      have longest := longest_of_longest? found
      exact absurd longest.begins (uncovered _ _ longest.declared)

end Quill.Lexeme
