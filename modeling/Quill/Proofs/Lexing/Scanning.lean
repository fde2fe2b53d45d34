import Quill.Proofs.Lexing.Spelling

/-!
# Scanning written tokens

A text that is put together from written tokens and blanks is cut into these tokens again, and the
tokens of any text can be written.
-/

namespace Quill.Token

open Quill.Lexeme

/-- The text has tokens of the given kinds, wherever in a source it stands. -/
def Scans (text : List Char) (kinds : List Kind) : Prop :=
  ∀ (source : Source) (bound : Nat) (position : Position), text.length ≤ bound →
    ∃ tokens, scanFrom source bound position text = .ok tokens ∧
      tokens.map (·.kind) = kinds ++ [.endOfInput]

theorem scans_nil : Scans [] [] := by
  intro source bound position _
  cases bound <;> exact ⟨_, rfl, rfl⟩

/-- The characters of a written token are never none. -/
theorem spells_ne_nil {chars : List Char} {kind : Kind} (spells : Spells chars kind) :
    chars ≠ [] := by
  cases spells with
  | float _ _ wholeSome _ => simp
  | int _ filled _ => exact filled
  | keyword word => cases word <;> decide
  | mark sign => cases sign <;> decide
  | _ => simp

/-- A written token is scanned, if the text behind it does not continue it. -/
theorem scans_token {chars rest : List Char} {kind : Kind} {kinds : List Kind}
    (spells : Spells chars kind) (stops : Stops kind rest) (scans : Scans rest kinds) :
    Scans (chars ++ rest) (kind :: kinds) := by
  intro source bound position enough
  have found := longest?_spells spells stops
  obtain ⟨first, more, rfl⟩ := List.exists_cons_of_ne_nil (spells_ne_nil spells)
  simp only [List.length_append, List.length_cons] at enough
  obtain ⟨bound, rfl⟩ := Nat.exists_eq_add_of_le' (show 1 ≤ bound by omega)
  obtain ⟨tokens, scanned, same⟩ :=
    scans source bound (position.past (first :: more)) (by omega)
  refine ⟨⟨kind, ⟨source, position, position.past (first :: more)⟩⟩ :: tokens, ?_, ?_⟩
  · rw [List.cons_append] at found ⊢
    rw [scanFrom, found]
    simp only [← List.cons_append, List.take_left', List.drop_left']
    rw [scanned]
    rfl
  · simp [same]

/-- A blank in front of something else is passed over. -/
theorem scans_blank {rest : List Char} {kinds : List Kind}
    (stop : ∀ c, rest.head? = some c → isBlank c = false) (scans : Scans rest kinds) :
    Scans (' ' :: rest) kinds := by
  intro source bound position enough
  have found : longest? (' ' :: rest) = some ⟨1, .skipped⟩ := by
    have listed : candidates (' ' :: rest) = [⟨1, .skipped⟩] := by
      have taken : ([' '] ++ rest).takeWhile isBlank = [' '] :=
        takeWhile_append_of_stop (List.all_eq_true.mp rfl) stop
      have blanks : blanks? (' ' :: rest) = some ⟨1, .skipped⟩ := by
        rw [blanks?, show (' ' :: rest).takeWhile isBlank = [' '] from taken]
        rfl
      have unlisted : fixedMatches (' ' :: rest) = [] := rfl
      rw [candidates_eq, unlisted, blanks, name?_of_head _ rfl, comment?_of_head _ (by decide),
        str?_of_head _ (by decide), int?_of_head _ rfl, float?_of_head _ rfl]
      rfl
    exact longest?_of_first listed (by simp)
  simp only [List.length_cons] at enough
  obtain ⟨bound, rfl⟩ := Nat.exists_eq_add_of_le' (show 1 ≤ bound by omega)
  rw [scanFrom, found]
  exact scans source bound _ (by simpa using enough)

/-- A text with the given kinds of tokens is scanned as the text of a source. -/
theorem scan_of_scans {text : String} {kinds : List Kind} (scans : Scans text.toList kinds)
    (id : Nat) (name : String) :
    ∃ tokens, scan ⟨id, name, text⟩ = .ok tokens ∧
      tokens.map (·.kind) = kinds ++ [.endOfInput] :=
  scans _ _ _ (Nat.le_refl _)

/-! ## The tokens of a text -/

theorem spells_of_spelling {spelling : List Char} {kind : Kind}
    (listed : (spelling, kind) ∈ spellings) : ∃ chars, Spells chars kind := by
  simp only [spellings, List.mem_append, List.mem_map, List.mem_cons, List.not_mem_nil, or_false,
    Prod.mk.injEq] at listed
  rcases listed with ((⟨word, -, -, rfl⟩ | ⟨-, rfl⟩ | ⟨-, rfl⟩ | ⟨-, rfl⟩) | ⟨sign, -, -, rfl⟩) |
    ⟨-, rfl⟩ | ⟨-, rfl⟩
  · exact ⟨_, .keyword word⟩
  · exact ⟨_, .keyword .andWord⟩
  · exact ⟨_, .keyword .orWord⟩
  · exact ⟨_, .keyword .notWord⟩
  · exact ⟨_, .mark sign⟩
  · exact ⟨_, .newline⟩
  · exact ⟨_, .semicolon⟩

theorem all_of_takeWhile {p : Char → Bool} {text : List Char} :
    ∀ c ∈ text.takeWhile p, p c = true :=
  List.all_eq_true.mp List.all_takeWhile

theorem spells_of_float? {text : List Char} {length : Nat} {kind : Kind}
    (found : float? text = some ⟨length, .token kind⟩) : ∃ chars, Spells chars kind := by
  unfold float? at found
  dsimp only at found
  split at found
  · rename_i rest _
    split at found
    · cases found
    · rename_i filled
      simp only [Bool.or_eq_true, List.isEmpty_iff, not_or] at filled
      cases found
      exact ⟨_, .float all_of_takeWhile all_of_takeWhile filled.1 filled.2⟩
  · cases found

theorem spells_of_int? {text : List Char} {length : Nat} {kind : Kind}
    (found : int? text = some ⟨length, .token kind⟩) : ∃ chars, Spells chars kind := by
  unfold int? at found
  dsimp only at found
  split at found
  · cases found
  · rename_i filled
    split at found
    · rename_i small
      cases found
      exact ⟨_, .int all_of_takeWhile (by simpa using filled) small⟩
    · cases found

/-- The written form in front of the first closing quote can be written in front of any other
text. -/
theorem body?_append {text body : List Char} (found : Text.Quoted.body? text = some body)
    (rest : List Char) : Text.Quoted.body? (body ++ '"' :: rest) = some body := by
  fun_induction Text.Quoted.body? text generalizing body with
  | case1 => cases found
  | case2 =>
    cases found
    rfl
  | case3 => cases found
  | case4 => cases found
  | case5 => cases found
  | case6 c text noLine ih =>
    obtain ⟨inner, read, rfl⟩ := Option.map_eq_some_iff.mp found
    simp [Text.Quoted.body?, ih read]
  | case7 c text noQuote noLine atEnd _ before ih =>
    obtain ⟨inner, read, rfl⟩ := Option.map_eq_some_iff.mp found
    have noSlash : c ≠ '\\' := by
      intro slash
      cases text with
      | nil => exact atEnd slash rfl
      | cons next text => exact before next text slash rfl
    rw [List.cons_append, Text.Quoted.body?, ih read]
    · rfl
    · exact noQuote
    · exact noLine
    · exact fun slash => absurd slash noSlash
    · exact fun _ slash => absurd slash noSlash
    · exact fun _ _ slash => absurd slash noSlash

theorem spells_of_str? {text : List Char} {length : Nat} {kind : Kind}
    (found : str? text = some ⟨length, .token kind⟩) : ∃ chars, Spells chars kind := by
  unfold str? at found
  split at found
  · obtain ⟨body, read, same⟩ := Option.map_eq_some_iff.mp found
    cases same
    exact ⟨_, .str (body?_append read)⟩
  · cases found

theorem reading_of_name? {text : List Char} {lexeme : Lexeme} (found : name? text = some lexeme) :
    ∃ name, lexeme.reading = .token (.identifier name) := by
  unfold name? at found
  split at found
  · cases found
  · split at found
    · cases found
      exact ⟨_, rfl⟩
    · cases found

theorem not_token_of_comment? {text : List Char} {lexeme : Lexeme}
    (found : comment? text = some lexeme) (kind : Kind) : lexeme.reading ≠ .token kind := by
  unfold comment? at found
  split at found
  · cases found
    simp
  · cases found

theorem not_token_of_blanks? {text : List Char} {lexeme : Lexeme}
    (found : blanks? text = some lexeme) (kind : Kind) : lexeme.reading ≠ .token kind := by
  unfold blanks? at found
  dsimp only at found
  split at found
  · cases found
  · cases found
    simp

/-- A name that is the longest match is no reserved word, as that would have been found earlier. -/
theorem spells_of_name? {text : List Char} {lexeme : Lexeme} {name : String}
    (found : longest? text = some lexeme) (named : name? text = some lexeme)
    (same : lexeme.reading = .token (.identifier name)) :
    ∃ chars, Spells chars (.identifier name) := by
  cases text with
  | nil => cases named
  | cons c rest =>
    simp only [name?] at named
    split at named
    · rename_i letter
      cases named
      cases same
      refine ⟨_, .identifier letter all_of_takeWhile fun word taken => ?_⟩
      have reserved : (⟨word.text.toList.length, .token (.keyword word)⟩ : Lexeme) ∈
          fixedMatches (c :: rest) := by
        refine mem_fixedMatches.mpr ⟨_, _, ?_, ?_, rfl⟩
        · exact List.mem_append_left _ (List.mem_append_left _ (List.mem_append_left _
            (List.mem_map.mpr ⟨word, Keyword.mem_all word, rfl⟩)))
        · rw [taken]
          exact List.cons_prefix_cons.mpr ⟨rfl, List.takeWhile_prefix _⟩
      have fixed := mem_fixedMatches_of_longest? found reserved (congrArg List.length taken)
      obtain ⟨spelling, kind, known, begins, alike⟩ := mem_fixedMatches.mp fixed
      obtain ⟨-, other, -, rfl⟩ := keyword_of_spelling known begins letter
      simp at alike
    · cases named

/-- A match that amounts to a token stands for a written token. -/
theorem spells_of_longest? {text : List Char} {length : Nat} {kind : Kind}
    (found : longest? text = some ⟨length, .token kind⟩) : ∃ chars, Spells chars kind := by
  obtain ⟨earlier, later, split, -, -⟩ := candidates_of_longest? found
  have listed : (⟨length, .token kind⟩ : Lexeme) ∈ candidates text := by
    rw [split]
    simp
  rw [candidates_eq] at listed
  rcases List.mem_append.mp listed with fixed | other
  · obtain ⟨spelling, kind, known, -, same⟩ := mem_fixedMatches.mp fixed
    cases same
    exact spells_of_spelling known
  · simp only [List.mem_filterMap, List.mem_cons, List.not_mem_nil, or_false, id] at other
    obtain ⟨found', rfl | rfl | rfl | rfl | rfl | rfl, same⟩ := other
    · exact spells_of_float? same
    · exact spells_of_int? same
    · exact spells_of_str? same
    · obtain ⟨name, reading⟩ := reading_of_name? same
      cases reading
      exact spells_of_name? found same rfl
    · exact absurd rfl (not_token_of_comment? same kind)
    · exact absurd rfl (not_token_of_blanks? same kind)

/-- Every token of a text can be written, except for the one at the end of the text. -/
theorem spells_of_scanFrom {source : Source} {bound : Nat} {position : Position}
    {text : List Char} {tokens : List Token}
    (scanned : scanFrom source bound position text = .ok tokens) :
    ∀ token ∈ tokens, token.kind ≠ .endOfInput → ∃ chars, Spells chars token.kind := by
  induction bound generalizing position text tokens with
  | zero =>
    cases scanned
    simp
  | succ bound ih =>
    cases text with
    | nil =>
      cases scanned
      simp
    | cons c text =>
      rw [scanFrom] at scanned
      split at scanned
      · cases scanned
      · rename_i lexeme found
        obtain ⟨length, reading⟩ := lexeme
        cases reading with
        | oversized => cases scanned
        | skipped => exact ih scanned
        | token kind =>
          dsimp only at scanned
          cases continued : scanFrom source bound (position.past ((c :: text).take length))
              ((c :: text).drop length) with
          | error error =>
            rw [continued] at scanned
            cases scanned
          | ok rest =>
            rw [continued] at scanned
            cases scanned
            intro token listed written
            rcases List.mem_cons.mp listed with rfl | later
            · exact spells_of_longest? found
            · exact ih continued token later written

/-- The end of a text is not written in characters. -/
theorem ne_endOfInput_of_spells {chars : List Char} {kind : Kind} (spells : Spells chars kind) :
    kind ≠ .endOfInput := by
  cases spells <;> simp

/-- The last token of a text stands for its end, and only that one does. -/
theorem exists_end_of_scanFrom {source : Source} {bound : Nat} {position : Position}
    {text : List Char} {tokens : List Token}
    (scanned : scanFrom source bound position text = .ok tokens) :
    ∃ front span, tokens = front ++ [⟨.endOfInput, span⟩] ∧
      ∀ token ∈ front, token.kind ≠ .endOfInput := by
  induction bound generalizing position text tokens with
  | zero =>
    cases scanned
    exact ⟨[], _, rfl, by simp⟩
  | succ bound ih =>
    cases text with
    | nil =>
      cases scanned
      exact ⟨[], _, rfl, by simp⟩
    | cons c text =>
      rw [scanFrom] at scanned
      split at scanned
      · cases scanned
      · rename_i lexeme found
        obtain ⟨length, reading⟩ := lexeme
        cases reading with
        | oversized => cases scanned
        | skipped => exact ih scanned
        | token kind =>
          dsimp only at scanned
          cases continued : scanFrom source bound (position.past ((c :: text).take length))
              ((c :: text).drop length) with
          | error error =>
            rw [continued] at scanned
            cases scanned
          | ok rest =>
            rw [continued] at scanned
            cases scanned
            obtain ⟨front, span, rfl, inside⟩ := ih continued
            obtain ⟨chars, spells⟩ := spells_of_longest? found
            exact ⟨_ :: front, span, rfl,
              List.forall_mem_cons.mpr ⟨ne_endOfInput_of_spells spells, inside⟩⟩

end Quill.Token
