import Quill.Proofs.Lexing.Scanning

/-!
# Rendering tokens

Tokens are rendered one after the other, with a single space between two of them unless one is a
line feed. Scanning such a text yields the tokens again.
-/

namespace Quill.Token

open Quill.Lexeme

/-- Whether the token is a line feed. -/
def isLineFeed : Kind → Bool
  | .newline => true
  | _ => false

/-- What stands between two tokens. -/
def between (first second : Kind) : List Char :=
  if isLineFeed first || isLineFeed second then [] else [' ']

/-- The text consists of ways to write the tokens, with single spaces between them except at line
feeds. -/
inductive Renders : List Kind → List Char → Prop where
  | none : Renders [] []
  | single {kind : Kind} {chars : List Char} (spells : Spells chars kind) : Renders [kind] chars
  | more {first second : Kind} {kinds : List Kind} {chars rest : List Char}
      (spells : Spells chars first) (others : Renders (second :: kinds) rest) :
      Renders (first :: second :: kinds) (chars ++ (between first second ++ rest))

/-- Tokens that can be written can be rendered. -/
theorem exists_renders {kinds : List Kind} (spelled : ∀ kind ∈ kinds, ∃ chars, Spells chars kind) :
    ∃ text, Renders kinds text := by
  induction kinds with
  | nil => exact ⟨[], .none⟩
  | cons first kinds ih =>
    obtain ⟨chars, spells⟩ := spelled first List.mem_cons_self
    cases kinds with
    | nil => exact ⟨chars, .single spells⟩
    | cons second kinds =>
      obtain ⟨rest, others⟩ := ih fun kind member => spelled kind (List.mem_cons_of_mem _ member)
      exact ⟨_, .more spells others⟩

/-- No written token begins with a blank. -/
theorem not_isBlank_of_spells {chars : List Char} {kind : Kind} (spells : Spells chars kind)
    (c : Char) (first : chars.head? = some c) : isBlank c = false := by
  cases spells with
  | @float whole fraction wholeDigits _ wholeSome _ =>
    obtain ⟨digit, digits, rfl⟩ := List.exists_cons_of_ne_nil wholeSome
    cases first
    exact (of_isDigit (wholeDigits _ List.mem_cons_self)).2.2.2
  | int digital filled _ =>
    obtain ⟨digit, digits, rfl⟩ := List.exists_cons_of_ne_nil filled
    cases first
    exact (of_isDigit (digital _ List.mem_cons_self)).2.2.2
  | identifier starts _ _ =>
    cases first
    exact (of_isNameStart starts).2.2
  | keyword word =>
    cases word <;> cases first <;> decide
  | mark sign =>
    cases sign <;> cases first <;> decide
  | _ =>
    cases first
    rfl

/-- A rendering begins with its first token. -/
theorem Renders.exists_first {first : Kind} {kinds : List Kind} {text : List Char}
    (renders : Renders (first :: kinds) text) :
    ∃ chars rest, Spells chars first ∧ text = chars ++ rest := by
  cases renders with
  | single spells => exact ⟨_, [], spells, (List.append_nil _).symm⟩
  | more spells others => exact ⟨_, _, spells, rfl⟩

/-- No token goes on with a space or a line feed. -/
theorem not_continues_blank (kind : Kind) {c : Char} (blank : c = ' ' ∨ c = '\n') :
    continues kind c = false := by
  rcases blank with rfl | rfl
  · cases kind with
    | mark sign => cases sign <;> rfl
    | _ => rfl
  · cases kind with
    | mark sign => cases sign <;> rfl
    | _ => rfl

/-- What stands behind a token in a rendering does not continue it. -/
theorem stops_between (first : Kind) {second : Kind} {kinds : List Kind} {rest : List Char}
    (others : Renders (second :: kinds) rest) : Stops first (between first second ++ rest) := by
  obtain ⟨chars, tail, spells, rfl⟩ := others.exists_first
  intro c found
  cases first with
  | newline => rfl
  | _ =>
    apply not_continues_blank
    cases second with
    | newline =>
      cases spells
      cases found
      exact .inr rfl
    | _ =>
      cases found
      exact .inl rfl

/-- A rendering of tokens is scanned as these tokens. -/
theorem Renders.scans {kinds : List Kind} {text : List Char} (renders : Renders kinds text) :
    Scans text kinds := by
  induction renders with
  | none => exact scans_nil
  | @single kind chars spells =>
    have alone := scans_token spells (fun c found => by cases found) scans_nil
    rw [List.append_nil] at alone
    exact alone
  | @more first second kinds chars rest spells others scans =>
    apply scans_token spells (stops_between first others)
    by_cases feed : (isLineFeed first || isLineFeed second) = true
    · rw [between, if_pos feed]
      exact scans
    · rw [between, if_neg feed]
      obtain ⟨head, tail, headSpells, rfl⟩ := others.exists_first
      apply scans_blank _ scans
      intro c found
      obtain ⟨first, more, rfl⟩ := List.exists_cons_of_ne_nil (spells_ne_nil headSpells)
      exact not_isBlank_of_spells headSpells c found

end Quill.Token
