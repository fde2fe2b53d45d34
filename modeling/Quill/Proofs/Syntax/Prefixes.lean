import Mathlib.Data.List.Basic
import Quill.Proofs.Syntax.Completions
import Quill.Proofs.Syntax.RuleDecisions

/-!
# Beginnings of programs

The parser never gives up too early or too late. Tokens that it runs out of are the beginning of a
program. Tokens that it rejects are not: it blames the first token that no program could have in
that place, and everything in front of that token is the beginning of one.
-/

namespace Quill.Grammar

open Quill.Token Quill.Parser

variable {tokens : List Token} {error : SyntaxError}

/-- The parser runs out of tokens, and more of them make a program. -/
def Unfinished (tokens : List Token) : Prop :=
  parse tokens = .error .ended ∧ ∃ more root, parse (tokens ++ more) = .ok root

/-- The token at the index is the first one that cannot be part of a program, for the given
cause. -/
structure Misplaced (tokens : List Token) (index : Nat) (cause : SyntaxError.Cause) : Prop where
  /-- There is a token to blame. -/
  cause_ne : cause ≠ .endOfTokens
  /-- The error is reported there. -/
  blamed : ∃ token, tokens[index]? = some token ∧ parse tokens = .error ⟨cause, token.span⟩
  /-- Nothing that follows or that is written differently makes a difference. -/
  rejects : ∀ others : List Token,
    kindsOf (others.take (index + 1)) = kindsOf (tokens.take (index + 1)) →
      ∃ token, others[index]? = some token ∧ parse others = .error ⟨cause, token.span⟩
  /-- Up to there, it could have become a program. -/
  begins : ∃ more root, parse (tokens.take index ++ more) = .ok root

theorem parse_eq_error_iff :
    parse tokens = .error error ↔ program tokens.length tokens = .error error := by
  change Prod.fst <$> program tokens.length tokens = _ ↔ _
  cases program tokens.length tokens <;> simp [Functor.map, Except.map]

/-! ## The token to blame -/

/-- Other tokens that begin with the same kinds can be divided where these are. -/
theorem exists_split_of_take {front back others : List Token} {token : Token}
    (same : kindsOf (others.take (front.length + 1)) =
      kindsOf ((front ++ token :: back).take (front.length + 1))) :
    ∃ left next right, others = left ++ next :: right ∧ kindsOf left = kindsOf front ∧
      next.kind = token.kind := by
  have shown : (front ++ token :: back).take (front.length + 1) = front ++ [token] := by
    rw [← List.singleton_append, ← List.append_assoc]
    exact List.take_left' (by simp)
  rw [shown, kindsOf, kindsOf, List.map_append] at same
  obtain ⟨left, last, taken, leftSame, lastSame⟩ := of_kindsOf_append same
  obtain ⟨span, rest, rfl, none⟩ := of_kindsOf_cons lastSame
  obtain rfl := of_kindsOf_nil none
  refine ⟨left, ⟨token.kind, span⟩, others.drop (front.length + 1), ?_, leftSame, rfl⟩
  have joined := List.take_append_drop (front.length + 1) others
  rw [taken, List.append_assoc, List.singleton_append] at joined
  exact joined.symm

/-- An error that blames a token blames the token there of all tokens that begin with the same
kinds. Which token it is may depend on the others that are looked at. -/
theorem blames_alike (failed : parse tokens = .error error) :
    error = .ended ∨ error.cause ≠ .endOfTokens ∧ ∀ others : List Token,
      ∃ index token, tokens[index]? = some token ∧ error.span = token.span ∧
        (kindsOf (others.take (index + 1)) = kindsOf (tokens.take (index + 1)) →
          ∃ again, others[index]? = some again ∧
            parse others = .error ⟨error.cause, again.span⟩) := by
  have decides (others : List Token) := (decides_program tokens.length others.length).error others
    (Nat.le_refl _) (Nat.le_refl _) (parse_eq_error_iff.mp failed)
  refine (decides []).imp_right fun located => ⟨located.1, fun others => ?_⟩
  obtain rfl | ⟨-, taken, token, rest, rfl, place, again⟩ := decides others
  · exact absurd rfl located.1
  refine ⟨taken.length, token, by simp, place, fun same => ?_⟩
  obtain ⟨left, next, right, rfl, leftSame, nextSame⟩ := exists_split_of_take same
  have long : taken.length = left.length := by
    simpa using (congrArg List.length leftSame).symm
  refine ⟨next, by simp [long], parse_eq_error_iff.mpr ?_⟩
  exact again left next right rfl leftSame nextSame

/-- A place of its own for every index. -/
def placeOf (index : Nat) : Span :=
  ⟨SyntaxError.nowhere.source, ⟨index, 0, 0⟩, .start⟩

theorem placeOf_inj {first second : Nat} (same : placeOf first = placeOf second) :
    first = second := by
  simpa [placeOf] using same

/-- Tokens of the same kinds, each of them at a place of its own. -/
def numbered (tokens : List Token) : List Token :=
  tokens.mapIdx fun index token => ⟨token.kind, placeOf index⟩

theorem kindsOf_take_numbered (tokens : List Token) (count : Nat) :
    kindsOf ((numbered tokens).take count) = kindsOf (tokens.take count) := by
  have whole : kindsOf (numbered tokens) = kindsOf tokens := by
    apply List.ext_getElem?
    simp [numbered, kindsOf, Function.comp_def]
  simpa only [kindsOf, List.map_take] using congrArg (List.take count) whole

theorem span_numbered {index : Nat} {token : Token}
    (found : (numbered tokens)[index]? = some token) : token.span = placeOf index := by
  rw [numbered, List.getElem?_mapIdx, Option.map_eq_some_iff] at found
  obtain ⟨token, -, rfl⟩ := found
  rfl

/-- The token that is blamed is found by its place if every token has one of its own, so it is the
same one whatever else is looked at. -/
theorem exists_blamed (failed : parse tokens = .error error) :
    error = .ended ∨ error.cause ≠ .endOfTokens ∧ ∃ index, ∀ others : List Token,
      kindsOf (others.take (index + 1)) = kindsOf (tokens.take (index + 1)) →
        ∃ token, others[index]? = some token ∧ parse others = .error ⟨error.cause, token.span⟩ := by
  obtain rfl | ⟨located, alike⟩ := blames_alike failed
  · exact .inl rfl
  refine .inr ⟨located, ?_⟩
  obtain ⟨index, -, -, -, found⟩ := alike (numbered tokens)
  obtain ⟨blamed, there, refailed⟩ := found (kindsOf_take_numbered tokens _)
  rw [span_numbered there] at refailed
  refine ⟨index, fun others same => ?_⟩
  obtain ended | ⟨-, again⟩ := blames_alike refailed
  · exact absurd (congrArg SyntaxError.cause ended) located
  obtain ⟨other, token, atOther, place, rejected⟩ := again others
  obtain rfl := placeOf_inj (place.trans (span_numbered atOther))
  exact rejected (same.trans (kindsOf_take_numbered tokens _).symm)

/-! ## What can still become a program -/

/-- Tokens that the parser runs out of are the beginning of a program. -/
theorem exists_completion (failed : parse tokens = .error .ended) :
    ∃ more root, parse (tokens ++ more) = .ok root :=
  completes_program (Nat.le_refl _) (.inl (parse_eq_error_iff.mp failed))

/-- A program remains one, whatever follows its end. -/
theorem parse_append {root : Located} (parsed : parse tokens = .ok root) (more : List Token) :
    parse (tokens ++ more) = .ok root := by
  obtain ⟨span, rest, reads⟩ := parse_eq_ok_iff.mp parsed
  exact parse_eq_ok (reads.extend more)

/-- In front of the token that is to blame, the parser has run out of tokens: it has not found the
end of a program there, and the token that it would have to blame is not among those. -/
theorem ended_before {index : Nat} {cause : SyntaxError.Cause}
    (rejects : ∀ others : List Token,
      kindsOf (others.take (index + 1)) = kindsOf (tokens.take (index + 1)) →
        ∃ token, others[index]? = some token ∧ parse others = .error ⟨cause, token.span⟩) :
    parse (tokens.take index) = .error .ended := by
  cases parsed : parse (tokens.take index) with
  | ok root =>
    obtain ⟨_, -, failed⟩ := rejects tokens rfl
    have accepted := parse_append parsed (tokens.drop index)
    rw [List.take_append_drop, failed] at accepted
    cases accepted
  | error error =>
    obtain rfl | ⟨-, other, rejectsEarlier⟩ := exists_blamed parsed
    · rfl
    obtain ⟨_, within, -⟩ := rejectsEarlier _ rfl
    have earlier : other < index := by
      have inside := (List.getElem?_eq_some_iff.mp within).1
      rw [List.length_take] at inside
      omega
    -- With every token at a place of its own, the two errors cannot be the same.
    obtain ⟨_, there, failed⟩ := rejects _ (kindsOf_take_numbered tokens _)
    have same : kindsOf ((numbered tokens).take (other + 1)) =
        kindsOf ((tokens.take index).take (other + 1)) := by
      rw [kindsOf_take_numbered, List.take_take, Nat.min_eq_left earlier]
    obtain ⟨_, thereEarlier, failedEarlier⟩ := rejectsEarlier _ same
    rw [failed, span_numbered there, span_numbered thereEarlier] at failedEarlier
    have places := congrArg SyntaxError.span (Except.error.inj failedEarlier)
    exact absurd (placeOf_inj places) (by omega)

/-- Whatever is rejected for another reason than that the tokens have run out has a token that is
to blame. -/
theorem misplaced_of_error (failed : parse tokens = .error error)
    (located : error.cause ≠ .endOfTokens) : ∃ index, Misplaced tokens index error.cause := by
  obtain rfl | ⟨-, index, rejects⟩ := exists_blamed failed
  · exact absurd rfl located
  obtain ⟨token, found, blamed⟩ := rejects tokens rfl
  exact ⟨index, located, ⟨token, found, blamed⟩, rejects,
    exists_completion (ended_before rejects)⟩

/-- There is only one error without a token to blame. -/
theorem eq_ended_of_cause (failed : parse tokens = .error error)
    (ended : error.cause = .endOfTokens) : error = .ended := by
  obtain rfl | ⟨located, -⟩ := exists_blamed failed
  · rfl
  · exact absurd ended located

/-- The parser only accepts what contains the end of the input. -/
theorem not_parsed_of_ends {root : Located} (unended : ends tokens = 0) :
    parse tokens ≠ .ok root := by
  intro parsed
  obtain ⟨span, rest, reads⟩ := parse_eq_ok_iff.mp parsed
  have counted := reads.ends_eq
  simp [unended] at counted

/-- The parser does not run out of tokens where the end of the input is marked. -/
theorem not_ended_of_end {front : List Token} {span : Span} (unended : ends front = 0) :
    parse (front ++ [⟨.endOfInput, span⟩]) ≠ .error .ended := by
  intro failed
  obtain ⟨more, root, completed⟩ := exists_completion failed
  obtain ⟨last, rest, reads⟩ := parse_eq_ok_iff.mp completed
  rw [List.append_assoc, List.singleton_append] at reads
  obtain ⟨rfl, rfl, again⟩ := reads.up_to_end unended
  have parsed := parse_eq_ok (again [])
  rw [failed] at parsed
  cases parsed

/-- Tokens without an end of the input are either the beginning of a program, or have a first token
that keeps them from being one. Where the end of the input comes last, the parser never runs out of
tokens. -/
theorem parse_decides_beginnings :
    (∀ tokens : List Token, (∀ token ∈ tokens, token.kind ≠ .endOfInput) →
      Xor (Unfinished tokens) (∃ index cause, Misplaced tokens index cause)) ∧
    ∀ (front : List Token) (span : Span), (∀ token ∈ front, token.kind ≠ .endOfInput) →
      ∀ error, parse (front ++ [⟨.endOfInput, span⟩]) = .error error →
        error.cause ≠ .endOfTokens ∧
          ∃ index, Misplaced (front ++ [⟨.endOfInput, span⟩]) index error.cause := by
  constructor
  · intro tokens unended
    cases parsed : parse tokens with
    | ok root => exact absurd parsed (not_parsed_of_ends (ends_eq_zero.mpr unended))
    | error error =>
      by_cases ended : error.cause = .endOfTokens
      · obtain rfl := eq_ended_of_cause parsed ended
        refine .inl ⟨⟨parsed, exists_completion parsed⟩, ?_⟩
        rintro ⟨index, cause, misplaced⟩
        obtain ⟨token, -, blamed⟩ := misplaced.blamed
        rw [parsed] at blamed
        exact misplaced.cause_ne (congrArg SyntaxError.cause (Except.error.inj blamed)).symm
      · obtain ⟨index, misplaced⟩ := misplaced_of_error parsed ended
        refine .inr ⟨⟨index, error.cause, misplaced⟩, ?_⟩
        rintro ⟨unfinished, -⟩
        rw [parsed] at unfinished
        cases unfinished
        exact ended rfl
  · intro front span unended error failed
    have located : error.cause ≠ .endOfTokens := by
      intro ended
      obtain rfl := eq_ended_of_cause failed ended
      exact not_ended_of_end (ends_eq_zero.mpr unended) failed
    exact ⟨located, misplaced_of_error failed located⟩

/-- A call of which nothing follows the opening parenthesis can go on, but not with the end of the
input. -/
theorem parse_decides_beginnings_call : ∃ front : List Token, ∃ error,
    (∀ token ∈ front, token.kind ≠ .endOfInput) ∧
      kindsOf front = [.identifier "f", .mark .openParen] ∧
      Xor (Unfinished front) (∃ index cause, Misplaced front index cause) ∧
      parse (front ++ [supplied .endOfInput]) = .error error ∧
      error.cause ≠ .endOfTokens ∧
      ∃ index, Misplaced (front ++ [supplied .endOfInput]) index error.cause := by
  have unended : ∀ token ∈ [supplied (.identifier "f"), supplied (.mark .openParen)],
      token.kind ≠ .endOfInput := by simp [supplied]
  have failed : parse ([supplied (.identifier "f"), supplied (.mark .openParen)] ++
      [supplied .endOfInput]) = .error ⟨.expected .expression, SyntaxError.nowhere⟩ := rfl
  exact ⟨_, _, unended, rfl, parse_decides_beginnings.1 _ unended, failed,
    parse_decides_beginnings.2 _ _ unended _ failed⟩

end Quill.Grammar
