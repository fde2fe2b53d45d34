import Quill.Proofs.Syntax.Completions

/-!
# Progress

A parser that succeeds leaves an end of the tokens that it was given, and most of them leave a
shorter one. This is said of two parsers at once, which do the same on all lists of at most a given
number of tokens, failures included. Where the two differ in the parsers that they refer back to,
or in the bounds on their rounds, it says that neither of these matters on longer lists than those
that they are used for.

Nothing is asked of the tokens here. They may end without the token that stands for the end of the
input, or have it in the middle.
-/

namespace Quill.Grammar

open Quill.Token Quill.Parser

variable {Result Other State : Type} {least more total size small : Nat}
  {first second : Parser Result}

/-- Where the parser succeeds, it leaves an end of the tokens, without the given number of them at
least. -/
def Takes (least : Nat) (parser : Parser Result) : Prop :=
  ∀ tokens result rest, parser tokens = .ok (result, rest) →
    rest <:+ tokens ∧ rest.length + least ≤ tokens.length

/-- On lists of at most so many tokens, two parsers do the same, and where they succeed they take
the given number of tokens at least. -/
structure Concur (least size : Nat) (first second : Parser Result) : Prop where
  /-- They do the same. -/
  same {tokens : List Token} (short : tokens.length ≤ size) : second tokens = first tokens
  /-- They leave an end of the tokens. -/
  takes {tokens rest : List Token} {result : Result} (short : tokens.length ≤ size)
    (read : first tokens = .ok (result, rest)) :
    rest <:+ tokens ∧ rest.length + least ≤ tokens.length

theorem takes_iff : Takes least first ↔ ∀ size, Concur least size first first :=
  ⟨fun takes _ => ⟨fun _ => rfl, fun _ read => takes _ _ _ read⟩,
    fun concur _ _ _ read => (concur _).takes (Nat.le_refl _) read⟩

namespace Concur

theorem mono {fewer : Nat} (concur : Concur least size first second) (few : fewer ≤ least)
    (within : small ≤ size) : Concur fewer small first second where
  same short := concur.same (Nat.le_trans short within)
  takes short read := by
    obtain ⟨ending, taken⟩ := concur.takes (Nat.le_trans short within) read
    exact ⟨ending, by omega⟩

/-- A parser that only succeeds where it takes something. -/
theorem of_takes (takes : Takes least first) : Concur least size first first :=
  takes_iff.mp takes size

theorem pure (result : Result) : Concur 0 size (pure result) (pure result) :=
  .of_takes fun tokens _ rest read => by
    cases read
    exact ⟨List.suffix_refl _, Nat.le_refl _⟩

theorem fail (cause : SyntaxError.Cause) (span : Span) :
    Concur least size (Parser.fail cause span : Parser Result) (Parser.fail cause span) :=
  .of_takes fun _ _ _ read => by cases read

/-- What is left behind the first of two parsers has lost what that one takes. -/
theorem skip {firstNext secondNext : Result → Parser Other}
    (start : Concur least size first second)
    (next : ∀ result, Concur more (size - least) (firstNext result) (secondNext result)) :
    Concur more size (first >>= firstNext) (second >>= secondNext) where
  same {tokens} short := by
    cases started : first tokens with
    | error error => rw [bind_error started, bind_error ((start.same short).trans started)]
    | ok pair =>
      obtain ⟨result, middle⟩ := pair
      obtain ⟨-, taken⟩ := start.takes short started
      rw [bind_eq started, bind_eq ((start.same short).trans started)]
      exact (next result).same (by omega)
  takes short read := by
    obtain ⟨result, middle, started, continued⟩ := of_bind_ok read
    obtain ⟨ending, taken⟩ := start.takes short started
    obtain ⟨later, takenLater⟩ := (next result).takes (by omega) continued
    exact ⟨later.trans ending, by omega⟩

/-- A sequence takes what its first part takes. -/
theorem bind {firstNext secondNext : Result → Parser Other}
    (start : Concur least size first second)
    (next : ∀ result, Concur 0 (size - least) (firstNext result) (secondNext result)) :
    Concur least size (first >>= firstNext) (second >>= secondNext) where
  same := (start.skip next).same
  takes short read := by
    obtain ⟨result, middle, started, continued⟩ := of_bind_ok read
    obtain ⟨ending, taken⟩ := start.takes short started
    obtain ⟨later, takenLater⟩ := (next result).takes (by omega) continued
    exact ⟨later.trans ending, by omega⟩

theorem map (concur : Concur least size first second) (view : Result → Other) :
    Concur least size (view <$> first) (view <$> second) := by
  rw [map_eq_pure_bind, map_eq_pure_bind]
  exact concur.bind fun _ => .pure _

/-! ## Single tokens -/

/-- A token that is taken if it is wanted. -/
theorem take? {wanted : Kind → Bool} {firstNext secondNext : Option Token → Parser Result}
    (found : ∀ token, Concur more (size - 1) (firstNext (some token)) (secondNext (some token)))
    (absent : Concur least size (firstNext none) (secondNext none)) (enough : least ≤ more + 1) :
    Concur least size (Parser.take? wanted >>= firstNext) (Parser.take? wanted >>= secondNext) where
  same {tokens} short := by
    cases present : ahead wanted tokens with
    | false =>
      rw [bind_eq (take?_of_ahead present), bind_eq (take?_of_ahead present)]
      exact absent.same short
    | true =>
      obtain ⟨token, rest, rfl, wants⟩ := of_ahead present
      rw [bind_eq (take?_cons rest wants), bind_eq (take?_cons rest wants)]
      exact (found token).same (by simp only [List.length_cons] at short; omega)
  takes short read := by
    obtain ⟨result, middle, started, continued⟩ := of_bind_ok read
    obtain ⟨rfl, -, rfl⟩ | ⟨token, rfl, -, rfl⟩ := take?_eq_ok.mp started
    · exact absent.takes short continued
    · simp only [List.length_cons] at short ⊢
      obtain ⟨ending, taken⟩ := (found token).takes (by omega) continued
      exact ⟨ending.trans (List.suffix_cons _ _), by omega⟩

end Concur

theorem takes_next : Takes 1 next := fun _ _ _ read => by
  obtain rfl := next_eq_ok.mp read
  exact ⟨List.suffix_cons _ _, Nat.le_refl _⟩

theorem takes_peek : Takes 0 peek := fun _ _ _ read => by
  obtain ⟨rfl, -⟩ := peek_eq_ok.mp read
  exact ⟨List.suffix_refl _, Nat.le_refl _⟩

theorem takes_take? (wanted : Kind → Bool) : Takes 0 (take? wanted) := fun _ _ _ read => by
  obtain ⟨-, -, rfl⟩ | ⟨token, -, -, rfl⟩ := take?_eq_ok.mp read
  · exact ⟨List.suffix_refl _, Nat.le_refl _⟩
  · exact ⟨List.suffix_cons _ _, Nat.le_succ _⟩

theorem takes_expect (wanted : Kind → Bool) (what : Expectation) : Takes 1 (expect wanted what) :=
  fun _ _ _ read => by
    obtain ⟨-, rfl⟩ := expect_eq_ok.mp read
    exact ⟨List.suffix_cons _ _, Nat.le_refl _⟩

theorem takes_mark (sign : Mark) : Takes 1 (mark sign) :=
  takes_expect _ _

theorem takes_keyword (word : Keyword) : Takes 1 (keyword word) :=
  takes_expect _ _

theorem takes_identifier : Takes 1 identifier := by
  rintro _ ⟨_, _⟩ _ read
  obtain rfl := identifier_eq_ok.mp read
  exact ⟨List.suffix_cons _ _, Nat.le_refl _⟩

theorem takes_atSeparator : Takes 0 atSeparator := fun tokens _ _ read => by
  rw [atSeparator_apply] at read
  cases read
  exact ⟨List.suffix_refl _, Nat.le_refl _⟩

theorem takes_separators : Takes 0 separators := fun tokens _ _ read => by
  rw [separators_apply] at read
  cases read
  exact ⟨List.dropWhile_suffix _, (List.dropWhile_suffix _).length_le⟩

theorem takes_functionName : Takes 0 functionName := by
  intro tokens name rest read
  obtain ⟨⟨kind, span⟩, _, peeked, continued⟩ := of_bind_ok read
  obtain ⟨rfl, later, rfl⟩ := peek_eq_ok.mp peeked
  cases kind with
  | identifier name =>
    cases continued
    exact ⟨List.suffix_cons _ _, Nat.le_succ _⟩
  | _ =>
    cases continued
    exact ⟨List.suffix_refl _, Nat.le_refl _⟩

theorem takes_operator? (level : BinaryOp → Bool) : Takes 0 (operator? level) := by
  intro tokens found rest read
  cases tokens with
  | nil =>
    cases read
    exact ⟨List.suffix_refl _, Nat.le_refl _⟩
  | cons token tokens =>
    simp only [operator?] at read
    split at read
    · split at read
      · cases read
        exact ⟨List.suffix_cons _ _, Nat.le_succ _⟩
      · cases read
        exact ⟨List.suffix_refl _, Nat.le_refl _⟩
    · cases read
      exact ⟨List.suffix_refl _, Nat.le_refl _⟩

theorem takes_closingSpan (body : Located) (block : Bool) : Takes 0 (closingSpan body block) := by
  cases block with
  | true =>
    exact takes_iff.mpr fun _ =>
      (Concur.of_takes (takes_keyword .endWord)).skip fun _ => .pure _
  | false => exact takes_iff.mpr fun _ => .pure _

/-! ## Rounds -/

/-- Bounds on the rounds of two parsers that do not matter on lists of at most so many tokens,
because they are the same or large enough. -/
def Ample (size bound otherBound : Nat) : Prop :=
  bound = otherBound ∨ size ≤ bound ∧ size ≤ otherBound

/-- Two parsers that may take a number of rounds do the same if each round does, given that what
follows it does. Without tokens, the number of rounds that are left must not matter. -/
theorem Concur.rounds (first second : Nat → State → Parser Result)
    (start : ∀ state, Concur least size (first 0 state) (second 0 state))
    (idle : ∀ rounds state, first (rounds + 1) state [] = first 0 state [])
    (otherIdle : ∀ rounds state, second (rounds + 1) state [] = second 0 state [])
    (round : ∀ rounds otherRounds small, small ≤ size →
      (∀ state, Concur least (small - 1) (first rounds state) (second otherRounds state)) →
      ∀ state, Concur least small (first (rounds + 1) state) (second (otherRounds + 1) state))
    {bound otherBound : Nat} (ample : Ample size bound otherBound) (state : State) :
    Concur least size (first bound state) (second otherBound state) := by
  have upTo (rounds otherRounds small : Nat) (within : small ≤ size)
      (ample : Ample small rounds otherRounds) :
      ∀ state, Concur least small (first rounds state) (second otherRounds state) := by
    induction rounds generalizing otherRounds small with
    | zero =>
      intro state
      have started := (start state).mono (Nat.le_refl _) within
      cases otherRounds with
      | zero => exact started
      | succ otherRounds =>
        obtain none | ⟨short, -⟩ := ample
        · cases none
        -- There are no tokens left, and neither parser is given a round that it could use.
        refine ⟨fun {tokens} empty => ?_, started.takes⟩
        obtain rfl := List.length_eq_zero_iff.mp (Nat.le_zero.mp (Nat.le_trans empty short))
        exact (otherIdle otherRounds state).trans (started.same (Nat.zero_le _))
    | succ rounds ih =>
      cases otherRounds with
      | zero =>
        obtain none | ⟨-, short⟩ := ample
        · cases none
        intro state
        have started := (start state).mono (Nat.le_refl _) within
        obtain rfl := Nat.le_zero.mp short
        refine ⟨fun {tokens} empty => ?_, fun {tokens rest result} empty read => ?_⟩
        · obtain rfl := List.length_eq_zero_iff.mp (Nat.le_zero.mp empty)
          exact (started.same empty).trans (idle rounds state).symm
        · obtain rfl := List.length_eq_zero_iff.mp (Nat.le_zero.mp empty)
          exact started.takes empty ((idle rounds state).symm.trans read)
      | succ otherRounds =>
        refine round rounds otherRounds small within (ih otherRounds (small - 1) (by omega) ?_)
        obtain same | ⟨short, otherShort⟩ := ample
        · exact .inl (Nat.succ.inj same)
        · exact .inr ⟨by omega, by omega⟩
  exact upTo bound otherBound size (Nat.le_refl _) ample state

end Quill.Grammar
