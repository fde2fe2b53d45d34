import Quill.Proofs.Syntax.Tails
import Quill.Proofs.Syntax.Reparsing

/-!
# What a parser decides on

A parser goes by the kinds of the tokens up to the one that it stops in front of, and by nothing
behind that. If it succeeds there, it succeeds on all tokens that are of the same kinds up to there.
If it fails there, it fails on all of them, for the same reason and at the same place. Only where it
runs out of tokens is nothing decided.

This is said of two parsers at once, which may differ in their bounds and in what has been read
before: neither influences what is taken. Of the result of a parser only a view matters to the
parsers behind it.
-/

namespace Quill.Grammar

open Quill.Token Quill.Parser

variable {Result Other View OtherView : Type}

/-- On tokens within their bounds, both parsers decide alike. The first one takes the least number
of tokens at least. -/
structure Decides (least bound otherBound : Nat) (view : Result → View)
    (parser other : Parser Result) : Prop where
  /-- Whatever has the same kinds up to the next token is read in the same way. -/
  ok {tokens : List Token} {result : Result} {token : Token} {rest : List Token}
    (within : tokens.length ≤ bound) (read : parser tokens = .ok (result, token :: rest)) :
    ∃ taken, tokens = taken ++ token :: rest ∧ least ≤ taken.length ∧
      ∀ front next back, kindsOf front = kindsOf taken → next.kind = token.kind →
        (front ++ next :: back).length ≤ otherBound →
        ∃ again, view again = view result ∧
          other (front ++ next :: back) = .ok (again, next :: back)
  /-- Whatever has the same kinds up to the token that is to blame is rejected in the same way. -/
  error {tokens : List Token} {error : SyntaxError} (others : List Token)
    (within : tokens.length ≤ bound) (otherWithin : others.length ≤ otherBound)
    (failed : parser tokens = .error error) :
    error = .ended ∨ error.cause ≠ .endOfTokens ∧
      ∃ taken token rest, tokens = taken ++ token :: rest ∧ error.span = token.span ∧
        ∀ front next back, others = front ++ next :: back → kindsOf front = kindsOf taken →
          next.kind = token.kind → other others = .error ⟨error.cause, next.span⟩

variable {least other bound otherBound : Nat} {view : Result → View}
  {otherView : Other → OtherView} {first second : Parser Result}

namespace Decides

theorem mono {fewer small otherSmall : Nat}
    (decides : Decides least bound otherBound view first second) (few : fewer ≤ least)
    (within : small ≤ bound) (otherWithin : otherSmall ≤ otherBound) :
    Decides fewer small otherSmall view first second where
  ok short read := by
    obtain ⟨taken, split, takes, again⟩ := decides.ok (by omega) read
    exact ⟨taken, split, by omega, fun front next back same sameNext short =>
      again front next back same sameNext (by omega)⟩
  error _ short otherShort failed :=
    decides.error _ (Nat.le_trans short within) (Nat.le_trans otherShort otherWithin) failed

/-- Where nothing is left, a parser only has to know that it ran out of tokens. -/
theorem of_zero (left : ∀ result token rest, first [] ≠ .ok (result, token :: rest))
    (ended : ∀ error, first [] = .error error → error = .ended) :
    Decides least 0 otherBound view first second where
  ok within read := by
    obtain rfl := List.length_eq_zero_iff.mp (Nat.le_zero.mp within)
    exact absurd read (left _ _ _)
  error _ within _ failed := by
    obtain rfl := List.length_eq_zero_iff.mp (Nat.le_zero.mp within)
    exact .inl (ended _ failed)

/-- Nothing is said about the second parser if it is given no tokens. -/
theorem zero_right {third : Parser Result} (decides : Decides least bound 0 view first second) :
    Decides least bound 0 view first third where
  ok within read := by
    obtain ⟨taken, split, takes, -⟩ := decides.ok within read
    exact ⟨taken, split, takes, fun front next back _ _ short => by simp at short⟩
  error _ within otherWithin failed := by
    obtain rfl := List.length_eq_zero_iff.mp (Nat.le_zero.mp otherWithin)
    obtain ended | ⟨cause, taken, token, rest, split, blamed, -⟩ :=
      decides.error [] within otherWithin failed
    · exact .inl ended
    · exact .inr ⟨cause, taken, token, rest, split, blamed, fun front next back none => by
        simp at none⟩

theorem pure {result again : Result} (alike : view again = view result) :
    Decides 0 bound otherBound view (pure result) (pure again) where
  ok _ read := by
    cases read
    exact ⟨[], rfl, Nat.le_refl _, fun front next back same _ _ => by
      obtain rfl := of_kindsOf_nil same
      exact ⟨again, alike, rfl⟩⟩
  error _ _ _ failed := by cases failed

end Decides

/-- Tokens of the same kinds can be divided where the others are. -/
theorem exists_split_of_kindsOf (taken back : List Token) {more front rest tail : List Token}
    {middle token next : Token}
    (shape : middle :: rest = more ++ token :: tail)
    (same : kindsOf front = kindsOf (taken ++ more)) (sameNext : next.kind = token.kind) :
    ∃ left right head later, front = left ++ right ∧ kindsOf left = kindsOf taken ∧
      kindsOf right = kindsOf more ∧ right ++ next :: back = head :: later ∧
      head.kind = middle.kind := by
  rw [kindsOf, kindsOf, List.map_append] at same
  obtain ⟨left, right, rfl, leftSame, rightSame⟩ := of_kindsOf_append same
  cases more with
  | nil =>
    obtain ⟨rfl, -⟩ := List.cons.inj shape
    obtain rfl := of_kindsOf_nil rightSame
    exact ⟨left, [], next, back, rfl, leftSame, rfl, rfl, sameNext⟩
  | cons first more =>
    obtain ⟨rfl, -⟩ := List.cons.inj shape
    obtain ⟨span, right, rfl, -⟩ := of_kindsOf_cons rightSame
    exact ⟨left, _, _, _, rfl, leftSame, rightSame, rfl, rfl⟩

namespace Decides

/-- A sequence decides if its parts do. What the second part does may depend on the view of what the
first part has read, but on nothing else of it. -/
theorem bind {total big otherBig : Nat} {firstNext secondNext : Result → Parser Other}
    (start : Decides least big otherBig view first second) (fits : bound ≤ big)
    (otherFits : otherBound ≤ otherBig) (takes : total ≤ least)
    (next : ∀ result again, view again = view result →
      Decides 0 (bound - least) (otherBound - least) otherView (firstNext result)
        (secondNext again)) :
    Decides total bound otherBound otherView (first >>= firstNext) (second >>= secondNext) where
  ok {tokens last token rest} within read := by
    obtain ⟨result, middle, started, continued⟩ := of_bind_ok read
    cases middle with
    | nil =>
      obtain ⟨_, none, -⟩ := (next result result rfl).ok (Nat.zero_le _) continued
      simp at none
    | cons head middle =>
      obtain ⟨taken, rfl, takesFirst, again⟩ := start.ok (by omega) started
      simp only [List.length_append, List.length_cons] at within
      obtain ⟨more, shape, -, -⟩ :=
        (next result result rfl).ok (by simp only [List.length_cons]; omega) continued
      refine ⟨taken ++ more, by rw [List.append_assoc, ← shape], by simp; omega, ?_⟩
      intro front token' back same sameNext short
      obtain ⟨left, right, head', later', rfl, leftSame, rightSame, joined, sameHead⟩ :=
        exists_split_of_kindsOf taken back shape same sameNext
      rw [List.append_assoc, joined] at short ⊢
      obtain ⟨other, alike, restarted⟩ := again left head' later' leftSame sameHead (by omega)
      have takesLeft : taken.length = left.length := by
        simpa using (congrArg List.length leftSame).symm
      simp only [List.length_append] at short
      obtain ⟨more', shape', -, againMore⟩ :=
        (next result other alike).ok (by simp only [List.length_cons]; omega) continued
      obtain rfl : more = more' := List.append_cancel_right (shape.symm.trans shape')
      obtain ⟨final, alikeFinal, finished⟩ := againMore right token' back rightSame sameNext
        (by rw [joined]; omega)
      exact ⟨final, alikeFinal, bind_ok restarted (joined ▸ finished)⟩
  error {tokens error} others within otherWithin failed := by
    obtain failed | ⟨result, middle, started, continued⟩ := of_bind_error failed
    · obtain ended | ⟨cause, taken, token, rest, split, blamed, again⟩ :=
        start.error others (by omega) (by omega) failed
      · exact .inl ended
      · exact .inr ⟨cause, taken, token, rest, split, blamed,
          fun front token' back shape same sameNext =>
            bind_error (again front token' back shape same sameNext)⟩
    cases middle with
    | nil =>
      obtain ended | ⟨-, taken, token, rest, none, -⟩ :=
        (next result result rfl).error [] (Nat.zero_le _) (Nat.zero_le _) continued
      · exact .inl ended
      · simp at none
    | cons head middle =>
      obtain ⟨taken, rfl, takesFirst, again⟩ := start.ok (by omega) started
      simp only [List.length_append, List.length_cons] at within
      -- The second parser only gets to see the other tokens if the first one stops as it did here.
      by_cases agrees : ∃ left head' later', others = left ++ head' :: later' ∧
        kindsOf left = kindsOf taken ∧ head'.kind = head.kind
      · obtain ⟨left, head', later', rfl, leftSame, sameHead⟩ := agrees
        obtain ⟨other, alike, restarted⟩ := again left head' later' leftSame sameHead (by omega)
        have takesLeft : taken.length = left.length := by
          simpa using (congrArg List.length leftSame).symm
        simp only [List.length_append, List.length_cons] at otherWithin
        obtain ended | ⟨cause, more, token, rest, shape, blamed, againMore⟩ :=
          (next result other alike).error (head' :: later') (by simp only [List.length_cons]; omega)
            (by simp only [List.length_cons]; omega) continued
        · exact .inl ended
        refine .inr ⟨cause, taken ++ more, token, rest, by rw [List.append_assoc, ← shape],
          blamed, fun front token' back whole same sameNext => ?_⟩
        obtain ⟨left', right, head'', later'', rfl, leftSame', rightSame, joined, -⟩ :=
          exists_split_of_kindsOf taken back shape same sameNext
        rw [List.append_assoc] at whole
        obtain ⟨rfl, joined⟩ := List.append_inj whole (by
          simpa using congrArg List.length (leftSame.trans leftSame'.symm))
        rw [bind_eq restarted]
        exact againMore right token' back joined rightSame sameNext
      · obtain ended | ⟨cause, more, token, rest, shape, blamed, -⟩ :=
          (next result result rfl).error []
            (by simp only [List.length_cons]; omega) (Nat.zero_le _) continued
        · exact .inl ended
        refine .inr ⟨cause, taken ++ more, token, rest, by rw [List.append_assoc, ← shape],
          blamed, fun front token' back whole same sameNext => absurd ?_ agrees⟩
        obtain ⟨left, right, head', later', rfl, leftSame, -, joined, sameHead⟩ :=
          exists_split_of_kindsOf taken back shape same sameNext
        rw [List.append_assoc, joined] at whole
        exact ⟨left, head', later', whole, leftSame, sameHead⟩

/-- Two parsers that may take a number of rounds decide alike if each round does, given that what
follows it does. -/
theorem rounds {Index : Type} (first second : Nat → Index → Parser Result)
    (zero : ∀ index result token rest, first 0 index [] ≠ .ok (result, token :: rest))
    (zeroEnded : ∀ index error, first 0 index [] = .error error → error = .ended)
    (round : ∀ rounds otherRounds small, rounds + 1 ≤ bound → small ≤ otherRounds + 1 →
      small ≤ otherBound →
      (∀ index, Decides least rounds (small - 1) view (first rounds index)
        (second otherRounds index)) →
      ∀ index, Decides least (rounds + 1) small view (first (rounds + 1) index)
        (second (otherRounds + 1) index)) (index : Index) :
    Decides least bound otherBound view (first bound index) (second otherBound index) := by
  have upTo (rounds otherRounds small : Nat) (within : rounds ≤ bound)
      (short : small ≤ otherRounds) (otherWithin : small ≤ otherBound) :
      ∀ index, Decides least rounds small view (first rounds index)
        (second otherRounds index) := by
    induction rounds generalizing otherRounds small with
    | zero => exact fun index => .of_zero (zero index) (zeroEnded index)
    | succ rounds ih =>
      cases otherRounds with
      | zero =>
        obtain rfl := Nat.le_zero.mp short
        intro index
        exact (round rounds 0 0 within (Nat.zero_le _) otherWithin
          (ih 0 0 (by omega) (Nat.le_refl _) otherWithin) index).zero_right
      | succ otherRounds =>
        exact round rounds otherRounds small within short otherWithin
          (ih otherRounds (small - 1) (by omega) (by omega) (by omega))
  exact upTo bound otherBound otherBound (Nat.le_refl _) (Nat.le_refl _) (Nat.le_refl _) index

end Decides

/-! ## The first token -/

/-- What two parsers do on tokens of which the first one is of the given kind: both take it and go
on with other parsers, or both leave it where it is, or both blame it for an error. -/
inductive Begins (least bound otherBound : Nat) (view : Result → View)
    (first second : Parser Result) (kind : Kind) : Prop where
  | takes (few : least ≤ 1) (firstNext secondNext : Token → Parser Result)
    (firstTakes : ∀ token rest, token.kind = kind →
      first (token :: rest) = firstNext token rest)
    (secondTakes : ∀ token rest, token.kind = kind →
      second (token :: rest) = secondNext token rest)
    (decides : ∀ token again, token.kind = kind → again.kind = kind →
      Decides 0 (bound - 1) (otherBound - 1) view (firstNext token) (secondNext again))
  | stays (firstNext secondNext : Token → Parser Result)
    (firstStays : ∀ token rest, token.kind = kind →
      first (token :: rest) = firstNext token (token :: rest))
    (secondStays : ∀ token rest, token.kind = kind →
      second (token :: rest) = secondNext token (token :: rest))
    (decides : ∀ token again, token.kind = kind → again.kind = kind →
      Decides least bound otherBound view (firstNext token) (secondNext again))
  | blames (cause : SyntaxError.Cause) (other : cause ≠ .endOfTokens)
    (firstBlames : ∀ token rest, token.kind = kind →
      first (token :: rest) = .error ⟨cause, token.span⟩)
    (secondBlames : ∀ token rest, token.kind = kind →
      second (token :: rest) = .error ⟨cause, token.span⟩)

namespace Decides

/-- Parsers that do the same whatever the kind of the first token is decide alike. -/
theorem of_begins (empty : ∀ result token rest, first [] ≠ .ok (result, token :: rest))
    (emptyEnded : ∀ error, first [] = .error error → error = .ended)
    (begins : ∀ kind, Begins least bound otherBound view first second kind) :
    Decides least bound otherBound view first second where
  ok {tokens result token rest} within read := by
    cases tokens with
    | nil => exact absurd read (empty _ _ _)
    | cons head tokens =>
      simp only [List.length_cons] at within
      cases begins head.kind with
      | takes few firstNext secondNext firstTakes secondTakes decides =>
        rw [firstTakes head tokens rfl] at read
        obtain ⟨taken, rfl, least, -⟩ := (decides head head rfl rfl).ok (by omega) read
        refine ⟨head :: taken, rfl, by simp only [List.length_cons]; omega, ?_⟩
        intro front next back same sameNext short
        obtain ⟨span, front, rfl, sameFront⟩ := of_kindsOf_cons same
        obtain ⟨taken', shape, -, again⟩ := (decides head ⟨head.kind, span⟩ rfl rfl).ok
          (by omega) read
        obtain rfl : taken = taken' := List.append_cancel_right shape
        rw [List.cons_append, secondTakes ⟨head.kind, span⟩ _ rfl]
        simp only [List.cons_append, List.length_cons] at short
        exact again front next back sameFront sameNext (by omega)
      | stays firstNext secondNext firstStays secondStays decides =>
        rw [firstStays head tokens rfl] at read
        obtain ⟨taken, shape, least, -⟩ := (decides head head rfl rfl).ok
          (by simpa using within) read
        refine ⟨taken, shape, least, ?_⟩
        intro front next back same sameNext short
        obtain ⟨left, right, head', later', rfl, leftSame, -, joined, sameHead⟩ :=
          exists_split_of_kindsOf [] back shape same sameNext
        obtain rfl := of_kindsOf_nil leftSame
        rw [List.nil_append] at same short ⊢
        obtain ⟨taken', shape', -, again⟩ := (decides head head' rfl sameHead).ok
          (by simpa using within) read
        obtain rfl : taken = taken' := List.append_cancel_right (shape.symm.trans shape')
        rw [joined, secondStays _ _ sameHead, ← joined]
        exact again right next back same sameNext short
      | blames cause _ firstBlames _ =>
        rw [firstBlames head tokens rfl] at read
        cases read
  error {tokens error} others within otherWithin failed := by
    cases tokens with
    | nil => exact .inl (emptyEnded _ failed)
    | cons head tokens =>
      simp only [List.length_cons] at within
      cases begins head.kind with
      | takes few firstNext secondNext firstTakes secondTakes decides =>
        rw [firstTakes head tokens rfl] at failed
        by_cases agrees : ∃ head' others', others = head' :: others' ∧ head'.kind = head.kind
        · obtain ⟨head', others, rfl, sameHead⟩ := agrees
          simp only [List.length_cons] at otherWithin
          obtain ended | ⟨cause, taken, token, rest, rfl, blamed, again⟩ :=
            (decides head head' rfl sameHead).error others (by omega) (by omega) failed
          · exact .inl ended
          refine .inr ⟨cause, head :: taken, token, rest, rfl, blamed, ?_⟩
          intro front next back shape same sameNext
          obtain ⟨span, front, rfl, sameFront⟩ := of_kindsOf_cons same
          obtain ⟨rfl, rfl⟩ := List.cons.inj shape
          rw [secondTakes _ _ sameHead]
          exact again front next back rfl sameFront sameNext
        · obtain ended | ⟨cause, taken, token, rest, rfl, blamed, -⟩ :=
            (decides head head rfl rfl).error [] (by omega) (Nat.zero_le _) failed
          · exact .inl ended
          refine .inr ⟨cause, head :: taken, token, rest, rfl, blamed, ?_⟩
          intro front next back shape same sameNext
          obtain ⟨span, front, rfl, same⟩ := of_kindsOf_cons same
          exact absurd ⟨_, _, shape, rfl⟩ agrees
      | stays firstNext secondNext firstStays secondStays decides =>
        rw [firstStays head tokens rfl] at failed
        by_cases agrees : ∃ head' others', others = head' :: others' ∧ head'.kind = head.kind
        · obtain ⟨head', others, rfl, sameHead⟩ := agrees
          rw [secondStays head' others sameHead]
          exact (decides head head' rfl sameHead).error _ within otherWithin failed
        · obtain ended | ⟨cause, taken, token, rest, shape, blamed, -⟩ :=
            @Decides.error _ _ _ _ _ _ _ _ (decides head head rfl rfl) (head :: tokens) _ [] within
              (Nat.zero_le _) failed
          · exact .inl ended
          refine .inr ⟨cause, taken, token, rest, shape, blamed, ?_⟩
          intro front next back whole same sameNext
          obtain ⟨left, right, head', later', rfl, leftSame, -, joined, sameHead⟩ :=
            exists_split_of_kindsOf [] back shape same sameNext
          obtain rfl := of_kindsOf_nil leftSame
          exact absurd ⟨head', later', whole.trans joined, sameHead⟩ agrees
      | blames cause other firstBlames secondBlames =>
        rw [firstBlames head tokens rfl] at failed
        cases failed
        refine .inr ⟨other, [], head, tokens, rfl, rfl, ?_⟩
        intro front next back shape same sameNext
        obtain rfl := of_kindsOf_nil same
        rw [shape]
        exact secondBlames next back sameNext

/-- Two parsers that decide alike find nothing where there is nothing. -/
theorem not_ok_nil (decides : Decides least bound otherBound view first second) (result : Result)
    (token : Token) (rest : List Token) : first [] ≠ .ok (result, token :: rest) := by
  intro read
  obtain ⟨taken, none, -⟩ := decides.ok (Nat.zero_le _) read
  simp at none

theorem ended_of_nil (decides : Decides least bound otherBound view first second)
    {error : SyntaxError} (failed : first [] = .error error) : error = .ended := by
  obtain ended | ⟨-, taken, token, rest, none, -⟩ :=
    decides.error [] (Nat.zero_le _) (Nat.zero_le _) failed
  · exact ended
  · simp at none

end Decides

/-! ## Readers -/

/-- The view of a result that nothing behind depends on. -/
def unseen (_ : Result) : Unit := ()

theorem decides_expect (wanted : Kind → Bool) (what : Expectation) :
    Decides 1 bound otherBound (·.kind) (expect wanted what) (expect wanted what) := by
  refine .of_begins (fun _ _ _ read => by cases read) (fun _ failed => by cases failed; rfl)
    fun kind => ?_
  cases wants : wanted kind with
  | true =>
    refine .takes (Nat.le_refl 1) (fun token => pure token) (fun token => pure token) ?_ ?_ ?_
    · rintro token rest rfl
      simp [expect, wants]
    · rintro token rest rfl
      simp [expect, wants]
    · exact fun token again same sameAgain => .pure (sameAgain.trans same.symm)
  | false =>
    refine .blames (.expected what) (by simp) ?_ ?_
    · rintro token rest rfl
      simp [expect, wants]
    · rintro token rest rfl
      simp [expect, wants]

theorem decides_mark (sign : Mark) :
    Decides 1 bound otherBound (·.kind) (mark sign) (mark sign) :=
  decides_expect _ _

theorem decides_keyword (word : Keyword) :
    Decides 1 bound otherBound (·.kind) (keyword word) (keyword word) :=
  decides_expect _ _

theorem decides_identifier : Decides 1 bound otherBound unseen identifier identifier := by
  refine .of_begins (fun _ _ _ read => by cases read) (fun _ failed => by cases failed; rfl)
    fun kind => ?_
  cases kind with
  | identifier name =>
    refine .takes (Nat.le_refl 1) (fun token => pure (name, token.span))
      (fun token => pure (name, token.span)) ?_ ?_ fun _ _ _ _ => .pure rfl
    · rintro ⟨kind, span⟩ rest rfl
      rfl
    · rintro ⟨kind, span⟩ rest rfl
      rfl
  | _ =>
    refine .blames (.expected .identifier) (by simp) ?_ ?_
    · rintro ⟨kind, span⟩ rest rfl
      rfl
    · rintro ⟨kind, span⟩ rest rfl
      rfl

theorem decides_atSeparator : Decides 0 bound otherBound id atSeparator atSeparator := by
  refine .of_begins (fun _ _ _ read => by cases read) (fun _ failed => by cases failed)
    fun kind => ?_
  refine .stays (fun token => pure token.kind.isSeparator)
    (fun token => pure token.kind.isSeparator) (fun _ _ _ => rfl) (fun _ _ _ => rfl) ?_
  rintro token again rfl same
  exact .pure (congrArg Kind.isSeparator same)

theorem ahead_of_kindsOf {wanted : Kind → Bool} {front taken : List Token} {next token : Token}
    (back rest : List Token) (same : kindsOf front = kindsOf taken)
    (sameNext : next.kind = token.kind) :
    ahead wanted (front ++ next :: back) = ahead wanted (taken ++ token :: rest) := by
  cases taken with
  | nil =>
    obtain rfl := of_kindsOf_nil same
    exact congrArg wanted sameNext
  | cons first taken =>
    obtain ⟨span, front, rfl, -⟩ := of_kindsOf_cons same
    rfl

/-- Separators are taken up to the first token that is none. -/
theorem decides_separators : Decides 0 bound otherBound id separators separators where
  ok {tokens found token rest} _ read := by
    obtain ⟨rfl, shape⟩ := Prod.mk.inj (Except.ok.inj ((separators_apply tokens).symm.trans read))
    have split : tokens = tokens.takeWhile (·.kind.isSeparator) ++ token :: rest := by
      rw [← shape, List.takeWhile_append_dropWhile]
    refine ⟨tokens.takeWhile (·.kind.isSeparator), split, Nat.zero_le _, ?_⟩
    intro front next back same sameNext _
    have absent := not_ahead_dropWhile tokens
    rw [shape] at absent
    have stops : ahead (·.isSeparator) (next :: back) = false :=
      (congrArg Kind.isSeparator sameNext).trans absent
    have separate : ∀ token ∈ front, token.kind.isSeparator = true := by
      intro token member
      have listed : token.kind ∈ kindsOf front := List.mem_map_of_mem member
      rw [same] at listed
      obtain ⟨other, taken, sameKind⟩ := List.mem_map.mp listed
      have separates := List.mem_takeWhile_imp taken
      rw [← sameKind]
      exact separates
    refine ⟨ahead (·.isSeparator) (front ++ next :: back), ?_, ?_⟩
    · rw [split]
      exact ahead_of_kindsOf back rest same sameNext
    · rw [separators_apply, List.dropWhile_append_of_pos separate, dropWhile_of_ahead stops]
  error _ _ _ failed := by
    rw [separators_apply] at failed
    cases failed

/-- A token that is only taken if it is wanted: either what follows it decides, or what happens
without it. -/
theorem Decides.take? {wanted : Kind → Bool}
    {firstNext secondNext : Option Token → Parser Result} (takes : least ≤ 1)
    (found : ∀ token again, wanted token.kind = true → again.kind = token.kind →
      Decides 0 (bound - 1) (otherBound - 1) view (firstNext (some token))
        (secondNext (some again)))
    (absent : Decides least bound otherBound view (firstNext none) (secondNext none)) :
    Decides least bound otherBound view (Parser.take? wanted >>= firstNext)
      (Parser.take? wanted >>= secondNext) := by
  refine .of_begins (fun _ _ _ => absent.not_ok_nil _ _ _) (fun _ => absent.ended_of_nil)
    fun kind => ?_
  cases wants : wanted kind with
  | true =>
    refine .takes takes (fun token => firstNext (some token))
      (fun token => secondNext (some token)) ?_ ?_ ?_
    · rintro token rest rfl
      exact bind_eq (take?_cons rest wants)
    · rintro token rest rfl
      exact bind_eq (take?_cons rest wants)
    · rintro token again rfl same
      exact found token again wants same
  | false =>
    refine .stays (fun _ => firstNext none) (fun _ => secondNext none) ?_ ?_ fun _ _ _ _ => absent
    · rintro token rest rfl
      exact bind_eq (take?_of_ahead wants)
    · rintro token rest rfl
      exact bind_eq (take?_of_ahead wants)

theorem of_has {level : Level} {kind : Kind} (has : level.has kind = true) :
    ∃ op, kind.binaryOp? = some op ∧ level.admits op = true := by
  unfold Level.has at has
  cases operator : kind.binaryOp? with
  | none =>
    rw [operator] at has
    cases has
  | some op =>
    rw [operator] at has
    exact ⟨op, rfl, has⟩

/-- The same for an operator. -/
theorem Decides.operator? {level : Level}
    {firstNext secondNext : Option BinaryOp → Parser Result} (takes : least ≤ 1)
    (found : ∀ op, Decides 0 (bound - 1) (otherBound - 1) view (firstNext (some op))
      (secondNext (some op)))
    (absent : Decides least bound otherBound view (firstNext none) (secondNext none)) :
    Decides least bound otherBound view (Grammar.operator? level.admits >>= firstNext)
      (Grammar.operator? level.admits >>= secondNext) := by
  refine .of_begins (fun _ _ _ => absent.not_ok_nil _ _ _) (fun _ => absent.ended_of_nil)
    fun kind => ?_
  cases has : level.has kind with
  | true =>
    obtain ⟨op, operator, admitted⟩ := of_has has
    refine .takes takes (fun _ => firstNext (some op)) (fun _ => secondNext (some op)) ?_ ?_
      fun _ _ _ _ => found op
    · rintro token rest rfl
      exact bind_eq (operator?_cons rest operator admitted)
    · rintro token rest rfl
      exact bind_eq (operator?_cons rest operator admitted)
  | false =>
    refine .stays (fun _ => firstNext none) (fun _ => secondNext none) ?_ ?_ fun _ _ _ _ => absent
    · rintro token rest rfl
      exact bind_eq (operator?_of_ahead has)
    · rintro token rest rfl
      exact bind_eq (operator?_of_ahead has)

/-- What two parsers do behind a token of the given kind that they have seen: both go on, or both
blame the token. -/
inductive Continues (least bound otherBound : Nat) (view : Result → View)
    (first second : Token → Parser Result) (kind : Kind) : Prop where
  | goes (decides : ∀ token again, token.kind = kind → again.kind = kind →
      Decides least bound otherBound view (first token) (second again))
  | blames (cause : SyntaxError.Cause) (other : cause ≠ .endOfTokens)
      (firstBlames : ∀ token, token.kind = kind → first token = fail cause token.span)
      (secondBlames : ∀ token, token.kind = kind → second token = fail cause token.span)

/-- A token that is taken whatever it is. -/
theorem Decides.next {total : Nat} {firstNext secondNext : Token → Parser Result}
    (continues : ∀ kind, Continues 0 (bound - 1) (otherBound - 1) view firstNext secondNext kind)
    (takes : total ≤ 1) :
    Decides total bound otherBound view (Parser.next >>= firstNext)
      (Parser.next >>= secondNext) := by
  refine .of_begins (fun _ _ _ read => by cases read) (fun _ failed => by cases failed; rfl)
    fun kind => ?_
  cases continues kind with
  | goes decides =>
    exact .takes takes firstNext secondNext (fun _ _ _ => rfl) (fun _ _ _ => rfl) decides
  | blames cause other firstBlames secondBlames =>
    refine .blames cause other ?_ ?_
    · intro token rest same
      change firstNext token rest = _
      rw [firstBlames token same]
      rfl
    · intro token rest same
      change secondNext token rest = _
      rw [secondBlames token same]
      rfl

/-- A token that is only looked at. -/
theorem Decides.peek {firstNext secondNext : Token → Parser Result}
    (continues : ∀ kind, Continues least bound otherBound view firstNext secondNext kind) :
    Decides least bound otherBound view (Parser.peek >>= firstNext)
      (Parser.peek >>= secondNext) := by
  refine .of_begins (fun _ _ _ read => by cases read) (fun _ failed => by cases failed; rfl)
    fun kind => ?_
  cases continues kind with
  | goes decides => exact .stays firstNext secondNext (fun _ _ _ => rfl) (fun _ _ _ => rfl) decides
  | blames cause other firstBlames secondBlames =>
    refine .blames cause other ?_ ?_
    · intro token rest same
      change firstNext token (token :: rest) = _
      rw [firstBlames token same]
      rfl
    · intro token rest same
      change secondNext token (token :: rest) = _
      rw [secondBlames token same]
      rfl

theorem Decides.map (decides : Decides least bound otherBound view first second)
    (transform : Result → Other) :
    Decides least bound otherBound unseen (transform <$> first) (transform <$> second) := by
  rw [map_eq_pure_bind, map_eq_pure_bind]
  exact decides.bind (Nat.le_refl _) (Nat.le_refl _) (Nat.le_refl _) fun _ _ _ => .pure rfl

end Quill.Grammar
