import Mathlib.Data.List.TakeWhile
import Quill.Proofs.Syntax.Places
import Quill.Proofs.Syntax.Readers

/-!
# What a reading sees of the tokens behind it

A phrase is read from the tokens it takes and from a look at the token behind them. The tokens that
follow can therefore be replaced, as long as the first of them stays. Phrases that end without a
closing word, mark or list of statements do not even need that: they can be followed by any token
that pulls nothing away from them.
-/

namespace Quill.Grammar

open Quill.Token Quill.Parser

/-- The same token comes next in both. -/
def SameNext (after other : List Token) : Prop :=
  ∃ token rest otherRest, after = token :: rest ∧ other = token :: otherRest

theorem sameNext_cons (token : Token) (rest otherRest : List Token) :
    SameNext (token :: rest) (token :: otherRest) :=
  ⟨token, rest, otherRest, rfl, rfl⟩

/-- Whether a reading of the phrase does not depend on which token follows, as long as that token
pulls nothing away from it. The end of a list of statements does. -/
def Phrase.endsOpen : Phrase → Bool
  | .functionName _ | .statementList .. | .statements .. | .step _ => false
  | .body _ _ block => !block
  | _ => true

/-- The second tokens can take the place of the first ones behind the phrase. -/
def Resumes (phrase : Phrase) (after other : List Token) : Prop :=
  SameNext after other ∨
    phrase.endsOpen = true ∧ pullAhead other = 0 ∧
      (ahead endsStatement after = true → ahead endsStatement other = true)

variable {phrase first second : Phrase} {after other : List Token}

theorem Resumes.cons (phrase : Phrase) (token : Token) (rest otherRest : List Token) :
    Resumes phrase (token :: rest) (token :: otherRest) :=
  .inl (sameNext_cons token rest otherRest)

/-- What can take the place of the tokens behind a phrase can do so behind every phrase that ends
there, too. -/
theorem Resumes.of_endsOpen (resumes : Resumes second after other)
    (opens : second.endsOpen = true → first.endsOpen = true) : Resumes first after other :=
  resumes.imp_right fun ⟨second, pulls⟩ => ⟨opens second, pulls⟩

/-- Seen from further ahead, only tokens that are taken by what is between matter. -/
theorem Resumes.before (resumes : Resumes second after other) (taken : List Token)
    (opens : second.endsOpen = true → first.endsOpen = true) :
    Resumes first (taken ++ after) (taken ++ other) := by
  cases taken with
  | nil => exact resumes.of_endsOpen opens
  | cons token taken => exact .cons first token _ _

/-- If the phrase between takes a token, only that token can be seen from further ahead. -/
theorem Resumes.before_of_ne_nil {taken : List Token} (takes : taken ≠ []) (first : Phrase)
    (after other : List Token) : Resumes first (taken ++ after) (taken ++ other) := by
  obtain ⟨token, taken, rfl⟩ := List.exists_cons_of_ne_nil takes
  exact .cons first token _ _

theorem SameNext.append (same : SameNext after other) (taken : List Token) :
    SameNext (taken ++ after) (taken ++ other) := by
  cases taken with
  | nil => exact same
  | cons token taken => exact sameNext_cons token _ _

theorem SameNext.ahead {wanted : Kind → Bool} (same : SameNext after other) :
    ahead wanted other = ahead wanted after := by
  obtain ⟨token, rest, otherRest, rfl, rfl⟩ := same
  rfl

/-- A token that would pull the phrase away, and does not follow, does not follow afterwards. -/
theorem Resumes.not_ahead {wanted : Kind → Bool} (resumes : Resumes phrase after other)
    (pulls : ∀ kind, wanted kind = true → 0 < pull kind)
    (absent : ahead wanted after = false) : ahead wanted other = false := by
  obtain same | ⟨-, quiet, -⟩ := resumes
  · rw [same.ahead]
    exact absent
  · exact not_ahead_of_pull 0 pulls (by omega)

theorem Resumes.not_mark {sign : Mark} (resumes : Resumes phrase after other)
    (pulls : 0 < pull (.mark sign)) (absent : ahead (·.isMark sign) after = false) :
    ahead (·.isMark sign) other = false :=
  resumes.not_ahead (fun _ marked => isMark_iff.mp marked ▸ pulls) absent

theorem Resumes.not_keyword {word : Keyword} (resumes : Resumes phrase after other)
    (pulls : 0 < pull (.keyword word)) (absent : ahead (·.isKeyword word) after = false) :
    ahead (·.isKeyword word) other = false :=
  resumes.not_ahead (fun _ worded => isKeyword_iff.mp worded ▸ pulls) absent

theorem Resumes.no_operator {level : Level} (resumes : Resumes phrase after other)
    (absent : ahead level.has after = false) : ahead level.has other = false := by
  refine resumes.not_ahead (fun kind has => ?_) absent
  rw [pull_of_level has]
  cases level <;> decide

theorem Resumes.ne_nil (resumes : Resumes phrase after other) : other ≠ [] := by
  obtain ⟨token, rest, otherRest, rfl, rfl⟩ | ⟨-, quiet, -⟩ := resumes
  · exact List.cons_ne_nil _ _
  · rintro rfl
    cases quiet

theorem Resumes.endsStatement (resumes : Resumes phrase after other)
    (ends : ahead endsStatement after = true) : ahead endsStatement other = true := by
  obtain same | ⟨-, -, keeps⟩ := resumes
  · rw [same.ahead]
    exact ends
  · exact keeps ends

theorem ahead_append {wanted : Kind → Bool} {taken : List Token} (takes : taken ≠ []) :
    ahead wanted (taken ++ other) = ahead wanted (taken ++ after) := by
  obtain ⟨token, taken, rfl⟩ := List.exists_cons_of_ne_nil takes
  rfl

/-- Behind a name, it is the next token that decides about an assignment. -/
theorem targetAhead_name (name : String) (span : Span) (rest : List Token) :
    targetAhead (⟨.identifier name, span⟩ :: rest) = ahead (·.isMark .assign) rest := by
  cases rest with
  | nil => rfl
  | cons next rest =>
    obtain ⟨kind, nextSpan⟩ := next
    cases kind with
    | mark sign => cases sign <;> rfl
    | _ => rfl

/-- No assignment begins where none began. -/
theorem Resumes.not_targetAhead (resumes : Resumes phrase after other) {taken : List Token}
    (takes : taken ≠ []) (absent : targetAhead (taken ++ after) = false) :
    targetAhead (taken ++ other) = false := by
  obtain ⟨⟨kind, span⟩, taken, rfl⟩ := List.exists_cons_of_ne_nil takes
  cases kind with
  | identifier name =>
    rw [List.cons_append, targetAhead_name] at absent ⊢
    cases taken with
    | nil => exact resumes.not_mark (by decide) absent
    | cons next taken => exact absent
  | _ => rfl

theorem not_ahead_dropWhile (tokens : List Token) :
    ahead (·.isSeparator) (tokens.dropWhile (·.kind.isSeparator)) = false := by
  induction tokens with
  | nil => rfl
  | cons token rest ih =>
    cases separates : token.kind.isSeparator with
    | true => simpa [separates] using ih
    | false => simp [separates, ahead]

theorem dropWhile_takeWhile_append {tokens rest : List Token}
    (absent : ahead (·.isSeparator) rest = false) :
    (tokens.takeWhile (·.kind.isSeparator) ++ rest).dropWhile (·.kind.isSeparator) = rest := by
  rw [List.dropWhile_append_of_pos]
  · exact dropWhile_of_ahead absent
  · intro token member
    have separates := List.mem_takeWhile_imp member
    exact separates

/-- Separators that have been skipped can stand there as well if what follows is replaced. -/
theorem exists_skipped {tokens taken : List Token}
    (skipped : tokens.dropWhile (·.kind.isSeparator) = taken ++ after) :
    ∃ separators, tokens = separators ++ (taken ++ after) ∧ ∀ {other}, SameNext after other →
      (separators ++ (taken ++ other)).dropWhile (·.kind.isSeparator) = taken ++ other := by
  refine ⟨tokens.takeWhile (·.kind.isSeparator), ?_, fun same => ?_⟩
  · rw [← skipped, List.takeWhile_append_dropWhile]
  · apply dropWhile_takeWhile_append
    rw [(same.append taken).ahead, ← skipped]
    exact not_ahead_dropWhile tokens

theorem dropWhile_append_of_nil {tokens more : List Token}
    (skipped : tokens.dropWhile (·.kind.isSeparator) = []) :
    (tokens ++ more).dropWhile (·.kind.isSeparator) = more.dropWhile (·.kind.isSeparator) := by
  rw [List.dropWhile_append, skipped]
  rfl

theorem dropWhile_append_of_cons {tokens more rest : List Token} {token : Token}
    (skipped : tokens.dropWhile (·.kind.isSeparator) = token :: rest) :
    (tokens ++ more).dropWhile (·.kind.isSeparator) = token :: (rest ++ more) := by
  rw [List.dropWhile_append, skipped]
  rfl

theorem dropWhile_append_of_ne_nil {tokens more : List Token}
    (filled : tokens.dropWhile (·.kind.isSeparator) ≠ []) :
    (tokens ++ more).dropWhile (·.kind.isSeparator) =
      tokens.dropWhile (·.kind.isSeparator) ++ more := by
  obtain ⟨token, rest, skipped⟩ := List.exists_cons_of_ne_nil filled
  rw [dropWhile_append_of_cons skipped, skipped]
  rfl

/-! ## Readings -/

/-- The phrase takes the tokens between, and would do so whatever stood behind them in place of what
does. -/
def Local (phrase : Phrase) (before after : List Token) : Prop :=
  ∃ taken, before = taken ++ after ∧ phrase.least ≤ taken.length ∧
    ∀ other, Resumes phrase after other → Reads phrase (taken ++ other) other

theorem ne_nil_of_least {taken : List Token} (least : 1 ≤ taken.length) : taken ≠ [] :=
  List.ne_nil_of_length_pos least

/-- A body that is a block has the word that closes it behind it. -/
theorem Resumes.body {closing : Kind → Bool} {body : Located} {block : Bool} {stop : Span}
    {taken : List Token} (ended : Reads (.ending body block stop) (taken ++ after) after)
    (resumes : Resumes phrase after other) :
    Resumes (.body closing body block) (taken ++ after) (taken ++ other) := by
  cases block with
  | false => exact resumes.before taken fun _ => rfl
  | true =>
    refine .before_of_ne_nil ?_ _ _ _
    rintro rfl
    cases ended

/-- A phrase that consists of some tokens and another phrase takes what that phrase takes, and can
look at the first of it if there is one. -/
theorem Local.behind {rest after : List Token} (inner : Local second rest after)
    (front : List Token) (least : phrase.least ≤ front.length + second.least)
    (opens : phrase.endsOpen = true → second.endsOpen = true)
    (reading : ∀ {before other : List Token}, Reads second before other →
      (second.least = 1 ∨ phrase.endsOpen = false →
        ∀ wanted, ahead wanted before = ahead wanted rest) →
          Reads phrase (front ++ before) other) :
    Local phrase (front ++ rest) after := by
  obtain ⟨taken, rfl, takes, again⟩ := inner
  refine ⟨front ++ taken, (List.append_assoc ..).symm, ?_, fun other resumes => ?_⟩
  · rw [List.length_append]
    exact Nat.le_trans least (Nat.add_le_add_left takes _)
  rw [List.append_assoc]
  apply reading (again other (resumes.of_endsOpen opens))
  rintro looks wanted
  obtain filled | closed := looks
  · exact ahead_append (ne_nil_of_least (filled ▸ takes))
  · obtain same | ⟨opened, -⟩ := resumes
    · exact (same.append taken).ahead
    · rw [closed] at opened
      cases opened

/-- A phrase that consists of some tokens and two other phrases, with some tokens between them,
takes what these phrases take. -/
theorem Local.andThen {before middle after : List Token} (front link : List Token)
    (left : Local first before (link ++ middle)) (right : Local second middle after)
    (least : phrase.least ≤ first.least + link.length + front.length)
    (opensFirst : link = [] → phrase.endsOpen = true → first.endsOpen = true)
    (opens : phrase.endsOpen = true → second.endsOpen = true)
    (reading : ∀ {before middle other : List Token}, Reads first before (link ++ middle) →
      Reads second middle other → Reads phrase (front ++ before) other) :
    Local phrase (front ++ before) after := by
  obtain ⟨taken, rfl, takes, readFirst⟩ := left
  obtain ⟨others, rfl, -, readSecond⟩ := right
  refine ⟨front ++ (taken ++ (link ++ others)), by simp only [List.append_assoc], ?_,
    fun other resumes => ?_⟩
  · simp only [List.length_append]
    omega
  simp only [List.append_assoc]
  apply reading (readFirst _ ?_) (readSecond other (resumes.of_endsOpen opens))
  cases link with
  | nil => exact resumes.before others (opensFirst rfl)
  | cons token link => exact .cons first token _ _

/-- A phrase that consists of some tokens, another phrase and a token that closes it takes what that
phrase takes and the token. -/
theorem Local.closed {rest after : List Token} {token : Token}
    (inner : Local first rest (token :: after)) (front : List Token)
    (least : phrase.least ≤ front.length + 1)
    (reading : ∀ {before other : List Token}, Reads first before (token :: other) →
      (∀ wanted, ahead wanted before = ahead wanted rest) → Reads phrase (front ++ before) other) :
    Local phrase (front ++ rest) after := by
  obtain ⟨taken, rfl, -, again⟩ := inner
  refine ⟨front ++ (taken ++ [token]), by simp, ?_, fun other _ => ?_⟩
  · simp only [List.length_append, List.length_singleton]
    omega
  simp only [List.append_assoc]
  exact reading (again _ (.cons first token _ _))
    fun _ => ((sameNext_cons token after other).append taken).ahead

/-- Readings only depend on the tokens they take and on what they see of the next one. -/
theorem Reads.isLocal {phrase : Phrase} {before after : List Token}
    (reads : Reads phrase before after) : Local phrase before after := by
  induction reads with
  | declaration _ assigned =>
    exact assigned.behind [_, _, _] (by simp [Phrase.least]) (fun _ => rfl) fun again _ =>
      .declaration again
  | assignment _ assigned =>
    exact assigned.behind [_, _] (by simp [Phrase.least]) (fun _ => rfl) fun again _ =>
      .assignment again
  | connection noWord noTarget _ connected =>
    obtain ⟨taken, rfl, least, again⟩ := connected
    have takes := ne_nil_of_least least
    refine ⟨taken, rfl, least, fun other resumes => ?_⟩
    exact .connection (ahead_append takes ▸ noWord) (resumes.not_targetAhead takes noTarget)
      (again other (resumes.of_endsOpen fun _ => rfl))
  | @chain level first _ _ _ _ _ _ start more =>
    have opens : (Phrase.operand level first).endsOpen = true := by cases level <;> rfl
    exact start.andThen [] [] more (Phrase.least_operand level first).ge (fun _ _ => opens)
      (fun _ => rfl) fun started continued => .chain started continued
  | chainEnd noOperator =>
    exact ⟨[], rfl, Nat.le_refl _, fun _ resumes => .chainEnd (resumes.no_operator noOperator)⟩
  | @chainMore level _ _ _ right _ _ _ _ operator admitted _ _ operand more =>
    have opens : (Phrase.operand level right).endsOpen = true := by cases level <;> rfl
    exact operand.andThen [_] [] more (by simp [Phrase.least]) (fun _ _ => opens) (fun _ => rfl)
      fun started continued => .chainMore operator admitted started continued
  | negation _ negated =>
    exact negated.behind [_] (by simp [Phrase.least]) (fun _ => rfl) fun again _ => .negation again
  | comparison noWord _ compared =>
    exact compared.behind [] (by simp [Phrase.least]) (fun _ => rfl) fun again looks =>
      .comparison ((looks (.inl rfl) _).trans noWord) again
  | base _ noExponent start =>
    obtain ⟨taken, rfl, least, again⟩ := start
    refine ⟨taken, rfl, least, fun other resumes => ?_⟩
    exact .base (again other (resumes.of_endsOpen fun _ => rfl))
      (resumes.not_mark (by decide) noExponent)
  | power _ _ start raised =>
    exact start.andThen [] [_] raised (by simp [Phrase.least]) (fun _ _ => rfl) (fun _ => rfl)
      fun based exponent => .power based exponent
  | plus _ signed =>
    exact signed.behind [_] (by simp [Phrase.least]) (fun _ => rfl) fun again _ => .plus again
  | smallest => exact ⟨[_, _], rfl, by simp [Phrase.least], fun _ _ => .smallest⟩
  | minus noLargest _ signed =>
    exact signed.behind [_] (by simp [Phrase.least]) (fun _ => rfl) fun again looks =>
      .minus ((looks (.inl rfl) _).trans noLargest) again
  | unsigned noPlus noMinus _ called =>
    exact called.behind [] (by simp [Phrase.least]) (fun _ => rfl) fun again looks =>
      .unsigned ((looks (.inl rfl) _).trans noPlus) ((looks (.inl rfl) _).trans noMinus) again
  | call _ _ start more =>
    exact start.andThen [] [] more (by simp [Phrase.least]) (fun _ _ => rfl) (fun _ => rfl)
      fun started continued => .call started continued
  | callsEnd noList =>
    exact ⟨[], rfl, Nat.le_refl _,
      fun _ resumes => .callsEnd (resumes.not_mark (by decide) noList)⟩
  | callsMore _ _ passed more =>
    exact passed.andThen [_] [] more (by simp [Phrase.least]) (fun _ _ => rfl) (fun _ => rfl)
      fun started continued => .callsMore started continued
  | int small => exact ⟨[_], rfl, Nat.le_refl _, fun _ _ => .int small⟩
  | float => exact ⟨[_], rfl, Nat.le_refl _, fun _ _ => .float⟩
  | str => exact ⟨[_], rfl, Nat.le_refl _, fun _ _ => .str⟩
  | named _ continued =>
    exact continued.behind [_] (by simp [Phrase.least]) (fun _ => rfl) fun again _ => .named again
  | «variable» noDot =>
    exact ⟨[], rfl, Nat.le_refl _,
      fun _ resumes => .variable (resumes.not_mark (by decide) noDot)⟩
  | member noAssign =>
    exact ⟨[_, _], rfl, Nat.zero_le _,
      fun _ resumes => .member (resumes.not_mark (by decide) noAssign)⟩
  | memberAssignment _ assigned =>
    exact assigned.behind [_, _, _] (by simp [Phrase.least]) (fun _ => rfl) fun again _ =>
      .memberAssignment again
  | parens _ inner =>
    exact inner.closed [_] (by simp [Phrase.least]) fun again _ => .parens again
  | list _ listed =>
    exact listed.behind [_] (by simp [Phrase.least]) (fun _ => rfl) fun again _ => .list again
  | choice _ chosen =>
    exact chosen.behind [_] (by simp [Phrase.least]) (fun _ => rfl) fun again _ => .choice again
  | forLoop _ _ _ _ ended started stopped stepped repeated ending =>
    obtain ⟨fromStart, rfl, -, readStart⟩ := started
    obtain ⟨fromStop, rfl, -, readStop⟩ := stopped
    obtain ⟨fromStep, rfl, -, readStep⟩ := stepped
    obtain ⟨fromBody, rfl, -, readBody⟩ := repeated
    obtain ⟨fromEnd, rfl, -, readEnd⟩ := ending
    refine ⟨_ :: _ :: _ :: (fromStart ++ _ :: (fromStop ++ (fromStep ++ _ ::
      (fromBody ++ fromEnd)))), by simp only [List.cons_append, List.append_assoc]; rfl,
      by simp [Phrase.least], fun other resumes => ?_⟩
    simp only [List.cons_append, List.append_assoc]
    exact .forLoop (readStart _ (.cons _ _ _ _))
      (readStop _ ((Resumes.cons _ _ _ _).before fromStep id)) (readStep _ (.cons _ _ _ _))
      (readBody _ (resumes.body ended)) (readEnd other (resumes.of_endsOpen fun _ => rfl))
  | stepNone noStep =>
    refine ⟨[], rfl, Nat.le_refl _, fun other resumes => ?_⟩
    obtain same | ⟨opens, -⟩ := resumes
    · exact .stepNone (same.ahead.trans noStep)
    · cases opens
  | stepSome _ stepped =>
    refine stepped.behind [_] (by simp [Phrase.least]) ?_ fun again _ => .stepSome again
    rintro ⟨⟩
  | whileLoop _ _ ended conditional repeated ending =>
    obtain ⟨fromWord, rfl, -, readCondition⟩ := conditional
    obtain ⟨fromBody, rfl, -, readBody⟩ := repeated
    obtain ⟨fromEnd, rfl, -, readEnd⟩ := ending
    refine ⟨_ :: (fromWord ++ _ :: (fromBody ++ fromEnd)),
      by simp only [List.cons_append, List.append_assoc]; rfl,
      by simp [Phrase.least], fun other resumes => ?_⟩
    simp only [List.cons_append, List.append_assoc]
    exact .whileLoop (readCondition _ (.cons _ _ _ _))
      (readBody _ (resumes.body ended)) (readEnd other (resumes.of_endsOpen fun _ => rfl))
  | functionOf _ _ _ called passed valued =>
    obtain ⟨fromName, rfl, -, readName⟩ := called
    obtain ⟨fromNames, rfl, -, readNames⟩ := passed
    obtain ⟨fromValue, rfl, -, readValue⟩ := valued
    refine ⟨_ :: (fromName ++ _ :: (fromNames ++ _ :: fromValue)),
      by simp only [List.cons_append, List.append_assoc]; rfl,
      by simp [Phrase.least], fun other resumes => ?_⟩
    simp only [List.cons_append, List.append_assoc]
    exact .functionOf (readName _ (.cons _ _ _ _)) (readNames _ (.cons _ _ _ _))
      (readValue other (resumes.of_endsOpen fun _ => rfl))
  | functionBlock _ _ newLine _ called passed blocked =>
    obtain ⟨fromName, rfl, -, readName⟩ := called
    obtain ⟨fromNames, rfl, -, readNames⟩ := passed
    obtain ⟨fromBlock, rfl, -, readBlock⟩ := blocked
    refine ⟨_ :: (fromName ++ _ :: (fromNames ++ (fromBlock ++ [_]))),
      by simp only [List.cons_append, List.append_assoc]; rfl,
      by simp [Phrase.least], fun other _ => ?_⟩
    simp only [List.cons_append, List.append_assoc]
    exact .functionBlock (readName _ (.cons _ _ _ _))
      (readNames _ ((Resumes.cons _ _ _ _).before fromBlock id))
      (((sameNext_cons _ _ _).append fromBlock).ahead.trans newLine)
      (readBlock _ (.cons _ _ _ _))
  | noName present noIdentifier =>
    refine ⟨[], rfl, Nat.le_refl _, fun other resumes => ?_⟩
    obtain same | ⟨opens, -⟩ := resumes
    · obtain ⟨token, rest, otherRest, rfl, rfl⟩ := same
      exact .noName (List.cons_ne_nil _ _) noIdentifier
    · cases opens
  | name => exact ⟨[_], rfl, Nat.zero_le _, fun _ _ => .name⟩
  | template newLine _ blocked =>
    exact blocked.closed [_, _] (by simp [Phrase.least]) fun again looks =>
      .template ((looks _).trans newLine) again
  | instantiate => exact ⟨[_, _], rfl, by simp [Phrase.least], fun _ _ => .instantiate⟩
  | noElements => exact ⟨[_], rfl, Nat.le_refl _, fun _ _ => .noElements⟩
  | elements noClosing _ listed =>
    exact listed.behind [] (by simp [Phrase.least]) (fun _ => rfl) fun again looks =>
      .elements ((looks (.inl rfl) _).trans noClosing) again
  | lastItem noComma _ item =>
    exact item.closed [] (by simp [Phrase.least]) fun again _ => .lastItem noComma again
  | moreItems _ _ item more =>
    exact item.andThen [] [_] more (by simp [Phrase.least]) (fun _ _ => rfl) (fun _ => rfl)
      fun first others => .moreItems first others
  | noParameters => exact ⟨[_], rfl, Nat.le_refl _, fun _ _ => .noParameters⟩
  | parameters _ listed =>
    exact listed.behind [] (by simp [Phrase.least]) (fun _ => rfl) fun again _ => .parameters again
  | lastName => exact ⟨[_, _], rfl, by simp [Phrase.least], fun _ _ => .lastName⟩
  | moreNames _ more =>
    exact more.behind [_, _] (by simp [Phrase.least]) (fun _ => rfl) fun again _ => .moreNames again
  | returnNone noValue =>
    exact ⟨[_], rfl, Nat.le_refl _, fun _ resumes => .returnNone (resumes.endsStatement noValue)⟩
  | returnSome hasValue _ returned =>
    exact returned.behind [_] (by simp [Phrase.least]) (fun _ => rfl) fun again looks =>
      .returnSome ((looks (.inl rfl) _).trans hasValue) again
  | continueLoop => exact ⟨[_], rfl, Nat.le_refl _, fun _ _ => .continueLoop⟩
  | breakLoop => exact ⟨[_], rfl, Nat.le_refl _, fun _ _ => .breakLoop⟩
  | statement noJump _ plain =>
    exact plain.behind [] (by simp [Phrase.least]) (fun _ => rfl) fun again looks =>
      .statement ((looks (.inl rfl) _).trans noJump) again
  | noStatements closed =>
    refine ⟨[], rfl, Nat.le_refl _, fun other resumes => ?_⟩
    obtain same | ⟨opens, -⟩ := resumes
    · exact .noStatements (same.ahead.trans closed)
    · cases opens
  | lastStatement opened _ noSeparator first =>
    obtain ⟨taken, rfl, least, again⟩ := first
    refine ⟨taken, rfl, Nat.zero_le _, fun other resumes => ?_⟩
    obtain same | ⟨opens, -⟩ := resumes
    · exact .lastStatement (ahead_append (ne_nil_of_least least) ▸ opened)
        (again other (.inl same)) (same.ahead.trans noSeparator)
    · cases opens
  | moreStatements opened _ separated _ first more =>
    obtain ⟨taken, rfl, least, readFirst⟩ := first
    obtain ⟨others, rest, -, readMore⟩ := more
    obtain ⟨separators, rfl, skips⟩ := exists_skipped rest
    refine ⟨taken ++ (separators ++ others), by simp only [List.append_assoc], Nat.zero_le _,
      fun other resumes => ?_⟩
    obtain same | ⟨opens, -⟩ := resumes
    · have next := (same.append others).append separators
      simp only [List.append_assoc]
      refine .moreStatements (ahead_append (ne_nil_of_least least) ▸ opened)
        (readFirst _ (.inl next)) (next.ahead.trans separated) ?_
      rw [skips same]
      exact readMore other (.inl same)
    · cases opens
  | statements skipped _ listed =>
    obtain ⟨taken, rest, -, again⟩ := listed
    obtain ⟨separators, rfl, skips⟩ := exists_skipped (skipped.trans rest)
    refine ⟨separators ++ taken, by rw [List.append_assoc], Nat.zero_le _, fun other resumes => ?_⟩
    obtain same | ⟨opens, -⟩ := resumes
    · have listed := again other (.inl same)
      obtain ⟨token, tail, otherTail, shape, otherShape⟩ := same.append taken
      obtain ⟨rfl, rfl⟩ := List.cons.inj (rest.trans shape)
      rw [otherShape] at listed
      rw [List.append_assoc]
      exact .statements ((skips same).trans otherShape) listed
    · cases opens
  | block newLine _ blocked =>
    refine blocked.behind [] (by simp [Phrase.least]) ?_ fun again looks =>
      .block ((looks (.inr rfl) _).trans newLine) again
    rintro ⟨⟩
  | single sameLine _ stated =>
    exact stated.behind [] (by simp [Phrase.least]) (fun _ => rfl) fun again looks =>
      .single ((looks (.inl rfl) _).trans sameLine) again
  | endOfBlock => exact ⟨[_], rfl, Nat.zero_le _, fun _ _ => .endOfBlock⟩
  | endOfLine => exact ⟨[], rfl, Nat.zero_le _, fun _ _ => .endOfLine⟩
  | elif _ _ _ conditional chosen more =>
    obtain ⟨fromWord, rfl, -, readCondition⟩ := conditional
    obtain ⟨fromBody, rfl, -, readBody⟩ := chosen
    obtain ⟨others, rfl, -, readMore⟩ := more
    refine ⟨fromWord ++ _ :: (fromBody ++ _ :: others),
      by simp only [List.cons_append, List.append_assoc]; rfl,
      by simp [Phrase.least]; omega, fun other resumes => ?_⟩
    simp only [List.cons_append, List.append_assoc]
    exact .elif (readCondition _ (.cons _ _ _ _)) (readBody _ (.cons _ _ _ _))
      (readMore other (resumes.of_endsOpen fun _ => rfl))
  | otherwise _ _ _ ended conditional chosen alternative ending =>
    obtain ⟨fromWord, rfl, -, readCondition⟩ := conditional
    obtain ⟨fromBody, rfl, -, readBody⟩ := chosen
    obtain ⟨fromOther, rfl, -, readOther⟩ := alternative
    obtain ⟨fromEnd, rfl, -, readEnd⟩ := ending
    refine ⟨fromWord ++ _ :: (fromBody ++ _ :: (fromOther ++ fromEnd)),
      by simp only [List.cons_append, List.append_assoc]; rfl,
      by simp [Phrase.least]; omega, fun other resumes => ?_⟩
    simp only [List.cons_append, List.append_assoc]
    exact .otherwise (readCondition _ (.cons _ _ _ _)) (readBody _ (.cons _ _ _ _))
      (readOther _ (resumes.body ended)) (readEnd other (resumes.of_endsOpen fun _ => rfl))
  | @lastBranch _ stop _ _ _ _ _ _ _ _ _ _ noElif noElse ended conditional chosen ending =>
    obtain ⟨fromWord, rfl, -, readCondition⟩ := conditional
    obtain ⟨fromBody, rfl, -, readBody⟩ := chosen
    obtain ⟨fromEnd, rfl, -, readEnd⟩ := ending
    refine ⟨fromWord ++ _ :: (fromBody ++ fromEnd),
      by simp only [List.cons_append, List.append_assoc]; rfl,
      by simp [Phrase.least]; omega, fun other resumes => ?_⟩
    simp only [List.cons_append, List.append_assoc]
    have behind : Resumes (.branches .done stop) _ _ := resumes.before fromEnd fun _ => rfl
    exact .lastBranch (readCondition _ (.cons _ _ _ _)) (readBody _ (resumes.body ended))
      behind.ne_nil (behind.not_keyword (by decide) noElif)
      (behind.not_keyword (by decide) noElse) (readEnd other (resumes.of_endsOpen fun _ => rfl))

/-- What a reading leaves comes last. -/
theorem Reads.suffix {phrase : Phrase} {before after : List Token}
    (reads : Reads phrase before after) : after <:+ before := by
  obtain ⟨taken, rfl, -⟩ := reads.isLocal
  exact List.suffix_append taken after

theorem Reads.suffix_behind {phrase : Phrase} {token : Token} {before after : List Token}
    (reads : Reads phrase before (token :: after)) : after <:+ before :=
  (List.suffix_cons token after).trans reads.suffix

/-- What can take the place of the tokens behind a phrase can follow the tokens that it took. -/
theorem Reads.resumed {phrase : Phrase} {taken after other : List Token}
    (reads : Reads phrase (taken ++ after) after) (resumes : Resumes phrase after other) :
    Reads phrase (taken ++ other) other := by
  obtain ⟨taken', split, -, again⟩ := reads.isLocal
  obtain rfl := List.append_cancel_right split
  exact again other resumes

/-! ## The end of the input -/

/-- How many tokens stand for the end of the input. -/
def ends (tokens : List Token) : Nat :=
  tokens.countP fun token => token.kind matches .endOfInput

@[simp] theorem ends_cons (token : Token) (rest : List Token) :
    ends (token :: rest) = ends rest + if token.kind matches .endOfInput then 1 else 0 :=
  List.countP_cons

@[simp] theorem ends_append (first second : List Token) :
    ends (first ++ second) = ends first + ends second :=
  List.countP_append

theorem ends_eq_zero {tokens : List Token} :
    ends tokens = 0 ↔ ∀ token ∈ tokens, token.kind ≠ .endOfInput := by
  rw [ends, List.countP_eq_zero]
  refine forall₂_congr fun token _ => not_congr ?_
  obtain ⟨kind, span⟩ := token
  cases kind <;> simp

theorem ends_dropWhile (tokens : List Token) :
    ends (tokens.dropWhile (·.kind.isSeparator)) = ends tokens := by
  induction tokens with
  | nil => rfl
  | cons token rest ih =>
    obtain ⟨kind, span⟩ := token
    cases kind <;> simp_all [Kind.isSeparator]

/-- No phrase takes the end of the input. -/
theorem Reads.ends_eq {phrase : Phrase} {before after : List Token}
    (reads : Reads phrase before after) : ends before = ends after := by
  induction reads with
  | @chainMore _ sign op _ _ _ _ _ _ operator _ _ _ operand more =>
    have other : (sign.kind matches .endOfInput) = false := by
      cases kind : sign.kind with
      | endOfInput => rw [kind] at operator; cases operator
      | _ => rfl
    simp_all
  | moreStatements _ _ _ _ first more => rw [first, ← ends_dropWhile, more]
  | @statements _ _ _ before _ _ skipped _ listed => rw [← ends_dropWhile before, skipped, listed]
  | _ => simp_all

theorem append_end_inj {front taken back rest : List Token} {span last : Span}
    (frontOpen : ends front = 0) (takenOpen : ends taken = 0)
    (same : front ++ ⟨.endOfInput, span⟩ :: back = taken ++ ⟨.endOfInput, last⟩ :: rest) :
    front = taken ∧ span = last ∧ back = rest := by
  induction front generalizing taken with
  | nil =>
    cases taken with
    | nil => simpa using same
    | cons token taken =>
      obtain ⟨rfl, -⟩ := List.cons.inj same
      simp at takenOpen
  | cons token front ih =>
    cases taken with
    | nil =>
      obtain ⟨rfl, -⟩ := List.cons.inj same
      simp at frontOpen
    | cons other taken =>
      obtain ⟨rfl, later⟩ := List.cons.inj same
      obtain ⟨rfl, rest⟩ := ih (by simp at frontOpen; omega) (by simp at takenOpen; omega) later
      exact ⟨rfl, rest⟩

/-- A phrase that ends where the input does takes all tokens up to the first one that says so. What
stands behind that one does not matter. -/
theorem Reads.up_to_end {phrase : Phrase} {front back rest : List Token} {span last : Span}
    (frontOpen : ends front = 0)
    (reads : Reads phrase (front ++ ⟨.endOfInput, span⟩ :: back) (⟨.endOfInput, last⟩ :: rest)) :
    last = span ∧ rest = back ∧
      ∀ other,
        Reads phrase (front ++ ⟨.endOfInput, span⟩ :: other) (⟨.endOfInput, span⟩ :: other) := by
  obtain ⟨taken, split, -, again⟩ := reads.isLocal
  have counted := reads.ends_eq
  rw [split] at counted
  have takenOpen : ends taken = 0 := by simpa using counted
  obtain ⟨rfl, rfl, rfl⟩ := append_end_inj frontOpen takenOpen split
  exact ⟨rfl, rfl, fun other => again _ (.cons _ _ _ _)⟩

end Quill.Grammar
