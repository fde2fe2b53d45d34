import Quill.Proofs.Syntax.Reading

/-!
# What the readers do

The readers of single tokens, and sequences of parsers, in terms of the tokens in front of them.
-/

namespace Quill.Parser

open Quill.Token Quill.Grammar

variable {Result Other : Type}

@[simp] theorem pure_apply (result : Result) (tokens : List Token) :
    (pure result : Parser Result) tokens = .ok (result, tokens) := rfl

/-- A parser that succeeds hands over to the one behind it. -/
theorem bind_ok {first : Parser Result} {next : Result → Parser Other} {result : Result}
    {last : Other} {before middle after : List Token}
    (read : first before = .ok (result, middle))
    (continued : next result middle = .ok (last, after)) :
    (first >>= next) before = .ok (last, after) := by
  change StateT.bind first next before = _
  unfold StateT.bind
  rw [read]
  exact continued

/-- A sequence of two parsers succeeds only if both do. -/
theorem of_bind_ok {first : Parser Result} {next : Result → Parser Other} {last : Other}
    {before after : List Token} (read : (first >>= next) before = .ok (last, after)) :
    ∃ result middle, first before = .ok (result, middle) ∧
      next result middle = .ok (last, after) := by
  change StateT.bind first next before = _ at read
  unfold StateT.bind at read
  cases started : first before with
  | error error => simp [started, bind, Except.bind] at read
  | ok pair =>
    obtain ⟨result, middle⟩ := pair
    rw [started] at read
    exact ⟨result, middle, rfl, read⟩

/-- If the first parser fails, nothing else is tried. -/
theorem bind_error {first : Parser Result} {next : Result → Parser Other} {error : SyntaxError}
    {before : List Token} (failed : first before = .error error) :
    (first >>= next) before = .error error := by
  change StateT.bind first next before = _
  unfold StateT.bind
  rw [failed]
  rfl

/-- What a sequence of two parsers does is what the second one does, if the first one succeeds. -/
theorem bind_eq {first : Parser Result} {next : Result → Parser Other} {result : Result}
    {before middle : List Token} (read : first before = .ok (result, middle)) :
    (first >>= next) before = next result middle := by
  change StateT.bind first next before = _
  unfold StateT.bind
  rw [read]
  rfl

/-- A sequence of two parsers fails only if one of them does. -/
theorem of_bind_error {first : Parser Result} {next : Result → Parser Other}
    {error : SyntaxError} {before : List Token}
    (failed : (first >>= next) before = .error error) :
    first before = .error error ∨
      ∃ result middle, first before = .ok (result, middle) ∧ next result middle = .error error := by
  cases started : first before with
  | error error' =>
    rw [bind_error started] at failed
    cases failed
    exact .inl rfl
  | ok pair =>
    obtain ⟨result, middle⟩ := pair
    rw [bind_eq started] at failed
    exact .inr ⟨result, middle, rfl, failed⟩

theorem map_ok {view : Result → Other} {parser : Parser Result} {result : Result}
    {before after : List Token} (read : parser before = .ok (result, after)) :
    (view <$> parser) before = .ok (view result, after) := by
  change StateT.map view parser before = _
  unfold StateT.map
  rw [read]
  rfl

theorem of_map_ok {view : Result → Other} {parser : Parser Result} {last : Other}
    {before after : List Token} (read : (view <$> parser) before = .ok (last, after)) :
    ∃ result, parser before = .ok (result, after) ∧ last = view result := by
  change StateT.map view parser before = _ at read
  unfold StateT.map at read
  cases started : parser before with
  | error error => simp [started, bind, Except.bind] at read
  | ok pair =>
    obtain ⟨result, middle⟩ := pair
    rw [started] at read
    obtain ⟨rfl, rfl⟩ := Prod.mk.inj (Except.ok.inj read)
    exact ⟨result, rfl, rfl⟩

theorem of_ahead {wanted : Kind → Bool} {tokens : List Token}
    (present : ahead wanted tokens = true) :
    ∃ token rest, tokens = token :: rest ∧ wanted token.kind = true := by
  cases tokens with
  | nil => simp [ahead] at present
  | cons token rest => exact ⟨token, rest, rfl, present⟩

theorem take?_of_ahead {wanted : Kind → Bool} {tokens : List Token}
    (absent : ahead wanted tokens = false) : take? wanted tokens = .ok (none, tokens) := by
  cases tokens with
  | nil => rfl
  | cons token rest =>
    have other : wanted token.kind = false := absent
    simp [take?, other]

theorem take?_cons {wanted : Kind → Bool} {token : Token} (rest : List Token)
    (present : wanted token.kind = true) :
    take? wanted (token :: rest) = .ok (some token, rest) := by
  simp [take?, present]

/-- A token is taken exactly if it is there and wanted. -/
theorem take?_eq_ok {wanted : Kind → Bool} {found : Option Token} {before after : List Token} :
    take? wanted before = .ok (found, after) ↔
      (found = none ∧ ahead wanted before = false ∧ before = after) ∨
        ∃ token, found = some token ∧ wanted token.kind = true ∧ before = token :: after := by
  cases before with
  | nil =>
    simp only [take?, ahead]
    grind
  | cons token rest =>
    simp only [take?, ahead]
    split <;> rename_i present <;> grind

theorem expect_eq_ok {wanted : Kind → Bool} {what : Expectation} {token : Token}
    {before after : List Token} :
    expect wanted what before = .ok (token, after) ↔
      wanted token.kind = true ∧ before = token :: after := by
  cases before with
  | nil => simp [expect]
  | cons first rest =>
    simp only [expect]
    split <;> rename_i present <;> grind

theorem isMark_iff {kind : Kind} {sign : Mark} : kind.isMark sign = true ↔ kind = .mark sign := by
  cases kind <;> simp [Kind.isMark]

theorem isKeyword_iff {kind : Kind} {word : Keyword} :
    kind.isKeyword word = true ↔ kind = .keyword word := by
  cases kind <;> simp [Kind.isKeyword]

/-- A mark is taken exactly if it is there. -/
theorem mark_eq_ok {sign : Mark} {token : Token} {before after : List Token} :
    mark sign before = .ok (token, after) ↔
      token = ⟨.mark sign, token.span⟩ ∧ before = token :: after := by
  obtain ⟨kind, span⟩ := token
  rw [mark, expect_eq_ok, isMark_iff]
  simp

/-- A reserved word is taken exactly if it is there. -/
theorem keyword_eq_ok {word : Keyword} {token : Token} {before after : List Token} :
    keyword word before = .ok (token, after) ↔
      token = ⟨.keyword word, token.span⟩ ∧ before = token :: after := by
  obtain ⟨kind, span⟩ := token
  rw [keyword, expect_eq_ok, isKeyword_iff]
  simp

/-- A name is taken exactly if it is there. -/
theorem identifier_eq_ok {name : String} {span : Span} {before after : List Token} :
    identifier before = .ok ((name, span), after) ↔
      before = ⟨.identifier name, span⟩ :: after := by
  cases before with
  | nil => simp [identifier]
  | cons token rest =>
    obtain ⟨kind, place⟩ := token
    cases kind <;> simp [identifier, and_assoc]

theorem peek_cons (token : Token) (rest : List Token) :
    peek (token :: rest) = .ok (token, token :: rest) := rfl

theorem peek_eq_ok {token : Token} {before after : List Token} :
    peek before = .ok (token, after) ↔ before = after ∧ ∃ rest, before = token :: rest := by
  cases before with
  | nil => simp [peek]
  | cons first rest => simp [peek]; grind

theorem next_eq_ok {token : Token} {before after : List Token} :
    next before = .ok (token, after) ↔ before = token :: after := by
  cases before with
  | nil => simp [next]
  | cons first rest => simp [next]

theorem atSeparator_apply (tokens : List Token) :
    atSeparator tokens = .ok (ahead (·.isSeparator) tokens, tokens) := by
  cases tokens <;> rfl

theorem separators_apply (tokens : List Token) :
    separators tokens =
      .ok (ahead (·.isSeparator) tokens, tokens.dropWhile (·.kind.isSeparator)) := by
  exact bind_ok (atSeparator_apply tokens) rfl

theorem dropWhile_of_ahead {tokens : List Token} (absent : ahead (·.isSeparator) tokens = false) :
    tokens.dropWhile (·.kind.isSeparator) = tokens := by
  cases tokens with
  | nil => rfl
  | cons token rest =>
    have other : token.kind.isSeparator = false := absent
    simp [other]

/-- A separator is no mark. -/
theorem not_mark_of_separator {sign : Mark} {tokens : List Token}
    (separated : ahead (·.isSeparator) tokens = true) : ahead (·.isMark sign) tokens = false := by
  cases tokens with
  | nil => rfl
  | cons token rest =>
    simp only [ahead] at separated ⊢
    cases kind : token.kind <;> simp_all [Kind.isSeparator, Kind.isMark]

end Quill.Parser

namespace Quill.Grammar

open Quill.Token Quill.Parser

theorem target?_of_ahead {tokens : List Token} (absent : targetAhead tokens = false) :
    target? tokens = .ok (none, tokens) := by
  unfold target?
  split
  · simp [targetAhead] at absent
  · rfl

theorem operator?_of_ahead {level : Level} {tokens : List Token}
    (absent : ahead level.has tokens = false) :
    operator? level.admits tokens = .ok (none, tokens) := by
  cases tokens with
  | nil => rfl
  | cons token rest =>
    simp only [ahead, Level.has] at absent
    cases found : token.kind.binaryOp? with
    | none => simp [operator?, found]
    | some op =>
      rw [found] at absent
      have other : level.admits op = false := absent
      simp [operator?, found, other]

theorem operator?_cons {level : Level} {token : Token} {op : BinaryOp} (rest : List Token)
    (operator : token.kind.binaryOp? = some op) (admitted : level.admits op = true) :
    operator? level.admits (token :: rest) = .ok (some op, rest) := by
  simp [operator?, operator, admitted]

/-- A name is taken if there is one. Without any token left there is nothing to look at. -/
theorem functionName_of_ahead {tokens : List Token} (present : tokens ≠ [])
    (absent : ahead (fun kind => kind matches .identifier _) tokens = false) :
    functionName tokens = .ok (none, tokens) := by
  obtain ⟨⟨kind, span⟩, rest, rfl⟩ := List.exists_cons_of_ne_nil present
  cases kind with
  | identifier name => simp [ahead] at absent
  | _ => rfl

/-- A statement that begins with no jump is an expression. -/
theorem statement_of_ahead {rules : Rules} {token : Token} {rest : List Token}
    (noJump : ahead startsJump (token :: rest) = false) :
    statement rules (token :: rest) = rules .expression (token :: rest) := by
  obtain ⟨kind, span⟩ := token
  cases kind with
  | keyword word =>
    cases word <;> first
      | rfl
      | exact absurd noJump (by simp [ahead, startsJump, Kind.isKeyword])
  | _ => rfl

end Quill.Grammar
