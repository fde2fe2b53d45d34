import Mathlib.Data.List.Forall2
import Quill.Eval.Expr
import Quill.Proofs.Lexing.Scanning
import Quill.Proofs.Syntax.Constructs
import Quill.Value.Text

/-!
# Values as written

The source text of a value that consists of null, integers, strings and lists is a way to write an
expression. Nothing but a comma or a closing bracket is ever put behind such a text, and neither of
them goes on with a token.
-/

namespace Quill.Value

open Quill.Token Quill.Lexeme Quill.Grammar Quill.Text

/-- The value consists of null, integers, strings and lists. -/
inductive IsData : Value → Prop where
  | null : IsData .null
  | int (value : Int64) : IsData (.int value)
  | str (value : String) : IsData (.str value)
  | list {elements : List Value} (all : ∀ element ∈ elements, IsData element) :
      IsData (.list elements)

/-- What stands behind a written value in a text: nothing, a comma or a closing bracket. -/
def Follows (rest : List Char) : Prop :=
  ∀ c, rest.head? = some c → c = ',' ∨ c = ']'

/-- The text of the value is a way to write the expression. -/
def Spelled (value : Value) (expr : Expr Unit) : Prop :=
  ∀ rest kinds, Follows rest → Scans rest kinds →
    Scans (value.repr.toList ++ rest) (expr.tokens .statement ++ kinds)

/-- Words, numbers and strings are not continued behind a value. -/
theorem stops_of_follows {kind : Token.Kind} {rest : List Char} (follows : Follows rest)
    (comma : continues kind ',' = false) (bracket : continues kind ']' = false) :
    Stops kind rest := by
  intro c found
  rcases follows c found with rfl | rfl
  · exact comma
  · exact bracket

/-! ## Constants -/

theorem spells_null : Spells "null".toList (.identifier "null") := by
  apply @Spells.identifier 'n' ['u', 'l', 'l']
  · decide
  · exact List.all_eq_true.mp rfl
  · intro word
    cases word <;> decide

theorem spelled_null : Spelled .null (.read "null" ()) := by
  intro rest kinds follows scans
  exact scans_token spells_null (stops_of_follows follows rfl rfl) scans

/-- The digits of a natural number are digits of the language. -/
theorem isDigit_of_mem_toDigits {n : Nat} {c : Char} (member : c ∈ Nat.toDigits 10 n) :
    isDigit c = true := by
  have digit := Nat.isDigit_of_mem_toDigits (by decide) (by decide) member
  simpa [Char.isDigit, isDigit, Char.le_def] using digit

/-- A natural number is written in its decimal digits. -/
theorem spells_digits {n : Nat} (small : n ≤ maxMagnitude) :
    Spells (Nat.toDigits 10 n) (.int n) := by
  have value : natural (Nat.toDigits 10 n) = n := Nat.ofDigitChars_ten_toDigits
  have spells :=
    Spells.int (fun c => isDigit_of_mem_toDigits) Nat.toDigits_ne_nil (value.symm ▸ small)
  rw [value] at spells
  exact spells

theorem scans_digits {n : Nat} (small : n ≤ maxMagnitude) {rest : List Char}
    {kinds : List Token.Kind} (follows : Follows rest) (scans : Scans rest kinds) :
    Scans (Nat.toDigits 10 n ++ rest) (.int n :: kinds) :=
  scans_token (spells_digits small) (stops_of_follows follows rfl rfl) scans

/-- A minus sign may stand in front of digits. -/
theorem scans_minus {n : Nat} (small : n ≤ maxMagnitude) {rest : List Char}
    {kinds : List Token.Kind} (follows : Follows rest) (scans : Scans rest kinds) :
    Scans ('-' :: (Nat.toDigits 10 n ++ rest)) (.mark .minus :: .int n :: kinds) := by
  have stops : Stops (.mark .minus) (Nat.toDigits 10 n ++ rest) := by
    intro c found
    obtain ⟨first, more, split⟩ := List.exists_cons_of_ne_nil (@Nat.toDigits_ne_nil n 10)
    have digit : isDigit first = true :=
      isDigit_of_mem_toDigits (split ▸ List.mem_cons_self)
    rw [split] at found
    cases found
    apply decide_eq_false
    rintro rfl
    cases digit
  exact scans_token (.mark .minus) stops (scans_digits small follows scans)

/-- The expression that an integer is written as. A minus sign in front of an integer is an
operator, apart from the smallest one. -/
def integerExpr (value : Int64) : Expr Unit :=
  if 0 ≤ value.toInt ∨ value = Int64.minValue then
    .literal (.int value) ()
  else
    .unary .negate (.literal (.int (Int64.ofNat value.toInt.natAbs)) ()) ()

theorem natAbs_lt {value : Int64} (other : value ≠ Int64.minValue) :
    value.toInt.natAbs < maxMagnitude := by
  have low := value.le_toInt
  have high := value.toInt_lt
  have least : value.toInt ≠ Int64.minValue.toInt := fun same => other (Int64.toInt_inj.mp same)
  rw [maxMagnitude, Int64.toInt_minValue] at *
  omega

theorem repr_int_of_nonneg {value : Int64} (positive : 0 ≤ value.toInt) :
    (Value.repr (.int value)).toList = Nat.toDigits 10 value.toInt.toNat := by
  rw [repr, Int.toString_eq_repr, Int.repr_eq_if, if_pos positive, Nat.toList_repr]

theorem repr_int_of_neg {value : Int64} (negative : ¬0 ≤ value.toInt) :
    (Value.repr (.int value)).toList = '-' :: Nat.toDigits 10 value.toInt.natAbs := by
  have same : (-value.toInt).toNat = value.toInt.natAbs := by omega
  rw [repr, Int.toString_eq_repr, Int.repr_eq_if, if_neg negative, String.toList_append,
    Nat.toList_repr, same]
  rfl

theorem spelled_int (value : Int64) : Spelled (.int value) (integerExpr value) := by
  intro rest kinds follows scans
  by_cases positive : 0 ≤ value.toInt
  · have other : value ≠ Int64.minValue := by
      rintro rfl
      simp at positive
    have small := natAbs_lt other
    have same : value.toInt.natAbs = value.toInt.toNat := by omega
    have plain : Literal.isSmallest (.int value) = false := decide_eq_false other
    rw [repr_int_of_nonneg positive, integerExpr, if_pos (.inl positive), Expr.tokens, plain]
    exact scans_digits (by omega) follows scans
  · rw [repr_int_of_neg positive]
    by_cases smallest : value = Int64.minValue
    · rw [integerExpr, if_pos (.inr smallest), smallest]
      exact scans_minus (Nat.le_refl _) follows scans
    · have small := natAbs_lt smallest
      rw [integerExpr, if_neg (by simp [positive, smallest]), Expr.tokens, Expr.tokens,
        Literal.isSmallest_ofNat small, Literal.token_ofNat small]
      exact scans_minus (Nat.le_of_lt small) follows scans

/-- Encoded characters close a string nowhere but at the quote behind them. -/
theorem body?_encode (text rest : List Char) :
    Quoted.body? (Quoted.encode text ++ '"' :: rest) = some (Quoted.encode text) := by
  induction text with
  | nil => rfl
  | cons c text ih =>
    simp only [Quoted.encode, List.flatMap_cons, List.append_assoc] at ih ⊢
    by_cases quote : c = '"'
    · simp [Quoted.encodeChar, quote, Quoted.body?, ih]
    by_cases slash : c = '\\'
    · simp [Quoted.encodeChar, slash, Quoted.body?, ih]
    by_cases line : c = '\n'
    · simp [Quoted.encodeChar, line, Quoted.body?, ih]
    by_cases tab : c = '\t'
    · simp [Quoted.encodeChar, tab, Quoted.body?, ih]
    simp [Quoted.encodeChar, quote, slash, line, tab, Quoted.body?, ih]

theorem repr_str (value : String) :
    (Value.repr (.str value)).toList = '"' :: Quoted.encode value.toList ++ ['"'] := by
  simp [repr, Quoted.quote]

theorem spelled_str (value : String) : Spelled (.str value) (.literal (.str value) ()) := by
  intro rest kinds follows scans
  have spells := Spells.str (body?_encode value.toList)
  rw [Quoted.decode_encode, String.ofList_toList] at spells
  rw [repr_str]
  exact scans_token spells (stops_of_follows follows rfl rfl) scans

/-! ## Lists -/

theorem scans_closeBracket {rest : List Char} {kinds : List Token.Kind} (scans : Scans rest kinds) :
    Scans (']' :: rest) (.mark .closeBracket :: kinds) := by
  apply @scans_token [']'] rest _ _ (.mark .closeBracket) _ scans
  intro c _
  rfl

theorem scans_comma {rest : List Char} {kinds : List Token.Kind}
    (stop : ∀ c, rest.head? = some c → isBlank c = false) (scans : Scans rest kinds) :
    Scans (',' :: ' ' :: rest) (.mark .comma :: kinds) := by
  apply @scans_token [','] (' ' :: rest) _ _ (.mark .comma) _ (scans_blank stop scans)
  intro c _
  rfl

/-- Evaluating the expression gives the value and changes nothing, wherever the null value has its
name. -/
def Means (expr : Expr Unit) (value : Value) : Prop :=
  ∀ located : Located, located.bare = expr →
    ∀ (host : Host) (inner : Option Evaluate) (id : ContextId) (machine : Machine),
      machine.store.lookup id "null" = some .null →
      Eval.evaluateIn host inner id located machine = .ok value machine

/-- The expression is what the value is written as. -/
structure Writes (value : Value) (expr : Expr Unit) : Prop where
  /-- The text of the value is a way to write the expression. -/
  spelled : Spelled value expr
  /-- The text does not begin with a blank. -/
  begins : ∃ c rest, value.repr.toList = c :: rest ∧ isBlank c = false
  /-- The expression needs no parentheses in a list. -/
  binds : Rank.connection ≤ ownRank expr
  /-- What the expression is printed as is read as the expression. -/
  prints : Prints expr
  /-- The expression has the value. -/
  means : Means expr value

theorem of_bare_literal {located : Located} {value : Literal}
    (bare : located.bare = .literal value ()) : ∃ span, located = .literal value span := by
  cases located with
  | literal other span =>
    cases bare
    exact ⟨span, rfl⟩
  | forLoop _ _ _ step _ _ _ => cases step <;> cases bare
  | returnWith value _ => cases value <;> cases bare
  | _ => cases bare

theorem of_bare_read {located : Located} {name : String} (bare : located.bare = .read name ()) :
    ∃ span, located = .read name span := by
  cases located with
  | read other span =>
    cases bare
    exact ⟨span, rfl⟩
  | forLoop _ _ _ step _ _ _ => cases step <;> cases bare
  | returnWith value _ => cases value <;> cases bare
  | _ => cases bare

theorem of_bare_unary {located : Located} {op : UnaryOp} {operand : Expr Unit}
    (bare : located.bare = .unary op operand ()) :
    ∃ part span, located = .unary op part span ∧ part.bare = operand := by
  cases located with
  | unary other part span =>
    cases bare
    exact ⟨part, span, rfl, rfl⟩
  | forLoop _ _ _ step _ _ _ => cases step <;> cases bare
  | returnWith value _ => cases value <;> cases bare
  | _ => cases bare

theorem of_bare_list {located : Located} {exprs : List (Expr Unit)}
    (bare : located.bare = .list exprs ()) :
    ∃ elements span, located = .list elements span ∧ elements.map (·.bare) = exprs := by
  cases located with
  | list elements span =>
    cases bare
    exact ⟨elements, span, rfl, (Expr.mapAllNotes_eq_map _ elements).symm⟩
  | forLoop _ _ _ step _ _ _ => cases step <;> cases bare
  | returnWith value _ => cases value <;> cases bare
  | _ => cases bare

theorem means_literal (value : Literal) : Means (.literal value ()) (.ofLiteral value) := by
  intro located bare host inner id machine _
  obtain ⟨span, rfl⟩ := of_bare_literal bare
  rfl

theorem writes_null : Writes .null (.read "null" ()) := by
  refine ⟨spelled_null, ⟨'n', _, rfl, rfl⟩, Nat.le_add_left _ _, prints_read "null", ?_⟩
  intro located bare host inner id machine bound
  obtain ⟨span, rfl⟩ := of_bare_read bare
  simp only [Eval.evaluateIn, Eval.readName, Eval.lookup, bind, EStateM.bind, bound]
  rfl

theorem writes_str (value : String) : Writes (.str value) (.literal (.str value) ()) :=
  ⟨spelled_str value, ⟨'"', _, repr_str value, rfl⟩, Nat.le_add_left _ _, prints_str value,
    means_literal (.str value)⟩

/-- Negating the magnitude of a negative integer gives the integer. -/
theorem negate_natAbs {value : Int64} (negative : ¬0 ≤ value.toInt)
    (small : value.toInt.natAbs < maxMagnitude) :
    Value.unary .negate (.int (Int64.ofNat value.toInt.natAbs)) = .ok (.int value) := by
  have exact : (Int64.ofNat value.toInt.natAbs).toInt = value.toInt.natAbs :=
    Int64.toInt_ofNat_of_lt small
  have product : Integer.mul? (Int64.ofNat value.toInt.natAbs) (-1) = some value := by
    rw [Integer.mul?, Integer.ofInt?_eq_some_iff, exact, show (-1 : Int64).toInt = -1 from rfl]
    omega
  simp only [Value.unary, Value.negate, Value.arithmetic, Value.integerArithmetic, product]

theorem begins_int (value : Int64) :
    ∃ c rest, (Value.repr (.int value)).toList = c :: rest ∧ isBlank c = false := by
  by_cases positive : 0 ≤ value.toInt
  · rw [repr_int_of_nonneg positive]
    obtain ⟨c, rest, split⟩ :=
      List.exists_cons_of_ne_nil (@Nat.toDigits_ne_nil value.toInt.toNat 10)
    have digit : isDigit c = true := isDigit_of_mem_toDigits (split ▸ List.mem_cons_self)
    exact ⟨c, rest, split, (of_isDigit digit).2.2.2⟩
  · exact ⟨'-', _, repr_int_of_neg positive, rfl⟩

theorem writes_int (value : Int64) : Writes (.int value) (integerExpr value) := by
  have spelled := spelled_int value
  have begins := begins_int value
  by_cases smallest : value = Int64.minValue
  · have expr : integerExpr value = .literal (.int Int64.minValue) () := by
      rw [integerExpr, if_pos (.inr smallest), smallest]
    rw [expr] at spelled ⊢
    refine ⟨spelled, begins, by decide, prints_smallest, ?_⟩
    rw [smallest]
    exact means_literal (.int Int64.minValue)
  · have small := natAbs_lt smallest
    have printed := prints_int small
    by_cases positive : 0 ≤ value.toInt
    · have magnitude : Int64.ofNat value.toInt.natAbs = value := by
        rw [← Int64.toInt_inj, Int64.toInt_ofNat_of_lt small]
        omega
      have expr : integerExpr value = .literal (.int value) () := by
        rw [integerExpr, if_pos (.inl positive)]
      rw [expr] at spelled ⊢
      rw [magnitude] at printed
      refine ⟨spelled, begins, ?_, printed, means_literal (.int value)⟩
      rw [← magnitude, ownRank, Literal.isSmallest_ofNat small]
      decide
    · have expr : integerExpr value =
          .unary .negate (.literal (.int (Int64.ofNat value.toInt.natAbs)) ()) () := by
        rw [integerExpr, if_neg (by simp [positive, smallest])]
      rw [expr] at spelled ⊢
      refine ⟨spelled, begins, Nat.le_add_left _ _, prints_unary .negate printed, ?_⟩
      intro located bare host inner id machine bound
      obtain ⟨part, span, rfl, partBare⟩ := of_bare_unary bare
      have evaluated := means_literal _ part partBare host inner id machine bound
      have negated := negate_natAbs positive small
      simp only [Eval.evaluateIn, bind, EStateM.bind, evaluated, ofLiteral, negated]
      rfl

/-! ## Lists -/

/-- Written elements with commas between them, and a closing bracket behind the last one. -/
theorem spelled_items {first : Value} {firstExpr : Expr Unit} {others : List Value}
    {exprs : List (Expr Unit)} (writes : Writes first firstExpr)
    (more : List.Forall₂ Writes others exprs) {rest : List Char} {kinds : List Token.Kind}
    (scans : Scans rest kinds) :
    Scans ((", ".intercalate (reprAll (first :: others))).toList ++ ']' :: rest)
      (Expr.itemTokens (firstExpr :: exprs) ++ .mark .closeBracket :: kinds) := by
  have plain : firstExpr.tokens (.operand Rank.connection) = firstExpr.tokens .statement := by
    rw [tokens_operand firstExpr (by decide), enclose_of_le writes.binds]
  induction more generalizing first firstExpr with
  | nil =>
    rw [reprAll, reprAll, String.intercalate_singleton, Expr.itemTokens, plain]
    apply writes.spelled
    · intro c found
      cases found
      exact .inr rfl
    · exact scans_closeBracket scans
  | @cons second secondExpr others exprs nextWrites more ih =>
    have nextPlain :
        secondExpr.tokens (.operand Rank.connection) = secondExpr.tokens .statement := by
      rw [tokens_operand secondExpr (by decide), enclose_of_le nextWrites.binds]
    have joined : (", ".intercalate (reprAll (first :: second :: others))).toList ++ ']' :: rest =
        first.repr.toList ++ ',' :: ' ' ::
          ((", ".intercalate (reprAll (second :: others))).toList ++ ']' :: rest) := by
      rw [reprAll, reprAll, String.intercalate_cons_cons]
      simp
    have printed : Expr.itemTokens (firstExpr :: secondExpr :: exprs) ++
          .mark .closeBracket :: kinds =
        firstExpr.tokens .statement ++ .mark .comma ::
          (Expr.itemTokens (secondExpr :: exprs) ++ .mark .closeBracket :: kinds) := by
      rw [Expr.itemTokens, plain] <;> simp
    rw [joined, printed]
    apply writes.spelled
    · intro c found
      cases found
      exact .inl rfl
    · apply scans_comma _ (ih nextWrites nextPlain)
      obtain ⟨head, tail, begins, notBlank⟩ := nextWrites.begins
      intro c found
      cases others <;> simp [reprAll, String.intercalate_cons_cons, begins] at found <;>
        exact found ▸ notBlank

theorem means_list {elements : List Value} {exprs : List (Expr Unit)}
    (all : List.Forall₂ Writes elements exprs) : Means (.list exprs ()) (.list elements) := by
  intro located bare host inner id machine bound
  obtain ⟨parts, span, rfl, same⟩ := of_bare_list bare
  have evaluated : Eval.evaluateAll host inner id parts machine = .ok elements machine := by
    clear bare
    induction all generalizing parts with
    | nil =>
      obtain rfl := List.map_eq_nil_iff.mp same
      rfl
    | cons writes _ ih =>
      obtain ⟨part, others, rfl, partBare, othersBare⟩ := List.map_eq_cons_iff.mp same
      have first := writes.means part partBare host inner id machine bound
      have rest := ih others othersBare
      simp only [Eval.evaluateAll, bind, EStateM.bind, first, rest]
      rfl
  simp only [Eval.evaluateIn, bind, EStateM.bind, evaluated]
  rfl

theorem spelled_list {elements : List Value} {exprs : List (Expr Unit)}
    (all : List.Forall₂ Writes elements exprs) : Spelled (.list elements) (.list exprs ()) := by
  intro rest kinds _ scans
  have opened {text : List Char} {tokens : List Token.Kind} (inner : Scans text tokens) :
      Scans ('[' :: text) (.mark .openBracket :: tokens) := by
    apply @scans_token ['['] text _ _ (.mark .openBracket) _ inner
    intro c _
    rfl
  have written : (Value.repr (.list elements)).toList ++ rest =
      '[' :: ((", ".intercalate (reprAll elements)).toList ++ ']' :: rest) := by
    simp [repr]
  have printed : (Expr.list exprs ()).tokens .statement ++ kinds =
      .mark .openBracket :: (Expr.itemTokens exprs ++ .mark .closeBracket :: kinds) := by
    simp [Expr.tokens]
  rw [written, printed]
  apply opened
  cases all with
  | nil =>
    rw [reprAll, String.intercalate_nil, Expr.itemTokens]
    exact scans_closeBracket scans
  | cons writes more => exact spelled_items writes more scans

theorem writes_list {elements : List Value} {exprs : List (Expr Unit)}
    (all : List.Forall₂ Writes elements exprs) : Writes (.list elements) (.list exprs ()) := by
  have begins : ∃ rest, (Value.repr (.list elements)).toList = '[' :: rest := by
    simp [repr]
  obtain ⟨rest, begins⟩ := begins
  have prints : ∀ expr ∈ exprs, Prints expr := by
    clear begins
    induction all with
    | nil =>
      intro expr member
      cases member
    | cons writes _ ih =>
      intro expr member
      rcases List.mem_cons.mp member with rfl | later
      · exact writes.prints
      · exact ih expr later
  exact ⟨spelled_list all, ⟨'[', rest, begins, rfl⟩, Nat.le_add_left _ _, prints_list prints,
    means_list all⟩

/-- Every value that consists of data is written as an expression. -/
theorem exists_writes {value : Value} (data : IsData value) : ∃ expr, Writes value expr := by
  induction data with
  | null => exact ⟨_, writes_null⟩
  | int value => exact ⟨_, writes_int value⟩
  | str value => exact ⟨_, writes_str value⟩
  | @list elements _ ih =>
    have all : ∃ exprs, List.Forall₂ Writes elements exprs := by
      clear * - ih
      induction elements with
      | nil => exact ⟨[], .nil⟩
      | cons first others more =>
        obtain ⟨expr, writes⟩ := ih first List.mem_cons_self
        obtain ⟨exprs, rest⟩ := more fun _ member => ih _ (List.mem_cons_of_mem _ member)
        exact ⟨expr :: exprs, .cons writes rest⟩
    obtain ⟨exprs, all⟩ := all
    exact ⟨_, writes_list all⟩

end Quill.Value
