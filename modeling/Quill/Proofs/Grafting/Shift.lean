import Quill.Proofs.Syntax.Joining
import Quill.Proofs.Transcript.Program
import Quill.Proofs.Values.Changes

/-!
# Moving identities

Contexts have numbers, and functions, objects and sources have identities. Where another evaluation
has taken some of them already, all others are further up by the same distance. Programs cannot see
this: what is different stays different, and no text shows an identity. A text that is loaded under
another identity is read as the same program, each part of it at its place in the other source.
-/

namespace Quill

/-- How far identities are moved. -/
structure Shift where
  /-- The distance of the numbers of contexts. -/
  contexts : Nat
  /-- The distance of all other identities. -/
  serials : Nat

namespace Shift

variable (shift : Shift)

/-- The same text as another source. -/
def source (source : Source) : Source :=
  { source with id := source.id + shift.serials }

/-- The same place in the other source. -/
def span (span : Span) : Span :=
  { span with source := shift.source span.source }

/-- The same program at the places in the other source. -/
def expr (expr : Located) : Located :=
  expr.mapNotes shift.span

/-- The function of a program under another identity. -/
def userFunction (function : UserFunction) : UserFunction :=
  { function with
    id := function.id + shift.serials
    body := shift.expr function.body
    closure := function.closure + shift.contexts }

/-- The built-in function under another identity. -/
def builtinFunction (function : BuiltinFunction) : BuiltinFunction :=
  { function with id := function.id + shift.serials }

/-- The function under another identity. -/
def function : Function → Function
  | .user function => .user (shift.userFunction function)
  | .builtin function => .builtin (shift.builtinFunction function)

/-- The object under another identity. -/
def object (object : Object) : Object :=
  { object with
    id := object.id + shift.serials
    body := shift.expr object.body
    context := object.context + shift.contexts }

/-- The failure at the place in the other source. -/
def failure (failure : Failure) : Failure :=
  { failure with span := shift.span failure.span }

/-- What becomes of the things that values are made of. -/
def change : Change where
  function := shift.function
  object := shift.object
  failure := shift.failure

/-- The value with all identities in it moved. -/
def value : Value → Value :=
  Value.changed shift.change

/-- The table with all identities in its values moved. -/
def table : Table → Table :=
  Table.mapped shift.value

/-- The entry, from where the caller has been moved to. -/
def entry (entry : Entry) : Entry :=
  ⟨entry.caller + shift.contexts, shift.span entry.span⟩

/-- The context with all identities in it moved. -/
def context (context : Context) : Context where
  name := context.name
  entry := context.entry.map shift.entry
  scope := context.scope.map (· + shift.contexts)
  table := shift.table context.table

/-- The signal with all identities in it moved. -/
def signal : Signal → Signal
  | .failed failure => .failed (shift.failure failure)
  | .returned value => .returned (shift.value value)
  | .broke span => .broke (shift.span span)
  | .continued span => .continued (shift.span span)

/-- What is wrong with the characters of the other source. -/
def scanError : ScanError → ScanError
  | .illegalCharacter character span => .illegalCharacter character (shift.span span)
  | .integerTooLarge literal span => .integerTooLarge literal (shift.span span)

/-- The error in the other source. -/
def error : Error → Error
  | .scanning error => .scanning (shift.scanError error)
  | .parsing error => .parsing ⟨error.cause, shift.span error.span⟩
  | .running failure => .running (shift.failure failure)

/-- The result of a script with all identities in it moved. -/
def result : Except Error Value → Except Error Value
  | .ok value => .ok (shift.value value)
  | .error error => .error (shift.error error)

theorem value_list (elements : List Value) :
    shift.value (.list elements) = .list (elements.map shift.value) :=
  Value.changed_list shift.change elements

theorem value_int (number : Int64) : shift.value (.int number) = .int number := rfl

theorem value_str (text : String) : shift.value (.str text) = .str text := rfl

/-! ## What programs can see of it -/

theorem span_inj {first second : Span} : shift.span first = shift.span second ↔ first = second := by
  constructor
  · intro same
    obtain ⟨⟨firstId, firstName, firstText⟩, firstStart, firstStop⟩ := first
    obtain ⟨⟨secondId, secondName, secondText⟩, secondStart, secondStop⟩ := second
    simpa [span, source] using same
  · exact congrArg shift.span

theorem unseen : shift.change.Unseen where
  function function := by cases function <;> rfl
  object _ := rfl
  failure _ := rfl

theorem faithful : shift.change.Faithful where
  function first second := by
    cases first <;> cases second <;> exact Nat.add_right_cancel_iff
  object _ _ := Nat.add_right_cancel_iff
  failure first second := by
    obtain ⟨firstFault, firstSpan, firstTraceback⟩ := first
    obtain ⟨secondFault, secondSpan, secondTraceback⟩ := second
    simp [change, failure, span_inj]

theorem kind_value (value : Value) : (shift.value value).kind = value.kind :=
  Value.kind_changed shift.change value

theorem isTrue_value (value : Value) : (shift.value value).isTrue = value.isTrue :=
  Value.isTrue_changed shift.change value

theorem repr_value (value : Value) : (shift.value value).repr = value.repr :=
  Value.repr_changed shift.unseen value

theorem display_value (value : Value) : (shift.value value).display = value.display :=
  Value.display_changed shift.unseen value

theorem map_unary (op : UnaryOp) (operand : Value) :
    (Value.unary op operand).map shift.value = Value.unary op (shift.value operand) :=
  Value.map_unary shift.change op operand

theorem map_binary (op : BinaryOp) (left right : Value) :
    (Value.binary op left right).map shift.value =
      Value.binary op (shift.value left) (shift.value right) :=
  Value.map_binary shift.change fun _ => Value.same_changed shift.faithful left right

/-- No error shows an identity. -/
theorem message_error (error : Error) : (shift.error error).message = error.message := by
  rcases error with (_ | _) | _ | _ <;> rfl

@[simp] theorem note_expr (expr : Located) : (shift.expr expr).note = shift.span expr.note :=
  Expr.note_mapNotes shift.span expr

end Shift

/-! ## Loops -/

namespace Shift

variable (shift : Shift)

theorem expr_forLoop (counter : String) (start stop : Located)
    (step : Option Located) (body : Located) (block : Bool) (span : Span) :
    shift.expr (.forLoop counter start stop step body block span) =
      .forLoop counter (shift.expr start) (shift.expr stop) (step.map shift.expr)
        (shift.expr body) block (shift.span span) :=
  Expr.mapNotes_forLoop shift.span counter start stop step body block span

/-- The end of a round with all identities in it moved. -/
def round : Loop.Round → Loop.Round
  | .value value => .value (shift.value value)
  | .skipped => .skipped
  | .left => .left

theorem collect_round (keep : Bool) (values : List Value) (ended : Loop.Round) :
    Loop.collect keep (values.map shift.value) (shift.round ended) =
      (Loop.collect keep values ended).map shift.value := by
  cases ended with
  | value value => cases keep <;> rfl
  | _ => rfl

theorem value_result (block : Bool) (values : List Value) :
    shift.value (Loop.result block values) = Loop.result block (values.map shift.value) := by
  cases block with
  | true => rfl
  | false =>
    simp only [Loop.result, Bool.false_eq_true, if_false]
    rw [shift.value_list, List.map_reverse]

end Shift

/-! ## Reading -/

namespace Relocation

/-- Moving everything into a source and then the identity of that source is moving everything into
the moved source. -/
theorem expr_into (shift : Shift) (source : Source) (expr : Located) :
    shift.expr ((into source).expr expr) = (into (shift.source source)).expr expr :=
  Expr.mapNotes_mapNotes (into source).span shift.span expr

theorem error_into (shift : Shift) (source : Source) {error : Error}
    (unstarted : ∀ failure, error ≠ .running failure) :
    shift.error ((into source).error error) = (into (shift.source source)).error error := by
  cases error with
  | scanning error => cases error <;> rfl
  | parsing error => rfl
  | running failure => exact absurd rfl (unstarted failure)

end Relocation

namespace Eval

open Quill.Grammar

/-- Reading a text as another source gives the same program at the places in that source. -/
theorem read_into (source other : Source) (text : other.text = source.text) :
    read other =
      match read source with
      | .ok root => .ok ((Relocation.into other).expr root)
      | .error error => .error ((Relocation.into other).error error) := by
  have moved : Token.scan other = (Relocation.into other).scanned (Token.scan source) := by
    rw [Token.scan, text]
    exact @Token.scanFrom_place source source.text.toList.length source.text.toList.length
      .start source.text.toList (Relocation.into other) (Nat.le_refl _) (Nat.le_refl _)
  unfold read
  rw [moved]
  cases scanned : Token.scan source with
  | error error => rfl
  | ok tokens =>
    simp only [Relocation.scanned]
    cases parsed : parse tokens with
    | ok root => rw [parse_map (Relocation.into other) parsed]
    | error error =>
      have located := cause_ne_of_scan scanned parsed
      rw [parse_map_error (Relocation.into other) parsed located]
      rfl

/-- Loading a text under another identity gives the same program at the places in that source. -/
theorem read_source (shift : Shift) (source : Source) :
    read (shift.source source) =
      match read source with
      | .ok root => .ok (shift.expr root)
      | .error error => .error (shift.error error) := by
  have here := read_into source source rfl
  rw [read_into source (shift.source source) rfl]
  cases reading : read source with
  | ok root =>
    rw [reading] at here
    have same := Except.ok.inj here
    conv_rhs => rw [same]
    exact congrArg Except.ok (Relocation.expr_into shift source root).symm
  | error error =>
    rw [reading] at here
    have same := Except.error.inj here
    conv_rhs => rw [same]
    exact congrArg Except.error
      (Relocation.error_into shift source (ne_running_of_read reading)).symm

end Eval

end Quill
