import Quill.Proofs.Values.Changes

/-!
# Values up to tracebacks

Forgetting the tracebacks in a value commutes with everything that programs can do with values, but
for one thing: two failures are only equal if they have the same tracebacks. So an operator can tell
values that differ in tracebacks from one another only if it compares for equality, and only if
there is an exception in one of them.
-/

namespace Quill.Value

mutual

/-- The value without the tracebacks in it. -/
def untraced : Value → Value
  | exception failure => exception { failure with traceback := [] }
  | list elements => list (untracedAll elements)
  | null => null
  | int value => int value
  | float value => float value
  | str value => str value
  | function value => function value
  | object value => object value

/-- The same for every value of a list. -/
def untracedAll : List Value → List Value
  | [] => []
  | element :: rest => element.untraced :: untracedAll rest

end

mutual

/-- Whether there is an exception in the value. -/
def hasException : Value → Bool
  | exception _ => true
  | list elements => anyException elements
  | _ => false

/-- Whether there is an exception in one of the values. -/
def anyException : List Value → Bool
  | [] => false
  | element :: rest => element.hasException || anyException rest

end

/-- Failures without tracebacks, and everything else as it is. -/
def untracing : Change where
  function := id
  object := id
  failure failure := { failure with traceback := [] }

theorem unseen_untracing : untracing.Unseen where
  function _ := rfl
  object _ := rfl
  failure _ := rfl

mutual

/-- Forgetting tracebacks is changing failures. -/
theorem untraced_eq_changed : (value : Value) → value.untraced = value.changed untracing
  | list elements => congrArg list (untracedAll_eq_changedAll elements)
  | exception _ | null | int _ | float _ | str _ | function _ | object _ => rfl

theorem untracedAll_eq_changedAll : (elements : List Value) →
    untracedAll elements = changedAll untracing elements
  | [] => rfl
  | element :: rest => by
    rw [untracedAll, changedAll, untraced_eq_changed element, untracedAll_eq_changedAll rest]

end

theorem untraced_eq : untraced = changed untracing :=
  funext untraced_eq_changed

theorem untracedAll_eq_map (elements : List Value) :
    untracedAll elements = elements.map untraced := by
  rw [untraced_eq, untracedAll_eq_changedAll, changedAll_eq_map]

/-! ## What does not depend on tracebacks -/

theorem repr_untraced (value : Value) : value.untraced.repr = value.repr := by
  rw [untraced_eq, repr_changed unseen_untracing]

mutual

/-- A value without exceptions has no tracebacks in it. -/
theorem untraced_of_hasException : (value : Value) → value.hasException = false →
    value.untraced = value
  | list elements => fun free => by rw [untraced, untracedAll_of_anyException elements free]
  | exception _ => fun free => Bool.noConfusion free
  | null | int _ | float _ | str _ | function _ | object _ => fun _ => rfl

theorem untracedAll_of_anyException : (elements : List Value) → anyException elements = false →
    untracedAll elements = elements
  | [] => fun _ => rfl
  | element :: rest => fun free => by
    obtain ⟨first, others⟩ := Bool.or_eq_false_iff.mp free
    rw [untracedAll, untraced_of_hasException element first,
      untracedAll_of_anyException rest others]

end

mutual

theorem hasException_untraced : (value : Value) →
    value.untraced.hasException = value.hasException
  | list elements => anyException_untracedAll elements
  | exception _ | null | int _ | float _ | str _ | function _ | object _ => rfl

theorem anyException_untracedAll : (elements : List Value) →
    anyException (untracedAll elements) = anyException elements
  | [] => rfl
  | element :: rest => by
    rw [untracedAll, anyException, anyException, hasException_untraced element,
      anyException_untracedAll rest]

end

@[simp] theorem kind_untraced (value : Value) : value.untraced.kind = value.kind := by
  rw [untraced_eq, kind_changed]

@[simp] theorem isTrue_untraced (value : Value) : value.untraced.isTrue = value.isTrue := by
  rw [untraced_eq, isTrue_changed]

theorem display_untraced (value : Value) : value.untraced.display = value.display := by
  rw [untraced_eq, display_changed unseen_untracing]

/-! ## Operators -/

/-- Only a comparison for equality looks into exceptions. -/
def Discreet (op : BinaryOp) (left right : Value) : Prop :=
  op = .equal ∨ op = .notEqual → left.hasException = false ∧ right.hasException = false

/-- Applying an operator commutes with forgetting tracebacks. -/
theorem map_binary_untraced {op : BinaryOp} {left right : Value}
    (discreet : Discreet op left right) :
    (binary op left right).map untraced = binary op left.untraced right.untraced := by
  have same (compared : op = .equal ∨ op = .notEqual) :
      left.untraced.same right.untraced = left.same right := by
    obtain ⟨leftFree, rightFree⟩ := discreet compared
    rw [untraced_of_hasException left leftFree, untraced_of_hasException right rightFree]
  rw [untraced_eq] at same ⊢
  exact map_binary untracing same

theorem map_unary_untraced (op : UnaryOp) (operand : Value) :
    (unary op operand).map untraced = unary op operand.untraced := by
  rw [untraced_eq]
  exact map_unary untracing op operand

end Quill.Value
