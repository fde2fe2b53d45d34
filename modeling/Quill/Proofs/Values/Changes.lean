import Mathlib.Data.List.InsertIdx
import Quill.Store.Table
import Quill.Value.Comparison
import Quill.Value.Text

/-!
# Changing what values are made of

Numbers and texts are nothing but themselves, and lists are made of their elements. Functions,
objects and failures are opaque to operators: a program cannot look into them, but only show them or
tell whether two of them are the same. So a change of functions, objects and failures commutes with
everything that programs can do with values, as long as it is one that programs cannot see.
-/

namespace Quill

/-- A way to change functions, objects and failures. -/
structure Change where
  /-- What becomes of a function. -/
  function : Function → Function
  /-- What becomes of an object. -/
  object : Object → Object
  /-- What becomes of a failure. -/
  failure : Failure → Failure

/-- A change after which everything is shown as before. -/
structure Change.Unseen (change : Change) : Prop where
  /-- Functions are shown in the same way. -/
  function : ∀ function, Value.functionText (change.function function) =
    Value.functionText function
  /-- Objects are shown in the same way. -/
  object : ∀ object, Value.objectText (change.object object) = Value.objectText object
  /-- Failures have the same message. -/
  failure : ∀ failure, (change.failure failure).message = failure.message

/-- A change that makes nothing the same that was not the same before, nor the other way around. -/
structure Change.Faithful (change : Change) : Prop where
  /-- Functions are told apart by their identities. -/
  function : ∀ first second : Function,
    (change.function first).id = (change.function second).id ↔ first.id = second.id
  /-- So are objects. -/
  object : ∀ first second : Object,
    (change.object first).id = (change.object second).id ↔ first.id = second.id
  /-- Failures are told apart by all that there is to them. -/
  failure : ∀ first second, change.failure first = change.failure second ↔ first = second

namespace Value

mutual

/-- The value with the functions, objects and failures in it changed. -/
def changed (change : Change) : Value → Value
  | null => null
  | int value => int value
  | float value => float value
  | str value => str value
  | list elements => list (changedAll change elements)
  | function value => function (change.function value)
  | object value => object (change.object value)
  | exception failure => exception (change.failure failure)

/-- The same for every value of a list. -/
def changedAll (change : Change) : List Value → List Value
  | [] => []
  | element :: rest => element.changed change :: changedAll change rest

end

variable {change : Change}

theorem changedAll_eq_map (change : Change) (elements : List Value) :
    changedAll change elements = elements.map (changed change) := by
  induction elements with
  | nil => rfl
  | cons element rest ih => rw [changedAll, ih, List.map_cons]

/-- A list is changed in its elements. -/
theorem changed_list (change : Change) (elements : List Value) :
    (list elements).changed change = list (elements.map (changed change)) := by
  rw [changed, changedAll_eq_map]

@[simp] theorem changed_ofLiteral (change : Change) (literal : Literal) :
    (ofLiteral literal).changed change = ofLiteral literal := by
  cases literal <;> rfl

@[simp] theorem kind_changed (change : Change) (value : Value) :
    (value.changed change).kind = value.kind := by
  cases value <;> rfl

@[simp] theorem isTrue_changed (change : Change) (value : Value) :
    (value.changed change).isTrue = value.isTrue := by
  cases value with
  | list elements => cases elements <;> rfl
  | _ => rfl

theorem order_changed (change : Change) (left right : Value) :
    order (left.changed change) (right.changed change) = order left right := by
  cases left <;> cases right <;> rfl

/-! ## What is shown -/

mutual

theorem repr_changed (unseen : change.Unseen) : (value : Value) →
    (value.changed change).repr = value.repr
  | list elements => by rw [changed, repr, repr, reprAll_changed unseen elements]
  | function value => unseen.function value
  | object value => unseen.object value
  | exception failure => by rw [changed, repr, repr, unseen.failure]
  | null | int _ | float _ | str _ => rfl

theorem reprAll_changed (unseen : change.Unseen) : (elements : List Value) →
    reprAll (changedAll change elements) = reprAll elements
  | [] => rfl
  | element :: rest => by
    rw [changedAll, reprAll, reprAll, repr_changed unseen element, reprAll_changed unseen rest]

end

theorem display_changed (unseen : change.Unseen) (value : Value) :
    (value.changed change).display = value.display := by
  cases value with
  | str text => rfl
  | _ => exact repr_changed unseen _

/-! ## What is the same -/

mutual

theorem same_changed (faithful : change.Faithful) : (left right : Value) →
    (left.changed change).same (right.changed change) = left.same right
  | list as, right => by
    cases right with
    | list bs => exact sameAll_changed faithful as bs
    | _ => rfl
  | function a, right => by
    cases right with
    | function b => exact decide_eq_decide.mpr (faithful.function a b)
    | _ => rfl
  | object a, right => by
    cases right with
    | object b => exact decide_eq_decide.mpr (faithful.object a b)
    | _ => rfl
  | exception a, right => by
    cases right with
    | exception b => exact decide_eq_decide.mpr (faithful.failure a b)
    | _ => rfl
  | null, right | int _, right | float _, right | str _, right => by cases right <;> rfl

theorem sameAll_changed (faithful : change.Faithful) : (left right : List Value) →
    sameAll (changedAll change left) (changedAll change right) = sameAll left right
  | [], [] => rfl
  | [], _ :: _ => rfl
  | _ :: _, [] => rfl
  | a :: as, b :: bs => by
    rw [changedAll, changedAll, sameAll, sameAll, same_changed faithful a b,
      sameAll_changed faithful as bs]

end

/-! ## Operators -/

variable (change)

theorem map_integerArithmetic (op : BinaryOp) (a b : Int64) :
    (integerArithmetic op a b).map (changed change) = integerArithmetic op a b := by
  unfold integerArithmetic
  dsimp only
  split <;> first | rfl | (repeat' split) <;> rfl

theorem map_floatArithmetic (op : BinaryOp) (a b : Float) :
    (floatArithmetic op a b).map (changed change) = floatArithmetic op a b := by
  unfold floatArithmetic
  split <;> first | rfl | (split <;> rfl)

theorem map_stringArithmetic (op : BinaryOp) (text : String) (right : Value) :
    (stringArithmetic op text right).map (changed change) =
      stringArithmetic op text (right.changed change) := by
  cases right with
  | int count =>
    rw [changed]
    cases op with
    | mul =>
      simp only [stringArithmetic]
      cases repetitions count text.utf8ByteSize <;> rfl
    | _ => rfl
  | _ => cases op <;> rfl

theorem map_repeat (elements : List Value) (times : Nat) :
    (times.repeat (elements ++ ·) []).map (changed change) =
      times.repeat (elements.map (changed change) ++ ·) [] := by
  induction times with
  | zero => rfl
  | succ times ih => rw [Nat.repeat, Nat.repeat, List.map_append, ih]

theorem map_listArithmetic (op : BinaryOp) (elements : List Value) (right : Value) :
    (listArithmetic op elements right).map (changed change) =
      listArithmetic op (elements.map (changed change)) (right.changed change) := by
  cases right with
  | list others =>
    rw [changed_list]
    cases op with
    | add => simp only [listArithmetic, Except.map, changed_list, List.map_append]
    | _ => rfl
  | int count =>
    rw [changed]
    cases op with
    | add =>
      simp only [listArithmetic, Except.map, changed_list, List.map_append]
      rfl
    | mul =>
      simp only [listArithmetic, List.length_map]
      cases repetitions count elements.length with
      | error fault => rfl
      | ok times => simp only [bind, Except.bind, Except.map, changed_list, map_repeat]
    | sub =>
      simp only [listArithmetic, List.length_map]
      cases listPlace count elements.length with
      | error fault => rfl
      | ok place => simp only [bind, Except.bind, Except.map, changed_list, List.eraseIdx_map]
    | div =>
      simp only [listArithmetic, List.length_map]
      cases listPlace count elements.length with
      | error fault => rfl
      | ok place =>
        simp only [bind, Except.bind, Except.map, List.getElem?_map]
        cases elements[place]? <;> rfl
    | _ => rfl
  | _ =>
    cases op with
    | add =>
      simp only [listArithmetic, Except.map, changed_list, List.map_append]
      rfl
    | _ => rfl

theorem map_arithmetic (left : Value) (op : BinaryOp) (right : Value) :
    (left.arithmetic op right).map (changed change) =
      (left.changed change).arithmetic op (right.changed change) := by
  cases left with
  | list elements =>
    rw [changed_list]
    exact map_listArithmetic change op elements right
  | str text => exact map_stringArithmetic change op text right
  | int a =>
    cases right with
    | int b => exact map_integerArithmetic change op a b
    | float b => exact map_floatArithmetic change op _ b
    | _ => rfl
  | float a =>
    cases right with
    | int b => exact map_floatArithmetic change op a _
    | float b => exact map_floatArithmetic change op a b
    | _ => rfl
  | _ => cases right <;> rfl

theorem map_connective (left : Value) (op : BinaryOp) (right : Value) :
    (left.connective op right).map (changed change) =
      (left.changed change).connective op (right.changed change) := by
  unfold connective
  rw [isTrue_changed, isTrue_changed, kind_changed, kind_changed]
  cases op <;> rfl

/-- What is compared for equality must be the same before and after the change. -/
theorem map_comparison {op : BinaryOp} {left right : Value}
    (same : op = .equal ∨ op = .notEqual →
      (left.changed change).same (right.changed change) = left.same right) :
    (left.comparison op right).map (changed change) =
      (left.changed change).comparison op (right.changed change) := by
  unfold comparison
  rw [order_changed, kind_changed, kind_changed]
  cases order left right with
  | some ordering =>
    cases ordering with
    | none => rfl
    | some ordering =>
      dsimp only
      cases holds op ordering <;> rfl
  | none =>
    cases op with
    | equal | notEqual =>
      rw [same (by simp)]
      rfl
    | _ => rfl

/-- Applying an operator commutes with the change. -/
theorem map_binary {op : BinaryOp} {left right : Value}
    (same : op = .equal ∨ op = .notEqual →
      (left.changed change).same (right.changed change) = left.same right) :
    (binary op left right).map (changed change) =
      binary op (left.changed change) (right.changed change) := by
  unfold binary
  split
  · exact map_connective change left op right
  · split
    · exact map_comparison change same
    · exact map_arithmetic change left op right

theorem map_unary (op : UnaryOp) (operand : Value) :
    (unary op operand).map (changed change) = unary op (operand.changed change) := by
  cases op with
  | plus => rfl
  | negate => exact map_arithmetic change operand .mul (int (-1))
  | not =>
    simp only [unary, not, isTrue_changed]
    rfl

end Value

/-! ## Tables -/

/-- The binding with another value. -/
def Binding.mapped (f : Value → Value) (binding : Binding) : Binding :=
  { binding with value := f binding.value }

namespace Table

variable (f : Value → Value)

/-- The table with other values for the same names. -/
def mapped (table : Table) : Table :=
  ⟨table.bindings.map fun (name, binding) => (name, binding.mapped f)⟩

theorem find?_mapped (table : Table) (name : String) :
    (table.mapped f).find? name = (table.find? name).map (Binding.mapped f) := by
  obtain ⟨bindings⟩ := table
  rw [mapped, find?, find?]
  induction bindings with
  | nil => rfl
  | cons entry rest ih =>
    obtain ⟨bound, binding⟩ := entry
    rw [List.map_cons, List.lookup_cons, List.lookup_cons, ih]
    cases name == bound with
    | true => rfl
    | false => rfl

theorem value?_mapped (table : Table) (name : String) :
    (table.mapped f).value? name = (table.value? name).map f := by
  rw [value?, value?, find?_mapped, Option.map_map, Option.map_map]
  rfl

theorem protects_mapped (table : Table) (name : String) :
    (table.mapped f).protects name = table.protects name := by
  rw [protects, protects, find?_mapped]
  cases table.find? name with
  | none => rfl
  | some binding => rfl

theorem mapped_define (table : Table) (name : String) (value : Value) (isMutable : Bool) :
    (table.define name value isMutable).mapped f =
      (table.mapped f).define name (f value) isMutable := by
  obtain ⟨bindings⟩ := table
  simp only [mapped, define]
  apply congrArg Table.mk
  induction bindings with
  | nil => rfl
  | cons entry rest ih =>
    obtain ⟨bound, binding⟩ := entry
    by_cases same : name = bound
    · simp only [bind, List.map_cons, if_pos same]
      rfl
    · simp only [bind, List.map_cons, if_neg same]
      rw [ih]

/-- The parameters of a call are bound to the arguments whatever these are. -/
theorem mapped_ofArguments (parameters : List String) (arguments : List Value) :
    (ofArguments parameters arguments).mapped f = ofArguments parameters (arguments.map f) := by
  rw [ofArguments, ofArguments, List.zip_map_right, List.foldl_map]
  apply (List.foldl_hom (Table.mapped f) _).symm
  intro table pair
  exact (mapped_define f table pair.1 pair.2 true).symm

end Table

end Quill
