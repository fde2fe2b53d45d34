import Quill.Proofs.Execution.Regimes
import Quill.Proofs.Store.Chains

/-!
# What values refer to

A function refers to the context that it was defined in, and an instance to the context of its
members. Values are copied, and so are lists of them, so that many values may refer to one context.
No step comes up with a reference on its own: if all values in a state refer to contexts that are
there, and all instances among them are known, then the same is true after the step, except where a
new function is defined or a new instance is made.
-/

namespace Quill

/-- The part is the value itself, or one of its elements holds the part. -/
inductive Value.Holds : (value part : Value) → Prop where
  /-- It is the value. -/
  | here (value : Value) : Holds value value
  /-- The value is a list, and an element holds the part. -/
  | element {elements : List Value} {element part : Value} (member : element ∈ elements)
      (holds : Holds element part) : Holds (.list elements) part

/-- Whether the value, apart from elements, refers to one of the first contexts, if to any, and is a
known instance, if it is an instance. -/
def Value.Anchored (known : Object → Prop) (size : Nat) : Value → Prop
  | .function (.user defined) => defined.closure < size
  | .object made => made.isInstance = true → known made ∧ made.context < size
  | _ => True

/-- Whether all references in the value lead to the first contexts, and all instances are known. -/
def Value.Fits (known : Object → Prop) (size : Nat) (value : Value) : Prop :=
  ∀ part, value.Holds part → part.Anchored known size

/-- Whether all references in a state lead to contexts that are there, and all instances in it are
known. -/
structure Machine.Fits (known : Object → Prop) (machine : Machine) : Prop where
  /-- That is so of the values that are bound to names. -/
  store : machine.store.All (Value.Fits known machine.store.size)
  /-- It is so of the value that the running script exports. -/
  exported : ∀ value, machine.exported = some value → value.Fits known machine.store.size
  /-- All scope links lead to older contexts. -/
  ordered : machine.store.Ordered

/-- Whether a value that a signal carries fits. -/
def Signal.Fits (known : Object → Prop) (size : Nat) : Signal → Prop
  | .returned value => value.Fits known size
  | _ => True

/-- Whether the result of a step is as it should be where there are so many contexts, or else the
value fits that its signal carries. -/
def Outcome.Fits {Result : Type} (known : Object → Prop) (post : Nat → Result → Prop) :
    Outcome Result → Prop
  | .ok result after => post after.store.size result
  | .error signal after => signal.Fits known after.store.size

/-- How a step may end that keeps the references. -/
structure Retains {Result : Type} (known : Object → Prop) (post : Nat → Result → Prop)
    (machine : Machine) (outcome : Outcome Result) : Prop where
  /-- No context is removed. -/
  size : machine.store.size ≤ (Outcome.machine outcome).store.size
  /-- As many activations are open. -/
  depth : (Outcome.machine outcome).depth = machine.depth
  /-- All references are kept. -/
  fits : (Outcome.machine outcome).Fits known
  /-- What the step ends with fits as well. -/
  ends : Outcome.Fits known post outcome

/-- A step that keeps the references, in every state with at least so many contexts. -/
def Steady {Result : Type} (known : Object → Prop) (size : Nat) (post : Nat → Result → Prop)
    (step : Eval Result) : Prop :=
  ∀ ⦃machine : Machine⦄, size ≤ machine.store.size → machine.Fits known →
    Retains known post machine (step machine)

variable {known : Object → Prop} {size : Nat}

namespace Value

theorem hereditary_fits : Hereditary (Fits known size) where
  list_iff elements := by
    constructor
    · intro all element member part holds
      exact all part (.element member holds)
    · rintro all part (_ | ⟨member, holds⟩)
      · trivial
      · exact all _ member part holds
  null := by rintro _ ⟨⟩; trivial
  int _ := by rintro _ ⟨⟩; trivial
  float _ := by rintro _ ⟨⟩; trivial
  str _ := by rintro _ ⟨⟩; trivial

theorem fits_exception (failure : Failure) : (exception failure).Fits known size := by
  rintro _ ⟨⟩
  trivial

theorem fits_builtin (function : BuiltinFunction) :
    (Value.function (.builtin function)).Fits known size := by
  rintro _ ⟨⟩
  trivial

theorem fits_user {function : UserFunction} :
    (Value.function (.user function)).Fits known size ↔ function.closure < size := by
  constructor
  · exact fun all => all _ (.here _)
  · rintro present _ ⟨⟩
    exact present

theorem fits_object {object : Object} :
    (Value.object object).Fits known size ↔
      (object.isInstance = true → known object ∧ object.context < size) := by
  constructor
  · exact fun all => all _ (.here _)
  · rintro present _ ⟨⟩
    exact present

/-- References lead to the first contexts, even if more of them are counted in. -/
theorem Fits.mono {value : Value} (fits : value.Fits known size) {more : Nat}
    (grown : size ≤ more) : value.Fits known more := by
  intro part holds
  have anchored := fits part holds
  cases part with
  | function function =>
    cases function with
    | user function => exact Nat.lt_of_lt_of_le anchored grown
    | builtin function => trivial
  | object object => exact fun made => (anchored made).imp_right (Nat.lt_of_lt_of_le · grown)
  | _ => trivial

/-- Which instances are known may be told from the contexts that are there. -/
theorem Fits.imp {value : Value} (fits : value.Fits known size) {other : Object → Prop}
    (knows : ∀ made, known made → made.context < size → other made) : value.Fits other size := by
  intro part holds
  have anchored := fits part holds
  cases part with
  | object object =>
    intro made
    obtain ⟨also, present⟩ := anchored made
    exact ⟨knows object also present, present⟩
  | function function =>
    cases function with
    | user defined => exact anchored
    | builtin provided => trivial
  | _ => trivial

/-- Whether all values of a list fit. -/
def AllFit (known : Object → Prop) (size : Nat) (values : List Value) : Prop :=
  ∀ value ∈ values, value.Fits known size

theorem AllFit.mono {values : List Value} (all : AllFit known size values) {more : Nat}
    (grown : size ≤ more) : AllFit known more values :=
  fun value member => (all value member).mono grown

end Value

namespace Machine.Fits

variable {machine : Machine}

/-- What only differs in other things has the same references. -/
theorem congr (fits : machine.Fits known) {after : Machine} (store : after.store = machine.store)
    (exported : ∀ value, after.exported = some value → value.Fits known machine.store.size) :
    after.Fits known := by
  refine ⟨?_, ?_, ?_⟩
  · rw [store]
    exact fits.store
  · rw [store]
    exact exported
  · rw [store]
    exact fits.ordered

theorem imp (fits : machine.Fits known) {other : Object → Prop}
    (knows : ∀ made, known made → made.context < machine.store.size → other made) :
    machine.Fits other where
  store id name value bound := (fits.store id name value bound).imp knows
  exported value exports := (fits.exported value exports).imp knows
  ordered := fits.ordered

theorem define (fits : machine.Fits known) (target : ContextId) (name : String) {value : Value}
    (also : value.Fits known machine.store.size) (isMutable : Bool) :
    Machine.Fits known
      { machine with store := machine.store.define target name value isMutable } := by
  have same := Store.size_define machine.store target name value isMutable
  refine ⟨?_, ?_, fits.ordered.define target name value isMutable⟩
  · rw [same]
    exact fits.store.define target name also isMutable
  · rw [same]
    exact fits.exported

theorem add (fits : machine.Fits known) {context : Context}
    (table : context.table.All (Value.Fits known machine.store.size))
    (older : ∀ outer, context.scope = some outer → outer < machine.store.size) :
    Machine.Fits known { machine with store := (machine.store.add context).2 } := by
  have grown : machine.store.size ≤ (machine.store.add context).2.size := by
    rw [Store.size_add]
    exact Nat.le_succ _
  refine ⟨?_, ?_, fits.ordered.add older⟩
  · refine Store.All.add (fun id name value bound => ?_) fun name value bound => ?_
    · exact (fits.store id name value bound).mono grown
    · exact (table name value bound).mono grown
  · exact fun value exports => (fits.exported value exports).mono grown

/-- What an outermost context binds refers to nothing. -/
theorem addGlobals (fits : machine.Fits known) : machine.addGlobals.2.Fits known := by
  refine machine.addGlobals_elim (Machine.Fits known) ?_ ?_ ?_
  · exact fits.add Table.all_empty fun _ none => nomatch none
  · intro current pair member before
    refine before.define machine.store.size pair.1 ?_ false
    revert pair
    simp [constants, Value.hereditary_fits.null, Value.hereditary_fits.ofBool]
  · intro current builtin before
    have bound := before.define machine.store.size builtin.name
      (Value.fits_builtin ⟨current.serial, builtin.name, builtin.parameters⟩) true
    exact bound.congr rfl bound.exported

end Machine.Fits

/-! ## Steps -/

/-- The regime under which all references lead to contexts that are there, and all instances are
known. -/
def Regime.fits (known : Object → Prop) : Regime where
  admits size value := value.Fits known size
  orders := Machine.Fits known
  mono fits grown := fits.mono grown
  hereditary _ := Value.hereditary_fits
  exception _ failure := Value.fits_exception failure
  bound fits := fits.store
  exported fits := fits.exported
  congr fits store exported := fits.congr store exported
  define fits target name _ also := fits.define target name also true
  addGlobals fits := fits.addGlobals

variable {Result : Type} {post : Nat → Result → Prop}

/-- A step that changes neither the contexts nor the number of open activations. -/
theorem Retains.of_store_eq {machine : Machine} {outcome : Outcome Result}
    (fits : machine.Fits known) (store : (Outcome.machine outcome).store = machine.store)
    (depth : (Outcome.machine outcome).depth = machine.depth)
    (exported : ∀ value, (Outcome.machine outcome).exported = some value →
      value.Fits known machine.store.size)
    (ends : Outcome.Fits known post outcome) : Retains known post machine outcome where
  size := Nat.le_of_eq (congrArg Store.size store).symm
  depth := depth
  fits := fits.congr store exported
  ends := ends

/-- A step that upholds the regime keeps the references. -/
theorem Steady.of_upholds {step : Eval Result}
    (upholds : (Regime.fits known).Upholds size post step) : Steady known size post step := by
  intro machine enough fits
  obtain ⟨grown, depth, orders, ends⟩ := upholds enough fits
  refine ⟨grown, depth, orders, ?_⟩
  revert ends
  generalize step machine = outcome
  intro ends
  cases outcome with
  | ok result after => exact ends
  | error signal after =>
    cases signal with
    | returned value => exact ends
    | _ => trivial

/-- The context is there afterwards, and it was not there before. -/
theorem Steady.addContext {context : Context}
    (table : context.table.All (Value.Fits known size))
    (older : ∀ outer, context.scope = some outer → outer < size) :
    Steady known size (fun more id => size ≤ id ∧ id < more) (Eval.addContext context) := by
  refine of_upholds (Regime.Upholds.addContext fun machine enough fits => ?_)
  refine Machine.Fits.add fits (fun name value bound => ?_) fun outer scope => ?_
  · exact (table name value bound).mono enough
  · exact Nat.lt_of_lt_of_le (older outer scope) enough

end Quill
