import Quill.Eval.Expr
import Quill.Proofs.Store.Tables
import Quill.Proofs.Tracebacks.Basic

/-!
# Failures in values

A failure that is given back as a value may be stored, passed on and put into lists like any other
value. Code never makes such a value itself. So if all failures are known that the values in a state
carry, the same is true after a step, except that the step may give back a failure of its own.
-/

namespace Quill

/-- The value is the failure, or one of its elements carries it. -/
inductive Value.Carries (failure : Failure) : Value → Prop where
  /-- It is the failure. -/
  | exception : Carries failure (.exception failure)
  /-- It is a list, and an element carries the failure. -/
  | element {elements : List Value} {element : Value} (member : element ∈ elements)
      (carries : Carries failure element) : Carries failure (.list elements)

/-- All failures that the value carries are known. -/
def Value.Known (known : Failure → Prop) (value : Value) : Prop :=
  ∀ failure, value.Carries failure → known failure

/-- All failures that the values carry are known that are stored in a state. -/
structure Machine.Known (known : Failure → Prop) (machine : Machine) : Prop where
  /-- Those that are bound to names. -/
  store : machine.store.All (Value.Known known)
  /-- The one that the running script exports. -/
  exported : ∀ value, machine.exported = some value → value.Known known

/-- A value that is stored in a state carries the failure. -/
inductive Machine.Carries (failure : Failure) (machine : Machine) : Prop where
  /-- A name is bound to the value. -/
  | bound {id : ContextId} {name : String} {value : Value}
      (found : (machine.store.table id).value? name = some value) (carries : value.Carries failure)
  /-- The running script exports the value. -/
  | exported {value : Value} (found : machine.exported = some value)
      (carries : value.Carries failure)

theorem Machine.known_iff {known : Failure → Prop} {machine : Machine} :
    machine.Known known ↔ ∀ failure, machine.Carries failure → known failure := by
  constructor
  · rintro all failure (⟨found, carries⟩ | ⟨found, carries⟩)
    · exact all.store _ _ _ found failure carries
    · exact all.exported _ found failure carries
  · intro all
    constructor
    · intro id name value found failure carries
      exact all failure (.bound found carries)
    · intro value found failure carries
      exact all failure (.exported found carries)

/-- All failures that a signal carries in a value are known. -/
def Signal.Known (known : Failure → Prop) : Signal → Prop
  | .returned value => value.Known known
  | _ => True

/-- All failures are known that are carried by what is left after a step, and the result is as it
should be. -/
def Outcome.Known {Result : Type} (known : Failure → Prop) (post : Result → Prop) :
    Outcome Result → Prop
  | .ok result after => post result ∧ after.Known known
  | .error signal after => signal.Known known ∧ after.Known known

variable {known : Failure → Prop}

namespace Value

theorem hereditary_known : Hereditary (Known known) where
  list_iff elements := by
    constructor
    · intro all element member failure carries
      exact all failure (.element member carries)
    · rintro all failure (_ | ⟨member, carries⟩)
      exact all _ member failure carries
  null := by rintro failure ⟨⟩
  int _ := by rintro failure ⟨⟩
  float _ := by rintro failure ⟨⟩
  str _ := by rintro failure ⟨⟩

theorem known_function (function : Function) : (Value.function function).Known known := by
  rintro failure ⟨⟩

theorem known_object (object : Object) : (Value.object object).Known known := by
  rintro failure ⟨⟩

theorem known_exception {failure : Failure} (also : known failure) :
    (Value.exception failure).Known known := by
  rintro other ⟨⟩
  exact also

end Value

/-- What an outermost context binds carries no failures. -/
theorem Machine.Known.addGlobals {machine : Machine} (all : machine.Known known) :
    machine.addGlobals.2.Known known := by
  have plain := @Value.hereditary_known known
  have constants : ∀ pair ∈ Machine.constants, pair.2.Known known := by
    simp [Machine.constants, plain.null, plain.ofBool]
  constructor
  · exact Machine.all_addGlobals constants (fun _ => Value.known_function _) all.store
  · rw [Machine.exported_addGlobals]
    exact all.exported

/-- All failures are known that a value carries, unless it is one itself. -/
def Given (known : Failure → Prop) (value : Value) : Prop :=
  (∀ failure, value = .exception failure → known failure) → value.Known known

theorem Value.Known.given {value : Value} (all : value.Known known) : Given known value :=
  fun _ => all

/-- If all failures are known before the step, they are known after it, and the result is as it
should be. -/
def Tight {Result : Type} (known : Failure → Prop) (post : Result → Prop) (step : Eval Result) :
    Prop :=
  ∀ ⦃machine : Machine⦄, machine.Known known → Outcome.Known known post (step machine)

namespace Tight

variable {Result Other : Type} {post : Result → Prop}

theorem pure {result : Result} (results : post result) : Tight known post (Pure.pure result) :=
  fun _ all => ⟨results, all⟩

theorem bind {post : Other → Prop} {middle : Result → Prop} {first : Eval Result}
    {next : Result → Eval Other} (firsts : Tight known middle first)
    (nexts : ∀ result, middle result → Tight known post (next result)) :
    Tight known post (first >>= next) := by
  intro machine all
  have began := firsts all
  change Outcome.Known known post (EStateM.bind first next machine)
  unfold EStateM.bind
  cases ended : first machine with
  | ok result between =>
    rw [ended] at began
    exact nexts result began.1 began.2
  | error signal between =>
    rw [ended] at began
    exact began

theorem throw {signal : Signal} (also : signal.Known known) :
    Tight known post (MonadExcept.throw signal : Eval Result) :=
  fun _ all => ⟨also, all⟩

theorem raise (fault : Fault) (span : Span) (id : ContextId) :
    Tight known post (Eval.raise fault span id) :=
  fun _ all => ⟨trivial, all⟩

theorem orRaise {result : Except Fault Result} (sound : Sound post result) (span : Span)
    (id : ContextId) : Tight known post (Eval.orRaise result span id) := by
  cases result with
  | ok value => exact pure sound
  | error fault => exact raise fault span id

/-! ## Names -/

theorem lookup (id : ContextId) (name : String) :
    Tight known (fun found => ∀ value, found = some value → value.Known known)
      (Eval.lookup id name) :=
  fun _ all => ⟨fun _ found => all.store.lookup found, all⟩

theorem lookupLocal (id : ContextId) (name : String) :
    Tight known (fun found => ∀ value, found = some value → value.Known known)
      (Eval.lookupLocal id name) :=
  fun _ all => ⟨fun _ found => all.store.lookupLocal found, all⟩

theorem freshId : Tight known (fun _ => True) Eval.freshId :=
  fun _ all => ⟨trivial, all.store, all.exported⟩

theorem addContext {context : Context} (table : context.table.All (Value.Known known)) :
    Tight known (fun _ => True) (Eval.addContext context) :=
  fun _ all => ⟨trivial, all.store.add table, all.exported⟩

theorem assign (target : ContextId) (name : String) {value : Value} (also : value.Known known)
    (span : Span) (id : ContextId) :
    Tight known (fun _ => True) (Eval.assign target name value span id) := by
  intro machine all
  unfold Eval.assign
  split
  · exact ⟨trivial, all⟩
  · exact ⟨trivial, all.store.define target name also true, all.exported⟩

theorem instanceNamed (name : String) (span : Span) (id : ContextId) :
    Tight known (fun _ => True) (Eval.instanceNamed name span id) := by
  apply bind (lookup id name)
  intro found _
  split
  · split
    · exact pure trivial
    · exact raise _ span id
  · exact raise _ span id
  · exact raise _ span id

theorem objectNamed (name : String) (span : Span) (id : ContextId) :
    Tight known (fun _ => True) (Eval.objectNamed name span id) := by
  apply bind (lookup id name)
  intro found _
  split
  · exact pure trivial
  · exact raise _ span id
  · exact raise _ span id

theorem readName (name : String) (span : Span) (id : ContextId) :
    Tight known (Value.Known known) (Eval.readName name span id) := by
  apply bind (lookup id name)
  intro found values
  cases found with
  | none => exact raise _ span id
  | some value => exact pure (values value rfl)

theorem readMember (object name : String) (span : Span) (id : ContextId) :
    Tight known (Value.Known known) (Eval.readMember object name span id) := by
  apply bind (instanceNamed object span id)
  intro source _
  apply bind (lookupLocal source.context name)
  intro found values
  cases found with
  | none => exact raise _ span id
  | some value => exact pure (values value rfl)

theorem define (name : Option String) (parameters : List String) (body : Located) (valued : Bool)
    (span : Span) (id : ContextId) :
    Tight known (Value.Known known) (Eval.define name parameters body valued span id) := by
  apply bind freshId
  intro serial _
  cases name with
  | none => exact pure (Value.known_function _)
  | some bound =>
    apply bind (assign id bound (Value.known_function _) span id)
    intro _ _
    exact pure (Value.known_function _)

theorem defineTemplate (name : String) (body : Located) (span : Span) (id : ContextId) :
    Tight known (Value.Known known) (Eval.defineTemplate name body span id) := by
  apply bind freshId
  intro serial _
  apply bind (assign id name (Value.known_object _) span id)
  intro _ _
  exact pure (Value.known_object _)

theorem stepOf (value : Value) (start stop : Int64) (span : Span) (id : ContextId) :
    Tight known (fun _ => True) (Eval.stepOf value start stop span id) := by
  unfold Eval.stepOf
  split
  · split
    · exact pure trivial
    · exact raise _ span id
  · exact raise _ span id

/-! ## Built-in functions -/

variable (call : Invocation)

theorem failing (fault : Fault) : Tight known post (call.raise fault) :=
  fun _ all => ⟨trivial, all⟩

/-- The failure that is given back is the value itself. -/
theorem exception (fault : Fault) : Tight known (Given known) (call.exception fault) :=
  fun _ all => ⟨fun given => Value.known_exception (given _ rfl), all⟩

theorem readLine : Tight known (fun _ => True) call.readLine := by
  intro machine all
  unfold Invocation.readLine
  split
  · exact ⟨trivial, all⟩
  · dsimp only
    split
    · exact ⟨trivial, all.store, all.exported⟩
    · exact ⟨trivial, all.store, all.exported⟩

theorem writeLine (text : String) : Tight known (fun _ => True) (call.writeLine text) := by
  intro machine all
  unfold Invocation.writeLine
  split
  · exact ⟨trivial, all⟩
  · exact ⟨trivial, all.store, all.exported⟩

theorem readInteger (lines : Nat) : Tight known (Given known) (call.readInteger lines) := by
  apply call.readInteger_elim
  · intro value
    exact pure (Value.hereditary_known.int value).given
  · exact exception call
  · intro next nexts
    exact bind (readLine call) fun line _ => nexts line
  · intro text next more
    exact bind (writeLine call text) fun _ _ => more

theorem length : Tight known (Given known) call.length := by
  apply call.length_elim
  · intro size
    exact pure (Value.hereditary_known.int size).given
  · exact failing call _
  · exact exception call _

theorem loadScript (host : Host) : Tight known (fun _ => True) (call.loadScript host) := by
  rw [Invocation.loadScript]
  cases call.argument "file" with
  | str file =>
    intro machine all
    dsimp only
    generalize Path.join host.config.baseDirectory file = path
    cases host.disk.readText path with
    | ok text => exact ⟨trivial, all.store, all.exported⟩
    | error reason => exact ⟨trivial, all.store, all.exported⟩
  | _ => exact pure trivial

theorem enterScript :
    Tight known (fun entered => ∀ value, entered.1 = some value → value.Known known)
      Invocation.enterScript := by
  intro machine all
  have forgotten : Machine.Known known { machine with exported := none } := by
    refine ⟨all.store, ?_⟩
    rintro value ⟨⟩
  exact ⟨all.exported, forgotten.addGlobals⟩

theorem leaveScript {saved : Option Value}
    (also : ∀ value, saved = some value → value.Known known) :
    Tight known (fun exported => ∀ value, exported = some value → value.Known known)
      (Invocation.leaveScript saved) :=
  fun _ all => ⟨all.exported, all.store, also⟩

variable {call} (arguments : ∀ parameter, (call.argument parameter).Known known)

include arguments

/-- The work of a built-in function that runs no script. -/
theorem run (host : Host) (evaluate : Evaluate) {builtin : Builtin}
    (noExport : builtin ≠ .exportValue) (noInclude : builtin ≠ .includeScript)
    (noRun : builtin ≠ .runScript) :
    Tight known (Given known) (call.run host evaluate builtin) := by
  have plain := @Value.hereditary_known known
  cases builtin with
  | exportValue => exact absurd rfl noExport
  | includeScript => exact absurd rfl noInclude
  | runScript => exact absurd rfl noRun
  | print =>
    apply bind (writeLine call _)
    intro _ _
    exact pure plain.null.given
  | input =>
    apply bind (readLine call)
    intro line _
    exact pure (plain.str _).given
  | inputInt =>
    intro machine all
    exact readInteger call machine.input.length all
  | append => exact plain.append_elim arguments (fun _ also => pure also.given) (exception call)
  | remove => exact plain.remove_elim arguments (fun _ also => pure also.given) (exception call)
  | extend => exact plain.extend_elim arguments (fun _ also => pure also.given) (exception call)
  | length => exact length call
  | printRet => exact pure (plain.str _).given
  | str => exact pure (plain.str _).given
  | time => exact pure (plain.float _).given
  | isNumber => exact pure (plain.ofBool _).given
  | isString => exact pure (plain.ofBool _).given
  | isList => exact pure (plain.ofBool _).given
  | isFunction => exact pure (plain.ofBool _).given

/-- What is exported is an argument. -/
theorem exportValue (host : Host) (evaluate : Evaluate) :
    Tight known (Value.Known known) (call.run host evaluate .exportValue) := by
  intro machine all
  refine ⟨arguments "value", all.store, ?_⟩
  rintro value ⟨⟩
  exact arguments "value"

end Tight

end Quill
