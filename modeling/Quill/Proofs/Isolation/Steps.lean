import Quill.Proofs.Isolation.Sealed
import Quill.Proofs.Transcript.Basic

/-!
# Steps that keep to their contexts

A step in sealed contexts leaves older contexts as they are, and its results lead to none of them.
Apart from the steps that try to bind a name, none has the fault that a binding must not change.
-/

namespace Quill

/-- Whether the fault is that a binding must not change. -/
def Fault.Refuses : Fault → Prop
  | .immutableBinding _ => True
  | _ => False

/-- If an operation fails, it is not for a binding that must not change. -/
def Unrefused {Result : Type} : Except Fault Result → Prop
  | .ok _ => True
  | .error fault => ¬fault.Refuses

theorem Unrefused.bind {Result Other : Type} {first : Except Fault Result}
    {next : Result → Except Fault Other} (firsts : Unrefused first)
    (nexts : ∀ result, Unrefused (next result)) : Unrefused (first >>= next) := by
  cases first with
  | ok result => exact nexts result
  | error fault => exact firsts

namespace Value

theorem unrefused_repetitions (count : Int64) (length : Nat) :
    Unrefused (repetitions count length) := by
  unfold repetitions
  grind [Unrefused, Fault.Refuses]

theorem unrefused_listPlace (index : Int64) (length : Nat) :
    Unrefused (listPlace index length) := by
  unfold listPlace
  grind [Unrefused, Fault.Refuses]

theorem unrefused_stringArithmetic (op : BinaryOp) (text : String) (right : Value) :
    Unrefused (stringArithmetic op text right) := by
  unfold stringArithmetic
  split
  · trivial
  · exact (unrefused_repetitions _ _).bind fun _ => trivial
  · exact not_false

theorem unrefused_listArithmetic (op : BinaryOp) (elements : List Value) (right : Value) :
    Unrefused (listArithmetic op elements right) := by
  unfold listArithmetic
  split
  · trivial
  · trivial
  · exact (unrefused_repetitions _ _).bind fun _ => trivial
  · exact (unrefused_listPlace _ _).bind fun _ => trivial
  · exact (unrefused_listPlace _ _).bind fun _ => trivial
  · exact not_false

theorem unrefused_arithmetic (left : Value) (op : BinaryOp) (right : Value) :
    Unrefused (left.arithmetic op right) := by
  unfold arithmetic integerArithmetic floatArithmetic
  split
  · grind [Unrefused, Fault.Refuses]
  · grind [Unrefused, Fault.Refuses]
  · grind [Unrefused, Fault.Refuses]
  · grind [Unrefused, Fault.Refuses]
  · exact unrefused_stringArithmetic op _ right
  · exact unrefused_listArithmetic op _ right
  · exact not_false

theorem unrefused_unary (op : UnaryOp) (operand : Value) : Unrefused (unary op operand) := by
  cases op with
  | plus => trivial
  | negate => exact unrefused_arithmetic operand .mul _
  | not => trivial

theorem unrefused_binary (op : BinaryOp) (left right : Value) :
    Unrefused (binary op left right) := by
  unfold binary connective comparison
  split
  · grind [Unrefused, Fault.Refuses]
  · split
    · grind [Unrefused, Fault.Refuses]
    · exact unrefused_arithmetic left op right

end Value

theorem Function.unrefused_checkArity (function : Function) (count : Nat) :
    Unrefused (function.checkArity count) := by
  unfold Function.checkArity
  grind [Unrefused, Fault.Refuses]

/-! ## What a step leaves -/

/-- The contexts before `base` are as they were, and the others are still sealed. No context is
entered in another way than before. -/
structure Store.Keeps (base : Nat) (before after : Store) : Prop where
  /-- The contexts from `base` onwards refer to none before. -/
  sealed : after.Sealed base
  /-- No context gets lost. -/
  size : before.size ≤ after.size
  /-- The contexts before `base` are the same. -/
  older : ∀ id < base, after.context? id = before.context? id
  /-- Contexts have been entered from where they were. -/
  entered : ∀ id < before.size, after.entered id = before.entered id

namespace Store

variable {base : Nat} {before between after : Store}

theorem Keeps.refl (sealed : before.Sealed base) : Keeps base before before :=
  ⟨sealed, Nat.le_refl _, fun _ _ => rfl, fun _ _ => rfl⟩

theorem Keeps.trans (first : Keeps base before between) (second : Keeps base between after) :
    Keeps base before after where
  sealed := second.sealed
  size := Nat.le_trans first.size second.size
  older id old := (second.older id old).trans (first.older id old)
  entered id known :=
    (second.entered id (Nat.lt_of_lt_of_le known first.size)).trans (first.entered id known)

theorem Keeps.define (sealed : before.Sealed base) {id : ContextId} (since : base ≤ id)
    {name : String} (free : before.protects id name = false) {value : Value}
    (within : value.Within base before.size) :
    Keeps base before (before.define id name value true) where
  sealed := sealed.define free within
  size := Nat.le_of_eq (size_define _ _ _ _ _).symm
  older other old := by
    have distinct : id ≠ other := Nat.ne_of_gt (Nat.lt_of_lt_of_le old since)
    rw [Store.define, context?_updateTable]
    simp [distinct]
  entered other _ := entered_updateTable before id other _

theorem Keeps.add (sealed : before.Sealed base) (present : base ≤ before.size) {context : Context}
    (laws : context.Sealed base (before.size + 1) before.size) :
    Keeps base before (before.add context).2 where
  sealed := sealed.add laws
  size := by
    rw [size_add]
    exact Nat.le_succ _
  older other old := by
    rw [context?_add, if_neg (Nat.ne_of_lt (Nat.lt_of_lt_of_le old present))]
  entered other known := by rw [entered_add, if_neg (Nat.ne_of_lt known)]

/-- An outermost context stays one. -/
theorem Keeps.global (keeps : Keeps base before after) {id : ContextId}
    (outermost : before.Global id) : after.Global id := by
  obtain ⟨context, found, entry⟩ := outermost
  have known := lt_size_of_context?_eq_some found
  obtain ⟨other, here⟩ : ∃ other, after.context? id = some other :=
    ⟨_, Array.getElem?_eq_getElem (Nat.lt_of_lt_of_le known keeps.size)⟩
  have same := keeps.entered id known
  rw [Store.entered, Store.entered, here, found] at same
  exact ⟨other, here, same.trans entry⟩

end Store

namespace Machine

variable {base : Nat} {before after : Machine}

/-- The store keeps to the contexts from `base` onwards. -/
abbrev Keeps (base : Nat) (before after : Machine) : Prop :=
  before.store.Keeps base after.store

/-- Adding an outermost context keeps to the new context. -/
theorem keeps_addGlobals (sealed : before.store.Sealed base) (present : base ≤ before.store.size) :
    Keeps base before before.addGlobals.2 ∧
      Between base before.addGlobals.2.store.size before.addGlobals.1 := by
  rw [addGlobals_eq]
  refine ⟨.add sealed present (sealed_programContext base _ before.serial _), present, ?_⟩
  rw [Store.size_add]
  exact Nat.lt_succ_self _

end Machine

variable {Result Other : Type} {base size : Nat}

/-- A value that is returned leads to no context before `base`. -/
def Signal.Within (base size : Nat) : Signal → Prop
  | .returned value => value.Within base size
  | _ => True

/-- The result is as it should be, given the number of contexts, and no value that is returned
leads to a context before `base`. -/
def Outcome.Ends (base : Nat) (post : Nat → Result → Prop) : Outcome Result → Prop
  | .ok result after => post after.store.size result
  | .error signal after => signal.Within base after.store.size

/-- What is left by a step that keeps to its contexts and tries to bind no name. -/
structure Outcome.Confined (base : Nat) (before : Machine) (post : Nat → Result → Prop)
    (outcome : Outcome Result) : Prop where
  /-- Older contexts are left as they are. -/
  kept : before.Keeps base (Outcome.left outcome)
  /-- Nothing is exported. -/
  exported : (Outcome.left outcome).exported = before.exported
  /-- The result is as it should be. -/
  ends : Outcome.Ends base post outcome
  /-- If the step fails, it is not for a binding that must not change. -/
  unrefused : ∀ fault, Outcome.fault? outcome = some fault → ¬fault.Refuses

/-- From all states with sealed contexts, at least `size` of them, the step keeps to its contexts
and tries to bind no name. -/
def Confined (base size : Nat) (post : Nat → Result → Prop) (step : Eval Result) : Prop :=
  ∀ ⦃machine : Machine⦄, machine.store.Sealed base → size ≤ machine.store.size →
    Outcome.Confined base machine post (step machine)

/-- The value leads to no context before `base`. -/
abbrev Inside (base : Nat) : Nat → Value → Prop :=
  fun size value => value.Within base size

/-- The values lead to no context before `base`. -/
abbrev AllInside (base : Nat) : Nat → List Value → Prop :=
  fun size values => ∀ value ∈ values, value.Within base size

namespace Confined

variable {post : Nat → Result → Prop}

theorem pure {result : Result} (results : ∀ more, size ≤ more → post more result) :
    Confined base size post (Pure.pure result) := by
  intro machine sealed enough
  refine ⟨.refl sealed, rfl, results _ enough, ?_⟩
  rintro fault ⟨⟩

theorem bind {post : Nat → Other → Prop} {middle : Nat → Result → Prop} {first : Eval Result}
    {next : Result → Eval Other} (firsts : Confined base size middle first)
    (nexts : ∀ more, size ≤ more → ∀ result, middle more result →
      Confined base more post (next result)) : Confined base size post (first >>= next) := by
  intro machine sealed enough
  have began := firsts sealed enough
  change Outcome.Confined base machine post (EStateM.bind first next machine)
  unfold EStateM.bind
  cases ended : first machine with
  | error signal between =>
    rw [ended] at began
    exact ⟨began.kept, began.exported, began.ends, began.unrefused⟩
  | ok result between =>
    rw [ended] at began
    have grown := Nat.le_trans enough began.kept.size
    have went := nexts _ grown result began.ends began.kept.sealed (Nat.le_refl _)
    exact ⟨began.kept.trans went.kept, went.exported.trans began.exported, went.ends,
      went.unrefused⟩

theorem throw {signal : Signal}
    (returns : ∀ value, signal = .returned value → value.Within base size)
    (unrefused : ∀ failure, signal = .failed failure → ¬failure.fault.Refuses) :
    Confined base size post (MonadExcept.throw signal : Eval Result) := by
  intro machine sealed enough
  refine ⟨.refl sealed, rfl, ?_, ?_⟩
  · cases signal with
    | returned value => exact (returns value rfl).mono enough
    | _ => trivial
  · cases signal with
    | failed failure =>
      rintro fault ⟨⟩
      exact unrefused failure rfl
    | _ => rintro fault ⟨⟩

theorem raise {fault : Fault} {span : Span} {id : ContextId} (unrefused : ¬fault.Refuses) :
    Confined base size post (Eval.raise fault span id) := by
  intro machine sealed _
  refine ⟨.refl sealed, rfl, trivial, ?_⟩
  rintro other ⟨⟩
  exact unrefused

theorem orRaise {result : Except Fault Result} (unrefused : Unrefused result)
    (results : ∀ value, result = .ok value → ∀ more, size ≤ more → post more value)
    (span : Span) (id : ContextId) : Confined base size post (Eval.orRaise result span id) := by
  cases result with
  | ok value => exact pure (results value rfl)
  | error fault => exact raise unrefused

/-! ## Names and contexts -/

theorem lookup {id : ContextId} (since : base ≤ id) (name : String) :
    Confined base size (fun more found => ∀ value, found = some value → value.Within base more)
      (Eval.lookup id name) := by
  intro machine sealed _
  refine ⟨.refl sealed, rfl, fun value found => sealed.lookup since found, ?_⟩
  rintro fault ⟨⟩

theorem lookupLocal {id : ContextId} (since : base ≤ id) (name : String) :
    Confined base size (fun more found => ∀ value, found = some value → value.Within base more)
      (Eval.lookupLocal id name) := by
  intro machine sealed _
  refine ⟨.refl sealed, rfl, fun value found => sealed.lookupLocal since found, ?_⟩
  rintro fault ⟨⟩

theorem freshId : Confined base size (fun _ _ => True) Eval.freshId := by
  intro machine sealed _
  refine ⟨.refl sealed, rfl, trivial, ?_⟩
  rintro fault ⟨⟩

/-- A context is entered whose links and values lead to no older contexts. -/
theorem addContext {context : Context} {entry : Entry} (link : context.entry = some entry)
    (caller : Between base size entry.caller)
    (scope : ∀ outer, context.scope = some outer → Between base size outer)
    (table : context.table.All (Value.Within base size))
    (free : ∀ name binding, context.table.find? name = some binding → binding.isMutable = true) :
    Confined base size (Between base) (Eval.addContext context) := by
  intro machine sealed enough
  have present : base ≤ machine.store.size :=
    Nat.le_trans (Nat.le_of_lt (Nat.lt_of_le_of_lt caller.1 caller.2)) enough
  have laws : context.Sealed base (machine.store.size + 1) machine.store.size := by
    constructor
    · intro other same
      rw [link] at same
      cases same
      exact caller.mono enough
    · intro outer same
      exact (scope outer same).mono enough
    · intro name value bound
      exact (table name value bound).mono (Nat.le_succ_of_le enough)
    · exact Context.canonical_of_entered link free
  have added := Store.Keeps.add sealed present laws
  refine ⟨added, rfl, ⟨present, ?_⟩, ?_⟩
  · exact Nat.lt_of_lt_of_eq (Nat.lt_succ_self _) (Store.size_add _ _).symm
  · rintro fault ⟨⟩

theorem objectFound {found : Option Value}
    (values : ∀ value, found = some value → value.Within base size) {object : Object}
    (same : found = some (.object object)) : Between base size object.context :=
  (values _ same).context

theorem instanceNamed {id : ContextId} (since : base ≤ id) (name : String) (span : Span) :
    Confined base size (fun more object => Between base more object.context)
      (Eval.instanceNamed name span id) := by
  apply bind (lookup since name)
  intro more _ found values
  split
  · split
    · exact pure fun most grown => (objectFound values rfl).mono grown
    · exact raise not_false
  · exact raise not_false
  · exact raise not_false

theorem objectNamed {id : ContextId} (since : base ≤ id) (name : String) (span : Span) :
    Confined base size (fun more object => Between base more object.context)
      (Eval.objectNamed name span id) := by
  apply bind (lookup since name)
  intro more _ found values
  split
  · exact pure fun most grown => (objectFound values rfl).mono grown
  · exact raise not_false
  · exact raise not_false

theorem readName {id : ContextId} (since : base ≤ id) (name : String) (span : Span) :
    Confined base size (Inside base) (Eval.readName name span id) := by
  apply bind (lookup since name)
  intro more _ found values
  cases found with
  | none => exact raise not_false
  | some value => exact pure fun most grown => (values value rfl).mono grown

theorem readMember {id : ContextId} (since : base ≤ id) (object name : String) (span : Span) :
    Confined base size (Inside base) (Eval.readMember object name span id) := by
  apply bind (instanceNamed since object span)
  intro more _ source context
  apply bind (lookupLocal context.1 name)
  intro most _ found values
  cases found with
  | none => exact raise not_false
  | some value => exact pure fun last grown => (values value rfl).mono grown

theorem stepOf (value : Value) (start stop : Int64) (span : Span) (id : ContextId) :
    Confined base size (fun _ _ => True) (Eval.stepOf value start stop span id) := by
  unfold Eval.stepOf
  split
  · split
    · exact pure fun _ _ => trivial
    · exact raise not_false
  · exact raise not_false

/-! ## Built-in functions -/

variable (call : Invocation)

theorem failing {fault : Fault} (unrefused : ¬fault.Refuses) :
    Confined base size post (call.raise fault) := by
  intro machine sealed _
  refine ⟨.refl sealed, rfl, trivial, ?_⟩
  rintro other ⟨⟩
  exact unrefused

theorem exception (fault : Fault) : Confined base size (Inside base) (call.exception fault) := by
  intro machine sealed _
  refine ⟨.refl sealed, rfl, Value.within_exception _, ?_⟩
  rintro other ⟨⟩

theorem readLine : Confined base size (fun _ _ => True) call.readLine := by
  intro machine sealed _
  unfold Invocation.readLine
  split
  · refine ⟨.refl sealed, rfl, trivial, ?_⟩
    rintro fault ⟨⟩
  · dsimp only
    split
    · refine ⟨.refl sealed, rfl, trivial, ?_⟩
      rintro fault ⟨⟩
    · refine ⟨.refl sealed, rfl, trivial, ?_⟩
      rintro fault ⟨⟩
      exact not_false

theorem writeLine (text : String) :
    Confined base size (fun _ _ => True) (call.writeLine text) := by
  intro machine sealed _
  unfold Invocation.writeLine
  split
  · refine ⟨.refl sealed, rfl, trivial, ?_⟩
    rintro fault ⟨⟩
    exact not_false
  · refine ⟨.refl sealed, rfl, trivial, ?_⟩
    rintro fault ⟨⟩

theorem readInteger (lines size : Nat) :
    Confined base size (Inside base) (call.readInteger lines) := by
  refine @call.readInteger_elim (fun step => ∀ size, Confined base size (Inside base) step)
    ?_ ?_ ?_ ?_ lines size
  · intro value size
    exact pure fun more _ => (Value.hereditary_within base more).int value
  · intro fault size
    exact exception call fault
  · intro next nexts size
    exact bind (readLine call) fun more _ line _ => nexts line more
  · intro text next rest size
    exact bind (writeLine call text) fun more _ _ _ => rest more

theorem length : Confined base size (Inside base) call.length := by
  apply call.length_elim
  · intro count
    exact pure fun more _ => (Value.hereditary_within base more).int _
  · exact failing call not_false
  · exact exception call _

theorem loadScript (host : Host) :
    Confined base size (fun _ _ => True) (call.loadScript host) := by
  rw [Invocation.loadScript]
  cases call.argument "file" with
  | str file =>
    intro machine sealed _
    dsimp only
    generalize Path.join host.config.baseDirectory file = path
    cases host.disk.readText path with
    | ok text =>
      refine ⟨.refl sealed, rfl, trivial, ?_⟩
      rintro fault ⟨⟩
    | error reason =>
      refine ⟨.refl sealed, rfl, trivial, ?_⟩
      rintro fault ⟨⟩
      exact not_false
  | _ => exact pure fun _ _ => trivial

theorem resultOf (path : String) (result : Except Error Value) :
    Confined base size (fun _ _ => True) (call.resultOf path result) := by
  cases result with
  | ok value => exact pure fun _ _ => trivial
  | error error => exact failing call not_false

/-- The outermost context around a caller. -/
theorem rootOf {caller : ContextId} (between : Between base size caller) :
    Confined base size (fun more machine => Between base more (machine.store.rootOf caller))
      (get : Eval Machine) := by
  intro machine sealed enough
  refine ⟨.refl sealed, rfl, sealed.rootOf (between.mono enough), ?_⟩
  rintro fault ⟨⟩

variable {call} (arguments : ∀ parameter, (call.argument parameter).Within base size)

include arguments

/-- The work of a built-in function that exports nothing and runs no script. -/
theorem run (host : Host) (evaluate : Evaluate) {builtin : Builtin}
    (noExport : builtin ≠ .exportValue) (noInclude : builtin ≠ .includeScript)
    (noRun : builtin ≠ .runScript) :
    Confined base size (Inside base) (call.run host evaluate builtin) := by
  have plain := Value.hereditary_within base
  cases builtin with
  | exportValue => exact absurd rfl noExport
  | includeScript => exact absurd rfl noInclude
  | runScript => exact absurd rfl noRun
  | print =>
    apply bind (writeLine call _)
    intro _ _ _ _
    exact pure fun more _ => (plain more).null
  | input =>
    apply bind (readLine call)
    intro _ _ line _
    exact pure fun more _ => (plain more).str _
  | inputInt =>
    intro machine sealed enough
    exact readInteger call machine.input.length size sealed enough
  | append =>
    exact (plain size).append_elim arguments (fun _ within => pure fun _ => within.mono)
      (exception call)
  | remove =>
    exact (plain size).remove_elim arguments (fun _ within => pure fun _ => within.mono)
      (exception call)
  | extend =>
    exact (plain size).extend_elim arguments (fun _ within => pure fun _ => within.mono)
      (exception call)
  | length => exact length call
  | printRet => exact pure fun more _ => (plain more).str _
  | str => exact pure fun more _ => (plain more).str _
  | time => exact pure fun more _ => (plain more).float _
  | isNumber => exact pure fun more _ => (plain more).ofBool _
  | isString => exact pure fun more _ => (plain more).ofBool _
  | isList => exact pure fun more _ => (plain more).ofBool _
  | isFunction => exact pure fun more _ => (plain more).ofBool _

end Confined

end Quill
