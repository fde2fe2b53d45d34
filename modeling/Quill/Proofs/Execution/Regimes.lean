import Quill.Eval.Expr
import Quill.Proofs.Execution.Settling
import Quill.Proofs.Store.Tables

/-!
# Regimes

A regime says which values may be stored, depending on how many contexts there are, and which
states are in order. It has to be such that values remain admitted when contexts are added, that
they are admitted together with their elements, that the values in an orderly state are admitted,
and that binding an admitted value is all right.

The steps of an evaluation know of values only what they have found in the state or have been given.
So each of them upholds every regime: from a state in order it leads to such a state, and its result
is admitted. What is left to be said of a particular regime is which contexts may be added.
-/

namespace Quill

/-- Which values may be stored and which states are in order. -/
structure Regime where
  /-- Whether a value is admitted where there are so many contexts. -/
  admits : (size : Nat) → Value → Prop
  /-- Whether a state is in order. -/
  orders : Machine → Prop
  /-- Values remain admitted when contexts are added. -/
  mono : ∀ {size more : Nat} {value : Value}, admits size value → size ≤ more → admits more value
  /-- Lists are admitted together with their elements, and so are values without any parts. -/
  hereditary : ∀ size, Hereditary (admits size)
  /-- Failures are admitted as values. -/
  exception : ∀ size failure, admits size (.exception failure)
  /-- The values that are bound to names are admitted. -/
  bound : ∀ {machine : Machine}, orders machine → machine.store.All (admits machine.store.size)
  /-- The value that the running script exports is admitted. -/
  exported : ∀ {machine : Machine}, orders machine →
    ∀ value, machine.exported = some value → admits machine.store.size value
  /-- Nothing else matters than the contexts and what is exported. -/
  congr : ∀ {machine after : Machine}, orders machine → after.store = machine.store →
    (∀ value, after.exported = some value → admits machine.store.size value) → orders after
  /-- An admitted value may be bound to a name anywhere. -/
  define : ∀ {machine : Machine}, orders machine →
    ∀ (target : ContextId) (name : String) {value : Value}, admits machine.store.size value →
      orders { machine with store := machine.store.define target name value true }
  /-- An outermost context may be added. -/
  addGlobals : ∀ {machine : Machine}, orders machine → orders machine.addGlobals.2

namespace Regime

variable {Result Other : Type} (regime : Regime)

/-- Whether the value is admitted that a signal carries. -/
def AdmitsSignal (size : Nat) : Signal → Prop
  | .returned value => regime.admits size value
  | _ => True

/-- Whether the result of a step is as it should be where there are so many contexts, or else the
value is admitted that its signal carries. -/
def Ends (post : Nat → Result → Prop) : Outcome Result → Prop
  | .ok result after => post after.store.size result
  | .error signal after => regime.AdmitsSignal after.store.size signal

/-- How a step may end that upholds a regime. -/
structure Upheld (post : Nat → Result → Prop) (machine : Machine) (outcome : Outcome Result) :
    Prop where
  /-- No context is removed. -/
  size : machine.store.size ≤ (Outcome.machine outcome).store.size
  /-- As many activations are open. -/
  depth : (Outcome.machine outcome).depth = machine.depth
  /-- The state is in order. -/
  orders : regime.orders (Outcome.machine outcome)
  /-- What the step ends with is admitted. -/
  ends : regime.Ends post outcome

/-- A step that upholds the regime in every state that is in order and has so many contexts. -/
def Upholds (size : Nat) (post : Nat → Result → Prop) (step : Eval Result) : Prop :=
  ∀ ⦃machine : Machine⦄, size ≤ machine.store.size → regime.orders machine →
    regime.Upheld post machine (step machine)

variable {regime} {size : Nat} {post : Nat → Result → Prop}

/-- A step that changes neither the contexts nor the number of open activations. -/
theorem Upheld.of_store_eq {machine : Machine} {outcome : Outcome Result}
    (orders : regime.orders machine) (store : (Outcome.machine outcome).store = machine.store)
    (depth : (Outcome.machine outcome).depth = machine.depth)
    (exported : ∀ value, (Outcome.machine outcome).exported = some value →
      regime.admits machine.store.size value)
    (ends : regime.Ends post outcome) : regime.Upheld post machine outcome where
  size := Nat.le_of_eq (congrArg Store.size store).symm
  depth := depth
  orders := regime.congr orders store exported
  ends := ends

/-- A step that changes nothing of what matters. -/
theorem Upheld.aside {machine : Machine} {outcome : Outcome Result} (orders : regime.orders machine)
    (store : (Outcome.machine outcome).store = machine.store)
    (depth : (Outcome.machine outcome).depth = machine.depth)
    (exported : (Outcome.machine outcome).exported = machine.exported)
    (ends : regime.Ends post outcome) : regime.Upheld post machine outcome :=
  .of_store_eq orders store depth (exported ▸ regime.exported orders) ends

namespace Upholds

/-- What holds in states with so many contexts holds in those with more of them. -/
theorem mono {step : Eval Result} (upholds : regime.Upholds size post step) {more : Nat}
    (grown : size ≤ more) : regime.Upholds more post step :=
  fun _ enough orders => upholds (Nat.le_trans grown enough) orders

theorem pure {result : Result} (results : ∀ more, size ≤ more → post more result) :
    regime.Upholds size post (Pure.pure result) :=
  fun _ enough orders => .aside orders rfl rfl rfl (results _ enough)

theorem bind {middle : Nat → Other → Prop} {first : Eval Other} {next : Other → Eval Result}
    (firsts : regime.Upholds size middle first)
    (nexts : ∀ result more, size ≤ more → middle more result →
      regime.Upholds more post (next result)) : regime.Upholds size post (first >>= next) := by
  intro machine enough orders
  have began := firsts enough orders
  change regime.Upheld post machine (EStateM.bind first next machine)
  unfold EStateM.bind
  cases ended : first machine with
  | ok result between =>
    rw [ended] at began
    have later := nexts result between.store.size (Nat.le_trans enough began.size) began.ends
      (Nat.le_refl _) began.orders
    exact ⟨Nat.le_trans began.size later.size, later.depth.trans began.depth, later.orders,
      later.ends⟩
  | error signal between =>
    rw [ended] at began
    exact ⟨began.size, began.depth, began.orders, began.ends⟩

/-! ### Signals -/

theorem raise (fault : Fault) (span : Span) (id : ContextId) :
    regime.Upholds size post (Eval.raise fault span id) :=
  fun _ _ orders => .aside orders rfl rfl rfl trivial

theorem returned {value : Value} (also : regime.admits size value) :
    regime.Upholds size post (MonadExcept.throw (.returned value) : Eval Result) :=
  fun _ enough orders => .aside orders rfl rfl rfl (regime.mono also enough)

theorem broke (span : Span) :
    regime.Upholds size post (MonadExcept.throw (.broke span) : Eval Result) :=
  fun _ _ orders => .aside orders rfl rfl rfl trivial

theorem continued (span : Span) :
    regime.Upholds size post (MonadExcept.throw (.continued span) : Eval Result) :=
  fun _ _ orders => .aside orders rfl rfl rfl trivial

/-! ### Names and contexts -/

theorem lookup (id : ContextId) (name : String) :
    regime.Upholds size
      (fun more found => ∀ value, found = some value → regime.admits more value)
      (Eval.lookup id name) :=
  fun _ _ orders => .aside orders rfl rfl rfl fun _ found => (regime.bound orders).lookup found

theorem lookupLocal (id : ContextId) (name : String) :
    regime.Upholds size
      (fun more found => ∀ value, found = some value → regime.admits more value)
      (Eval.lookupLocal id name) :=
  fun _ _ orders => .aside orders rfl rfl rfl fun _ found => (regime.bound orders).lookupLocal found

theorem freshId : regime.Upholds size (fun _ _ => True) Eval.freshId :=
  fun _ _ orders => .aside orders rfl rfl rfl trivial

theorem assign (target : ContextId) (name : String) {value : Value}
    (also : regime.admits size value) (span : Span) (id : ContextId) :
    regime.Upholds size (fun _ _ => True) (Eval.assign target name value span id) := by
  intro machine enough orders
  unfold Eval.assign
  split
  · exact .aside orders rfl rfl rfl trivial
  · exact ⟨Nat.le_of_eq (Store.size_define _ _ _ _ _).symm, rfl,
      regime.define orders target name (regime.mono also enough), trivial⟩

/-- A context may be added if that keeps states in order. It is there afterwards, and it was not
there before. -/
theorem addContext {context : Context}
    (added : ∀ machine : Machine, size ≤ machine.store.size → regime.orders machine →
      regime.orders { machine with store := (machine.store.add context).2 }) :
    regime.Upholds size (fun more id => size ≤ id ∧ id < more) (Eval.addContext context) := by
  intro machine enough orders
  have grown : (machine.store.add context).2.size = machine.store.size + 1 := Store.size_add _ _
  refine ⟨grown ▸ Nat.le_succ _, rfl, added machine enough orders, enough, ?_⟩
  exact Nat.lt_of_lt_of_eq (Nat.lt_succ_self _) grown.symm

theorem rootOf {caller : ContextId} (present : caller < size) :
    regime.Upholds size (fun more root => root < more)
      fun machine => .ok (machine.store.rootOf caller) machine :=
  fun machine enough orders => .aside orders rfl rfl rfl
    (Nat.lt_of_le_of_lt (machine.store.rootOf_le caller) (Nat.lt_of_lt_of_le present enough))

theorem instanceNamed (name : String) (span : Span) (id : ContextId) :
    regime.Upholds size (fun _ _ => True) (Eval.instanceNamed name span id) := by
  apply bind (lookup id name)
  intro found more _ _
  split
  · split
    · exact pure fun _ _ => trivial
    · exact raise _ span id
  · exact raise _ span id
  · exact raise _ span id

theorem objectNamed (name : String) (span : Span) (id : ContextId) :
    regime.Upholds size (fun _ _ => True) (Eval.objectNamed name span id) := by
  apply bind (lookup id name)
  intro found more _ _
  split
  · exact pure fun _ _ => trivial
  · exact raise _ span id
  · exact raise _ span id

theorem readName (name : String) (span : Span) (id : ContextId) :
    regime.Upholds size regime.admits (Eval.readName name span id) := by
  apply bind (lookup id name)
  intro found more _ values
  cases found with
  | none => exact raise _ span id
  | some value => exact pure fun _ => regime.mono (values value rfl)

theorem readMember (object name : String) (span : Span) (id : ContextId) :
    regime.Upholds size regime.admits (Eval.readMember object name span id) := by
  apply bind (instanceNamed object span id)
  intro source more _ _
  apply bind (lookupLocal source.context name)
  intro found further _ values
  cases found with
  | none => exact raise _ span id
  | some value => exact pure fun _ => regime.mono (values value rfl)

theorem stepOf (value : Value) (start stop : Int64) (span : Span) (id : ContextId) :
    regime.Upholds size (fun _ _ => True) (Eval.stepOf value start stop span id) := by
  unfold Eval.stepOf
  split
  · split
    · exact pure fun _ _ => trivial
    · exact raise _ span id
  · exact raise _ span id

/-! ### Built-in functions -/

variable (call : Invocation)

theorem failing (fault : Fault) : regime.Upholds size post (call.raise fault) :=
  fun _ _ orders => .aside orders rfl rfl rfl trivial

theorem exception (fault : Fault) : regime.Upholds size regime.admits (call.exception fault) :=
  fun _ _ orders => .aside orders rfl rfl rfl (regime.exception _ _)

theorem readLine : regime.Upholds size (fun _ _ => True) call.readLine := by
  intro machine enough orders
  unfold Invocation.readLine
  split
  · exact .aside orders rfl rfl rfl trivial
  · dsimp only
    split
    · exact .aside orders rfl rfl rfl trivial
    · exact .aside orders rfl rfl rfl trivial

theorem writeLine (text : String) :
    regime.Upholds size (fun _ _ => True) (call.writeLine text) := by
  intro machine enough orders
  unfold Invocation.writeLine
  split
  · exact .aside orders rfl rfl rfl trivial
  · exact .aside orders rfl rfl rfl trivial

theorem readInteger (lines : Nat) :
    regime.Upholds size regime.admits (call.readInteger lines) := by
  apply call.readInteger_elim
  · intro value
    exact pure fun more _ => (regime.hereditary more).int value
  · exact exception call
  · intro next nexts
    exact bind (readLine call) fun line _ grown _ => (nexts line).mono grown
  · intro text next nexts
    exact bind (writeLine call text) fun _ _ grown _ => nexts.mono grown

theorem length : regime.Upholds size regime.admits call.length := by
  apply call.length_elim
  · intro length
    exact pure fun more _ => (regime.hereditary more).int length
  · exact failing call _
  · exact exception call _

theorem loadScript (host : Host) :
    regime.Upholds size (fun _ _ => True) (call.loadScript host) := by
  rw [Invocation.loadScript]
  cases call.argument "file" with
  | str file =>
    intro machine enough orders
    dsimp only
    generalize Path.join host.config.baseDirectory file = path
    cases host.disk.readText path with
    | ok text => exact .aside orders rfl rfl rfl trivial
    | error reason => exact .aside orders rfl rfl rfl trivial
  | _ => exact pure fun _ _ => trivial

theorem resultOf (path : String) (result : Except Error Value) :
    regime.Upholds size (fun _ _ => True) (call.resultOf path result) := by
  cases result with
  | ok value => exact pure fun _ _ => trivial
  | error error => exact failing call _

/-- The context of the script is new, and what was exported is admitted. -/
theorem enterScript :
    regime.Upholds size
      (fun more entered => (∀ value, entered.1 = some value → regime.admits more value) ∧
        entered.2 < more) Invocation.enterScript := by
  intro machine enough orders
  have forgotten : regime.orders { machine with exported := none } :=
    regime.congr orders rfl fun _ none => nomatch none
  have grows := Machine.grows_addGlobals { machine with exported := none }
  have depth := Execution.depth_addGlobals { machine with exported := none }
  have globals := regime.addGlobals forgotten
  have entered : Invocation.enterScript machine = .ok (machine.exported, machine.store.size)
    (Machine.addGlobals { machine with exported := none }).2 := rfl
  rw [entered]
  revert grows depth globals
  generalize (Machine.addGlobals { machine with exported := none }).2 = after
  intro grows depth globals
  have grown : machine.store.size ≤ after.store.size := grows.size ▸ Nat.le_succ _
  refine ⟨grown, depth, globals, fun value exports => ?_, ?_⟩
  · exact regime.mono (regime.exported orders value exports) grown
  · exact Nat.lt_of_lt_of_eq (Nat.lt_succ_self _) grows.size.symm

theorem leaveScript {saved : Option Value}
    (also : ∀ value, saved = some value → regime.admits size value) :
    regime.Upholds size
      (fun more exported => ∀ value, exported = some value → regime.admits more value)
      (Invocation.leaveScript saved) :=
  fun _ enough orders => .of_store_eq orders rfl rfl
    (fun value exports => regime.mono (also value exports) enough) (regime.exported orders)

variable {call} (arguments : ∀ parameter, regime.admits size (call.argument parameter))

include arguments

/-- The work of a built-in function that runs no script. -/
theorem run (host : Host) (evaluate : Evaluate) {builtin : Builtin}
    (noInclude : builtin ≠ .includeScript) (noRun : builtin ≠ .runScript) :
    regime.Upholds size regime.admits (call.run host evaluate builtin) := by
  have plain := regime.hereditary
  cases builtin with
  | includeScript => exact absurd rfl noInclude
  | runScript => exact absurd rfl noRun
  | print =>
    apply bind (writeLine call _)
    intro _ _ _ _
    exact pure fun more _ => (plain more).null
  | input =>
    apply bind (readLine call)
    intro _ _ _ _
    exact pure fun more _ => (plain more).str _
  | inputInt =>
    intro machine enough orders
    exact readInteger call machine.input.length enough orders
  | append =>
    exact (plain size).append_elim arguments (fun _ also => pure fun _ => regime.mono also)
      (exception call)
  | remove =>
    exact (plain size).remove_elim arguments (fun _ also => pure fun _ => regime.mono also)
      (exception call)
  | extend =>
    exact (plain size).extend_elim arguments (fun _ also => pure fun _ => regime.mono also)
      (exception call)
  | length => exact length call
  | exportValue =>
    intro machine enough orders
    have value := regime.mono (arguments "value") enough
    refine .of_store_eq orders rfl rfl ?_ value
    rintro _ ⟨⟩
    exact value
  | printRet => exact pure fun more _ => (plain more).str _
  | str => exact pure fun more _ => (plain more).str _
  | time => exact pure fun more _ => (plain more).float _
  | isNumber => exact pure fun more _ => (plain more).ofBool _
  | isString => exact pure fun more _ => (plain more).ofBool _
  | isList => exact pure fun more _ => (plain more).ofBool _
  | isFunction => exact pure fun more _ => (plain more).ofBool _

end Upholds

end Regime

end Quill
