import Quill.Eval.Expr
import Quill.Proofs.Tracebacks.Standing

/-!
# Steps that fail where they are

Code of a program is evaluated in a context, and the work of a built-in function is done in none but
on behalf of a call. Either way there is one call stack that it has. The steps that enter nothing
retain all contexts, and if a failure arises in one of them its traceback is the one of that call
stack.
-/

namespace Quill

/-- Where something is done. -/
inductive Seat where
  /-- In a context. -/
  | context (id : ContextId)
  /-- In a built-in function. -/
  | builtin (call : Invocation)

/-- The call stack that there is in a place, as far as the entry links of a store tell. -/
def Seat.Stands (store : Store) : Seat → CallStack → Prop
  | .context id, stack => store.Stands id stack
  | .builtin call, stack => ∃ outer, store.Stands call.caller outer ∧
      stack = outer.push call.name call.span

theorem Seat.Stands.retained {store after : Store} {seat : Seat} {stack : CallStack}
    (stands : seat.Stands store stack) (retains : store.Retains after) :
    seat.Stands after stack := by
  cases seat with
  | context id => exact Store.Stands.retained stands retains
  | builtin call =>
    obtain ⟨outer, outerStands, rfl⟩ := stands
    exact ⟨outer, outerStands.retained retains, rfl⟩

/-- The step retains all contexts, and the failure that its outcome tells of, if any, arises in the
given place. -/
def Honest {Result : Type} (seat : Seat) (gives : Result → Option Failure) (step : Eval Result) :
    Prop :=
  ∀ ⦃stack : CallStack⦄ ⦃machine : Machine⦄, seat.Stands machine.store stack →
    machine.store.Retains (Outcome.machine (step machine)).store ∧
      ∀ failure, Outcome.tells gives (step machine) = some failure →
        failure.traceback = stack.traceback failure.span

/-- No result gives a failure. -/
abbrev nothing (Result : Type) : Result → Option Failure :=
  fun _ => none

namespace Honest

variable {Result Other : Type} {seat : Seat} {gives : Result → Option Failure}

/-- A result that gives no failure, in a state with the same contexts. -/
theorem ok (stack : CallStack) (result : Result) {machine after : Machine}
    (same : after.store = machine.store) :
    machine.store.Retains (Outcome.machine (.ok result after)).store ∧
      ∀ failure, Outcome.tells (nothing Result) (.ok result after) = some failure →
        failure.traceback = stack.traceback failure.span := by
  constructor
  · rw [Outcome.machine, same]
    exact .refl _
  · intro failure told
    cases told

/-- A step that changes no context and tells of no failure. -/
theorem quiet {step : Eval Result}
    (same : ∀ machine, (Outcome.machine (step machine)).store = machine.store)
    (silent : ∀ machine, Outcome.tells gives (step machine) = none) : Honest seat gives step := by
  intro stack machine stands
  rw [same, silent]
  refine ⟨.refl _, ?_⟩
  rintro failure ⟨⟩

theorem pure {result : Result} (silent : gives result = none) :
    Honest seat gives (Pure.pure result) :=
  quiet (fun _ => rfl) fun _ => silent

/-- A failure of the first step is one of both, and what its result gives does not count. -/
theorem bind {gives : Other → Option Failure} {first : Eval Result} {next : Result → Eval Other}
    (firsts : Honest seat (nothing Result) first)
    (nexts : ∀ result, Honest seat gives (next result)) : Honest seat gives (first >>= next) := by
  intro stack machine stands
  have began := firsts stands
  change machine.store.Retains (Outcome.machine (EStateM.bind first next machine)).store ∧
    ∀ failure, Outcome.tells gives (EStateM.bind first next machine) = some failure → _
  unfold EStateM.bind
  cases ended : first machine with
  | ok result between =>
    rw [ended] at began
    have more := nexts result (stands.retained began.1)
    exact ⟨began.1.trans more.1, more.2⟩
  | error signal between =>
    rw [ended] at began
    cases signal <;> exact began

/-- A fault at a place of a context. -/
theorem raise (fault : Fault) (span : Span) (id : ContextId) :
    Honest (.context id) gives (Eval.raise fault span id) := by
  intro stack machine stands
  refine ⟨.refl _, ?_⟩
  rintro failure ⟨⟩
  exact Store.traceback_eq stands span

theorem orRaise (result : Except Fault Result) (span : Span) (id : ContextId) :
    Honest (.context id) (nothing Result) (Eval.orRaise result span id) := by
  cases result with
  | ok value => exact pure rfl
  | error fault => exact raise fault span id

/-! ## Names -/

theorem lookup (id : ContextId) (name : String) :
    Honest seat (nothing (Option Value)) (Eval.lookup id name) :=
  quiet (fun _ => rfl) fun _ => rfl

theorem lookupLocal (id : ContextId) (name : String) :
    Honest seat (nothing (Option Value)) (Eval.lookupLocal id name) :=
  quiet (fun _ => rfl) fun _ => rfl

theorem freshId : Honest seat (nothing Nat) Eval.freshId :=
  quiet (fun _ => rfl) fun _ => rfl

/-- What is assigned may be bound in another context than the one that fails if it must not be. -/
theorem assign (target : ContextId) (name : String) (value : Value) (span : Span)
    (id : ContextId) :
    Honest (.context id) (nothing Unit) (Eval.assign target name value span id) := by
  intro stack machine stands
  unfold Eval.assign
  split
  · exact raise (.immutableBinding name) span id stands
  · refine ⟨machine.store.retains_define target name value true, ?_⟩
    rintro failure ⟨⟩

theorem instanceNamed (name : String) (span : Span) (id : ContextId) :
    Honest (.context id) (nothing Object) (Eval.instanceNamed name span id) := by
  apply bind (lookup id name)
  intro found
  split
  · split
    · exact pure rfl
    · exact raise _ span id
  · exact raise _ span id
  · exact raise _ span id

theorem objectNamed (name : String) (span : Span) (id : ContextId) :
    Honest (.context id) (nothing Object) (Eval.objectNamed name span id) := by
  apply bind (lookup id name)
  intro found
  split
  · exact pure rfl
  · exact raise _ span id
  · exact raise _ span id

theorem readName (name : String) (span : Span) (id : ContextId) :
    Honest (.context id) (nothing Value) (Eval.readName name span id) := by
  apply bind (lookup id name)
  intro found
  split
  · exact pure rfl
  · exact raise _ span id

theorem readMember (object name : String) (span : Span) (id : ContextId) :
    Honest (.context id) (nothing Value) (Eval.readMember object name span id) := by
  apply bind (instanceNamed object span id)
  intro source
  apply bind (lookupLocal source.context name)
  intro found
  split
  · exact pure rfl
  · exact raise _ span id

theorem define (name : Option String) (parameters : List String) (body : Located) (valued : Bool)
    (span : Span) (id : ContextId) :
    Honest (.context id) (nothing Value) (Eval.define name parameters body valued span id) := by
  apply bind freshId
  intro serial
  cases name with
  | none => exact pure rfl
  | some bound =>
    apply bind (assign id bound _ span id)
    intro _
    exact pure rfl

theorem defineTemplate (name : String) (body : Located) (span : Span) (id : ContextId) :
    Honest (.context id) (nothing Value) (Eval.defineTemplate name body span id) := by
  apply bind freshId
  intro serial
  apply bind (assign id name _ span id)
  intro _
  exact pure rfl

theorem stepOf (value : Value) (start stop : Int64) (span : Span) (id : ContextId) :
    Honest (.context id) (nothing Int64) (Eval.stepOf value start stop span id) := by
  unfold Eval.stepOf
  split
  · split
    · exact pure rfl
    · exact raise _ span id
  · exact raise _ span id

/-! ## Built-in functions -/

variable (call : Invocation)

/-- The failure of a built-in function has the traceback of its call, and a frame of its own. -/
theorem traceback_failure (fault : Fault) {store : Store} {stack : CallStack}
    (stands : (Seat.builtin call).Stands store stack) :
    (call.failure fault store).traceback = stack.traceback (call.failure fault store).span := by
  obtain ⟨outer, outerStands, rfl⟩ := stands
  rw [Invocation.failure, Store.traceback_eq outerStands, CallStack.traceback_push]
  rfl

theorem failing (fault : Fault) :
    Honest (.builtin call) gives (call.raise fault : Eval Result) := by
  intro stack machine stands
  refine ⟨.refl _, ?_⟩
  rintro failure ⟨⟩
  exact traceback_failure call fault stands

theorem exception (fault : Fault) :
    Honest (.builtin call) Value.failure? (call.exception fault) := by
  intro stack machine stands
  refine ⟨.refl _, ?_⟩
  rintro failure ⟨⟩
  exact traceback_failure call fault stands

theorem readLine : Honest (.builtin call) (nothing (Option String)) call.readLine := by
  intro stack machine stands
  have fails (fault : Fault) : Honest (.builtin call) (nothing (Option String))
      (call.raise fault) := failing call fault
  unfold Invocation.readLine
  split
  · exact ok stack _ rfl
  · dsimp only
    split
    · exact ok stack _ rfl
    · let after := { machine with input := (Console.splitLine machine.input).2 }
      exact @fails (.io .notUtf8) stack after stands

theorem writeLine (text : String) :
    Honest (.builtin call) (nothing Unit) (call.writeLine text) := by
  intro stack machine stands
  have fails (fault : Fault) : Honest (.builtin call) (nothing Unit) (call.raise fault) :=
    failing call fault
  unfold Invocation.writeLine
  split
  · exact fails _ stands
  · exact ok stack _ rfl

theorem readInteger (lines : Nat) :
    Honest (.builtin call) Value.failure? (call.readInteger lines) := by
  apply call.readInteger_elim
  · intro value
    exact pure rfl
  · exact exception call
  · intro next nexts
    exact bind (readLine call) fun line => nexts line
  · intro text next more
    exact bind (writeLine call text) fun _ => more

theorem length : Honest (.builtin call) Value.failure? call.length := by
  apply call.length_elim
  · intro size
    exact pure rfl
  · exact failing call _
  · exact exception call _

theorem loadScript (host : Host) :
    Honest (.builtin call) (nothing (Option (String × String))) (call.loadScript host) := by
  have fails (fault : Fault) : Honest (.builtin call) (nothing (Option (String × String)))
      (call.raise fault) := failing call fault
  rw [Invocation.loadScript]
  cases call.argument "file" with
  | str file =>
    intro stack machine stands
    dsimp only
    generalize Path.join host.config.baseDirectory file = path
    let after := { machine with requested := path :: machine.requested }
    cases host.disk.readText path with
    | ok text => exact ok stack _ rfl
    | error reason => exact @fails (.scriptUnreadable path reason) stack after stands
  | _ => exact pure rfl

/-- The work of a built-in function that runs no script. What is exported is given back as it is, so
a failure in it has not arisen here. -/
theorem run (host : Host) (evaluate : Evaluate) {builtin : Builtin}
    (noExport : builtin ≠ .exportValue) (noInclude : builtin ≠ .includeScript)
    (noRun : builtin ≠ .runScript) :
    Honest (.builtin call) Value.failure? (call.run host evaluate builtin) := by
  cases builtin with
  | exportValue => exact absurd rfl noExport
  | includeScript => exact absurd rfl noInclude
  | runScript => exact absurd rfl noRun
  | print =>
    apply bind (writeLine call _)
    intro _
    exact pure rfl
  | input =>
    apply bind (readLine call)
    intro line
    exact pure rfl
  | inputInt =>
    intro stack machine stands
    exact readInteger call machine.input.length stands
  | append => exact call.append_elim (fun _ _ => pure rfl) (exception call)
  | remove => exact call.remove_elim (fun _ _ _ => pure rfl) (exception call)
  | extend => exact call.extend_elim (fun _ _ _ _ => pure rfl) (exception call)
  | length => exact length call
  | _ => exact pure rfl

end Honest

end Quill
