import Quill.Proofs.Execution.Program

/-!
# Executions that settle

An execution that is given more and more fuel settles if from some amount on it is never cut off
again, and then with one and the same outcome and the same events. The statements here say that the
pieces which programs are put together from settle whenever their parts do, and that they settle
on what evaluation computes.

Evaluation and execution keep track of the open activations in different ways. Evaluation is given
the room that is left, execution compares the number in the state with the limit. The two agree as
long as every step leaves the number as it found it, so that is a part of what settling means.
-/

namespace Quill.Execution

open Quill.Eval (raise orRaise)

variable {Result Other : Type}

/-- In the given state and with enough fuel, the execution is what the evaluation computes, and it
leaves the number of open activations as it is. -/
def SettlesFrom (machine : Machine) (work : Nat → Execution Result) (plain : Eval Result) : Prop :=
  (Outcome.machine (plain machine)).depth = machine.depth ∧
    ∃ enough events, ∀ fuel, enough ≤ fuel → work fuel machine = some (plain machine, events)

/-- The execution settles in every state with the given number of open activations. -/
def Settles (depth : Nat) (work : Nat → Execution Result) (plain : Eval Result) : Prop :=
  ∀ machine : Machine, machine.depth = depth → SettlesFrom machine work plain

/-! ## Steps that evaluate no expression -/

/-- The step leaves the number of open activations as it is. -/
def Balanced (step : Eval Result) : Prop :=
  ∀ machine, (Outcome.machine (step machine)).depth = machine.depth

theorem balanced_pure (result : Result) : Balanced (pure result : Eval Result) :=
  fun _ => rfl

theorem balanced_throw (signal : Signal) : Balanced (throw signal : Eval Result) :=
  fun _ => rfl

theorem balanced_raise (fault : Fault) (span : Span) (id : ContextId) :
    Balanced (raise fault span id : Eval Result) :=
  fun _ => rfl

/-- Two balanced steps after one another are balanced, whichever way the first one ends. -/
theorem balanced_bind {first : Eval Result} {next : Result → Eval Other}
    (start : Balanced first) (rest : ∀ result, Balanced (next result)) :
    Balanced (first >>= next) := by
  intro machine
  change (Outcome.machine (EStateM.bind first next machine)).depth = machine.depth
  have before := start machine
  unfold EStateM.bind
  cases ended : first machine with
  | ok result after =>
    rw [ended] at before
    exact (rest result after).trans before
  | error signal after =>
    rw [ended] at before
    exact before

theorem balanced_orRaise (result : Except Fault Result) (span : Span) (id : ContextId) :
    Balanced (orRaise result span id) := by
  cases result with
  | ok value => exact balanced_pure value
  | error fault => exact balanced_raise fault span id

theorem balanced_lookup (id : ContextId) (name : String) : Balanced (Eval.lookup id name) :=
  fun _ => rfl

theorem balanced_addContext (context : Context) : Balanced (Eval.addContext context) :=
  fun _ => rfl

theorem balanced_freshId : Balanced Eval.freshId :=
  fun _ => rfl

theorem balanced_assign (target : ContextId) (name : String) (value : Value) (span : Span)
    (id : ContextId) : Balanced (Eval.assign target name value span id) := by
  intro machine
  unfold Eval.assign
  split <;> rfl

theorem balanced_instanceNamed (name : String) (span : Span) (id : ContextId) :
    Balanced (Eval.instanceNamed name span id) := by
  apply balanced_bind (balanced_lookup id name)
  intro found
  split
  · split
    · exact balanced_pure _
    · exact balanced_raise _ _ _
  · exact balanced_raise _ _ _
  · exact balanced_raise _ _ _

theorem balanced_objectNamed (name : String) (span : Span) (id : ContextId) :
    Balanced (Eval.objectNamed name span id) := by
  apply balanced_bind (balanced_lookup id name)
  intro found
  split
  · exact balanced_pure _
  · exact balanced_raise _ _ _
  · exact balanced_raise _ _ _

theorem balanced_readName (name : String) (span : Span) (id : ContextId) :
    Balanced (Eval.readName name span id) := by
  apply balanced_bind (balanced_lookup id name)
  intro found
  split
  · exact balanced_pure _
  · exact balanced_raise _ _ _

theorem balanced_readMember (object name : String) (span : Span) (id : ContextId) :
    Balanced (Eval.readMember object name span id) := by
  apply balanced_bind (balanced_instanceNamed object span id)
  intro source
  apply balanced_bind (fun _ => rfl)
  intro found
  split
  · exact balanced_pure _
  · exact balanced_raise _ _ _

theorem balanced_define (name : Option String) (parameters : List String) (body : Located)
    (valued : Bool) (span : Span) (id : ContextId) :
    Balanced (Eval.define name parameters body valued span id) := by
  apply balanced_bind balanced_freshId
  intro serial
  cases name with
  | none => exact balanced_pure _
  | some bound =>
    exact balanced_bind (balanced_assign _ _ _ _ _) fun _ => balanced_pure _

theorem balanced_defineTemplate (name : String) (body : Located) (span : Span) (id : ContextId) :
    Balanced (Eval.defineTemplate name body span id) := by
  apply balanced_bind balanced_freshId
  intro serial
  exact balanced_bind (balanced_assign _ _ _ _ _) fun _ => balanced_pure _

theorem balanced_stepOf (value : Value) (first last : Int64) (span : Span) (id : ContextId) :
    Balanced (Eval.stepOf value first last span id) := by
  unfold Eval.stepOf
  split
  · split
    · exact balanced_pure _
    · exact balanced_raise _ _ _
  · exact balanced_raise _ _ _

/-! ## Steps of built-in functions -/

theorem balanced_failing (call : Invocation) (fault : Fault) :
    Balanced (call.raise fault : Eval Result) :=
  fun _ => rfl

theorem balanced_exception (call : Invocation) (fault : Fault) : Balanced (call.exception fault) :=
  fun _ => rfl

theorem balanced_readLine (call : Invocation) : Balanced call.readLine := by
  intro machine
  unfold Invocation.readLine
  split
  · rfl
  · dsimp only
    split <;> rfl

theorem balanced_writeLine (call : Invocation) (text : String) :
    Balanced (call.writeLine text) := by
  intro machine
  unfold Invocation.writeLine
  split <;> rfl

theorem balanced_loadScript (call : Invocation) (host : Host) :
    Balanced (call.loadScript host) := by
  intro machine
  unfold Invocation.loadScript
  generalize call.argument "file" = file
  cases file with
  | str path =>
    dsimp only
    split <;> rfl
  | _ => rfl

theorem balanced_resultOf (call : Invocation) (path : String) (result : Except Error Value) :
    Balanced (call.resultOf path result) := by
  cases result with
  | ok value => exact balanced_pure value
  | error error => exact balanced_failing call _

theorem depth_bindBuiltin (id : ContextId) (machine : Machine) (builtin : Builtin) :
    (Machine.bindBuiltin id machine builtin).depth = machine.depth := rfl

theorem depth_foldl_bindBuiltin (id : ContextId) (builtins : List Builtin) (machine : Machine) :
    (builtins.foldl (Machine.bindBuiltin id) machine).depth = machine.depth := by
  induction builtins generalizing machine with
  | nil => rfl
  | cons builtin rest ih => exact (ih _).trans (depth_bindBuiltin id machine builtin)

theorem depth_addGlobals (machine : Machine) : machine.addGlobals.2.depth = machine.depth := by
  unfold Machine.addGlobals
  rw [depth_foldl_bindBuiltin]

theorem balanced_enterScript : Balanced Invocation.enterScript := by
  intro machine
  have kept := depth_addGlobals { machine with exported := none }
  unfold Invocation.enterScript
  dsimp only
  generalize Machine.addGlobals _ = entered at kept ⊢
  exact kept

theorem balanced_leaveScript (saved : Option Value) : Balanced (Invocation.leaveScript saved) :=
  fun _ => rfl

theorem balanced_length (call : Invocation) : Balanced call.length := by
  apply call.length_elim
  · intro size
    exact balanced_pure _
  · exact balanced_failing _ _
  · exact balanced_exception _ _

/-- Built-in functions that run no script and read no integer are balanced, and have no use for a
way to evaluate. -/
theorem run_plain (call : Invocation) (host : Host) (evaluate : Evaluate) {builtin : Builtin}
    (noInteger : builtin ≠ .inputInt) (noInclude : builtin ≠ .includeScript)
    (noRun : builtin ≠ .runScript) :
    call.run host evaluate builtin = call.run host (fun _ _ => pure .null) builtin ∧
      Balanced (call.run host evaluate builtin) := by
  cases builtin with
  | inputInt => exact absurd rfl noInteger
  | includeScript => exact absurd rfl noInclude
  | runScript => exact absurd rfl noRun
  | print => exact ⟨rfl, balanced_bind (balanced_writeLine _ _) fun _ => balanced_pure _⟩
  | input => exact ⟨rfl, balanced_bind (balanced_readLine _) fun _ => balanced_pure _⟩
  | append => exact ⟨rfl, call.append_elim (fun _ _ => balanced_pure _) (balanced_exception call)⟩
  | remove => exact ⟨rfl, call.remove_elim (fun _ _ _ => balanced_pure _) (balanced_exception call)⟩
  | extend =>
    exact ⟨rfl, call.extend_elim (fun _ _ _ _ => balanced_pure _) (balanced_exception call)⟩
  | length => exact ⟨rfl, balanced_length call⟩
  | printRet => exact ⟨rfl, balanced_pure _⟩
  | str => exact ⟨rfl, balanced_pure _⟩
  | isNumber => exact ⟨rfl, balanced_pure _⟩
  | isString => exact ⟨rfl, balanced_pure _⟩
  | isList => exact ⟨rfl, balanced_pure _⟩
  | isFunction => exact ⟨rfl, balanced_pure _⟩
  | time => exact ⟨rfl, balanced_pure _⟩
  | exportValue => exact ⟨rfl, fun _ => rfl⟩

end Quill.Execution
