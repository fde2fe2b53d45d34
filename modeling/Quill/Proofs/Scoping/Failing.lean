import Quill.Session

/-!
# Calls only fail

A signal is taken by the loop or by the function around the place that it comes from. None of them
gets out of a call, whatever is called: a call that has no value has failed.
-/

namespace Quill

/-- A step that ends with no other signal than that it failed. -/
def OnlyFails {Result : Type} (step : Eval Result) : Prop :=
  ∀ ⦃machine signal after⦄, step machine = .error signal after →
    ∃ failure, signal = .failed failure

namespace OnlyFails

variable {Result Other : Type}

theorem pure (result : Result) : OnlyFails (Pure.pure result) := by
  intro machine signal after ended
  cases ended

theorem bind {first : Eval Result} {next : Result → Eval Other} (firsts : OnlyFails first)
    (nexts : ∀ result, OnlyFails (next result)) : OnlyFails (first >>= next) := by
  intro machine signal after ended
  change EStateM.bind first next machine = _ at ended
  unfold EStateM.bind at ended
  cases began : first machine with
  | ok result between =>
    rw [began] at ended
    exact nexts result ended
  | error earlier between =>
    rw [began] at ended
    cases ended
    exact firsts began

theorem raise (fault : Fault) (span : Span) (id : ContextId) :
    OnlyFails (Eval.raise fault span id : Eval Result) := by
  intro machine signal after ended
  cases ended
  exact ⟨_, rfl⟩

theorem orRaise (result : Except Fault Result) (span : Span) (id : ContextId) :
    OnlyFails (Eval.orRaise result span id) := by
  cases result with
  | ok value => exact pure value
  | error fault => exact raise fault span id

/-! ## Built-in functions -/

variable (call : Invocation)

theorem failing (fault : Fault) : OnlyFails (call.raise fault : Eval Result) := by
  intro machine signal after ended
  cases ended
  exact ⟨_, rfl⟩

theorem exception (fault : Fault) : OnlyFails (call.exception fault) := by
  intro machine signal after ended
  cases ended

theorem readLine : OnlyFails call.readLine := by
  intro machine signal after ended
  unfold Invocation.readLine at ended
  by_cases empty : machine.input.isEmpty = true
  · rw [if_pos empty] at ended
    cases ended
  · rw [if_neg empty] at ended
    dsimp only at ended
    cases decoded : decodeUtf8? (Console.splitLine machine.input).1 with
    | some text =>
      rw [decoded] at ended
      cases ended
    | none =>
      rw [decoded] at ended
      exact failing call _ ended

theorem writeLine (text : String) : OnlyFails (call.writeLine text) := by
  intro machine signal after ended
  unfold Invocation.writeLine at ended
  cases printed : machine.output.print (text ++ "\n") with
  | ok output =>
    rw [printed] at ended
    cases ended
  | error reason =>
    rw [printed] at ended
    exact failing call _ ended

theorem readInteger (lines : Nat) : OnlyFails (call.readInteger lines) := by
  apply call.readInteger_elim
  · intro value
    exact pure _
  · exact exception call
  · intro next nexts
    exact bind (readLine call) fun line => nexts line
  · intro text next more
    exact bind (writeLine call text) fun _ => more

theorem length : OnlyFails call.length := by
  apply call.length_elim
  · intro size
    exact pure _
  · exact failing call _
  · exact exception call _

theorem loadScript (host : Host) : OnlyFails (call.loadScript host) := by
  rw [Invocation.loadScript]
  cases call.argument "file" with
  | str file =>
    intro machine signal after ended
    dsimp only at ended
    cases readable : host.disk.readText (Path.join host.config.baseDirectory file) with
    | ok text =>
      rw [readable] at ended
      cases ended
    | error reason =>
      rw [readable] at ended
      exact failing call _ ended
  | _ => exact pure none

theorem resultOf (path : String) (result : Except Error Value) :
    OnlyFails (call.resultOf path result) := by
  cases result with
  | ok value => exact pure value
  | error error => exact failing call _

/-- What a script ends with is a result for whoever runs it. -/
theorem runIn (root : ContextId) (evaluate : Evaluate) (path text : String) :
    OnlyFails (Invocation.runIn root evaluate path text) := by
  intro machine signal after ended
  cases ended

theorem get : OnlyFails (MonadState.get : Eval Machine) := by
  intro machine signal after ended
  cases ended

theorem includeScript (host : Host) (evaluate : Evaluate) :
    OnlyFails (call.includeScript host evaluate) := by
  apply bind (loadScript call host)
  intro loaded
  cases loaded with
  | none => exact exception call _
  | some script =>
    apply bind get
    intro machine
    apply bind (runIn _ evaluate script.1 script.2)
    intro result
    apply bind (resultOf call script.1 result)
    intro _
    exact pure _

theorem runScript (host : Host) (evaluate : Evaluate) :
    OnlyFails (call.runScript host evaluate) := by
  have enters : OnlyFails Invocation.enterScript := by
    intro machine signal after ended
    cases ended
  have leaves (saved : Option Value) : OnlyFails (Invocation.leaveScript saved) := by
    intro machine signal after ended
    cases ended
  apply bind (loadScript call host)
  intro loaded
  cases loaded with
  | none => exact exception call _
  | some script =>
    apply bind enters
    intro entered
    apply bind (runIn _ evaluate script.1 script.2)
    intro result
    apply bind (leaves entered.1)
    intro exported
    apply bind (resultOf call script.1 result)
    intro _
    exact pure _

theorem run (host : Host) (evaluate : Evaluate) (builtin : Builtin) :
    OnlyFails (call.run host evaluate builtin) := by
  cases builtin with
  | print =>
    apply bind (writeLine call _)
    intro _
    exact pure _
  | input =>
    apply bind (readLine call)
    intro line
    exact pure _
  | inputInt =>
    apply bind get
    intro machine
    exact readInteger call _
  | append => exact call.append_elim (fun _ _ => pure _) (exception call)
  | remove => exact call.remove_elim (fun _ _ _ => pure _) (exception call)
  | extend => exact call.extend_elim (fun _ _ _ _ => pure _) (exception call)
  | length => exact length call
  | includeScript => exact includeScript call host evaluate
  | runScript => exact runScript call host evaluate
  | exportValue =>
    intro machine signal after ended
    cases ended
  | _ => exact pure _

/-! ## Calls -/

theorem activate (host : Host) (inner : Option Evaluate) (span : Span) (id : ContextId)
    {work : Evaluate → Eval Result} (works : ∀ evaluate, OnlyFails (work evaluate)) :
    OnlyFails (Eval.activate host inner span id work) := by
  cases inner with
  | none => exact raise _ span id
  | some evaluate =>
    intro machine signal after ended
    change Eval.leave (work evaluate { machine with depth := machine.depth + 1 }) = _ at ended
    cases done : work evaluate { machine with depth := machine.depth + 1 } with
    | ok result between =>
      rw [done] at ended
      cases ended
    | error earlier between =>
      rw [done] at ended
      cases ended
      exact works evaluate done

/-- The body of a function may end with any signal, but its call takes it. -/
theorem callUser (function : UserFunction) (arguments : List Value) (span : Span)
    (caller : ContextId) (evaluate : Evaluate) :
    OnlyFails (Eval.callUser function arguments span caller evaluate) := by
  have adds (context : Context) : OnlyFails (Eval.addContext context) := by
    intro machine signal after ended
    cases ended
  apply bind (adds _)
  intro id machine signal after ended
  change Eval.resultOfBody function span id (evaluate function.body id machine) = _ at ended
  cases done : evaluate function.body id machine with
  | ok value between =>
    rw [done] at ended
    cases ended
  | error earlier between =>
    rw [done] at ended
    cases earlier <;> cases ended <;> exact ⟨_, rfl⟩

theorem callValue (host : Host) (inner : Option Evaluate) (callee : Value) (arguments : List Value)
    (span : Span) (caller : ContextId) :
    OnlyFails (Eval.callValue host inner callee arguments span caller) := by
  cases callee with
  | function function =>
    apply bind (orRaise _ span caller)
    intro _
    apply activate
    intro evaluate
    cases function with
    | user defined => exact callUser defined arguments span caller evaluate
    | builtin provided =>
      dsimp only
      rw [Eval.callBuiltin]
      cases Builtin.named? provided.name with
      | none => exact raise _ span caller
      | some builtin => exact run _ host evaluate builtin
  | _ => exact raise _ span caller

end OnlyFails

end Quill
