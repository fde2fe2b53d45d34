import Quill.Proofs.Tracebacks.Agreement

/-!
# Accounts of evaluation are faithful

Every construct is accounted for faithfully if its parts are. A script begins with a call stack of
its own, and the room that is left bounds that call stack as well. What a script has failed with is
a result for the function that runs it, and stays raised until that function has answered it.
-/

namespace Quill.Account

open Quill.Eval (raise)

variable {Result : Type} {limit room : Nat} {stack : CallStack} {machine : Machine}
  {pending : Option Failure} {host : Host} {inner : Option Assess} {plainInner : Option Evaluate}
  {assess : Assess} {evaluation : Evaluate}

/-- Whatever lies in other activations is accounted for faithfully, as long as there is room. -/
inductive Rooms (limit : Nat) : Nat → Option Assess → Option Evaluate → Prop where
  /-- There is room for one more activation. -/
  | inside {room : Nat} {assess : Assess} {evaluation : Evaluate}
      (accounts : ∀ expr id,
        Accounts limit room (.context id) (assess expr id) (evaluation expr id)) :
      Rooms limit (room + 1) (some assess) (some evaluation)
  /-- There is no room. -/
  | full : Rooms limit 0 none none

theorem accounts_activate (rooms : Rooms limit room inner plainInner) (span : Span)
    (id : ContextId) {work : Assess → Account Result} {plain : Evaluate → Eval Result}
    (works : ∀ fewer assess evaluation,
      (∀ expr id, Accounts limit fewer (.context id) (assess expr id) (evaluation expr id)) →
        Accounts limit (fewer + 1) (.context id) (work assess) (plain evaluation)) :
    Accounts limit room (.context id) (activate host inner span id work)
      (Eval.activate host plainInner span id plain) := by
  cases rooms with
  | @inside fewer assess evaluation accounts =>
    exact accounts_during (works fewer assess evaluation accounts)
  | full => exact accounts_perform (Honest.raise _ span id)

/-! ## Scripts -/

theorem beginning_eq {id : ContextId} {name : String}
    (outermost : machine.store.Outermost id name) : beginning machine id = .outermost name := by
  obtain ⟨context, found, _, rfl⟩ := outermost
  rw [beginning, found]
  rfl

/-- A step that has a result leaves raised what was raised. -/
theorem relates_perform_ok {step : Eval Result} {result : Result} {after : Machine}
    (ended : step machine = .ok result after) (retains : machine.store.Retains after.store) :
    Relates limit stack machine pending (fun _ => pending) (perform step) step := by
  have none : (perform step stack machine).incidents = [] := by
    rw [perform, ended]
    rfl
  refine ⟨rfl, ?_, ?_, ?_⟩
  · rw [ended]
    exact retains
  · rw [none]
    exact List.forall_mem_nil _
  · rw [none, ended]
    exact .nothing pending

/-- What a script has failed with is answered by the function that has run it. -/
theorem relates_resultOf (call : Invocation)
    (runner : call.name = Builtin.includeScript.name ∨ call.name = Builtin.runScript.name)
    (path : String) (result : Except Error Value)
    (stands : (Seat.builtin call).Stands machine.store stack)
    (bounded : stack.activations.length ≤ limit) :
    Relates limit stack machine (Error.failure? result) (nothing Value)
      (perform (call.resultOf path result)) (call.resultOf path result) := by
  cases result with
  | ok value => exact relates_perform_ok rfl (.refl _)
  | error error =>
    have told : Outcome.failure? (call.resultOf path (.error error) machine) =
        some (call.failure (.scriptFailed path error.message) machine.store) := rfl
    refine ⟨rfl, .refl _, ?_, ?_⟩
    · rw [perform, told]
      dsimp only
      apply faithful_arising bounded
      rintro failure - ⟨⟩
      exact Honest.traceback_failure call _ stands
    · rw [perform, told]
      apply Passes.incident _ (.nothing _)
      intro failure failed
      refine ⟨rfl, ⟨path, ?_⟩, ?_⟩
      · cases error with
        | running inner =>
          obtain rfl := Option.some.inj failed
          rfl
        | _ => cases failed
      · obtain ⟨outer, _, rfl⟩ := stands
        rw [CallStack.innermost_push]
        exact runner

/-- Behind an answer, nothing is raised any more unless the answer is. -/
theorem relates_answer (call : Invocation)
    (runner : call.name = Builtin.includeScript.name ∨ call.name = Builtin.runScript.name)
    (path : String) (result : Except Error Value) (value : Value)
    (stands : (Seat.builtin call).Stands machine.store stack)
    (bounded : stack.activations.length ≤ limit) :
    Relates limit stack machine (Error.failure? result) (nothing Value)
      (perform (call.resultOf path result) >>= fun _ => pure value)
      (call.resultOf path result >>= fun _ => pure value) :=
  (relates_resultOf call runner path result stands bounded).bind fun _ _ _ => relates_pure rfl

/-- A text that cannot be read has not been evaluated, so nothing was raised. -/
theorem failure?_read {source : Source} {error : Error} (unread : Eval.read source = .error error) :
    Error.failure? (.error error) = none := by
  unfold Eval.read at unread
  split at unread
  · cases unread
    rfl
  · split at unread
    · cases unread
      rfl
    · cases unread

section

variable (inside : ∀ expr id,
  Accounts limit room (.context id) (assess expr id) (evaluation expr id))

include inside

/-- A script that is run in an outermost context begins with a call stack of its own. -/
theorem relates_runText (bounded : room ≤ limit) {id : ContextId} {name : String}
    (outermost : machine.store.Outermost id name) (file text : String) :
    let told := runText assess file text id machine
    let plain := Eval.runText evaluation file text id machine
    told.ending = plain ∧ machine.store.Retains plain.2.store ∧
      (∀ incident ∈ told.incidents, incident.Faithful limit) ∧
      Passes none told.incidents (Error.failure? plain.1) := by
  unfold runText Eval.runText
  dsimp only
  cases read : Eval.read ⟨machine.serial, file, text⟩ with
  | error error =>
    dsimp only
    rw [failure?_read read]
    exact ⟨rfl, .refl _, List.forall_mem_nil _, .nothing none⟩
  | ok root =>
    let begun := { machine with serial := machine.serial + 1 }
    have same : beginning begun id = .outermost name := beginning_eq outermost
    have fewer : (CallStack.outermost name).activations.length + room ≤ limit := by
      rw [CallStack.outermost, List.length_nil, Nat.zero_add]
      exact bounded
    have relates := @inside root id (.outermost name) begun outermost.stands fewer
    have attentive := attentive_resultOfScript root id
    dsimp only
    rw [same, relates.ending]
    refine ⟨rfl, attentive.retains relates, ?_, attentive.passes relates⟩
    exact attentive.faithful relates outermost.stands (bounded_of_room fewer)

theorem relates_runIn (bounded : room ≤ limit) {root : ContextId} {name : String}
    (outermost : machine.store.Outermost root name) (path text : String) :
    Relates limit stack machine none Error.failure? (runIn root assess path text)
      (Invocation.runIn root evaluation path text) := by
  obtain ⟨same, retains, faithful, passes⟩ := relates_runText inside bounded outermost path text
  refine ⟨?_, retains, faithful, passes⟩
  rw [runIn, same]
  rfl

theorem accounts_includeScript (call : Invocation)
    (runner : call.name = Builtin.includeScript.name) :
    Accounts limit room (.builtin call) (includeScript call host assess)
      (call.includeScript host evaluation) := by
  apply accounts_bind (accounts_perform (Honest.loadScript call host))
  intro loaded
  cases loaded with
  | none => exact accounts_produce (Honest.exception call _)
  | some script =>
    intro stack machine stands bounded
    have less : room ≤ limit := Nat.le_trans (Nat.le_add_left _ _) bounded
    obtain ⟨outer, outerStands, _⟩ := id stands
    let reading : Eval ContextId := fun machine => .ok (machine.store.rootOf call.caller) machine
    change Relates limit _ machine none (nothing Value) _ (reading >>= fun root =>
      Invocation.runIn root evaluation script.1 script.2 >>= fun result =>
        call.resultOf script.1 result >>= fun _ => pure Value.null)
    have read : reading machine = .ok (machine.store.rootOf call.caller) machine := rfl
    apply (relates_perform_ok read (.refl _)).bind
    intro root between begun
    obtain ⟨rfl, rfl⟩ := EStateM.Result.ok.inj (read.symm.trans begun)
    have runs := @relates_runIn _ _ stack _ _ _ inside less _ _ outerStands.outermost_rootOf
      script.1 script.2
    apply runs.bind
    intro result after ended
    have standsThen := stands.retained (runs.retains_of_ok ended)
    exact relates_answer call (Or.inl runner) script.1 result .null standsThen
      (bounded_of_room bounded)

theorem accounts_runScript (call : Invocation) (runner : call.name = Builtin.runScript.name) :
    Accounts limit room (.builtin call) (runScript call host assess)
      (call.runScript host evaluation) := by
  apply accounts_bind (accounts_perform (Honest.loadScript call host))
  intro loaded
  cases loaded with
  | none => exact accounts_produce (Honest.exception call _)
  | some script =>
    intro stack machine stands bounded
    have less : room ≤ limit := Nat.le_trans (Nat.le_add_left _ _) bounded
    obtain ⟨retains, outermost⟩ := { machine with exported := none }.addGlobals_outermost
    generalize entered : { machine with exported := none }.addGlobals = fresh at retains outermost
    obtain ⟨root, between⟩ := fresh
    have enters : Invocation.enterScript machine = .ok (machine.exported, root) between := by
      rw [Invocation.enterScript, entered]
    apply (relates_perform_ok enters retains).bind
    rintro ⟨saved, place⟩ after begun
    obtain ⟨same, rfl⟩ := EStateM.Result.ok.inj (enters.symm.trans begun)
    obtain ⟨rfl, rfl⟩ := Prod.mk.inj same
    have standsThere := stands.retained retains
    have runs := @relates_runIn _ _ stack _ _ _ inside less _ _ outermost script.1 script.2
    apply runs.bind
    intro result later ended
    have leaves : Invocation.leaveScript machine.exported later =
        .ok later.exported { later with exported := machine.exported } := rfl
    apply (relates_perform_ok leaves (.refl _)).bind
    intro exported last left
    obtain ⟨rfl, rfl⟩ := EStateM.Result.ok.inj (leaves.symm.trans left)
    have standsThen := standsThere.retained (runs.retains_of_ok ended)
    exact relates_answer call (Or.inr runner) script.1 result _ standsThen (bounded_of_room bounded)

/-! ## Calls -/

theorem accounts_invoke (call : Invocation) {builtin : Builtin} (named : call.name = builtin.name) :
    Accounts limit room (.builtin call) (invoke call host assess builtin)
      (call.run host evaluation builtin) := by
  by_cases included : builtin = .includeScript
  · subst included
    exact accounts_includeScript inside call named
  by_cases started : builtin = .runScript
  · subst started
    exact accounts_runScript inside call named
  by_cases exports : builtin = .exportValue
  · subst exports
    exact accounts_perform (Honest.quiet (fun _ => rfl) fun _ => rfl)
  have honest := Honest.run call host evaluation exports included started
  cases builtin with
  | includeScript => exact absurd rfl included
  | runScript => exact absurd rfl started
  | exportValue => exact absurd rfl exports
  | _ => exact accounts_produce honest

theorem accounts_callBuiltin (function : BuiltinFunction) (arguments : List Value) (span : Span)
    (caller : ContextId) :
    Accounts limit (room + 1) (.context caller)
      (callBuiltin host function arguments span caller assess)
      (Eval.callBuiltin host function arguments span caller evaluation) := by
  unfold callBuiltin Eval.callBuiltin
  cases found : Builtin.named? function.name with
  | none => exact accounts_perform (Honest.raise _ span caller)
  | some builtin =>
    have named : function.name = builtin.name := by
      have same := List.find?_some found
      exact (of_decide_eq_true same).symm
    exact accounts_enteringBuiltin _
      (accounts_invoke inside (Eval.invocationOf function arguments span caller) named)

theorem accounts_callUser (function : UserFunction) (arguments : List Value) (span : Span)
    (caller : ContextId) :
    Accounts limit (room + 1) (.context caller) (callUser function arguments span caller assess)
      (Eval.callUser function arguments span caller evaluation) :=
  accounts_entering rfl fun id =>
    accounts_regard (attentive_resultOfBody function span id) (inside function.body id)

theorem accounts_instantiate (template : Object) (name : String) (span : Span)
    (caller : ContextId) :
    Accounts limit (room + 1) (.context caller) (instantiate template name span caller assess)
      (Eval.instantiate template name span caller evaluation) :=
  accounts_entering rfl fun id =>
    accounts_regard (attentive_instanceOfMembers template span id) (inside template.body id)

end

theorem accounts_callValue (host : Host) (rooms : Rooms limit room inner plainInner)
    (callee : Value) (arguments : List Value) (span : Span) (caller : ContextId) :
    Accounts limit room (.context caller) (callValue host inner callee arguments span caller)
      (Eval.callValue host plainInner callee arguments span caller) := by
  cases callee with
  | function function =>
    apply accounts_bind (accounts_perform (Honest.orRaise _ span caller))
    intro _
    apply accounts_activate rooms
    intro fewer assess evaluation inside
    cases function with
    | user defined => exact accounts_callUser inside defined arguments span caller
    | builtin provided => exact accounts_callBuiltin inside provided arguments span caller
  | _ => exact accounts_perform (Honest.raise _ span caller)

theorem accounts_makeInstance (rooms : Rooms limit room inner plainInner) (name : String)
    (span : Span) (id : ContextId) :
    Accounts limit room (.context id) (makeInstance host inner name span id)
      (Eval.evaluateIn host plainInner id (.instantiate name span)) := by
  rw [Eval.evaluateIn]
  apply accounts_bind (accounts_perform (Honest.objectNamed name span id))
  intro template
  apply accounts_activate rooms
  intro fewer assess evaluation inside
  exact accounts_instantiate inside template name span id

/-! ## Expressions -/

theorem accounts_raise (fault : Fault) (span : Span) (id : ContextId) :
    Accounts limit room (.context id) (perform (raise fault span id) : Account Result)
      (raise fault span id) :=
  accounts_perform (Honest.raise fault span id)

mutual

/-- Evaluating an expression is accounted for faithfully if evaluating in more activations is. -/
theorem accounts_evaluateIn (rooms : Rooms limit room inner plainInner) (id : ContextId) :
    (expr : Located) → Accounts limit room (.context id) (evaluateIn host inner id expr)
      (Eval.evaluateIn host plainInner id expr)
  | .literal value _ => accounts_pure _
  | .unary op operand span => by
    apply accounts_bind (accounts_evaluateIn rooms id operand)
    intro value
    exact accounts_perform (Honest.orRaise _ span id)
  | .binary op left right span => by
    apply accounts_bind (accounts_evaluateIn rooms id left)
    intro first
    apply accounts_bind (accounts_evaluateIn rooms id right)
    intro second
    exact accounts_perform (Honest.orRaise _ span id)
  | .list elements _ => by
    apply accounts_bind (accounts_evaluateAll rooms id elements)
    intro values
    exact accounts_pure _
  | .choice branches _ => accounts_evaluateBranches rooms id branches
  | .forLoop counter start stop step body block span => by
    rw [evaluateIn, Eval.evaluateIn]
    apply accounts_bind (accounts_evaluateIn rooms id start)
    intro first
    apply accounts_bind (accounts_evaluateIn rooms id stop)
    intro last
    cases first with
    | int first =>
      cases last with
      | int last =>
        have counts (step : Int64) := accounts_count (fun value =>
          accounts_bind (accounts_perform (Honest.assign id counter (.int value) span id)) fun _ =>
            accounts_evaluateIn rooms id body)
          (accounts_raise (.loopLimit host.config.maxLoopIterations) span id) (!block) last step
          host.config.maxLoopIterations first []
        have results (step : Int64) := accounts_bind (counts step) fun values =>
          accounts_pure (Loop.result block values)
        cases step with
        | none => exact accounts_bind (accounts_pure 1) results
        | some expr =>
          apply accounts_bind (accounts_evaluateIn rooms id expr)
          intro value
          exact accounts_bind (accounts_perform (Honest.stepOf value first last expr.note id))
            results
      | _ => exact accounts_raise .loopBounds span id
    | _ => exact accounts_raise .loopBounds span id
  | .whileLoop condition body block span => by
    rw [evaluateIn, Eval.evaluateIn]
    apply accounts_bind (accounts_repeatWhile (accounts_evaluateIn rooms id condition)
      (accounts_evaluateIn rooms id body)
      (accounts_raise (.loopLimit host.config.maxLoopIterations) span id) (!block) _ [])
    intro values
    exact accounts_pure _
  | .read name span => accounts_perform (Honest.readName name span id)
  | .assign name expr span => by
    apply accounts_bind (accounts_evaluateIn rooms id expr)
    intro value
    apply accounts_bind (accounts_perform (Honest.assign id name value span id))
    intro _
    exact accounts_pure value
  | .member object name span => accounts_perform (Honest.readMember object name span id)
  | .assignMember object name expr span => by
    apply accounts_bind (accounts_perform (Honest.instanceNamed object span id))
    intro target
    apply accounts_bind (accounts_evaluateIn rooms id expr)
    intro value
    apply accounts_bind (accounts_perform (Honest.assign target.context name value span id))
    intro _
    exact accounts_pure value
  | .function name parameters body valued span =>
    accounts_perform (Honest.define name parameters body valued span id)
  | .call callee arguments span => by
    apply accounts_bind (accounts_evaluateIn rooms id callee)
    intro function
    apply accounts_bind (accounts_evaluateAll rooms id arguments)
    intro values
    exact accounts_callValue host rooms function values span id
  | .template name body span => accounts_perform (Honest.defineTemplate name body span id)
  | .instantiate name span => accounts_makeInstance rooms name span id
  | .returnWith none _ => accounts_perform (Honest.quiet (fun _ => rfl) fun _ => rfl)
  | .returnWith (some expr) _ => by
    apply accounts_bind (accounts_evaluateIn rooms id expr)
    intro value
    exact accounts_perform (Honest.quiet (fun _ => rfl) fun _ => rfl)
  | .breakLoop span => accounts_perform (Honest.quiet (fun _ => rfl) fun _ => rfl)
  | .continueLoop span => accounts_perform (Honest.quiet (fun _ => rfl) fun _ => rfl)

theorem accounts_evaluateAll (rooms : Rooms limit room inner plainInner) (id : ContextId) :
    (elements : List Located) → Accounts limit room (.context id)
      (evaluateAll host inner id elements) (Eval.evaluateAll host plainInner id elements)
  | [] => accounts_pure []
  | element :: rest => by
    apply accounts_bind (accounts_evaluateIn rooms id element)
    intro value
    apply accounts_bind (accounts_evaluateAll rooms id rest)
    intro values
    exact accounts_pure _

theorem accounts_evaluateBranches (rooms : Rooms limit room inner plainInner) (id : ContextId) :
    (branches : Branches Span) → Accounts limit room (.context id)
      (evaluateBranches host inner id branches) (Eval.evaluateBranches host plainInner id branches)
  | .done => accounts_pure _
  | .otherwise body block => by
    apply accounts_bind (accounts_evaluateIn rooms id body)
    intro value
    exact accounts_pure _
  | .orElse condition body block rest => by
    apply accounts_bind (accounts_evaluateIn rooms id condition)
    intro truth
    apply accounts_ite _ (accounts_evaluateBranches rooms id rest)
    apply accounts_bind (accounts_evaluateIn rooms id body)
    intro value
    exact accounts_pure _

end

/-! ## Programs -/

/-- As much room is left as the number says. -/
theorem rooms_inside (limit : Nat) (host : Host) (room : Nat) :
    Rooms limit room (inside host room) (Eval.inside host room) := by
  induction room with
  | zero => exact Rooms.full
  | succ room ih =>
    apply Rooms.inside
    intro expr id
    rw [evaluate_eq, Eval.evaluate_eq]
    exact accounts_evaluateIn ih id expr

theorem accounts_evaluate (limit : Nat) (host : Host) (room : Nat) (expr : Located)
    (id : ContextId) :
    Accounts limit room (.context id) (evaluate host room expr id)
      (Eval.evaluate host room expr id) := by
  rw [evaluate_eq, Eval.evaluate_eq]
  exact accounts_evaluateIn (rooms_inside limit host room) id expr

end Quill.Account
