import Quill.Proofs.Tracebacks.Exceptions
import Quill.Proofs.Tracebacks.Program

/-!
# Where failures in values come from

An account misses no failure that is given back as a value. What the values carry in the end either
was carried by a value at the beginning or has arisen on the way. So if all of that is known, no
value carries an unknown failure in the end.
-/

namespace Quill

namespace Account

open Quill.Eval (raise)

variable {Result Other : Type} {known : Failure → Prop} {post : Result → Prop}

/-- If all failures are known that values carry before and all that arise on the way, then all are
known that values carry in the end. -/
def Complete (known : Failure → Prop) (post : Result → Prop) (told : Account Result) : Prop :=
  ∀ ⦃stack : CallStack⦄ ⦃machine : Machine⦄, machine.Known known →
    (∀ incident ∈ (told stack machine).incidents, known incident.failure) →
      Outcome.Known known post (told stack machine).ending

theorem complete_pure {result : Result} (results : post result) :
    Complete known post (pure result) :=
  fun _ _ all _ => ⟨results, all⟩

theorem complete_bind {post : Other → Prop} {middle : Result → Prop} {first : Account Result}
    {next : Result → Account Other} (firsts : Complete known middle first)
    (nexts : ∀ result, middle result → Complete known post (next result)) :
    Complete known post (first >>= next) := by
  intro stack machine all arisen
  have began := @firsts stack machine all
  cases told : first stack machine with
  | mk ending incidents =>
    rw [told] at began
    cases ending with
    | error signal after =>
      rw [andThen_error next told] at arisen ⊢
      exact began arisen
    | ok result after =>
      rw [andThen_ok next told] at arisen ⊢
      obtain ⟨earlier, later⟩ := List.forall_mem_append.mp arisen
      obtain ⟨results, between⟩ := began earlier
      exact nexts result results between later

theorem complete_ite {condition : Prop} [Decidable condition] {told other : Account Result}
    (yes : Complete known post told) (no : Complete known post other) :
    Complete known post (if condition then told else other) := by
  split
  · exact yes
  · exact no

/-! ## Steps -/

theorem complete_perform {step : Eval Result} (tight : Tight known post step) :
    Complete known post (perform step) :=
  fun _ _ all _ => tight all

theorem complete_raise (fault : Fault) (span : Span) (id : ContextId) :
    Complete known post (perform (raise fault span id)) :=
  complete_perform (Tight.raise fault span id)

/-- A step that gives back a failure of its own has it told. -/
theorem complete_produce {step : Eval Value} (tight : Tight known (Given known) step) :
    Complete known (Value.Known known) (produce step) := by
  intro stack machine all arisen
  have ended := tight all
  rw [produce] at arisen ⊢
  cases outcome : step machine with
  | error signal after =>
    rw [outcome] at ended
    exact ended
  | ok value after =>
    rw [outcome] at ended arisen
    refine ⟨ended.1 ?_, ended.2⟩
    rintro failure rfl
    exact arisen ⟨failure, stack, false⟩ (List.mem_singleton.mpr rfl)

/-- Looking at an outcome from outside tells of no failure that was not in it. -/
theorem complete_regard {view : Outcome Result → Outcome Other} {told : Account Result}
    {later : Other → Prop} (complete : Complete known post told)
    (views : ∀ outcome, Outcome.Known known post outcome →
      Outcome.Known known later (view outcome)) : Complete known later (regard view told) := by
  intro stack machine all arisen
  have before := (List.forall_mem_append.mp arisen).1
  exact views _ (complete all before)

theorem complete_during {told : Account Result} (complete : Complete known post told) :
    Complete known post (during told) := by
  intro stack machine all arisen
  have opened : Machine.Known known { machine with depth := machine.depth + 1 } :=
    ⟨all.store, all.exported⟩
  have ended := complete opened arisen
  change Outcome.Known known post (Eval.leave (told stack _).ending)
  generalize (told stack { machine with depth := machine.depth + 1 }).ending = outcome at ended
  cases outcome with
  | ok result after => exact ⟨ended.1, ended.2.store, ended.2.exported⟩
  | error signal after => exact ⟨ended.1, ended.2.store, ended.2.exported⟩

theorem complete_entering (name : String) (span : Span) {told : Account Result}
    (complete : Complete known post told) : Complete known post (entering name span told) :=
  fun _ _ all arisen => complete all arisen

/-! ## Loops -/

theorem complete_round {body : Account Value} (complete : Complete known (Value.Known known) body) :
    Complete known (Loop.Round.Has (Value.Known known)) (round body) := by
  apply complete_regard complete
  intro outcome ended
  cases outcome with
  | ok value after => exact ended
  | error signal after =>
    cases signal with
    | failed failure => exact ended
    | returned value => exact ended
    | broke span => exact ⟨trivial, ended.2⟩
    | continued span => exact ⟨trivial, ended.2⟩

theorem complete_repeatWhile {condition body : Account Value} {tooLong : Account (List Value)}
    (conditions : Complete known (Value.Known known) condition)
    (bodies : Complete known (Value.Known known) body)
    (ends : Complete known (fun values => ∀ value ∈ values, value.Known known) tooLong)
    (keep : Bool) (rounds : Nat) {values : List Value}
    (earlier : ∀ value ∈ values, value.Known known) :
    Complete known (fun values => ∀ value ∈ values, value.Known known)
      (repeatWhile condition body keep tooLong rounds values) := by
  induction rounds generalizing values with
  | zero => exact complete_bind conditions fun _ _ => complete_ite ends (complete_pure earlier)
  | succ rounds ih =>
    apply complete_bind conditions
    intro truth _
    apply complete_ite _ (complete_pure earlier)
    apply complete_bind (complete_round bodies)
    intro ended last
    have more := Loop.forall_mem_collect earlier keep last
    cases ended with
    | left => exact complete_pure earlier
    | value result => exact ih more
    | skipped => exact ih more

theorem complete_count {body : Int64 → Account Value} {tooLong : Account (List Value)}
    (bodies : ∀ counter, Complete known (Value.Known known) (body counter))
    (ends : Complete known (fun values => ∀ value ∈ values, value.Known known) tooLong)
    (keep : Bool) (stop step : Int64) (rounds : Nat) (counter : Int64) {values : List Value}
    (earlier : ∀ value ∈ values, value.Known known) :
    Complete known (fun values => ∀ value ∈ values, value.Known known)
      (count body keep tooLong stop step rounds counter values) := by
  induction rounds generalizing counter values with
  | zero => exact complete_ite ends (complete_pure earlier)
  | succ rounds ih =>
    apply complete_ite _ (complete_pure earlier)
    apply complete_bind (complete_round (bodies counter))
    intro ended last
    have more := Loop.forall_mem_collect earlier keep last
    cases Integer.add? counter step with
    | none =>
      cases ended with
      | left => exact complete_pure earlier
      | value result => exact complete_pure more
      | skipped => exact complete_pure more
    | some next =>
      cases ended with
      | left => exact complete_pure earlier
      | value result => exact ih next more
      | skipped => exact ih next more

/-! ## Activations and scripts -/

variable {host : Host} {inner : Option Assess} {assess : Assess}

/-- Whatever lies in other activations is accounted for completely, if there is room for any. -/
def Insides (known : Failure → Prop) (inner : Option Assess) : Prop :=
  ∀ assess, inner = some assess → ∀ expr id, Complete known (Value.Known known) (assess expr id)

theorem complete_activate (insides : Insides known inner) (span : Span) (id : ContextId)
    {work : Assess → Account Result}
    (works : ∀ assess, (∀ expr id, Complete known (Value.Known known) (assess expr id)) →
      Complete known post (work assess)) :
    Complete known post (activate host inner span id work) := by
  cases inner with
  | none => exact complete_raise _ span id
  | some assess => exact complete_during (works assess (insides assess rfl))

section

variable (inside : ∀ expr id, Complete known (Value.Known known) (assess expr id))

include inside

theorem complete_callUser (function : UserFunction) {arguments : List Value}
    (all : ∀ argument ∈ arguments, argument.Known known) (span : Span) (caller : ContextId) :
    Complete known (Value.Known known) (callUser function arguments span caller assess) := by
  have table := Table.all_ofArguments function.parameters all
  apply complete_bind (complete_perform (Tight.addContext table))
  intro id _
  apply complete_entering
  apply complete_regard (inside function.body id)
  intro outcome ended
  cases outcome with
  | ok value after =>
    refine ⟨?_, ended.2⟩
    cases function.valued with
    | true => exact ended.1
    | false => exact Value.hereditary_known.null
  | error signal after =>
    cases signal with
    | returned value => exact ended
    | _ => exact ⟨trivial, ended.2⟩

theorem complete_instantiate (template : Object) (name : String) (span : Span)
    (caller : ContextId) :
    Complete known (Value.Known known) (instantiate template name span caller assess) := by
  apply complete_bind (complete_perform (Tight.addContext Table.all_empty))
  intro id _
  apply complete_entering
  apply complete_regard (inside template.body id)
  intro outcome ended
  cases outcome with
  | ok value after => exact ⟨Value.known_object _, ended.2.store, ended.2.exported⟩
  | error signal after => exact ⟨trivial, ended.2⟩

/-- The values that a script leaves carry no unknown failures, and neither does its result. -/
theorem complete_runText (file text : String) (id : ContextId) {machine : Machine}
    (all : machine.Known known)
    (arisen : ∀ incident ∈ (runText assess file text id machine).incidents,
      known incident.failure) :
    (∀ value, (runText assess file text id machine).ending.1 = .ok value → value.Known known) ∧
      (runText assess file text id machine).ending.2.Known known := by
  unfold runText at arisen ⊢
  dsimp only at arisen ⊢
  cases read : Eval.read ⟨machine.serial, file, text⟩ with
  | error error =>
    refine ⟨?_, all.store, all.exported⟩
    rintro value ⟨⟩
  | ok root =>
    rw [read] at arisen
    let begun := { machine with serial := machine.serial + 1 }
    have before := (List.forall_mem_append.mp arisen).1
    have ended := @inside root id (beginning begun id) begun ⟨all.store, all.exported⟩ before
    dsimp only
    generalize (assess root id (beginning begun id) begun).ending = outcome at ended
    cases outcome with
    | ok value after =>
      refine ⟨?_, ended.2⟩
      rintro result ⟨⟩
      exact ended.1
    | error signal after =>
      cases signal with
      | returned value =>
        refine ⟨?_, ended.2⟩
        rintro result ⟨⟩
        exact ended.1
      | _ =>
        refine ⟨?_, ended.2⟩
        rintro value ⟨⟩

theorem complete_runIn (root : ContextId) (path text : String) :
    Complete known (fun _ => True) (runIn root assess path text) := by
  intro stack machine all arisen
  exact ⟨trivial, (complete_runText inside path text root all arisen).2⟩

omit inside in
theorem complete_resultOf (call : Invocation) (path : String) (result : Except Error Value) :
    Complete known (fun _ => True) (perform (call.resultOf path result)) := by
  cases result with
  | ok value => exact complete_perform (Tight.pure trivial)
  | error error => exact complete_perform (Tight.failing call _)

theorem complete_includeScript (call : Invocation) :
    Complete known (Value.Known known) (includeScript call host assess) := by
  apply complete_bind (complete_perform (Tight.loadScript call host))
  intro loaded _
  cases loaded with
  | none => exact complete_produce (Tight.exception call _)
  | some script =>
    have reading : Tight known (fun _ => True)
        (fun machine => .ok (machine.store.rootOf call.caller) machine) :=
      fun _ all => ⟨trivial, all⟩
    apply complete_bind (complete_perform reading)
    intro root _
    apply complete_bind (complete_runIn inside root script.1 script.2)
    intro result _
    apply complete_bind (complete_resultOf call script.1 result)
    intro _ _
    exact complete_pure Value.hereditary_known.null

theorem complete_runScript (call : Invocation) :
    Complete known (Value.Known known) (runScript call host assess) := by
  apply complete_bind (complete_perform (Tight.loadScript call host))
  intro loaded _
  cases loaded with
  | none => exact complete_produce (Tight.exception call _)
  | some script =>
    apply complete_bind (complete_perform Tight.enterScript)
    intro entered saved
    apply complete_bind (complete_runIn inside entered.2 script.1 script.2)
    intro result _
    apply complete_bind (complete_perform (Tight.leaveScript saved))
    intro exported exports
    apply complete_bind (complete_resultOf call script.1 result)
    intro _ _
    apply complete_pure
    cases exported with
    | none => exact Value.hereditary_known.null
    | some value => exact exports value rfl

/-! ## Calls -/

theorem complete_invoke {call : Invocation}
    (arguments : ∀ parameter, (call.argument parameter).Known known) (builtin : Builtin) :
    Complete known (Value.Known known) (invoke call host assess builtin) := by
  by_cases included : builtin = .includeScript
  · subst included
    exact complete_includeScript inside call
  by_cases started : builtin = .runScript
  · subst started
    exact complete_runScript inside call
  by_cases exports : builtin = .exportValue
  · subst exports
    exact complete_perform (Tight.exportValue arguments host _)
  have tight := Tight.run arguments host (fun _ _ => pure .null) exports included started
  cases builtin with
  | includeScript => exact absurd rfl included
  | runScript => exact absurd rfl started
  | exportValue => exact absurd rfl exports
  | _ => exact complete_produce tight

theorem complete_callBuiltin (function : BuiltinFunction) {arguments : List Value}
    (all : ∀ argument ∈ arguments, argument.Known known) (span : Span) (caller : ContextId) :
    Complete known (Value.Known known)
      (callBuiltin host function arguments span caller assess) := by
  unfold callBuiltin
  cases Builtin.named? function.name with
  | none => exact complete_raise _ span caller
  | some builtin =>
    apply complete_entering
    apply complete_invoke inside
    intro parameter
    have table := Table.all_ofArguments function.parameters all
    unfold Invocation.argument Eval.invocationOf
    cases found : (Table.ofArguments function.parameters arguments).value? parameter with
    | none => exact Value.hereditary_known.null
    | some value => exact table parameter value found

end

theorem complete_callValue (insides : Insides known inner) (callee : Value) {arguments : List Value}
    (all : ∀ argument ∈ arguments, argument.Known known) (span : Span) (caller : ContextId) :
    Complete known (Value.Known known)
      (callValue host inner callee arguments span caller) := by
  cases callee with
  | function function =>
    apply complete_bind (complete_perform (Tight.orRaise (Bodies.sound_checkArity _ _) span caller))
    intro _ _
    apply complete_activate insides
    intro assess inside
    cases function with
    | user defined => exact complete_callUser inside defined all span caller
    | builtin provided => exact complete_callBuiltin inside provided all span caller
  | _ => exact complete_raise _ span caller

theorem complete_makeInstance (insides : Insides known inner) (name : String) (span : Span)
    (id : ContextId) :
    Complete known (Value.Known known) (makeInstance host inner name span id) := by
  apply complete_bind (complete_perform (Tight.objectNamed name span id))
  intro template _
  apply complete_activate insides
  intro assess inside
  exact complete_instantiate inside template name span id

/-! ## Expressions -/

mutual

/-- The account of an expression is complete if the accounts of what lies in other activations
are. -/
theorem complete_evaluateIn (insides : Insides known inner) (id : ContextId) :
    (expr : Located) → Complete known (Value.Known known) (evaluateIn host inner id expr)
  | .literal value _ => complete_pure (Value.hereditary_known.ofLiteral value)
  | .unary op operand span => by
    apply complete_bind (complete_evaluateIn insides id operand)
    intro value also
    exact complete_perform (Tight.orRaise (Value.hereditary_known.sound_unary op also) span id)
  | .binary op left right span => by
    apply complete_bind (complete_evaluateIn insides id left)
    intro first also
    apply complete_bind (complete_evaluateIn insides id right)
    intro second too
    exact complete_perform
      (Tight.orRaise (Value.hereditary_known.sound_binary op also too) span id)
  | .list elements _ => by
    apply complete_bind (complete_evaluateAll insides id elements)
    intro values all
    exact complete_pure ((Value.hereditary_known.list_iff values).mpr all)
  | .choice branches _ => complete_evaluateBranches insides id branches
  | .forLoop counter start stop step body block span => by
    rw [evaluateIn]
    apply complete_bind (complete_evaluateIn insides id start)
    intro first _
    apply complete_bind (complete_evaluateIn insides id stop)
    intro last _
    cases first with
    | int first =>
      cases last with
      | int last =>
        have round (value : Int64) : Complete known (Value.Known known)
            (perform (Eval.assign id counter (.int value) span id) >>= fun _ =>
              evaluateIn host inner id body) := by
          have also : (Value.int value).Known known := Value.hereditary_known.int value
          apply complete_bind (complete_perform (Tight.assign id counter also span id))
          intro _ _
          exact complete_evaluateIn insides id body
        have results (step : Int64) := complete_bind
          (complete_count round
            (complete_raise (.loopLimit host.config.maxLoopIterations) span id) (!block) last step
            host.config.maxLoopIterations first (List.forall_mem_nil _))
          fun values all => complete_pure (Value.hereditary_known.loop block all)
        cases step with
        | none =>
          have one : Complete known (fun _ => True) (pure 1 : Account Int64) :=
            complete_pure trivial
          exact complete_bind one fun step _ => results step
        | some expr =>
          apply complete_bind (complete_evaluateIn insides id expr)
          intro value _
          exact complete_bind
            (complete_perform (Tight.stepOf value first last expr.note id)) fun step _ =>
              results step
      | _ => exact complete_raise .loopBounds span id
    | _ => exact complete_raise .loopBounds span id
  | .whileLoop condition body block span => by
    rw [evaluateIn]
    apply complete_bind (complete_repeatWhile (complete_evaluateIn insides id condition)
      (complete_evaluateIn insides id body)
      (complete_raise (.loopLimit host.config.maxLoopIterations) span id) (!block) _
      (List.forall_mem_nil _))
    intro values all
    exact complete_pure (Value.hereditary_known.loop block all)
  | .read name span => complete_perform (Tight.readName name span id)
  | .assign name expr span => by
    apply complete_bind (complete_evaluateIn insides id expr)
    intro value also
    apply complete_bind (complete_perform (Tight.assign id name also span id))
    intro _ _
    exact complete_pure also
  | .member object name span => complete_perform (Tight.readMember object name span id)
  | .assignMember object name expr span => by
    apply complete_bind (complete_perform (Tight.instanceNamed object span id))
    intro target _
    apply complete_bind (complete_evaluateIn insides id expr)
    intro value also
    apply complete_bind (complete_perform (Tight.assign target.context name also span id))
    intro _ _
    exact complete_pure also
  | .function name parameters body valued span =>
    complete_perform (Tight.define name parameters body valued span id)
  | .call callee arguments span => by
    apply complete_bind (complete_evaluateIn insides id callee)
    intro function _
    apply complete_bind (complete_evaluateAll insides id arguments)
    intro values all
    exact complete_callValue insides function all span id
  | .template name body span => complete_perform (Tight.defineTemplate name body span id)
  | .instantiate name span => complete_makeInstance insides name span id
  | .returnWith none _ => complete_perform (Tight.throw Value.hereditary_known.null)
  | .returnWith (some expr) _ => by
    apply complete_bind (complete_evaluateIn insides id expr)
    intro value also
    exact complete_perform (Tight.throw also)
  | .breakLoop span => complete_perform (Tight.throw trivial)
  | .continueLoop span => complete_perform (Tight.throw trivial)

theorem complete_evaluateAll (insides : Insides known inner) (id : ContextId) :
    (elements : List Located) → Complete known (fun values => ∀ value ∈ values, value.Known known)
      (evaluateAll host inner id elements)
  | [] => complete_pure (List.forall_mem_nil _)
  | element :: rest => by
    apply complete_bind (complete_evaluateIn insides id element)
    intro value also
    apply complete_bind (complete_evaluateAll insides id rest)
    intro values all
    exact complete_pure (List.forall_mem_cons.mpr ⟨also, all⟩)

theorem complete_evaluateBranches (insides : Insides known inner) (id : ContextId) :
    (branches : Branches Span) → Complete known (Value.Known known)
      (evaluateBranches host inner id branches)
  | .done => complete_pure Value.hereditary_known.null
  | .otherwise body block => by
    apply complete_bind (complete_evaluateIn insides id body)
    intro value also
    exact complete_pure (Value.hereditary_known.body block also)
  | .orElse condition body block rest => by
    apply complete_bind (complete_evaluateIn insides id condition)
    intro truth _
    apply complete_ite _ (complete_evaluateBranches insides id rest)
    apply complete_bind (complete_evaluateIn insides id body)
    intro value also
    exact complete_pure (Value.hereditary_known.body block also)

end

/-! ## Programs -/

theorem insides_inside (known : Failure → Prop) (host : Host) (room : Nat) :
    Insides known (inside host room) := by
  induction room with
  | zero => rintro assess ⟨⟩
  | succ room ih =>
    rintro assess ⟨⟩ expr id
    rw [evaluate_eq]
    exact complete_evaluateIn ih id expr

theorem complete_evaluate (known : Failure → Prop) (host : Host) (room : Nat) (expr : Located)
    (id : ContextId) : Complete known (Value.Known known) (evaluate host room expr id) := by
  rw [evaluate_eq]
  exact complete_evaluateIn (insides_inside known host room) id expr

end Account

/-- A value that a request comes with carries the failure. -/
inductive Request.Carries (failure : Failure) : Request → Prop where
  /-- The value is called. -/
  | callee {callee : Value} {arguments : List Value} {span : Span}
      (carries : callee.Carries failure) : Carries failure (.call callee arguments span)
  /-- The value is an argument. -/
  | argument {callee argument : Value} {arguments : List Value} {span : Span}
      (member : argument ∈ arguments) (carries : argument.Carries failure) :
      Carries failure (.call callee arguments span)

/-- A value carries the failure that is the answer or is stored in the session behind it. -/
inductive Session.Leaves (failure : Failure) (answer : Except Error Value × Session) : Prop where
  /-- The value is the answer. -/
  | answer {value : Value} (ended : answer.1 = .ok value) (carries : value.Carries failure)
  /-- The value is stored. -/
  | stored (carries : answer.2.machine.Carries failure)

namespace Account

variable {known : Failure → Prop}

theorem complete_runProgram (host : Host) {session : Session} (all : session.machine.Known known)
    (id : ContextId) (name text : String)
    (arisen : ∀ incident ∈ (runProgram host session id name text).incidents,
      known incident.failure) {failure : Failure}
    (leaves : Session.Leaves failure (runProgram host session id name text).ending) :
    known failure := by
  have inside := complete_evaluate known host (host.config.maxCallDepth - session.machine.depth)
  obtain ⟨values, stored⟩ := complete_runText inside name text id all arisen
  cases leaves with
  | answer ended carries => exact values _ ended failure carries
  | stored carries => exact Machine.known_iff.mp stored failure carries

theorem complete_callFromOutside (host : Host) {session : Session}
    (all : session.machine.Known known) (callee : Value) {arguments : List Value}
    (given : ∀ argument ∈ arguments, argument.Known known) (span : Span)
    (arisen : ∀ incident ∈ (callFromOutside host session callee arguments span).incidents,
      known incident.failure) {failure : Failure}
    (leaves : Session.Leaves failure
      (callFromOutside host session callee arguments span).ending) : known failure := by
  have insides := insides_inside known host (host.config.maxCallDepth - session.machine.depth)
  have complete : Complete known (Value.Known known)
      (callValue host _ callee arguments span session.globals) :=
    complete_callValue insides callee given span session.globals
  have ended := complete all (List.forall_mem_append.mp arisen).1
  unfold callFromOutside at leaves
  dsimp only at leaves
  generalize (callValue _ _ _ _ _ _ _ _).ending = outcome at ended leaves
  cases leaves with
  | answer same carries =>
    cases outcome with
    | ok value after =>
      cases same
      exact ended.1 failure carries
    | error signal after => cases same
  | stored carries =>
    apply Machine.known_iff.mp _ failure carries
    cases outcome with
    | ok value after => exact ended.2
    | error signal after => exact ended.2

/-- A failure that a value carries after an answer was carried by a value before, or the account of
the answer tells of it. -/
theorem told_of_leaves (host : Host) (session : Session) (request : Request) {failure : Failure}
    (leaves : Session.Leaves failure (answer host session request).ending) :
    session.machine.Carries failure ∨ request.Carries failure ∨
      ∃ incident ∈ (answer host session request).incidents, incident.failure = failure := by
  let known (failure : Failure) : Prop :=
    session.machine.Carries failure ∨ request.Carries failure ∨
      ∃ incident ∈ (answer host session request).incidents, incident.failure = failure
  have before : session.machine.Known known := Machine.known_iff.mpr fun _ => Or.inl
  have given : ∀ failure, request.Carries failure → known failure := fun _ => Or.inr ∘ Or.inl
  have arisen : ∀ incident ∈ (answer host session request).incidents, known incident.failure :=
    fun incident member => Or.inr (Or.inr ⟨incident, member, rfl⟩)
  change known failure
  cases request with
  | run name text => exact complete_runProgram host before session.globals name text arisen leaves
  | runFresh name text =>
    let begun : Session := { session with machine := session.machine.addGlobals.2 }
    exact @complete_runProgram _ host begun before.addGlobals _ name text arisen _ leaves
  | call callee arguments span =>
    have all : ∀ argument ∈ arguments, argument.Known known :=
      fun argument member failure carries => given failure (.argument member carries)
    exact complete_callFromOutside host before callee all span arisen leaves

end Account

end Quill
