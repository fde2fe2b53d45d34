import Quill.Proofs.Tracebacks.Program
import Quill.Proofs.Tracebacks.Steps

/-!
# Faithful accounts

An account is faithful if it ends as evaluation does and tells the truth about the failures. Each of
them has the traceback of the call stack that it arose with. And none is lost or altered: a failure
that was raised is the one that the evaluation ends with, unless it is the failure of a script. Then
the call that ran the script raises a failure of its own, which quotes the first one.
-/

namespace Quill

/-! ## What becomes of failures -/

/-- The failure has the traceback of the call stack that it arose with, which has at most as many
activations as the limit allows. -/
structure Incident.Faithful (limit : Nat) (incident : Incident) : Prop where
  /-- The traceback is the one of the call stack. -/
  traceback : incident.failure.traceback = incident.stack.traceback incident.failure.span
  /-- There are not too many activations. -/
  bounded : incident.stack.activations.length ≤ limit

/-- In the place of a failure that a script ended with, another one is raised by the built-in
function that ran the script. -/
structure Incident.Answers (incident : Incident) (failure : Failure) : Prop where
  /-- The other one is raised. -/
  raised : incident.raised = true
  /-- It tells what the script failed with. -/
  quotes : ∃ path, incident.failure.fault = .scriptFailed path failure.message
  /-- It is raised by one of the two functions that run scripts. -/
  runner : incident.stack.innermost = Builtin.includeScript.name ∨
    incident.stack.innermost = Builtin.runScript.name

/-- The failure that an incident has raised. -/
def Incident.raises (incident : Incident) : Option Failure :=
  if incident.raised then some incident.failure else none

/-- How incidents follow one another, from a failure that has been raised before to the one that has
been raised in the end. Whatever has been raised is answered by the next incident. -/
inductive Passes : Option Failure → List Incident → Option Failure → Prop where
  /-- Nothing has happened, so what was raised is what it is. -/
  | nothing (pending : Option Failure) : Passes pending [] pending
  /-- An incident answers what was raised. -/
  | incident {pending last : Option Failure} {incident : Incident} {later : List Incident}
      (answers : ∀ failure, pending = some failure → incident.Answers failure)
      (passes : Passes incident.raises later last) : Passes pending (incident :: later) last

theorem Passes.append {pending between last : Option Failure} {earlier later : List Incident}
    (first : Passes pending earlier between) (second : Passes between later last) :
    Passes pending (earlier ++ later) last := by
  induction first with
  | nothing pending => exact second
  | incident answers passes ih => exact .incident answers (ih second)

/-- Where nothing was raised, any incident may follow. -/
theorem Passes.single (incident : Incident) : Passes none [incident] incident.raises := by
  apply Passes.incident _ (.nothing _)
  rintro failure ⟨⟩

/-- What has been raised in the end is what the last incident has raised. -/
theorem Passes.last_eq {pending last : Option Failure} {incidents : List Incident}
    (passes : Passes pending incidents last) :
    last = (incidents.getLast?.map Incident.raises).getD pending := by
  induction passes with
  | nothing pending => rfl
  | @incident pending last incident later answers passes ih =>
    rw [ih, List.getLast?_cons]
    cases later.getLast? <;> rfl

/-- A failure that was raised is answered by what happens next. -/
theorem Passes.answered {pending last : Option Failure} {incident next : Incident}
    {earlier later : List Incident}
    (passes : Passes pending (earlier ++ incident :: next :: later) last)
    (raised : incident.raised = true) : next.Answers incident.failure := by
  induction earlier generalizing pending with
  | nil =>
    cases passes with
    | incident _ behind =>
      cases behind with
      | incident answers _ =>
        apply answers
        rw [Incident.raises, if_pos raised]
  | cons first earlier ih =>
    cases passes with
    | incident _ behind => exact ih behind

namespace Account

variable {Result Other : Type} {limit room : Nat} {stack : CallStack} {machine : Machine}
  {pending : Option Failure}

/-- The account of an evaluation that is begun in a given state is faithful, from a failure that was
raised before to the one that its outcome tells of. -/
structure Relates (limit : Nat) (stack : CallStack) (machine : Machine) (pending : Option Failure)
    (gives : Result → Option Failure) (told : Account Result) (plain : Eval Result) : Prop where
  /-- It ends as the evaluation does. -/
  ending : (told stack machine).ending = plain machine
  /-- The contexts are retained. -/
  retains : machine.store.Retains (Outcome.machine (plain machine)).store
  /-- Each failure has the traceback of its call stack. -/
  faithful : ∀ incident ∈ (told stack machine).incidents, incident.Faithful limit
  /-- No failure is lost. -/
  passes : Passes pending (told stack machine).incidents (Outcome.tells gives (plain machine))

/-- What the first account leaves raised, the second one begins with. -/
theorem Relates.bind {gives : Result → Option Failure} {givesNext : Other → Option Failure}
    {first : Account Result} {plain : Eval Result} {next : Result → Account Other}
    {plainNext : Result → Eval Other}
    (firsts : Relates limit stack machine pending gives first plain)
    (nexts : ∀ result after, plain machine = .ok result after →
      Relates limit stack after (gives result) givesNext (next result) (plainNext result)) :
    Relates limit stack machine pending givesNext (first >>= next) (plain >>= plainNext) := by
  obtain ⟨same, retains, faithful, passes⟩ := firsts
  have plainly : (plain >>= plainNext) machine = EStateM.bind plain plainNext machine := rfl
  unfold EStateM.bind at plainly
  cases told : first stack machine with
  | mk ending incidents =>
    rw [told] at same faithful passes
    dsimp only at same faithful passes
    subst same
    cases ended : plain machine with
    | error signal after =>
      rw [ended] at plainly retains passes told
      have joined := andThen_error next told
      constructor
      · rw [joined, plainly]
      · rw [plainly]
        exact retains
      · rw [joined]
        exact faithful
      · rw [joined, plainly]
        cases signal <;> exact passes
    | ok result after =>
      rw [ended] at plainly retains passes told
      have joined := andThen_ok next told
      obtain ⟨sameThen, retainsThen, faithfulThen, passesThen⟩ := nexts result after ended
      constructor
      · rw [joined, plainly]
        exact sameThen
      · rw [plainly]
        exact retains.trans retainsThen
      · rw [joined]
        exact List.forall_mem_append.mpr ⟨faithful, faithfulThen⟩
      · rw [joined, plainly]
        exact passes.append passesThen

theorem Relates.retains_of_ok {gives : Result → Option Failure} {told : Account Result}
    {plain : Eval Result} (relates : Relates limit stack machine pending gives told plain)
    {result : Result} {after : Machine} (ended : plain machine = .ok result after) :
    machine.store.Retains after.store := by
  have retains := relates.retains
  rw [ended] at retains
  exact retains

/-- An account that neither meets nor leaves a failure, of an evaluation in a given place with room
for some more activations. -/
def Accounts (limit room : Nat) (seat : Seat) (told : Account Result) (plain : Eval Result) :
    Prop :=
  ∀ ⦃stack : CallStack⦄ ⦃machine : Machine⦄, seat.Stands machine.store stack →
    stack.activations.length + room ≤ limit →
      Relates limit stack machine none (nothing Result) told plain

variable {seat : Seat} {id : ContextId}

theorem relates_pure {gives : Result → Option Failure} {result : Result}
    (left : gives result = pending) :
    Relates limit stack machine pending gives (pure result) (pure result) where
  ending := rfl
  retains := .refl _
  faithful := List.forall_mem_nil _
  passes := by
    rw [← left]
    exact .nothing _

theorem accounts_pure (result : Result) : Accounts limit room seat (pure result) (pure result) :=
  fun _ _ _ _ => relates_pure rfl

theorem accounts_bind {first : Account Result} {plain : Eval Result}
    {next : Result → Account Other} {plainNext : Result → Eval Other}
    (firsts : Accounts limit room seat first plain)
    (nexts : ∀ result, Accounts limit room seat (next result) (plainNext result)) :
    Accounts limit room seat (first >>= next) (plain >>= plainNext) := by
  intro stack machine stands bounded
  have began := firsts stands bounded
  apply began.bind
  intro result after ended
  exact nexts result (stands.retained (began.retains_of_ok ended)) bounded

theorem accounts_ite {condition : Prop} [Decidable condition] {told other : Account Result}
    {plain plainOther : Eval Result} (yes : Accounts limit room seat told plain)
    (no : Accounts limit room seat other plainOther) :
    Accounts limit room seat (if condition then told else other)
      (if condition then plain else plainOther) := by
  by_cases truth : condition
  · rw [if_pos truth, if_pos truth]
    exact yes
  · rw [if_neg truth, if_neg truth]
    exact no

/-! ## Steps -/

/-- With any room, there are no more activations than the limit allows. -/
theorem bounded_of_room (bounded : stack.activations.length + room ≤ limit) :
    stack.activations.length ≤ limit :=
  Nat.le_trans (Nat.le_add_right _ _) bounded

theorem faithful_arising {before after : Option Failure}
    (bounded : stack.activations.length ≤ limit)
    (arises : ∀ failure, before = none → after = some failure →
      failure.traceback = stack.traceback failure.span) :
    ∀ incident ∈ arising stack before after, incident.Faithful limit := by
  cases before with
  | some failure => exact List.forall_mem_nil _
  | none =>
    cases after with
    | none => exact List.forall_mem_nil _
    | some failure =>
      intro incident member
      obtain rfl := List.mem_singleton.mp member
      exact ⟨arises failure rfl rfl, bounded⟩

theorem passes_arising (stack : CallStack) {before after : Option Failure}
    (kept : ∀ failure, before = some failure → after = some failure) :
    Passes before (arising stack before after) after := by
  cases before with
  | some failure =>
    rw [kept failure rfl]
    exact .nothing _
  | none =>
    cases after with
    | none => exact .nothing none
    | some failure => exact .single ⟨failure, stack, true⟩

theorem accounts_perform {step : Eval Result} (honest : Honest seat (nothing Result) step) :
    Accounts limit room seat (perform step) step := by
  intro stack machine stands bounded
  obtain ⟨retains, faithful⟩ := honest stands
  refine ⟨rfl, retains, ?_, ?_⟩
  · exact faithful_arising (bounded_of_room bounded) fun failure _ told => faithful failure told
  · apply passes_arising
    rintro failure ⟨⟩

theorem accounts_produce {step : Eval Value} (honest : Honest seat Value.failure? step) :
    Accounts limit room seat (produce step) step := by
  intro stack machine stands bounded
  obtain ⟨retains, faithful⟩ := honest stands
  have less := bounded_of_room bounded
  refine ⟨rfl, retains, ?_, ?_⟩
  · rw [produce]
    cases ended : step machine with
    | ok value after =>
      rw [ended] at faithful
      cases value with
      | exception failure => exact List.forall_mem_singleton.mpr ⟨faithful failure rfl, less⟩
      | _ => exact List.forall_mem_nil _
    | error signal after =>
      rw [ended] at faithful
      cases signal with
      | failed failure => exact List.forall_mem_singleton.mpr ⟨faithful failure rfl, less⟩
      | _ => exact List.forall_mem_nil _
  · rw [produce]
    cases step machine with
    | ok value after =>
      cases value with
      | exception failure => exact .single ⟨failure, stack, false⟩
      | _ => exact .nothing none
    | error signal after =>
      cases signal with
      | failed failure => exact .single ⟨failure, stack, true⟩
      | _ => exact .nothing none

/-! ## Looking from outside -/

/-- Looking at an outcome from outside changes no context and no failure, and a failure that arises
there arises in the given context. The functions tell the failure and the state of what is seen. -/
structure Attentive {Ending : Type} (failure? : Ending → Option Failure)
    (machine : Ending → Machine) (id : ContextId) (view : Outcome Result → Ending) : Prop where
  /-- The contexts are the same. -/
  store : ∀ outcome, (machine (view outcome)).store = (Outcome.machine outcome).store
  /-- A failure is seen as what it is. -/
  failed : ∀ outcome failure, Outcome.failure? outcome = some failure →
    failure? (view outcome) = some failure
  /-- A signal may be seen as a failure in the context. -/
  arises : ∀ outcome failure, Outcome.failure? outcome = none →
    failure? (view outcome) = some failure →
      failure.traceback = (Outcome.machine outcome).store.traceback id failure.span

section

variable {Ending : Type} {failure? : Ending → Option Failure} {after : Ending → Machine}
  {view : Outcome Result → Ending} {told : Account Result} {plain : Eval Result}

theorem Attentive.retains (attentive : Attentive failure? after id view)
    (relates : Relates limit stack machine none (nothing Result) told plain) :
    machine.store.Retains (after (view (plain machine))).store := by
  rw [attentive.store]
  exact relates.retains

/-- What is seen to arise is told as faithfully as what has arisen before. -/
theorem Attentive.faithful (attentive : Attentive failure? after id view)
    (relates : Relates limit stack machine none (nothing Result) told plain)
    (stands : machine.store.Stands id stack) (bounded : stack.activations.length ≤ limit) :
    ∀ incident ∈ (told stack machine).incidents ++
      arising stack (Outcome.failure? (plain machine)) (failure? (view (plain machine))),
      incident.Faithful limit := by
  apply List.forall_mem_append.mpr ⟨relates.faithful, _⟩
  apply faithful_arising bounded
  intro failure before seen
  have standsThen := stands.retained relates.retains
  exact (attentive.arises _ failure before seen).trans (Store.traceback_eq standsThen _)

theorem Attentive.passes (attentive : Attentive failure? after id view)
    (relates : Relates limit stack machine none (nothing Result) told plain) :
    Passes none ((told stack machine).incidents ++
      arising stack (Outcome.failure? (plain machine)) (failure? (view (plain machine))))
      (failure? (view (plain machine))) :=
  relates.passes.append (passes_arising stack (attentive.failed _))

end

theorem accounts_regard {view : Outcome Result → Outcome Other} {told : Account Result}
    {plain : Eval Result} (attentive : Attentive Outcome.failure? Outcome.machine id view)
    (accounts : Accounts limit room (.context id) told plain) :
    Accounts limit room (.context id) (regard view told) (fun machine => view (plain machine)) := by
  intro stack machine stands bounded
  have relates := accounts stands bounded
  have same := relates.ending
  refine ⟨congrArg view same, attentive.retains relates, ?_, ?_⟩
  · rw [regard, same]
    exact attentive.faithful relates stands (bounded_of_room bounded)
  · rw [regard, same]
    exact attentive.passes relates

/-- The signal is none that says that something has failed. -/
def Stray (signal : Signal) : Prop :=
  ∀ failure, signal ≠ .failed failure

/-- What a signal amounts to where nothing could take it arises in the context there. -/
theorem traceback_failureOf {signal : Signal} (stray : Stray signal) (boundary : Span)
    (id : ContextId) (store : Store) :
    (Eval.failureOf signal boundary id store).traceback =
      store.traceback id (Eval.failureOf signal boundary id store).span := by
  cases signal with
  | failed failure => exact absurd rfl (stray failure)
  | _ => rfl

/-- A way to look at outcomes is attentive if it takes every signal that is no failure, or sees what
the signal amounts to. -/
theorem Attentive.of_signals {Ending : Type} {failure? : Ending → Option Failure}
    {after : Ending → Machine} {view : Outcome Result → Ending}
    (results : ∀ result machine, (after (view (.ok result machine))).store = machine.store ∧
      failure? (view (.ok result machine)) = none)
    (signals : ∀ signal machine, (after (view (.error signal machine))).store = machine.store ∧
      (Stray signal ∧ failure? (view (.error signal machine)) = none ∨
        ∃ boundary, failure? (view (.error signal machine)) =
          some (Eval.failureOf signal boundary id machine.store))) :
    Attentive failure? after id view where
  store outcome := by
    cases outcome with
    | ok result machine => exact (results result machine).1
    | error signal machine => exact (signals signal machine).1
  failed outcome failure told := by
    cases outcome with
    | ok result machine => cases told
    | error signal machine =>
      cases signal with
      | failed raised =>
        obtain ⟨stray, _⟩ | ⟨_, seen⟩ := (signals (.failed raised) machine).2
        · exact absurd rfl (stray raised)
        · exact seen.trans told
      | _ => cases told
  arises outcome failure before seen := by
    cases outcome with
    | ok result machine =>
      rw [(results result machine).2] at seen
      cases seen
    | error signal machine =>
      have stray : Stray signal := by
        rintro raised rfl
        cases before
      obtain ⟨_, taken⟩ | ⟨boundary, amounts⟩ := (signals signal machine).2
      · rw [taken] at seen
        cases seen
      · rw [amounts] at seen
        obtain rfl := Option.some.inj seen
        exact traceback_failureOf stray boundary id machine.store

theorem attentive_roundOf (id : ContextId) :
    Attentive Outcome.failure? Outcome.machine id Loop.roundOf := by
  apply Attentive.of_signals
  · intro value machine
    exact ⟨rfl, rfl⟩
  · intro signal machine
    cases signal with
    | failed failure => exact ⟨rfl, Or.inr ⟨failure.span, rfl⟩⟩
    | _ => exact ⟨rfl, Or.inl ⟨by rintro failure ⟨⟩, rfl⟩⟩

theorem attentive_resultOfBody (function : UserFunction) (span : Span) (id : ContextId) :
    Attentive Outcome.failure? Outcome.machine id (Eval.resultOfBody function span id) := by
  apply Attentive.of_signals
  · intro value machine
    exact ⟨rfl, rfl⟩
  · intro signal machine
    cases signal with
    | returned value => exact ⟨rfl, Or.inl ⟨by rintro failure ⟨⟩, rfl⟩⟩
    | _ => exact ⟨rfl, Or.inr ⟨span, rfl⟩⟩

theorem attentive_instanceOfMembers (template : Object) (span : Span) (id : ContextId) :
    Attentive Outcome.failure? Outcome.machine id (Eval.instanceOfMembers template span id) := by
  apply Attentive.of_signals
  · intro value machine
    exact ⟨rfl, rfl⟩
  · intro signal machine
    exact ⟨rfl, Or.inr ⟨span, rfl⟩⟩

theorem attentive_resultOfScript (root : Located) (id : ContextId) :
    Attentive (Error.failure? ·.1) (·.2) id (Eval.resultOfScript root id) := by
  apply Attentive.of_signals
  · intro value machine
    exact ⟨rfl, rfl⟩
  · intro signal machine
    cases signal with
    | returned value => exact ⟨rfl, Or.inl ⟨by rintro failure ⟨⟩, rfl⟩⟩
    | _ => exact ⟨rfl, Or.inr ⟨root.note, rfl⟩⟩

theorem attentive_resultOfCall (session : Session) (span : Span) :
    Attentive (Error.failure? ·.1) (·.2.machine) session.globals (session.resultOfCall span) := by
  apply Attentive.of_signals
  · intro value machine
    exact ⟨rfl, rfl⟩
  · intro signal machine
    exact ⟨rfl, Or.inr ⟨span, rfl⟩⟩

theorem accounts_round {body : Account Value} {plain : Eval Value}
    (accounts : Accounts limit room (.context id) body plain) :
    Accounts limit room (.context id) (round body) (Loop.round plain) :=
  accounts_regard (attentive_roundOf id) accounts

/-! ## Activations -/

theorem accounts_during {told : Account Result} {plain : Eval Result}
    (accounts : Accounts limit room seat told plain) :
    Accounts limit room seat (during told)
      (fun machine => Eval.leave (plain { machine with depth := machine.depth + 1 })) := by
  intro stack machine stands bounded
  obtain ⟨same, retains, faithful, passes⟩ :=
    @accounts stack { machine with depth := machine.depth + 1 } stands bounded
  refine ⟨congrArg Eval.leave same, ?_, faithful, ?_⟩
  · generalize plain { machine with depth := machine.depth + 1 } = outcome at retains
    cases outcome <;> exact retains
  · generalize plain { machine with depth := machine.depth + 1 } = outcome at passes
    cases outcome with
    | ok result after => exact passes
    | error signal after => cases signal <;> exact passes

/-- A context that is entered has the call stack of the context that it is entered from, and one
activation more. -/
theorem accounts_entering {context : Context} {caller : ContextId} {span : Span}
    (link : context.entry = some ⟨caller, span⟩) {work : ContextId → Account Result}
    {plain : ContextId → Eval Result}
    (accounts : ∀ id, Accounts limit room (.context id) (work id) (plain id)) :
    Accounts limit (room + 1) (.context caller)
      (do
        let id ← perform (Eval.addContext context)
        entering context.name span (work id))
      (do
        let id ← Eval.addContext context
        plain id) := by
  intro stack machine stands bounded
  let after := { machine with store := (machine.store.add context).2 }
  have standsThen : after.store.Stands machine.store.size (stack.push context.name span) :=
    Store.Stands.add stands link
  have fewer : (stack.push context.name span).activations.length + room ≤ limit := by
    rw [CallStack.length_push]
    omega
  obtain ⟨same, retains, faithful, passes⟩ :=
    @accounts machine.store.size (stack.push context.name span) after standsThen fewer
  exact ⟨same, (machine.store.retains_add context).trans retains, faithful, passes⟩

/-- A built-in function has the call stack of the context that calls it, and one activation
more. -/
theorem accounts_enteringBuiltin (call : Invocation) {work : Account Result} {plain : Eval Result}
    (accounts : Accounts limit room (.builtin call) work plain) :
    Accounts limit (room + 1) (.context call.caller) (entering call.name call.span work) plain := by
  intro stack machine stands bounded
  have fewer : (stack.push call.name call.span).activations.length + room ≤ limit := by
    rw [CallStack.length_push]
    omega
  obtain ⟨same, retains, faithful, passes⟩ := accounts ⟨stack, stands, rfl⟩ fewer
  exact ⟨same, retains, faithful, passes⟩

/-! ## Loops -/

theorem accounts_repeatWhile {condition body : Account Value}
    {plainCondition plainBody : Eval Value} {tooLong : Account (List Value)}
    {plainTooLong : Eval (List Value)}
    (conditions : Accounts limit room (.context id) condition plainCondition)
    (bodies : Accounts limit room (.context id) body plainBody)
    (ends : Accounts limit room (.context id) tooLong plainTooLong) (keep : Bool) (rounds : Nat)
    (values : List Value) :
    Accounts limit room (.context id) (repeatWhile condition body keep tooLong rounds values)
      (Loop.repeatWhile plainCondition plainBody keep plainTooLong rounds values) := by
  induction rounds generalizing values with
  | zero => exact accounts_bind conditions fun truth => accounts_ite ends (accounts_pure values)
  | succ rounds ih =>
    apply accounts_bind conditions
    intro truth
    apply accounts_ite _ (accounts_pure values)
    apply accounts_bind (accounts_round bodies)
    intro ended
    cases ended with
    | left => exact accounts_pure values
    | value result => exact ih _
    | skipped => exact ih _

theorem accounts_count {body : Int64 → Account Value} {plainBody : Int64 → Eval Value}
    {tooLong : Account (List Value)} {plainTooLong : Eval (List Value)}
    (bodies : ∀ counter, Accounts limit room (.context id) (body counter) (plainBody counter))
    (ends : Accounts limit room (.context id) tooLong plainTooLong) (keep : Bool)
    (stop step : Int64) (rounds : Nat) (counter : Int64) (values : List Value) :
    Accounts limit room (.context id) (count body keep tooLong stop step rounds counter values)
      (Loop.count plainBody keep plainTooLong stop step rounds counter values) := by
  induction rounds generalizing counter values with
  | zero => exact accounts_ite ends (accounts_pure values)
  | succ rounds ih =>
    apply accounts_ite _ (accounts_pure values)
    apply accounts_bind (accounts_round (bodies counter))
    intro ended
    cases Integer.add? counter step with
    | none => cases ended <;> exact accounts_pure _
    | some next =>
      cases ended with
      | left => exact accounts_pure values
      | value result => exact ih next _
      | skipped => exact ih next _

end Account

end Quill
