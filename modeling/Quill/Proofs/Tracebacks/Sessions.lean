import Quill.Proofs.Tracebacks.Evaluation
import Quill.Proofs.Tracebacks.Provenance

/-!
# Tracebacks retrace the calls

Whatever is asked of an interpreter, in whatever session, the account of it ends as evaluation does,
and the traceback of every failure in it retraces the calls and the instantiations that had been
entered when the failure arose. No failure that values carry in the end is missing in it. The
outermost contexts of sessions are what makes a start: code begins in one of them, and nothing that
happens later makes them anything else.
-/

namespace Quill

/-! ## Tracebacks frame by frame -/

/-- The traceback of a failure retraces a call stack, which is not too high. -/
structure Incident.Retraced (limit : Nat) (incident : Incident) : Prop where
  /-- The first frame is one of the outermost context. -/
  first : incident.failure.traceback.head?.map (·.context) = some incident.stack.root
  /-- The last frame is the one of the place of the failure, in the innermost context. -/
  last : incident.failure.traceback.getLast? =
    some (Frame.at incident.failure.span incident.stack.innermost)
  /-- There is one frame for the outermost context and one for each activation. -/
  length : incident.failure.traceback.length = 1 + incident.stack.activations.length
  /-- Each activation has the frame behind the one of the expression that it was entered through. -/
  entered : ∀ index activation, incident.stack.activations[index]? = some activation →
    (∃ context, incident.failure.traceback[index]? = some (Frame.at activation.entered context)) ∧
      incident.failure.traceback[index + 1]?.map (·.context) = some activation.context
  /-- There are not more frames than the limit allows. -/
  bounded : incident.failure.traceback.length ≤ limit + 1

namespace CallStack

variable (stack : CallStack) (span : Span)

theorem length_traceback : (stack.traceback span).length = stack.activations.length + 1 := by
  rw [traceback, List.length_zipWith, length_places, length_contexts, Nat.min_self]

/-- Each context has a frame, in the order in which they were entered. -/
theorem contexts_traceback : (stack.traceback span).map (·.context) = stack.contexts := by
  have contexts_zipWith (places : List Span) (contexts : List String)
      (same : places.length = contexts.length) :
      (List.zipWith Frame.at places contexts).map (·.context) = contexts := by
    induction contexts generalizing places with
    | nil => rw [List.zipWith_nil_right, List.map_nil]
    | cons context rest ih =>
      cases places with
      | nil => cases same
      | cons place more =>
        rw [List.zipWith_cons_cons, List.map_cons, ih more (Nat.succ.inj same)]
        rfl
  exact contexts_zipWith _ _ (by rw [length_places, length_contexts])

/-- Either nothing has been entered, or something has been entered last. -/
theorem outermost_or_push :
    stack = .outermost stack.root ∨ ∃ outer name entered, stack = push outer name entered := by
  obtain ⟨root, activations⟩ := stack
  obtain rfl | ⟨earlier, last, rfl⟩ := List.eq_nil_or_concat activations
  · exact Or.inl rfl
  · exact Or.inr ⟨⟨root, earlier⟩, last.context, last.entered, by simp [push]⟩

/-- The innermost context has the frame of the place. -/
theorem getLast?_traceback :
    (stack.traceback span).getLast? = some (Frame.at span stack.innermost) := by
  obtain same | ⟨outer, name, entered, rfl⟩ := stack.outermost_or_push
  · rw [same]
    rfl
  · rw [traceback_push, List.getLast?_append, innermost_push]
    rfl

/-- The context from which an activation was entered has the frame of the expression that entered
it. -/
theorem getElem?_traceback {index : Nat} {activation : Activation}
    (found : stack.activations[index]? = some activation) :
    ∃ context, (stack.traceback span)[index]? = some (Frame.at activation.entered context) := by
  obtain ⟨inside, _⟩ := List.getElem?_eq_some_iff.mp found
  have place : (stack.places span)[index]? = some activation.entered := by
    rw [places, List.getElem?_append_left (by rwa [List.length_map]), List.getElem?_map, found]
    rfl
  have known : index < stack.contexts.length := by
    rw [length_contexts]
    exact Nat.lt_succ_of_lt inside
  refine ⟨stack.contexts[index], ?_⟩
  rw [traceback, List.getElem?_zipWith, place, List.getElem?_eq_getElem known]

end CallStack

theorem Incident.Faithful.retraced {limit : Nat} {incident : Incident}
    (faithful : incident.Faithful limit) : incident.Retraced limit where
  first := by
    rw [← List.head?_map, faithful.traceback, CallStack.contexts_traceback]
    rfl
  last := by rw [faithful.traceback, CallStack.getLast?_traceback]
  length := by rw [faithful.traceback, CallStack.length_traceback, Nat.add_comm]
  entered index activation found := by
    rw [faithful.traceback]
    refine ⟨incident.stack.getElem?_traceback _ found, ?_⟩
    rw [← List.getElem?_map, CallStack.contexts_traceback, CallStack.contexts,
      List.getElem?_cons_succ, List.getElem?_map, found]
    rfl
  bounded := by
    rw [faithful.traceback, CallStack.length_traceback]
    exact Nat.succ_le_succ faithful.bounded

/-! ## Sessions -/

/-- The sessions that there are: new ones, and those that come from others by asking the interpreter
something or by what its owner may do in between. -/
inductive Session.Reached : Session → Prop where
  /-- A new session. -/
  | start (input : List UInt8) : Reached (.start input)
  /-- Something has been asked. -/
  | answer {session : Session} (host : Host) (request : Request) (reached : Reached session) :
      Reached (session.answer host request).2
  /-- A name has been bound. -/
  | define {session : Session} (name : String) (value : Value) (isMutable : Bool)
      (reached : Reached session) : Reached (session.define name value isMutable)
  /-- An identity has been given away. -/
  | freshId {session : Session} (reached : Reached session) : Reached session.freshId.2
  /-- The output has been made to fail or to work. -/
  | breakOutput {session : Session} (reason : Option String) (reached : Reached session) :
      Reached (session.breakOutput reason)
  /-- The output has been taken. -/
  | takeOutput {session : Session} (reached : Reached session) : Reached session.takeOutput.2

/-- What is told about something that was asked of an interpreter: how it ended, and that all
failures on the way retrace the calls and none of them gets lost. -/
structure Account.Retraced (limit : Nat) (told : Accounted (Except Error Value × Session))
    (plain : Except Error Value × Session) : Prop where
  /-- The account ends as the answer does. -/
  ending : told.ending = plain
  /-- The traceback of each failure retraces the calls. -/
  retraced : ∀ incident ∈ told.incidents, incident.Retraced limit
  /-- If a failure was raised, either it is the last one or the next one quotes it. -/
  answered : ∀ earlier incident next later,
    told.incidents = earlier ++ incident :: next :: later → incident.raised = true →
      next.Answers incident.failure
  /-- If the last failure was raised, the answer is that failure, and otherwise it is none. -/
  failed : Error.failure? plain.1 = told.incidents.getLast?.bind Incident.raises

namespace Account

theorem Retraced.of_passes {limit : Nat} {told : Accounted (Except Error Value × Session)}
    {plain : Except Error Value × Session} (ending : told.ending = plain)
    (faithful : ∀ incident ∈ told.incidents, incident.Faithful limit)
    (passes : Passes none told.incidents (Error.failure? plain.1)) : Retraced limit told plain where
  ending := ending
  retraced incident member := (faithful incident member).retraced
  answered earlier incident next later same raised := by
    rw [same] at passes
    exact passes.answered raised
  failed := by
    rw [passes.last_eq]
    cases told.incidents.getLast? <;> rfl

/-- A program that is run in an outermost context. -/
theorem runProgram_retraced (host : Host) (session : Session) {id : ContextId} {root : String}
    (outermost : session.machine.store.Outermost id root) (name text : String) :
    session.machine.store.Retains (session.runIn host id name text).2.machine.store ∧
      Retraced host.config.maxCallDepth (runProgram host session id name text)
        (session.runIn host id name text) := by
  have room := Nat.sub_le host.config.maxCallDepth session.machine.depth
  have inside := accounts_evaluate host.config.maxCallDepth host
    (host.config.maxCallDepth - session.machine.depth)
  obtain ⟨same, retains, faithful, passes⟩ := relates_runText inside room outermost name text
  refine ⟨retains, .of_passes ?_ faithful passes⟩
  rw [runProgram, same]
  rfl

theorem globals_resultOfCall (session : Session) (span : Span) (outcome : Outcome Value) :
    (session.resultOfCall span outcome).2.globals = session.globals := by
  cases outcome <;> rfl

/-- A value that is called from the outermost context. -/
theorem callFromOutside_retraced (host : Host) (session : Session) {root : String}
    (outermost : session.machine.store.Outermost session.globals root) (callee : Value)
    (arguments : List Value) (span : Span) :
    (session.call host callee arguments span).2.globals = session.globals ∧
      session.machine.store.Retains (session.call host callee arguments span).2.machine.store ∧
      Retraced host.config.maxCallDepth (callFromOutside host session callee arguments span)
        (session.call host callee arguments span) := by
  have rooms := rooms_inside host.config.maxCallDepth host
    (host.config.maxCallDepth - session.machine.depth)
  have bounded : (CallStack.outermost root).activations.length +
      (host.config.maxCallDepth - session.machine.depth) ≤ host.config.maxCallDepth := by
    rw [CallStack.outermost, List.length_nil, Nat.zero_add]
    exact Nat.sub_le _ _
  have relates := accounts_callValue host rooms callee arguments span session.globals
    outermost.stands bounded
  have attentive := attentive_resultOfCall session span
  refine ⟨globals_resultOfCall session span _, attentive.retains relates, .of_passes ?_ ?_ ?_⟩
  · rw [callFromOutside, beginning_eq outermost, relates.ending]
    rfl
  · rw [callFromOutside, beginning_eq outermost, relates.ending]
    exact attentive.faithful relates outermost.stands (bounded_of_room bounded)
  · rw [callFromOutside, beginning_eq outermost, relates.ending]
    exact attentive.passes relates

/-- Whatever is asked in a session with an outermost context. -/
theorem retraced_of_outermost (host : Host) {session : Session} {root : String}
    (outermost : session.machine.store.Outermost session.globals root) (request : Request) :
    (session.answer host request).2.machine.store.Outermost
        (session.answer host request).2.globals root ∧
      Retraced host.config.maxCallDepth (answer host session request)
        (session.answer host request) := by
  cases request with
  | run name text =>
    obtain ⟨retains, retraced⟩ := runProgram_retraced host session outermost name text
    exact ⟨outermost.retained retains, retraced⟩
  | runFresh name text =>
    obtain ⟨kept, fresh⟩ := session.machine.addGlobals_outermost
    let begun : Session := { session with machine := session.machine.addGlobals.2 }
    obtain ⟨retains, retraced⟩ := @runProgram_retraced host begun _ _ fresh name text
    exact ⟨outermost.retained (kept.trans retains), retraced⟩
  | call callee arguments span =>
    obtain ⟨same, retains, retraced⟩ := callFromOutside_retraced host session outermost callee
      arguments span
    refine ⟨?_, retraced⟩
    change Store.Outermost _ (session.call host callee arguments span).2.globals root
    rw [same]
    exact outermost.retained retains

end Account

/-- Every session has an outermost context, in which its programs are run. -/
theorem Session.Reached.outermost {session : Session} (reached : session.Reached) :
    session.machine.store.Outermost session.globals Machine.programName := by
  induction reached with
  | start input => exact (Machine.addGlobals_outermost _).2
  | answer host request reached ih => exact (Account.retraced_of_outermost host ih request).1
  | define name value isMutable reached ih => exact ih.retained (Store.retains_define _ _ _ _ _)
  | freshId reached ih => exact ih
  | breakOutput reason reached ih => exact ih
  | takeOutput reached ih => exact ih

/-- Whatever is asked of an interpreter in any session, all failures that arise retrace the calls
and instantiations that were entered, whether they are raised or given back as values. A failure
that is raised stays what it is until the end, except that a script's is replaced by one of the
function that has run the script. And the failures that values carry in the end are some of these,
unless values carried them before. -/
theorem tracebacks_retrace (host : Host) {session : Session} (reached : session.Reached)
    (request : Request) :
    Account.Retraced host.config.maxCallDepth (Account.answer host session request)
        (session.answer host request) ∧
      ∀ failure, Session.Leaves failure (session.answer host request) →
        session.machine.Carries failure ∨ request.Carries failure ∨
          ∃ incident ∈ (Account.answer host session request).incidents,
            incident.failure = failure := by
  have retraced := (Account.retraced_of_outermost host reached.outermost request).2
  refine ⟨retraced, ?_⟩
  intro failure leaves
  rw [← retraced.ending] at leaves
  exact Account.told_of_leaves host session request leaves

/-- A failure is given back as a value, which gets a name, and then the failure of a script is
raised and quoted. -/
theorem tracebacks_retrace_include :
    let text := "func f(x) -> Remove([], x)\nlost = f(5)\nInclude(\"lib\")"
    let library := "func g(x) -> x / 0\ng(1)"
    let host : Host := ⟨{}, fun _ => .ok library.toUTF8.toList, 0⟩
    let session := Session.start []
    let request := Request.run "main" text
    let told := Account.answer host session request
    let removing := [⟨"main", 2, "<program>"⟩, ⟨"main", 1, "f"⟩, ⟨"main", 1, "Remove"⟩]
    session.Reached ∧
      told.incidents.map (fun incident => (incident.raised, incident.failure.traceback)) =
        [(false, removing),
          (true, [⟨"./lib", 2, "<program>"⟩, ⟨"./lib", 1, "g"⟩]),
          (true, [⟨"main", 3, "<program>"⟩, ⟨"main", 3, "Include"⟩])] ∧
      (((session.answer host request).2.lookup "lost").bind Value.failure?).map (·.traceback) =
        some removing ∧
      Account.Retraced host.config.maxCallDepth told (session.answer host request) ∧
      ∀ failure, Session.Leaves failure (session.answer host request) →
        session.machine.Carries failure ∨ request.Carries failure ∨
          ∃ incident ∈ told.incidents, incident.failure = failure := by
  intro text library host session request told removing
  have reached : session.Reached := .start []
  refine ⟨reached, ?_, ?_, tracebacks_retrace host reached request⟩
  · decide +kernel
  · decide +kernel

end Quill
