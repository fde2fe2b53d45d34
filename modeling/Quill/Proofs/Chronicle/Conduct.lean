import Quill.Proofs.Chronicle.Course
import Quill.Proofs.Chronicle.Steps

/-!
# Conduct

Code conducts itself if everything that happens in it is a course of events, if it stores no other
bodies than admitted ones, and if it is left only where an exit stands in it. Which bodies and which
code are admitted is a matter of policy. A policy has to be such that the bodies in admitted code
are admitted, and that everything which leaves an admitted body is taken there or may be a fault.

The rules here say of each way to put code together that it conducts itself if its parts do.
-/

namespace Quill

/-- What is admitted of code and of its faults in a host. -/
structure Policy (host : Host) extends Bodies where
  /-- Whether it is admitted that the expression is evaluated. -/
  code : Located → Prop
  /-- Whether it is admitted that the fault arises. -/
  fault : Fault → Prop
  /-- Only faults at the edges of bodies may fail to be admitted. -/
  fault_of_not_stray : ∀ reason : Fault, ¬reason.Stray → fault reason
  /-- The parts of admitted code are admitted. -/
  code_of_mem_parts : ∀ {expr part : Located}, code expr → part ∈ expr.parts → code part
  /-- The functions in admitted code are admitted. -/
  routine_of_code : ∀ {name : Option String} {parameters : List String} {body : Located}
    {valued : Bool} {span : Span}, code (.function name parameters body valued span) → routine body
  /-- The templates in admitted code are admitted. -/
  members_of_code : ∀ {name : String} {body : Located} {span : Span},
    code (.template name body span) → members body
  /-- What functions evaluate is admitted. -/
  code_of_routine : ∀ {body : Located}, routine body → code body
  /-- What templates evaluate is admitted. -/
  code_of_members : ∀ {body : Located}, members body → code body
  /-- What leaves a function other than to return may be a fault. -/
  fault_of_routine : ∀ {body : Located} {exit : Exit}, routine body → body.exits exit = true →
    exit ≠ .returned → fault exit.fault
  /-- What leaves a template may be a fault. -/
  fault_of_members : ∀ {body : Located} {exit : Exit}, members body → body.exits exit = true →
    fault exit.fault
  /-- Scripts that can be loaded are admitted as programs. -/
  routine_of_script : ∀ {path text : String} {serial : Nat} {root : Located},
    host.disk.readText path = .ok text → Eval.read ⟨serial, path, text⟩ = .ok root → routine root

/-- How code may end of which the exits are known. -/
inductive Ends {Result : Type} {host : Host} (policy : Policy host) (may : Exit → Prop)
    (post : Result → Prop) : Outcome Result → Prop where
  /-- With a result. -/
  | ok {result : Result} {machine : Machine} (results : post result) :
      Ends policy may post (.ok result machine)
  /-- With a failure. -/
  | failed {failure : Failure} {machine : Machine} (admitted : policy.fault failure.fault) :
      Ends policy may post (.error (.failed failure) machine)
  /-- With a `return`. -/
  | returned {value : Value} {machine : Machine} (allowed : may .returned)
      (admitted : policy.Admit value) : Ends policy may post (.error (.returned value) machine)
  /-- With a `break`. -/
  | broke {span : Span} {machine : Machine} (allowed : may .broke) :
      Ends policy may post (.error (.broke span) machine)
  /-- With a `continue`. -/
  | continued {span : Span} {machine : Machine} (allowed : may .continued) :
      Ends policy may post (.error (.continued span) machine)

/-- What was told from a state on, by code in a context of its own. -/
structure Conducts {Result : Type} {host : Host} (policy : Policy host) (own : Option ContextId)
    (may : Exit → Prop) (post : Result → Prop) (machine : Machine)
    (told : Told (Outcome Result)) : Prop where
  /-- It is a course of events. -/
  course : Course host policy.fault own machine told.log (Outcome.machine told.ending)
  /-- All bodies that are stored afterwards are admitted. -/
  admits : policy.AdmitMachine (Outcome.machine told.ending)
  /-- It ends as it may. -/
  ends : Ends policy may post told.ending

/-- What may happen from every state on that leaves room for as many activations as given. -/
def Meets {Result : Type} {host : Host} (policy : Policy host) (left : Nat)
    (own : Option ContextId) (may : Exit → Prop) (post : Result → Prop)
    (told : Chronicle Result) : Prop :=
  ∀ ⦃machine : Machine⦄, host.config.maxCallDepth - machine.depth = left →
    policy.AdmitMachine machine → Conducts policy own may post machine (told machine)

variable {Result Other : Type} {host : Host} {policy : Policy host} {left : Nat}
  {own : Option ContextId} {may : Exit → Prop} {post : Result → Prop}

theorem Ends.of_error {post' : Other → Prop} {signal : Signal} {machine : Machine}
    (ends : Ends policy may post (.error signal machine)) :
    Ends policy may post' (.error signal machine) := by
  cases ends with
  | failed admitted => exact .failed admitted
  | returned allowed admitted => exact .returned allowed admitted
  | broke allowed => exact .broke allowed
  | continued allowed => exact .continued allowed

/-- Closing an activation changes nothing about how the work in it has ended. -/
theorem Ends.leave {outcome : Outcome Result} (ends : Ends policy may post outcome) :
    Ends policy may post (Eval.leave outcome) := by
  cases ends with
  | ok results => exact .ok results
  | failed admitted => exact .failed admitted
  | returned allowed admitted => exact .returned allowed admitted
  | broke allowed => exact .broke allowed
  | continued allowed => exact .continued allowed

/-- What an outcome looks like from outside an edge, and the events that arise there. -/
structure Edge (policy : Policy host) (may : Exit → Prop) (post : Result → Prop)
    (inner : Machine) (outer : Outcome Result) (arising : List Event) : Prop where
  /-- The contexts are the same on both sides. -/
  store : (Outcome.machine outer).store = inner.store
  /-- As many activations are open on both sides. -/
  depth : (Outcome.machine outer).depth = inner.depth
  /-- The running script exports the same on both sides. -/
  exported : (Outcome.machine outer).exported = inner.exported
  /-- The outcome is one that may be. -/
  ends : Ends policy may post outer
  /-- Nothing happens to tables and activations. -/
  quiet : ∀ event ∈ arising, (Happening.noted event).Quiet policy.fault

/-- What may leave a round of a loop: the loop takes a `break` and a `continue`. -/
def InLoop (may : Exit → Prop) : Exit → Prop
  | .returned => may .returned
  | _ => True

/-- The value of a round is admitted, if it has one. -/
def AdmitRound (bodies : Bodies) : Loop.Round → Prop
  | .value value => bodies.Admit value
  | _ => True

/-- What is known of the result of a script. -/
def ScriptEnds (policy : Policy host) : Except Error Value → Prop
  | .ok value => policy.Admit value
  | .error (.running failure) => policy.fault failure.fault
  | .error _ => True

theorem ScriptEnds.admitted {result : Except Error Value} (ends : ScriptEnds policy result)
    (value : Value) (ended : result = .ok value) : policy.Admit value := by
  subst ended
  exact ends

/-- A text that is not a program has no failure of its evaluation. -/
theorem scriptEnds_of_read {source : Source} {error : Error}
    (read : Eval.read source = .error error) : ScriptEnds policy (.error error) := by
  unfold Eval.read at read
  cases scanned : Token.scan source with
  | error other =>
    rw [scanned] at read
    cases read
    trivial
  | ok tokens =>
    rw [scanned] at read
    dsimp only at read
    cases parsed : Grammar.parse tokens with
    | error other =>
      rw [parsed] at read
      cases read
      trivial
    | ok root =>
      rw [parsed] at read
      cases read

namespace Meets

open Quill.Chronicle

/-! ## Sequences and steps -/

theorem pure {result : Result} (results : post result) :
    Meets policy left own may post (Pure.pure result) := by
  intro machine _ admitted
  exact ⟨.still rfl rfl, admitted, .ok results⟩

theorem andThen {middle : Result → Prop} {post : Other → Prop} {first : Chronicle Result}
    {next : Result → Chronicle Other} (firsts : Meets policy left own may middle first)
    (nexts : ∀ result, middle result → Meets policy left own may post (next result)) :
    Meets policy left own may post (first >>= next) := by
  intro machine room admitted
  obtain ⟨course, admits, ends⟩ := firsts room admitted
  cases ended : first machine with
  | mk ending log =>
    rw [ended] at course admits ends
    cases ending with
    | error signal after =>
      rw [andThen_error next ended]
      exact ⟨course, admits, ends.of_error⟩
    | ok result after =>
      obtain ⟨results⟩ := ends
      have same : host.config.maxCallDepth - after.depth = left := by
        have kept : after.depth = machine.depth := course.depth_eq
        rw [kept, room]
      have later := nexts result results same admits
      rw [andThen_ok next ended]
      exact ⟨course.andThen later.course, later.admits, later.ends⟩

theorem ite {condition : Prop} [Decidable condition] {told other : Chronicle Result}
    (yes : Meets policy left own may post told) (no : Meets policy left own may post other) :
    Meets policy left own may post (if condition then told else other) := by
  by_cases truth : condition
  · rw [if_pos truth]
    exact yes
  · rw [if_neg truth]
    exact no

/-- A step that changes no table. -/
theorem perform {step : Eval Result} (still : Still policy.toBodies post step) :
    Meets policy left own may post (Chronicle.perform step) := by
  intro machine _ admitted
  have keeps := still admitted
  unfold Chronicle.perform record
  revert keeps
  generalize step machine = outcome
  intro keeps
  cases keeps with
  | ok kept results =>
    exact ⟨.quiet trivial kept.store kept.depth, admitted.of_kept kept, .ok results⟩
  | failed kept ordinary =>
    have also := policy.fault_of_not_stray _ ordinary.not_stray
    have quiet := Happening.quiet_of_ordinary ordinary also
    exact ⟨.quiet quiet kept.store kept.depth, admitted.of_kept kept, .failed also⟩

theorem raise (fault : Fault) (ordinary : fault.Ordinary) (span : Span) (id : ContextId) :
    Meets policy left own may post (Chronicle.perform (Eval.raise fault span id)) :=
  perform (Still.raise fault ordinary span id)

theorem orRaise {result : Except Fault Result} (sound : Sound post result) (span : Span)
    (id : ContextId) : Meets policy left own may post (Chronicle.orRaise result span id) := by
  cases result with
  | ok result => exact pure sound
  | error fault => exact raise fault sound span id

theorem note {happening : Happening} (quiet : happening.Quiet policy.fault) :
    Meets policy left own may (fun _ => True) (Chronicle.note happening) := by
  intro machine _ admitted
  exact ⟨.quiet quiet rfl rfl, admitted, .ok trivial⟩

/-! ## Exits -/

theorem returned (allowed : may .returned) {value : Value} (admitted : policy.Admit value) :
    Meets policy left own may post (Chronicle.perform (throw (.returned value))) := by
  intro machine _ all
  exact ⟨.quiet trivial rfl rfl, all, .returned allowed admitted⟩

theorem broke (allowed : may .broke) (span : Span) :
    Meets policy left own may post (Chronicle.perform (throw (.broke span))) := by
  intro machine _ all
  exact ⟨.quiet trivial rfl rfl, all, .broke allowed⟩

theorem continued (allowed : may .continued) (span : Span) :
    Meets policy left own may post (Chronicle.perform (throw (.continued span))) := by
  intro machine _ all
  exact ⟨.quiet trivial rfl rfl, all, .continued allowed⟩

/-! ## Bindings -/

/-- Binding a name conducts itself wherever the course of events allows the binding. -/
theorem assign_of {target : ContextId} {name : String} {value : Value} {manner : Manner}
    (course : ∀ machine : Machine, Course host policy.fault own machine
      [(Happening.bound target name value manner).at (machine.binding target name value)]
      (machine.binding target name value))
    (admitted : policy.Admit value) (span : Span) (id : ContextId) :
    Meets policy left own may (fun _ => True)
      (Chronicle.assign target name value manner span id) := by
  intro machine _ all
  unfold Chronicle.assign record Eval.assign
  by_cases keeps : machine.store.protects target name = true
  · simp only [if_pos keeps]
    have also : policy.fault (.immutableBinding name) := policy.fault_of_not_stray _ not_false
    have quiet : (Happening.noted (.raised (.immutableBinding name))).Quiet policy.fault := also
    exact ⟨.quiet quiet rfl rfl, all, .failed also⟩
  · simp only [if_neg keeps]
    have stored := Store.All.define all.store target name admitted true
    exact ⟨course machine, ⟨stored, all.exported⟩, .ok trivial⟩

theorem assign {id : ContextId} {name : String} {value : Value} (admitted : policy.Admit value)
    (span : Span) :
    Meets policy left (some id) may (fun _ => True)
      (Chronicle.assign id name value .direct span id) :=
  assign_of (fun machine => .bound machine id name value) admitted span id

theorem assignMember {object : Object} (made : object.isInstance = true) {name : String}
    {value : Value} (admitted : policy.Admit value) (span : Span) (id : ContextId) :
    Meets policy left own may (fun _ => True)
      (Chronicle.assign object.context name value (.member object) span id) :=
  assign_of (fun machine => .boundMember machine name value made) admitted span id

theorem define {id : ContextId} (name : Option String) (parameters : List String)
    {body : Located} (routine : policy.routine body) (valued : Bool) (span : Span) :
    Meets policy left (some id) may policy.Admit
      (Chronicle.define name parameters body valued span id) := by
  apply andThen (perform Still.freshId)
  intro serial _
  cases name with
  | none => exact pure routine
  | some bound =>
    apply andThen
    · apply assign
      exact routine
    · intro _ _
      exact pure routine

theorem defineTemplate {id : ContextId} (name : String) {body : Located}
    (members : policy.members body) (span : Span) :
    Meets policy left (some id) may policy.Admit
      (Chronicle.defineTemplate name body span id) := by
  apply andThen (perform Still.freshId)
  intro serial _
  apply andThen
  · apply assign
    exact members
  · intro _ _
    exact pure members

/-! ## Edges -/

theorem regard {inside : Exit → Prop} {post' : Other → Prop} {view : Outcome Result → Outcome Other}
    {arising : Outcome Result → List Event} {inner : Chronicle Result}
    (meets : Meets policy left own inside post inner)
    (edge : ∀ outcome, Ends policy inside post outcome →
      Edge policy may post' (Outcome.machine outcome) (view outcome) (arising outcome)) :
    Meets policy left own may post' (Chronicle.regard view arising inner) := by
  intro machine room admitted
  obtain ⟨course, admits, ends⟩ := meets room admitted
  obtain ⟨store, depth, exported, outer, quiet⟩ := edge _ ends
  have events : Course host policy.fault own _ _ _ :=
    (Course.events quiet _).andThen (.still store depth)
  rw [List.append_nil] at events
  exact ⟨course.andThen events, ⟨store ▸ admits.store, exported ▸ admits.exported⟩, outer⟩

theorem round {body : Chronicle Value}
    (meets : Meets policy left own (InLoop may) policy.Admit body) :
    Meets policy left own may (AdmitRound policy.toBodies) (Chronicle.round body) := by
  apply regard meets
  intro outcome ends
  have none : ∀ event ∈ ([] : List Event), (Happening.noted event).Quiet policy.fault :=
    fun event member => absurd member List.not_mem_nil
  cases ends with
  | ok results => exact ⟨rfl, rfl, rfl, .ok results, none⟩
  | failed admitted => exact ⟨rfl, rfl, rfl, .failed admitted, none⟩
  | returned allowed admitted => exact ⟨rfl, rfl, rfl, .returned allowed admitted, none⟩
  | broke => exact ⟨rfl, rfl, rfl, .ok trivial, none⟩
  | continued => exact ⟨rfl, rfl, rfl, .ok trivial, none⟩

/-- A body that takes the signal to return has no other faults at its edge than admitted ones. -/
theorem quiet_strayFromBody {inside : Exit → Prop} {outcome : Outcome Value}
    (ends : Ends policy inside policy.Admit outcome)
    (faults : ∀ exit, inside exit → exit ≠ .returned → policy.fault exit.fault) :
    ∀ event ∈ Execution.strayFromBody outcome, (Happening.noted event).Quiet policy.fault := by
  cases ends with
  | ok => simp [Execution.strayFromBody]
  | failed => simp [Execution.strayFromBody, Signal.faults]
  | returned => simp [Execution.strayFromBody]
  | broke allowed =>
    exact List.forall_mem_singleton.mpr (Exit.quiet (faults .broke allowed (by decide)))
  | continued allowed =>
    exact List.forall_mem_singleton.mpr (Exit.quiet (faults .continued allowed (by decide)))

/-- A call takes the signal to return. Everything else that leaves the body is a fault. -/
theorem resultOfBody {body : Chronicle Value} {inside : Exit → Prop}
    (meets : Meets policy left own inside policy.Admit body)
    (faults : ∀ exit, inside exit → exit ≠ .returned → policy.fault exit.fault)
    (function : UserFunction) (span : Span) (id : ContextId) :
    Meets policy left own may policy.Admit
      (Chronicle.regard (Eval.resultOfBody function span id) Execution.strayFromBody body) := by
  apply regard meets
  intro outcome ends
  have quiet := quiet_strayFromBody ends faults
  cases ends with
  | @ok value machine results =>
    have shown : policy.Admit (if function.valued then value else .null) := by
      split
      · exact results
      · trivial
    exact ⟨rfl, rfl, rfl, .ok shown, quiet⟩
  | failed admitted => exact ⟨rfl, rfl, rfl, .failed admitted, quiet⟩
  | returned allowed admitted => exact ⟨rfl, rfl, rfl, .ok admitted, quiet⟩
  | broke allowed => exact ⟨rfl, rfl, rfl, .failed (faults .broke allowed (by decide)), quiet⟩
  | continued allowed =>
    exact ⟨rfl, rfl, rfl, .failed (faults .continued allowed (by decide)), quiet⟩

/-- A script takes the signal to return. Everything else that leaves it is its error. -/
theorem resultOfScript {inside : Exit → Prop} {outcome : Outcome Value}
    (ends : Ends policy inside policy.Admit outcome)
    (faults : ∀ exit, inside exit → exit ≠ .returned → policy.fault exit.fault) (root : Located)
    (id : ContextId) :
    (Eval.resultOfScript root id outcome).2 = Outcome.machine outcome ∧
      ScriptEnds policy (Eval.resultOfScript root id outcome).1 := by
  cases ends with
  | ok results => exact ⟨rfl, results⟩
  | failed admitted => exact ⟨rfl, admitted⟩
  | returned allowed admitted => exact ⟨rfl, admitted⟩
  | broke allowed => exact ⟨rfl, faults .broke allowed (by decide)⟩
  | continued allowed => exact ⟨rfl, faults .continued allowed (by decide)⟩

/-- Everything that leaves the statements of a template is a fault of the instantiation. -/
theorem instanceOfMembers {body : Chronicle Value} {inside : Exit → Prop}
    (meets : Meets policy left own inside policy.Admit body)
    (faults : ∀ exit, inside exit → policy.fault exit.fault) {template : Object}
    (members : policy.members template.body) (span : Span) (id : ContextId) :
    Meets policy left own may policy.Admit
      (Chronicle.regard (Eval.instanceOfMembers template span id) Execution.strayFromMembers
        body) := by
  apply regard meets
  intro outcome ends
  cases ends with
  | ok results => exact ⟨rfl, rfl, rfl, .ok members, by simp [Execution.strayFromMembers]⟩
  | failed admitted =>
    exact ⟨rfl, rfl, rfl, .failed admitted, by simp [Execution.strayFromMembers, Signal.faults]⟩
  | returned allowed =>
    have also := faults .returned allowed
    exact ⟨rfl, rfl, rfl, .failed also, List.forall_mem_singleton.mpr (Exit.quiet also)⟩
  | broke allowed =>
    have also := faults .broke allowed
    exact ⟨rfl, rfl, rfl, .failed also, List.forall_mem_singleton.mpr (Exit.quiet also)⟩
  | continued allowed =>
    have also := faults .continued allowed
    exact ⟨rfl, rfl, rfl, .failed also, List.forall_mem_singleton.mpr (Exit.quiet also)⟩

/-! ## Loops -/

/-- The values of the rounds are admitted if the value of the last one is. -/
theorem collect_admits {values : List Value} (earlier : ∀ value ∈ values, policy.Admit value)
    (keep : Bool) {ended : Loop.Round} (last : AdmitRound policy.toBodies ended) :
    ∀ value ∈ Loop.collect keep values ended, policy.Admit value := by
  apply Loop.forall_mem_collect earlier keep
  cases ended with
  | value value => exact last
  | skipped => trivial
  | left => trivial

theorem repeatWhile {condition body : Chronicle Value} {tooLong : Chronicle (List Value)}
    (conditions : Meets policy left own may policy.Admit condition)
    (bodies : Meets policy left own (InLoop may) policy.Admit body)
    (ends : Meets policy left own may (fun values => ∀ value ∈ values, policy.Admit value) tooLong)
    (keep : Bool) (rounds : Nat) {values : List Value}
    (earlier : ∀ value ∈ values, policy.Admit value) :
    Meets policy left own may (fun values => ∀ value ∈ values, policy.Admit value)
      (Chronicle.repeatWhile condition body keep tooLong rounds values) := by
  induction rounds generalizing values with
  | zero => exact andThen conditions fun truth _ => ite ends (pure earlier)
  | succ rounds ih =>
    apply andThen conditions
    intro truth _
    apply ite _ (pure earlier)
    apply andThen (round bodies)
    intro ended last
    have more := collect_admits earlier keep last
    cases ended with
    | left => exact pure earlier
    | value result => exact ih more
    | skipped => exact ih more

theorem count {body : Int64 → Chronicle Value} {tooLong : Chronicle (List Value)}
    (bodies : ∀ counter, Meets policy left own (InLoop may) policy.Admit (body counter))
    (ends : Meets policy left own may (fun values => ∀ value ∈ values, policy.Admit value) tooLong)
    (keep : Bool) (stop step : Int64) (rounds : Nat) (counter : Int64) {values : List Value}
    (earlier : ∀ value ∈ values, policy.Admit value) :
    Meets policy left own may (fun values => ∀ value ∈ values, policy.Admit value)
      (Chronicle.count body keep tooLong stop step rounds counter values) := by
  induction rounds generalizing counter values with
  | zero => exact ite ends (pure earlier)
  | succ rounds ih =>
    apply ite _ (pure earlier)
    apply andThen (round (bodies counter))
    intro ended last
    have more := collect_admits earlier keep last
    cases Integer.add? counter step with
    | none => cases ended <;> first | exact pure earlier | exact pure more
    | some next =>
      cases ended with
      | left => exact pure earlier
      | value result => exact ih next more
      | skipped => exact ih next more

/-- A loop that takes too many rounds fails. -/
theorem loopLimit (span : Span) (id : ContextId) :
    Meets policy left own may (fun values : List Value => ∀ value ∈ values, policy.Admit value)
      (Chronicle.perform (Eval.raise (.loopLimit host.config.maxLoopIterations) span id)) :=
  raise (.loopLimit host.config.maxLoopIterations) trivial span id

end Meets

end Quill
