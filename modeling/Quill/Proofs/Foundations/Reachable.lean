import Quill.Proofs.Foundations.Evaluation
import Quill.Proofs.Tracebacks.Program

/-!
# The graph of contexts

The state of an interpreter changes in runs, and between them by what its owner does: contexts are
made, names are bound, and values are handed over that came out of earlier runs. In all states that
can be reached in this way, and at every moment of every run, the graph of contexts is well-founded
along its links, however values refer to contexts.
-/

namespace Quill

namespace Machine

/-- What may be told from a state on: an expression is evaluated in one of the contexts, or a value
is called from one. Values that come from outside refer to nothing but what there is. -/
inductive Runs (machine : Machine) : Told (Outcome Value) → Prop where
  /-- An expression is evaluated. -/
  | evaluation (host : Host) (room : Nat) (expr : Located) {id : ContextId}
      (present : id < machine.store.size) :
      Runs machine (Chronicle.evaluate host room expr id machine)
  /-- A value is called. -/
  | call (host : Host) (room : Nat) {callee : Value} {arguments : List Value} (span : Span)
      {caller : ContextId} (present : caller < machine.store.size)
      (called : callee.Present machine.store.size)
      (given : Value.AllPresent machine.store.size arguments) :
      Runs machine (Chronicle.callValue host (Chronicle.inside host room) callee arguments span
        caller machine)

/-- The states that there are. -/
inductive Reachable : Machine → Prop where
  /-- The state of a new interpreter. -/
  | start (input : List UInt8) : Reachable (initial input).2
  /-- The state at a moment of a run. -/
  | during {machine : Machine} (reachable : Reachable machine) {told : Told (Outcome Value)}
      (runs : machine.Runs told) {moment : Moment} (member : moment ∈ told.log) :
      Reachable moment.machine
  /-- The state at the end of a run. -/
  | after {machine : Machine} (reachable : Reachable machine) {told : Told (Outcome Value)}
      (runs : machine.Runs told) : Reachable (Outcome.machine told.ending)
  /-- Another outermost context has been added, with all that a program finds in it. -/
  | globals {machine : Machine} (reachable : Reachable machine) : Reachable machine.addGlobals.2
  /-- An outermost context has been added that binds nothing. -/
  | root {machine : Machine} (reachable : Reachable machine) (name : String) :
      Reachable { machine with store := (machine.store.root name).2 }
  /-- A context has been entered from outside. -/
  | nested {machine : Machine} (reachable : Reachable machine) (name : String) {caller : ContextId}
      (present : caller < machine.store.size) (span : Span) (scope : Option ContextId)
      (there : ∀ outer, scope = some outer → outer < machine.store.size) :
      Reachable { machine with store := (machine.store.nested name caller span scope).2 }
  /-- A name has been bound from outside. -/
  | defined {machine : Machine} (reachable : Reachable machine) (target : ContextId)
      (name : String) {value : Value} (isMutable : Bool)
      (given : value.Present machine.store.size) :
      Reachable { machine with store := machine.store.define target name value isMutable }
  /-- Nothing that is bound or exported has changed. -/
  | aside {machine after : Machine} (reachable : Reachable machine)
      (store : after.store = machine.store) (exported : after.exported = machine.exported) :
      Reachable after

variable {machine : Machine}

/-- A run from a grounded state goes through grounded states, and ends with a value that refers to
what there is. -/
theorem Runs.grounded {told : Told (Outcome Value)} (runs : machine.Runs told)
    (grounded : machine.Grounded) :
    Regime.grounded.Upheld Value.Present machine told.ending ∧
      ∀ moment ∈ told.log, moment.machine.Grounded := by
  -- Whatever a guarded run would do instead, it is never compared.
  let astray : Recount := fun _ _ machine => ⟨.ok .null machine, []⟩
  cases runs with
  | evaluation host room expr present =>
    have matched := matches_evaluate host astray room expr present (Nat.le_refl _) grounded
    exact ⟨matched.toUpheld, matched.moments⟩
  | call host room span present called given =>
    have matched := matches_callValue host astray room called given span present (Nat.le_refl _)
      grounded
    exact ⟨matched.toUpheld, matched.moments⟩

/-- All states that can be reached are grounded. -/
theorem Reachable.grounded (reachable : machine.Reachable) : machine.Grounded := by
  induction reachable with
  | start input => exact (Grounded.empty input 1).addGlobals
  | during _ runs member grounded => exact (runs.grounded grounded).2 _ member
  | after _ runs grounded => exact (runs.grounded grounded).1.orders
  | globals _ grounded => exact grounded.addGlobals
  | root _ name grounded =>
    exact grounded.add Table.all_empty (fun _ none => nomatch none) fun _ none => nomatch none
  | nested _ name present span scope there grounded =>
    exact grounded.add Table.all_empty there fun entry link => Option.some.inj link ▸ present
  | defined _ target name isMutable given grounded =>
    exact grounded.define target name given isMutable
  | aside _ store exported grounded =>
    exact grounded.congr store (exported ▸ grounded.exported)

end Machine

/-! ## Sessions -/

/-- Whether a request hands over nothing but what there is. -/
def Request.Present (size : Nat) : Request → Prop
  | .call callee arguments _ => callee.Present size ∧ Value.AllPresent size arguments
  | _ => True

/-- The sessions that there are if the values that are handed over refer to what there is. -/
inductive Session.Handled : Session → Prop where
  /-- A new session. -/
  | start (input : List UInt8) : Handled (.start input)
  /-- Something has been asked. -/
  | answer {session : Session} (handled : Handled session) (host : Host) {request : Request}
      (given : request.Present session.machine.store.size) : Handled (session.answer host request).2
  /-- A name has been bound. -/
  | define {session : Session} (handled : Handled session) (name : String) {value : Value}
      (isMutable : Bool) (given : value.Present session.machine.store.size) :
      Handled (session.define name value isMutable)
  /-- An identity has been given away. -/
  | freshId {session : Session} (handled : Handled session) : Handled session.freshId.2
  /-- The output has been made to fail or to work. -/
  | breakOutput {session : Session} (handled : Handled session) (reason : Option String) :
      Handled (session.breakOutput reason)
  /-- The output has been taken. -/
  | takeOutput {session : Session} (handled : Handled session) : Handled session.takeOutput.2

/-- How a session goes on from a state: no context is lost, its programs are run in the same one as
before, and a value that it answers with refers to what there is then. -/
structure Session.Continues (session : Session) (answer : Except Error Value × Session) : Prop where
  /-- The state can be reached. -/
  reachable : answer.2.machine.Reachable
  /-- No context is removed. -/
  size : session.machine.store.size ≤ answer.2.machine.store.size
  /-- The outermost context of the session is the same. -/
  globals : answer.2.globals = session.globals
  /-- The value refers to what there is. -/
  value : ∀ value, answer.1 = .ok value → value.Present answer.2.machine.store.size

/-- The value that a script ends with refers to what there is. -/
theorem Eval.present_resultOfScript {outcome : Outcome Value}
    (ends : Regime.grounded.Ends Value.Present outcome) (root : Located) (id : ContextId)
    (value : Value) (ended : (Eval.resultOfScript root id outcome).1 = .ok value) :
    value.Present (Outcome.machine outcome).store.size := by
  cases outcome with
  | ok result after =>
    obtain rfl := Except.ok.inj ended
    exact ends
  | error signal after =>
    cases signal with
    | returned result =>
      obtain rfl := Except.ok.inj ended
      exact ends
    | failed failure => cases ended
    | broke span => cases ended
    | continued span => cases ended

namespace Session

variable {session : Session}

theorem Handled.run (handled : session.Handled) (host : Host) (name text : String) :
    (session.run host name text).2.Handled :=
  @Handled.answer session handled host (.run name text) trivial

theorem continues_runIn (reachable : session.machine.Reachable) (host : Host) {id : ContextId}
    (present : id < session.machine.store.size) (name text : String) :
    session.Continues (session.runIn host id name text) := by
  let start := { session.machine with serial := session.machine.serial + 1 }
  have begun : start.Reachable := reachable.aside rfl rfl
  unfold Session.runIn Eval.runText
  dsimp only
  cases Eval.read ⟨session.machine.serial, name, text⟩ with
  | error error => exact ⟨begun, Nat.le_refl _, rfl, fun _ none => nomatch none⟩
  | ok root =>
    let room := host.config.maxCallDepth - session.machine.depth
    have runs : start.Runs _ := .evaluation host room root present
    have later := begun.after runs
    have upheld := (runs.grounded begun.grounded).1
    rw [Chronicle.ending_evaluate] at later upheld
    have values := Eval.present_resultOfScript upheld.ends root id
    rw [← Eval.machine_resultOfScript root id] at later values
    refine ⟨later, ?_, rfl, values⟩
    exact Nat.le_trans upheld.size (Nat.le_of_eq <|
      congrArg (fun machine => machine.store.size) (Eval.machine_resultOfScript root id _).symm)

theorem continues_call (reachable : session.machine.Reachable) (host : Host) {callee : Value}
    {arguments : List Value} (span : Span) (present : session.globals < session.machine.store.size)
    (called : callee.Present session.machine.store.size)
    (given : Value.AllPresent session.machine.store.size arguments) :
    session.Continues (session.call host callee arguments span) := by
  let room := host.config.maxCallDepth - session.machine.depth
  have runs : session.machine.Runs _ := .call host room span present called given
  have later := reachable.after runs
  have upheld := (runs.grounded reachable.grounded).1
  rw [Chronicle.ending_callValue] at later upheld
  unfold Session.call
  dsimp only
  revert later upheld
  generalize Eval.callValue host (Eval.inside host room) callee arguments span session.globals
    session.machine = outcome
  intro later upheld
  cases outcome with
  | ok value after =>
    exact ⟨later, upheld.size, rfl, fun _ same => Except.ok.inj same ▸ upheld.ends⟩
  | error signal after => exact ⟨later, upheld.size, rfl, fun _ none => nomatch none⟩

/-- Whatever is asked, the session goes on from a state that can be reached. -/
theorem continues_answer (reachable : session.machine.Reachable)
    (present : session.globals < session.machine.store.size) (host : Host) {request : Request}
    (given : request.Present session.machine.store.size) :
    session.Continues (session.answer host request) := by
  cases request with
  | run name text => exact continues_runIn reachable host present name text
  | call callee arguments span => exact continues_call reachable host span present given.1 given.2
  | runFresh name text =>
    have size : session.machine.addGlobals.2.store.size = session.machine.store.size + 1 :=
      session.machine.grows_addGlobals.size
    have fresh : session.machine.store.size < session.machine.addGlobals.2.store.size :=
      Nat.lt_of_lt_of_eq (Nat.lt_succ_self _) size.symm
    obtain ⟨later, grown, globals, values⟩ :=
      @continues_runIn ⟨session.machine.addGlobals.2, session.globals⟩ reachable.globals host _
        fresh name text
    exact ⟨later, Nat.le_trans (Nat.le_of_lt fresh) grown, globals, values⟩

/-- The states of sessions can be reached, also between what is asked of them. -/
theorem Handled.reachable (handled : session.Handled) :
    session.machine.Reachable ∧ session.globals < session.machine.store.size := by
  induction handled with
  | start input =>
    have size := Machine.grows_addGlobals ⟨.empty, 1, 0, none, input, ⟨"", none⟩, []⟩
    exact ⟨.start input, size.size ▸ Nat.zero_lt_one⟩
  | answer _ host given ih =>
    obtain ⟨later, grown, globals, -⟩ := continues_answer ih.1 ih.2 host given
    exact ⟨later, globals ▸ Nat.lt_of_lt_of_le ih.2 grown⟩
  | define _ name isMutable given ih =>
    refine ⟨ih.1.defined _ name isMutable given, ?_⟩
    exact Nat.lt_of_lt_of_eq ih.2 (Store.size_define _ _ _ _ _).symm
  | freshId _ ih => exact ⟨ih.1.aside rfl rfl, ih.2⟩
  | breakOutput _ _ ih => exact ⟨ih.1.aside rfl rfl, ih.2⟩
  | takeOutput _ ih => exact ⟨ih.1.aside rfl rfl, ih.2⟩

end Session

/-! ## Well-foundedness -/

/-- In every state that an interpreter can get to, also amid a run, all values refer to contexts
that exist, and all links of contexts lead to contexts that were created earlier. So from every
context the walks along links come to an end: names are looked up, the outermost context is found,
and tracebacks are collected. In particular the entry links of every context end in an outermost
one. This is so of each context in which an expression is evaluated: if runs from the state looked
along the entry links of all contexts that they evaluate anything in, and did something arbitrary
unless the links end in an outermost context, they would be the same runs. -/
theorem context_graph_well_founded {machine : Machine} (reachable : machine.Reachable) :
    machine.Grounded ∧
      (∀ id < machine.store.size, machine.store.WalksEnd id) ∧
      ∀ (host : Host) (astray : Recount) (room : Nat), ∀ id < machine.store.size,
        (∀ expr, Chronicle.evaluateGuarded host astray room expr id machine =
          Chronicle.evaluate host room expr id machine) ∧
        ∀ (callee : Value) (arguments : List Value) (span : Span),
          callee.Present machine.store.size → Value.AllPresent machine.store.size arguments →
            Chronicle.callValue host (Chronicle.insideGuarded host astray room) callee arguments
                span id machine =
              Chronicle.callValue host (Chronicle.inside host room) callee arguments span id
                machine := by
  have grounded := reachable.grounded
  refine ⟨grounded, fun id present => grounded.walksEnd present, ?_⟩
  intro host astray room id present
  constructor
  · intro expr
    exact (matches_evaluate host astray room expr present (Nat.le_refl _) grounded).same
  · intro callee arguments span called given
    exact (matches_callValue host astray room called given span present (Nat.le_refl _)
      grounded).same

/-- A member of an instance is a function that looks up names in a context which was entered from
the members, and another member is the instance itself. So values lead from the members back to
them, in two ways. The entry links lead out of there all the same. -/
theorem context_graph_well_founded_members :
    let machine := ((Session.start []).run ⟨{}, fun _ => .ok [], 0⟩ "main"
      "func f(x) -> func() -> x\nobject P\n  var g = f(1)\nend\nvar a = new P\na.me = a").2.machine
    machine.Reachable ∧ machine.store.size = 3 ∧
      (machine.store.lookupLocal 1 "g").any
        (· matches .function (.user ⟨_, _, _, _, 2, _⟩)) = true ∧
      (machine.store.entered 2).map (·.caller) = some 1 ∧
      (machine.store.lookupLocal 1 "me").any (· matches .object ⟨_, _, _, true, 1⟩) = true ∧
      machine.Grounded ∧ machine.store.Ascends 2 0 ∧
      ∀ host astray expr, Chronicle.evaluateGuarded host astray 1 expr 2 machine =
        Chronicle.evaluate host 1 expr 2 machine := by
  intro machine
  have reachable : machine.Reachable := ((Session.Handled.start []).run _ _ _).reachable.1
  have facts : machine.store.size = 3 ∧ machine.store.rootOf 2 = 0 ∧
      (machine.store.lookupLocal 1 "g").any
        (· matches .function (.user ⟨_, _, _, _, 2, _⟩)) = true ∧
      (machine.store.entered 2).map (·.caller) = some 1 ∧
      (machine.store.lookupLocal 1 "me").any (· matches .object ⟨_, _, _, true, 1⟩) = true := by
    decide +kernel
  obtain ⟨size, outermost, member, entered, itself⟩ := facts
  have present : 2 < machine.store.size := size ▸ by decide
  obtain ⟨grounded, walks, guarded⟩ := context_graph_well_founded reachable
  have ascends : machine.store.Ascends 2 0 := outermost ▸ (walks 2 present).root
  refine ⟨reachable, size, member, entered, itself, grounded, ascends, ?_⟩
  intro host astray expr
  exact (guarded host astray 1 2 present).1 expr

end Quill
