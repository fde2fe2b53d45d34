import Quill.Proofs.Execution.Termination
import Quill.Proofs.Scoping.Failing
import Quill.Proofs.Scoping.Program

/-!
# Calls do not depend on their callers

A function looks up its names where it was defined. So it makes no difference to a call from which
context of a program it is made: the result, the output, the input that is left and all bindings are
the same. What may be different are tracebacks, and the entries of contexts that the call has added.

The two calls are evaluated. The execution of one of them serves as the witness that nothing happens
in it which could tell tracebacks or times apart.
-/

namespace Quill

/-- States that differ in tracebacks alone, and in the entries of contexts from `base` onwards. -/
structure Machine.Alike (base : Nat) (machine other : Machine) : Prop where
  /-- The states only differ in what tracebacks tell. -/
  outline : machine.outline = other.outline
  /-- The older contexts are entered from the same contexts. -/
  older : ∀ id < base, machine.store.entered id = other.store.entered id

/-- Two calls of which both have a value or both fail, in the same way but for tracebacks. -/
inductive CallsAlike (base : Nat) : Outcome Value → Outcome Value → Prop where
  /-- Both have a value. -/
  | ok {value last : Value} {machine other : Machine} (values : Value.Alike value last)
      (machines : Machine.Alike base machine other) :
      CallsAlike base (.ok value machine) (.ok last other)
  /-- Both fail with the same fault at the same place. -/
  | failed {failure last : Failure} {machine other : Machine}
      (faults : failure.fault = last.fault) (spans : failure.span = last.span)
      (machines : Machine.Alike base machine other) :
      CallsAlike base (.error (.failed failure) machine) (.error (.failed last) other)

/-- The contexts from before two calls are as they were in both of them. -/
theorem Linked.alike {callers : Callers} {machine first second : Machine}
    (firstLinked : Linked callers machine first) (secondLinked : Linked callers machine second) :
    Machine.Alike callers.base first second where
  outline := firstLinked.outline.symm.trans secondLinked.outline
  older := by
    intro id known
    rw [← firstLinked.older id known, ← secondLinked.older id known]

namespace Execution

/-- A call that was executed quietly is evaluated alike, from any of the callers. -/
theorem corresponds_callValue {callers : Callers} {host host' : Host}
    (config : host.config = host'.config) (disk : host.disk = host'.disk) {machine : Machine}
    (linked : Linked callers machine machine) {callee : Value} {arguments : List Value}
    {span : Span} {caller caller' : ContextId} (meet : callers.Meet caller caller') {fuel : Nat}
    {outcome : Outcome Value} {events : List Event}
    (executed : callValue (evaluate host fuel) host fuel callee arguments span caller machine =
      some (outcome, events)) (quiet : Quiet events) :
    Corresponds callers Value.Alike outcome
      (Eval.callValue host' (Eval.inside host' (host'.config.maxCallDepth - machine.depth)) callee
        arguments span caller' machine) := by
  obtain ⟨enough, allEvents, settled⟩ :=
    callValue_finishes host' callee arguments span caller' machine
  have more : fuel ≤ max fuel enough := Nat.le_max_left fuel enough
  have follows := follows_callValue (follows_evaluate config disk more) config disk more
    (Value.Alike.refl callee) (Eq.refl (arguments.map Value.untraced)) span meet
  obtain ⟨ended, later, finished, corresponds⟩ := follows linked executed quiet
  rw [settled _ (Nat.le_max_right fuel enough)] at finished
  obtain ⟨rfl, -⟩ := Prod.mk.inj (Option.some.inj finished)
  exact corresponds

end Execution

namespace Eval

/-- A call does not depend on the context that it is made from, among the contexts with the same
outermost context around them. Neither does it depend on the clock. -/
theorem callValue_alike_of_rootOf_eq {host host' : Host} (config : host.config = host'.config)
    (disk : host.disk = host'.disk) {machine : Machine} {first second : ContextId}
    (firstKnown : first < machine.store.size) (secondKnown : second < machine.store.size)
    (sameRoot : machine.store.rootOf first = machine.store.rootOf second) {callee : Value}
    {arguments : List Value} {span : Span} {fuel : Nat} {outcome : Outcome Value}
    {events : List Event}
    (executed : Execution.callValue (Execution.evaluate host fuel) host fuel callee arguments span
      first machine = some (outcome, events)) (quiet : Quiet events) :
    CallsAlike machine.store.size
      (callValue host (inside host (host.config.maxCallDepth - machine.depth)) callee arguments span
        first machine)
      (callValue host' (inside host' (host'.config.maxCallDepth - machine.depth)) callee arguments
        span second machine) := by
  let callers : Callers := ⟨machine.store.size, first, second, firstKnown, secondKnown⟩
  have linked : Linked callers machine machine := by
    constructor
    · rfl
    · intro id _
      rfl
    · intro id
      rfl
    · exact sameRoot
    · exact Nat.le_refl _
  have firsts := Execution.corresponds_callValue rfl rfl linked (callers.meet_self first) executed
    quiet
  have seconds := Execution.corresponds_callValue config disk linked (Or.inl ⟨rfl, rfl⟩) executed
    quiet
  have fails := OnlyFails.callValue host (inside host (host.config.maxCallDepth - machine.depth))
    callee arguments span first
  generalize ended : callValue host _ callee arguments span first machine = outcome₁ at firsts
  generalize callValue host' _ callee arguments span second machine = outcome₂ at seconds
  cases firsts with
  | ok firstResults firstLinked =>
    cases seconds with
    | ok secondResults secondLinked =>
      exact .ok (firstResults.symm.trans secondResults) (firstLinked.alike secondLinked)
  | error firstSignals firstLinked =>
    obtain ⟨failure, rfl⟩ := fails ended
    cases seconds with
    | error secondSignals secondLinked =>
      cases firstSignals with
      | failed firstFaults firstSpans =>
        cases secondSignals with
        | failed secondFaults secondSpans =>
          exact .failed (firstFaults.symm.trans secondFaults) (firstSpans.symm.trans secondSpans)
            (firstLinked.alike secondLinked)

/-- A function that prints its argument is called in a program, and from another function of it at
another time. -/
theorem callValue_alike_of_rootOf_eq_print :
    let span : Span := ⟨⟨0, "main", "f(1)"⟩, ⟨0, 1, 1⟩, ⟨4, 1, 5⟩⟩
    let body : Located := .call (.read "Print" span) [.read "x" span] span
    let callee : Value := .function (.user ⟨50, "f", ["x"], body, 0, true⟩)
    let host : Host := ⟨{}, FileTree.disk ⟨[]⟩, 0⟩
    let later : Host := { host with clock := 1 }
    let globals := (Machine.initial []).2
    let machine := { globals with store := (globals.store.nested "g" 0 span (some 0)).2 }
    host.config = later.config ∧ host.disk = later.disk ∧ 0 < machine.store.size ∧
      1 < machine.store.size ∧ machine.store.rootOf 0 = machine.store.rootOf 1 ∧
      ∃ outcome events,
        Execution.callValue (Execution.evaluate host 9) host 9 callee [.int 1] span 0 machine =
          some (outcome, events) ∧ Quiet events ∧
        CallsAlike machine.store.size
          (callValue host (inside host (host.config.maxCallDepth - machine.depth)) callee [.int 1]
            span 0 machine)
          (callValue later (inside later (later.config.maxCallDepth - machine.depth)) callee
            [.int 1] span 1 machine) := by
  intro span body callee host later globals machine
  have config : host.config = later.config := rfl
  have disk : host.disk = later.disk := rfl
  have firstKnown : 0 < machine.store.size := by decide +kernel
  have secondKnown : 1 < machine.store.size := by decide +kernel
  have sameRoot : machine.store.rootOf 0 = machine.store.rootOf 1 := by decide +kernel
  have finished : ((Execution.callValue (Execution.evaluate host 9) host 9 callee [.int 1] span 0
      machine).map fun ended => decide (Quiet ended.2)) = some true := by decide +kernel
  obtain ⟨⟨outcome, events⟩, executed, quietly⟩ := Option.map_eq_some_iff.mp finished
  have quiet : Quiet events := of_decide_eq_true quietly
  exact ⟨config, disk, firstKnown, secondKnown, sameRoot, outcome, events, executed, quiet,
    callValue_alike_of_rootOf_eq config disk firstKnown secondKnown sameRoot executed quiet⟩

end Eval

end Quill
