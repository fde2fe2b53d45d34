import Quill.Session

/-!
# Executions

An execution is evaluation as a reader of a program follows it. The limits are what programs see
of them: the number of open activations is compared with its limit whenever one is opened, and the
number of rounds of a loop whenever one is begun. Nothing else bounds an execution, so nothing in
its description has to decrease. It is given fuel instead, and without any fuel left it is cut off
and has no outcome at all.

An execution also notes the events that statements about it speak of: the operators that it
applies, the built-in functions that it runs, and the faults that it raises, each in the order of
time and whether or not the program goes on to notice it.
-/

namespace Quill

/-- Something that happens in an execution. -/
inductive Event where
  /-- An operator was applied to two values. -/
  | applied (op : BinaryOp) (left right : Value)
  /-- A built-in function began its work. -/
  | invoked (builtin : Builtin)
  /-- A fault arose. -/
  | raised (fault : Fault)

/-- The faults that arise where a step of its own ends with the given outcome. -/
def Outcome.faults {Result : Type} : Outcome Result → List Event
  | .error (.failed failure) _ => [.raised failure.fault]
  | _ => []

/-- The state after a step. -/
def Outcome.machine {Result : Type} : Outcome Result → Machine
  | .ok _ machine => machine
  | .error _ machine => machine

theorem Eval.machine_resultOfScript (root : Located) (id : ContextId) (outcome : Outcome Value) :
    (Eval.resultOfScript root id outcome).2 = Outcome.machine outcome := by
  unfold Eval.resultOfScript
  split <;> rfl

/-- The faults that arise where no construct is left that could take a signal. -/
def Signal.faults : Signal → List Event
  | .failed _ => []
  | .returned _ => [.raised .returnOutsideFunction]
  | .broke _ => [.raised .breakOutsideLoop]
  | .continued _ => [.raised .continueOutsideLoop]

/-- A step of an execution: an outcome with the events before it, unless the execution was cut
off. -/
def Execution (Result : Type) : Type :=
  Machine → Option (Outcome Result × List Event)

/-- How expressions are executed in a context. -/
abbrev Execute := Expr Span → ContextId → Execution Value

namespace Execution

variable {Result Other : Type}

/-- An execution that has run out of fuel. -/
def cutOff : Execution Result :=
  fun _ => none

/-- An execution of one step that evaluates no expression. The fault that it may end with arises
in it. -/
def perform (step : Eval Result) : Execution Result :=
  fun machine => some (step machine, Outcome.faults (step machine))

/-- An execution in which nothing happens but one event. -/
def note (event : Event) : Execution Unit :=
  fun machine => some (.ok () machine, [event])

/-- One execution after the other. A signal of the first one ends both. -/
def andThen (first : Execution Result) (next : Result → Execution Other) : Execution Other :=
  fun machine =>
    match first machine with
    | none => none
    | some (.error signal after, events) => some (.error signal after, events)
    | some (.ok result after, events) =>
      (next result after).map fun (outcome, later) => (outcome, events ++ later)

instance : Monad Execution where
  pure result := fun machine => some (.ok result machine, [])
  bind := andThen

/-- An execution whose outcome is looked at from outside, with the events that arise there. -/
def regard (view : Outcome Result → Outcome Other) (arising : Outcome Result → List Event)
    (inner : Execution Result) : Execution Other :=
  fun machine => (inner machine).map fun (outcome, events) =>
    (view outcome, events ++ arising outcome)

theorem pure_apply (result : Result) (machine : Machine) :
    (pure result : Execution Result) machine = some (.ok result machine, []) := rfl

theorem perform_apply (step : Eval Result) (machine : Machine) :
    perform step machine = some (step machine, Outcome.faults (step machine)) := rfl

theorem regard_apply (view : Outcome Result → Outcome Other)
    (arising : Outcome Result → List Event) (inner : Execution Result) (machine : Machine) :
    regard view arising inner machine = (inner machine).map fun (outcome, events) =>
      (view outcome, events ++ arising outcome) := rfl

/-- A finished sequence of two executions ended with a signal of the first, or the second one was
finished as well. -/
theorem andThen_eq_some {first : Execution Result} {next : Result → Execution Other}
    {machine : Machine} {outcome : Outcome Other} {events : List Event}
    (finished : (first >>= next) machine = some (outcome, events)) :
    (∃ signal after, first machine = some (.error signal after, events) ∧
        outcome = .error signal after) ∨
      ∃ result after earlier later, first machine = some (.ok result after, earlier) ∧
        next result after = some (outcome, later) ∧ events = earlier ++ later := by
  change andThen first next machine = _ at finished
  unfold andThen at finished
  split at finished
  · simp at finished
  · rename_i signal after earlier ended
    obtain ⟨rfl, rfl⟩ := Prod.mk.inj (Option.some.inj finished)
    exact Or.inl ⟨signal, after, ended, rfl⟩
  · rename_i result after earlier ended
    obtain ⟨⟨last, later⟩, continued, same⟩ := Option.map_eq_some_iff.mp finished
    obtain ⟨rfl, rfl⟩ := Prod.mk.inj same
    exact Or.inr ⟨result, after, earlier, later, ended, continued, rfl⟩

/-- A signal of the first execution ends a sequence. -/
theorem andThen_error {first : Execution Result} (next : Result → Execution Other)
    {machine after : Machine} {signal : Signal} {events : List Event}
    (ended : first machine = some (.error signal after, events)) :
    (first >>= next) machine = some (.error signal after, events) := by
  change andThen first next machine = _
  simp [andThen, ended]

/-- A result of the first execution goes on to the second one. -/
theorem andThen_ok {first : Execution Result} {next : Result → Execution Other}
    {machine after : Machine} {result : Result} {outcome : Outcome Other}
    {earlier later : List Event}
    (ended : first machine = some (.ok result after, earlier))
    (continued : next result after = some (outcome, later)) :
    (first >>= next) machine = some (outcome, earlier ++ later) := by
  change andThen first next machine = _
  simp [andThen, ended, continued]

end Execution

end Quill
