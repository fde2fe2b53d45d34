import Quill.Proofs.Execution.Program

/-!
# Chronicles

A chronicle is evaluation with a record of everything that happens in it. Each step that a run takes
leaves one moment in the record: the state that the step has led to and what has happened. Nothing
changes a state between two moments, so a statement about all moments of a record is one about
every state that the run goes through, and not only about where it ends.

In contrast to an execution, a chronicle needs no fuel. It recurs as evaluation does, on the room
that is left for activations and on the expression, and always has an outcome.
-/

namespace Quill

/-- The code by which a name comes to be bound. -/
inductive Manner where
  /-- Code that is evaluated in the context of the binding: an assignment, a loop that counts, or
  a definition. -/
  | direct
  /-- An assignment to a member of an instance. -/
  | member (target : Object)

/-- What happens at a moment. -/
inductive Happening where
  /-- Some step was taken that nothing else is said about. -/
  | stepped
  /-- A name was bound in the table of a context. -/
  | bound (target : ContextId) (name : String) (value : Value) (manner : Manner)
  /-- A function is to be called with a number of arguments. -/
  | called (function : Function) (count : Nat)
  /-- An instance of an object is to be made. -/
  | instantiated (template : Object)
  /-- An activation was opened. -/
  | opened
  /-- An activation was closed. -/
  | closed
  /-- One of the events that executions tell as well. -/
  | noted (event : Event)

/-- A moment of a run. -/
structure Moment where
  /-- The state at the moment. -/
  machine : Machine
  /-- What has happened. -/
  happening : Happening
  /-- The contexts that scripts are being included in, the outermost script first. -/
  included : List ContextId

/-- What has happened when a step ends with the given outcome, if it is `success` that happens in
the step unless it fails. -/
def Outcome.happening {Result : Type} (success : Happening) : Outcome Result → Happening
  | .ok _ _ => success
  | .error (.failed failure) _ => .noted (.raised failure.fault)
  | .error _ _ => .stepped

/-- A moment outside of all included scripts. -/
def Happening.at (happening : Happening) (machine : Machine) : Moment :=
  ⟨machine, happening, []⟩

/-- The moment as a part of a script that is included in a context. -/
def Moment.within (root : ContextId) (moment : Moment) : Moment :=
  { moment with included := root :: moment.included }

/-- How something ended, and what happened before. -/
structure Told (Ending : Type) where
  /-- How it ended. -/
  ending : Ending
  /-- The moments in the order of time. -/
  log : List Moment

/-- A step of an evaluation with a record of what happens in it. -/
def Chronicle (Result : Type) : Type :=
  Machine → Told (Outcome Result)

/-- How the evaluation of expressions is recorded. -/
abbrev Recount := Expr Span → ContextId → Chronicle Value

namespace Chronicle

variable {Result Other : Type}

/-- A step that evaluates no expression is one moment. -/
def record (success : Happening) (step : Eval Result) : Chronicle Result :=
  fun machine =>
    let outcome := step machine
    ⟨outcome, [(Outcome.happening success outcome).at (Outcome.machine outcome)]⟩

/-- A step that nothing else is said about. -/
def perform (step : Eval Result) : Chronicle Result :=
  record .stepped step

/-- A moment at which nothing changes. -/
def note (happening : Happening) : Chronicle Unit :=
  fun machine => ⟨.ok () machine, [happening.at machine]⟩

/-- One chronicle after the other. A signal of the first one ends both. -/
def andThen (first : Chronicle Result) (next : Result → Chronicle Other) : Chronicle Other :=
  fun machine =>
    match first machine with
    | ⟨.error signal after, log⟩ => ⟨.error signal after, log⟩
    | ⟨.ok result after, log⟩ =>
      ⟨(next result after).ending, log ++ (next result after).log⟩

instance : Monad Chronicle where
  pure result := fun machine => ⟨.ok result machine, []⟩
  bind := andThen

/-- A chronicle whose outcome is looked at from outside, with the events that arise there. -/
def regard (view : Outcome Result → Outcome Other) (arising : Outcome Result → List Event)
    (inner : Chronicle Result) : Chronicle Other :=
  fun machine =>
    let told := inner machine
    ⟨view told.ending,
      told.log ++ (arising told.ending).map fun event =>
        (Happening.noted event).at (Outcome.machine told.ending)⟩

/-- What happens in an activation, which is opened before and closed afterwards. -/
def during (inner : Chronicle Result) : Chronicle Result :=
  fun machine =>
    let start := { machine with depth := machine.depth + 1 }
    let ending := Eval.leave (inner start).ending
    ⟨ending,
      Happening.opened.at start :: (inner start).log ++
        [Happening.closed.at (Outcome.machine ending)]⟩

/-- What happens as a part of a script that is included in a context. -/
def within (root : ContextId) (inner : Chronicle Result) : Chronicle Result :=
  fun machine => ⟨(inner machine).ending, (inner machine).log.map (Moment.within root)⟩

theorem andThen_ok {first : Chronicle Result} (next : Result → Chronicle Other)
    {machine after : Machine} {result : Result} {log : List Moment}
    (ended : first machine = ⟨.ok result after, log⟩) :
    (first >>= next) machine = ⟨(next result after).ending, log ++ (next result after).log⟩ := by
  change andThen first next machine = _
  rw [andThen, ended]

theorem andThen_error {first : Chronicle Result} (next : Result → Chronicle Other)
    {machine after : Machine} {signal : Signal} {log : List Moment}
    (ended : first machine = ⟨.error signal after, log⟩) :
    (first >>= next) machine = ⟨.error signal after, log⟩ := by
  change andThen first next machine = _
  rw [andThen, ended]

end Chronicle

end Quill
