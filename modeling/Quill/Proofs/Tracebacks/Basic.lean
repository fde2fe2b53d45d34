import Quill.Proofs.Execution.Basic

/-!
# Accounts

An account is evaluation with a call stack: a list of the calls and instantiations that have been
entered and not been left since the outermost context, kept by evaluation itself and not by the
contexts of the store. Whenever a failure arises, be it raised or given back as a value, the account
notes it together with the call stack of that moment.
-/

namespace Quill

/-- A call or an instantiation that has been entered. -/
structure Activation where
  /-- The name of its context. -/
  context : String
  /-- The call or the instantiation. -/
  entered : Span

/-- What has been entered since the outermost context. -/
structure CallStack where
  /-- The name of the outermost context. -/
  root : String
  /-- The activations, outermost first. -/
  activations : List Activation

namespace CallStack

/-- The call stack in an outermost context. -/
def outermost (name : String) : CallStack :=
  ⟨name, []⟩

/-- The call stack in an activation with the given name that is entered through an expression. -/
def push (stack : CallStack) (name : String) (span : Span) : CallStack :=
  { stack with activations := stack.activations ++ [⟨name, span⟩] }

/-- The names of the contexts, outermost first. -/
def contexts (stack : CallStack) : List String :=
  stack.root :: stack.activations.map (·.context)

/-- The name of the context that was entered last. -/
def innermost (stack : CallStack) : String :=
  (stack.activations.getLast?.map (·.context)).getD stack.root

/-- How far each of the contexts has got, if the innermost one has got to `span`: all others are at
the expression through which the next one was entered. -/
def places (stack : CallStack) (span : Span) : List Span :=
  stack.activations.map (·.entered) ++ [span]

@[simp] theorem length_push (stack : CallStack) (name : String) (span : Span) :
    (stack.push name span).activations.length = stack.activations.length + 1 := by
  simp [push]

@[simp] theorem contexts_push (stack : CallStack) (name : String) (span : Span) :
    (stack.push name span).contexts = stack.contexts ++ [name] := by
  simp [push, contexts]

@[simp] theorem places_push (stack : CallStack) (name : String) (entered span : Span) :
    (stack.push name entered).places span = stack.places entered ++ [span] := by
  simp [push, places]

@[simp] theorem innermost_push (stack : CallStack) (name : String) (span : Span) :
    (stack.push name span).innermost = name := by
  simp [push, innermost]

@[simp] theorem length_contexts (stack : CallStack) :
    stack.contexts.length = stack.activations.length + 1 := by
  simp [contexts]

@[simp] theorem length_places (stack : CallStack) (span : Span) :
    (stack.places span).length = stack.activations.length + 1 := by
  simp [places]

end CallStack

/-- The frame of a context that has got to a place. -/
def Frame.at (place : Span) (context : String) : Frame :=
  ⟨place.source.name, place.line, context⟩

/-- The traceback that a call stack amounts to. -/
def CallStack.traceback (stack : CallStack) (span : Span) : List Frame :=
  List.zipWith Frame.at (stack.places span) stack.contexts

/-- A failure that has arisen. -/
structure Incident where
  /-- The failure. -/
  failure : Failure
  /-- What had been entered at that moment. -/
  stack : CallStack
  /-- Whether the evaluation failed with it. Otherwise it was given back as a value. -/
  raised : Bool

/-- How something ended, and the failures that arose before, in the order of time. -/
structure Accounted (Ending : Type) where
  /-- How it ended. -/
  ending : Ending
  /-- The failures that arose. -/
  incidents : List Incident

/-- A step of an evaluation with a call stack. -/
def Account (Result : Type) : Type :=
  CallStack → Machine → Accounted (Outcome Result)

/-- How the evaluation of expressions is accounted for. -/
abbrev Assess := Expr Span → ContextId → Account Value

/-- The failure that an outcome tells of: the one that it is, or one that its result gives. -/
def Outcome.tells {Result : Type} (gives : Result → Option Failure) :
    Outcome Result → Option Failure
  | .ok result _ => gives result
  | .error (.failed failure) _ => some failure
  | .error _ _ => none

/-- The failure that an evaluation ended with. -/
abbrev Outcome.failure? {Result : Type} (outcome : Outcome Result) : Option Failure :=
  outcome.tells fun _ => none

/-- The failure that a value is. -/
def Value.failure? : Value → Option Failure
  | .exception failure => some failure
  | _ => none

/-- The failure that a script ended with. -/
def Error.failure? : Except Error Value → Option Failure
  | .error (.running failure) => some failure
  | _ => none

namespace Account

variable {Result Other : Type}

/-- The incident that lies between not having failed and having failed. -/
def arising (stack : CallStack) : (before after : Option Failure) → List Incident
  | none, some failure => [⟨failure, stack, true⟩]
  | _, _ => []

/-- A step in which nothing is entered. -/
def perform (step : Eval Result) : Account Result :=
  fun stack machine => ⟨step machine, arising stack none (Outcome.failure? (step machine))⟩

/-- The incident of a failure that an outcome tells of: raised, or given back as a value. -/
def telling (stack : CallStack) : Outcome Value → List Incident
  | .ok (.exception failure) _ => [⟨failure, stack, false⟩]
  | .error (.failed failure) _ => [⟨failure, stack, true⟩]
  | _ => []

/-- A step in which nothing is entered, and which may make a value of a failure. -/
def produce (step : Eval Value) : Account Value :=
  fun stack machine => ⟨step machine, telling stack (step machine)⟩

/-- One account after the other. A signal of the first one ends both. -/
def andThen (first : Account Result) (next : Result → Account Other) : Account Other :=
  fun stack machine =>
    match first stack machine with
    | ⟨.error signal after, incidents⟩ => ⟨.error signal after, incidents⟩
    | ⟨.ok result after, incidents⟩ =>
      ⟨(next result stack after).ending, incidents ++ (next result stack after).incidents⟩

instance : Monad Account where
  pure result := fun _ machine => ⟨.ok result machine, []⟩
  bind := andThen

section

variable {stack : CallStack} {machine after : Machine} {incidents : List Incident}
  {first : Account Result}

theorem andThen_error (next : Result → Account Other) {signal : Signal}
    (ended : first stack machine = ⟨.error signal after, incidents⟩) :
    (first >>= next) stack machine = ⟨.error signal after, incidents⟩ := by
  change andThen first next stack machine = _
  simp [andThen, ended]

theorem andThen_ok (next : Result → Account Other) {result : Result}
    (ended : first stack machine = ⟨.ok result after, incidents⟩) :
    (first >>= next) stack machine = ⟨(next result stack after).ending,
      incidents ++ (next result stack after).incidents⟩ := by
  change andThen first next stack machine = _
  simp [andThen, ended]

end

/-- An account whose outcome is looked at from outside. A signal that cannot go on from there is a
failure that arises there. -/
def regard (view : Outcome Result → Outcome Other) (inner : Account Result) : Account Other :=
  fun stack machine =>
    let told := inner stack machine
    ⟨view told.ending,
      told.incidents ++
        arising stack (Outcome.failure? told.ending) (Outcome.failure? (view told.ending))⟩

/-- What happens while an activation is open. -/
def during (inner : Account Result) : Account Result :=
  fun stack machine =>
    let told := inner stack { machine with depth := machine.depth + 1 }
    ⟨Eval.leave told.ending, told.incidents⟩

/-- What happens in a context that is entered through an expression. -/
def entering (name : String) (span : Span) (inner : Account Result) : Account Result :=
  fun stack => inner (stack.push name span)

end Account

end Quill
