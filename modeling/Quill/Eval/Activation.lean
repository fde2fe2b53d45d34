import Quill.Machine

/-!
# Activations

The body of a function and the members of an object are evaluated in an activation. Activations
lie inside one another up to a limit. An evaluation therefore does not simply have a way to
evaluate bodies: it has one only as long as there is room for another activation.
-/

namespace Quill.Eval

variable {Result : Type}

/-- Closes an activation, however the work in it ended. -/
def leave : Outcome Result → Outcome Result
  | .ok result machine => .ok result { machine with depth := machine.depth - 1 }
  | .error signal machine => .error signal { machine with depth := machine.depth - 1 }

/-- Does some work inside a new activation, with a way to evaluate what belongs to it. Without any
room left, that is a fault at the place of the context that asked for it. However the work ends,
the activation ends with it. -/
def activate (host : Host) (inner : Option Evaluate) (span : Span) (id : ContextId)
    (work : Evaluate → Eval Result) : Eval Result :=
  match inner with
  | none => raise (.recursionLimit host.config.maxCallDepth) span id
  | some evaluate => fun machine =>
    leave (work evaluate { machine with depth := machine.depth + 1 })

/-- What the outcome of a function's body is for its call. The call takes the signal to return; no
other signal gets out of it but as a failure. -/
def resultOfBody (function : UserFunction) (span : Span) (id : ContextId) :
    Outcome Value → Outcome Value
  | .ok value machine => .ok (if function.valued then value else .null) machine
  | .error (.returned value) machine => .ok value machine
  | .error signal machine => .error (.failed (failureOf signal span id machine.store)) machine

/-- Calls a function that a program has defined. Its context is entered from the caller's, but
names that it does not bind are looked up where the function was defined. -/
def callUser (function : UserFunction) (arguments : List Value) (span : Span) (caller : ContextId)
    (evaluate : Evaluate) : Eval Value := do
  let id ← addContext
    { name := function.name
      entry := some ⟨caller, span⟩
      scope := some function.closure
      table := .ofArguments function.parameters arguments }
  fun machine => resultOfBody function span id (evaluate function.body id machine)

/-- What the outcome of the statements of a template is for its instantiation. No signal gets out of
it but as a failure. -/
def instanceOfMembers (template : Object) (span : Span) (id : ContextId) :
    Outcome Value → Outcome Value
  | .ok _ machine =>
    let object := { template with id := machine.serial, isInstance := true, context := id }
    .ok (.object object) { machine with serial := machine.serial + 1 }
  | .error signal machine => .error (.failed (failureOf signal span id machine.store)) machine

/-- Makes an instance of a template. Its members are evaluated in a context of their own, which is
entered from the context of the instantiation and also looks up other names there. -/
def instantiate (template : Object) (name : String) (span : Span) (caller : ContextId)
    (evaluate : Evaluate) : Eval Value := do
  let id ← addContext
    { name := "<object " ++ name ++ ">"
      entry := some ⟨caller, span⟩
      scope := some caller
      table := .empty }
  fun machine => instanceOfMembers template span id (evaluate template.body id machine)

end Quill.Eval
