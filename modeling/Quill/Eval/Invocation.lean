import Quill.Machine

/-!
# Invocations of built-in functions

A built-in function sees its arguments and nothing else of the program. It may fail, or give a
failure back as a value; either way the traceback ends in a frame of the function itself.
-/

namespace Quill

/-- A running call of a built-in function. -/
structure Invocation where
  /-- The name of the function. -/
  name : String
  /-- The arguments under the names of the parameters. -/
  arguments : Table
  /-- The call. -/
  span : Span
  /-- The context of the caller. -/
  caller : ContextId

namespace Invocation

variable {Result : Type}

/-- The argument for a parameter. A parameter without an argument reads as null. -/
def argument (call : Invocation) (parameter : String) : Value :=
  (call.arguments.value? parameter).getD .null

/-- A fault of the function at the place of its call. -/
def failure (call : Invocation) (fault : Fault) (store : Store) : Failure :=
  { fault := fault
    span := call.span
    traceback := store.traceback call.caller call.span ++
      [⟨call.span.source.name, call.span.line, call.name⟩] }

/-- Fails. -/
def raise (call : Invocation) (fault : Fault) : Eval Result :=
  fun machine => .error (.failed (call.failure fault machine.store)) machine

/-- Gives a failure back as a value. -/
def exception (call : Invocation) (fault : Fault) : Eval Value :=
  fun machine => .ok (.exception (call.failure fault machine.store)) machine

/-- Gives back that an argument is not of a kind that the function accepts. -/
def refuse (call : Invocation) (parameter : String) (accepted : Accepted) : Eval Value :=
  call.exception (.invalidArgument call.name parameter accepted (call.argument parameter).kind)

end Invocation

end Quill
