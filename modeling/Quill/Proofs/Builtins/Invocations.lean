import Quill.Eval.Call
import Quill.Proofs.Store.Lookup

/-!
# Calls of built-in functions

Programs find the built-in functions in their outermost context, each with an identity. A call with
as many arguments as there are parameters does the work of the function, as long as there is room
for an activation, and this activation is closed again behind it. So what the work leaves of the
state is what the call leaves of it.
-/

namespace Quill

/-- A built-in function with an identity, as programs find it. -/
def Builtin.function (builtin : Builtin) (serial : Nat) : BuiltinFunction :=
  ⟨serial, builtin.name, builtin.parameters⟩

namespace Eval

variable {builtin : Builtin} {arguments : List Value} (host : Host) (evaluate : Evaluate)
  (serial : Nat) (span : Span) (caller : ContextId)

/-- With as many arguments as parameters, a call does the work of the function. -/
theorem callValue_builtin (same : arguments.length = builtin.parameters.length)
    (machine : Machine) :
    callValue host (some evaluate) (.function (.builtin (builtin.function serial))) arguments span
        caller machine =
      leave ((invocationOf (builtin.function serial) arguments span caller).run host evaluate
        builtin { machine with depth := machine.depth + 1 }) := by
  have arity : (Function.builtin (builtin.function serial)).checkArity arguments.length = .ok () :=
    (Function.checkArity_eq_ok_iff _ _).mpr same
  have found : Builtin.named? (builtin.function serial).name = some builtin :=
    builtin.named?_name
  rw [callValue, arity]
  change leave (callBuiltin host (builtin.function serial) arguments span caller evaluate _) = _
  simp only [callBuiltin, found]

/-- A function that only has a value gives it back in the state that it was called in. -/
theorem callValue_builtin_of_pure (same : arguments.length = builtin.parameters.length)
    {value : Value}
    (work : (invocationOf (builtin.function serial) arguments span caller).run host evaluate
      builtin = pure value) (machine : Machine) :
    callValue host (some evaluate) (.function (.builtin (builtin.function serial))) arguments span
      caller machine = .ok value machine := by
  rw [callValue_builtin host evaluate serial span caller same, work]
  rfl

/-- So does a function that gives a failure back, which arose in the function. -/
theorem callValue_builtin_of_exception (same : arguments.length = builtin.parameters.length)
    {fault : Fault}
    (work : (invocationOf (builtin.function serial) arguments span caller).run host evaluate
      builtin = (invocationOf (builtin.function serial) arguments span caller).exception fault)
    (machine : Machine) :
    callValue host (some evaluate) (.function (.builtin (builtin.function serial))) arguments span
        caller machine =
      .ok (.exception ((invocationOf (builtin.function serial) arguments span caller).failure fault
        machine.store)) machine := by
  rw [callValue_builtin host evaluate serial span caller same, work]
  rfl

end Eval

end Quill
