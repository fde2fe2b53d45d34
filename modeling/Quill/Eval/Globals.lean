import Quill.Eval.Builtin
import Quill.Machine

/-!
# The outermost context of a program

A program starts in a context that binds three constants, which nobody can assign to, and the
built-in functions, which a program may replace. Two such contexts have nothing in common: also
their built-in functions are different ones.
-/

namespace Quill.Machine

/-- The name of the outermost context in tracebacks. -/
def programName : String := "<program>"

/-- The names and the values of the constants. -/
def constants : List (String × Value) :=
  [("null", .null), ("true", .ofBool true), ("false", .ofBool false)]

/-- Binds a built-in function in a context. -/
def bindBuiltin (id : ContextId) (machine : Machine) (builtin : Builtin) : Machine :=
  let function := Function.builtin ⟨machine.serial, builtin.name, builtin.parameters⟩
  { machine with
    store := machine.store.define id builtin.name (.function function) true
    serial := machine.serial + 1 }

/-- Adds an outermost context with all that a program finds in it. -/
def addGlobals (machine : Machine) : ContextId × Machine :=
  let (id, store) := machine.store.root programName
  let store := constants.foldl (fun store (name, value) => store.define id name value false) store
  (id, Builtin.all.foldl (bindBuiltin id) { machine with store := store })

/-- The state of an interpreter that has an outermost context and nothing else, and the number of
this context. -/
def initial (input : List UInt8) : ContextId × Machine :=
  addGlobals ⟨.empty, 1, 0, none, input, ⟨"", none⟩, []⟩

end Quill.Machine
