import Quill.Error
import Quill.Eval.Activation
import Quill.Grammar.Program

/-!
# Scripts

A script is a text that is read and evaluated in a context that already exists. A `return` outside
of all functions ends it with a result. Every other signal that reaches its outermost level is a
failure of the script, which the caller gets as a value.
-/

namespace Quill.Eval

/-- What the outcome of a script's statements is for whoever runs the script. -/
def resultOfScript (root : Located) (id : ContextId) :
    Outcome Value → Except Error Value × Machine
  | .ok value machine => (.ok value, machine)
  | .error (.returned value) machine => (.ok value, machine)
  | .error signal machine =>
    (.error (.running (failureOf signal root.note id machine.store)), machine)

/-- The program that a text stands for. -/
def read (source : Source) : Except Error Located :=
  match Token.scan source with
  | .error error => .error (.scanning error)
  | .ok tokens =>
    match Grammar.parse tokens with
    | .error error => .error (.parsing error)
    | .ok root => .ok root

/-- Reads a text under a name and evaluates it in a context. The text becomes a source of its own,
also if the same text has been loaded before. -/
def runText (evaluate : Evaluate) (name text : String) (id : ContextId) (machine : Machine) :
    Except Error Value × Machine :=
  let source : Source := ⟨machine.serial, name, text⟩
  let machine := { machine with serial := machine.serial + 1 }
  match read source with
  | .error error => (.error error, machine)
  | .ok root => resultOfScript root id (evaluate root id machine)

end Quill.Eval
