import Quill.Config
import Quill.Disk
import Quill.Store.Basic

/-!
# The state of an interpreter

Everything that evaluation may read or change is one value: the store of contexts, the identities
given out so far, the number of open activations, the value that the running script exports, the
input that is left, the output so far, and the paths of the scripts that were asked for. What
surrounds a run and never changes during it is the host.
-/

namespace Quill

/-- What surrounds a run. -/
structure Host where
  /-- The limits of the run and its base directory. -/
  config : Config
  /-- The script files. -/
  disk : Disk
  /-- The time of the run, in seconds since the beginning of 1970. -/
  clock : Float

/-- When an output stops taking what is printed, and why. -/
structure Closing where
  /-- How many lines it takes before. -/
  room : Nat
  /-- Why it takes no more then, in its own words. -/
  reason : String
deriving DecidableEq, Repr

/-- Where printed text goes. -/
structure Output where
  /-- The text that was printed. -/
  written : String
  /-- When and why nothing more can be printed, if that is ever so. -/
  broken : Option Closing
deriving DecidableEq, Repr

/-- The output with one more line, or the reason why it does not take the line. -/
def Output.print (output : Output) (line : String) : Except String Output :=
  match output.broken with
  | none => .ok ⟨output.written ++ line, none⟩
  | some ⟨0, reason⟩ => .error reason
  | some ⟨room + 1, reason⟩ => .ok ⟨output.written ++ line, some ⟨room, reason⟩⟩

/-- The state of an interpreter. -/
structure Machine where
  /-- The contexts. -/
  store : Store
  /-- The next identity of a function, an object or a source. All smaller ones may be taken. -/
  serial : Nat
  /-- How many calls and instantiations are being evaluated. -/
  depth : Nat
  /-- The value that the running script has exported last. -/
  exported : Option Value
  /-- The bytes of the input that have not been read. -/
  input : List UInt8
  /-- The output. -/
  output : Output
  /-- The paths of the scripts that were asked for, latest first. -/
  requested : List String

/-- Why the evaluation of an expression ended without a value. -/
inductive Signal where
  /-- It failed. -/
  | failed (failure : Failure)
  /-- A function is to return a value. -/
  | returned (value : Value)
  /-- The loop around the expression at the span is to end. -/
  | broke (span : Span)
  /-- The loop around the expression at the span is to begin its next round. -/
  | continued (span : Span)

/-- How a step of an evaluation ends: with a result or a signal, and with the state after it. -/
abbrev Outcome (Result : Type) := EStateM.Result Signal Machine Result

/-- A step of an evaluation: it changes the state, and has a result or ends with a signal. -/
abbrev Eval (Result : Type) := EStateM Signal Machine Result

/-- How expressions are evaluated in a context. -/
abbrev Evaluate := Expr Span → ContextId → Eval Value

namespace Eval

variable {Result : Type}

/-- An identity that has not been used before. -/
def freshId : Eval Nat :=
  fun machine => .ok machine.serial { machine with serial := machine.serial + 1 }

/-- Fails with a fault at a place of a context. -/
def raise (fault : Fault) (span : Span) (id : ContextId) : Eval Result :=
  fun machine => .error (.failed ⟨fault, span, machine.store.traceback id span⟩) machine

/-- The result of an operation, or its fault at a place of a context. -/
def orRaise (result : Except Fault Result) (span : Span) (id : ContextId) : Eval Result :=
  match result with
  | .ok value => pure value
  | .error fault => raise fault span id

/-- The value of a name in a context. -/
def lookup (id : ContextId) (name : String) : Eval (Option Value) :=
  fun machine => .ok (machine.store.lookup id name) machine

/-- The value of a name in the table of a context itself. -/
def lookupLocal (id : ContextId) (name : String) : Eval (Option Value) :=
  fun machine => .ok (machine.store.lookupLocal id name) machine

/-- Gives a value to a name in the table of the context `target`. If the name is immutable there,
that is a fault at a place of the context `id`. -/
def assign (target : ContextId) (name : String) (value : Value) (span : Span) (id : ContextId) :
    Eval Unit :=
  fun machine =>
    if machine.store.protects target name then
      raise (.immutableBinding name) span id machine
    else
      .ok () { machine with store := machine.store.define target name value true }

/-- Adds a context to the store. -/
def addContext (context : Context) : Eval ContextId :=
  fun machine =>
    let id := machine.store.size
    .ok id { machine with store := (machine.store.add context).2 }

/-- The failure that a signal amounts to where no construct is left that could take it. A signal
for a loop points at the place that it came from, a signal for a function at the boundary that it
did not get across. -/
def failureOf (signal : Signal) (boundary : Span) (id : ContextId) (store : Store) : Failure :=
  match signal with
  | .failed failure => failure
  | .broke span => ⟨.breakOutsideLoop, span, store.traceback id span⟩
  | .continued span => ⟨.continueOutsideLoop, span, store.traceback id span⟩
  | .returned _ => ⟨.returnOutsideFunction, boundary, store.traceback id boundary⟩

end Eval

end Quill
