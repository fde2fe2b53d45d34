import Quill.Eval.Console
import Quill.Eval.Globals
import Quill.Eval.Lists
import Quill.Eval.Script
import Quill.Value.Text

/-!
# Calls

A call checks the number of arguments, opens an activation and runs the function in it. Scripts
are run by two of the built-in functions: one runs them in the outermost context of the caller, so
that the caller sees what they define, and the other one in an outermost context of their own, so
that nothing passes between the two but the value that the script exports.
-/

namespace Quill

namespace Invocation

/-- The path and the text of the script that the argument names. There is no script if the
argument is not a string. -/
def loadScript (call : Invocation) (host : Host) : Eval (Option (String × String)) :=
  match call.argument "file" with
  | .str file => fun machine =>
    let path := Path.join host.config.baseDirectory file
    let machine := { machine with requested := path :: machine.requested }
    match host.disk.readText path with
    | .ok text => .ok (some (path, text)) machine
    | .error reason => call.raise (.scriptUnreadable path reason) machine
  | _ => pure none

/-- Runs a script in an existing context. Its failure is not one of the call yet. -/
def runIn (root : ContextId) (evaluate : Evaluate) (path text : String) :
    Eval (Except Error Value) :=
  fun machine =>
    match Eval.runText evaluate path text root machine with
    | (result, machine) => .ok result machine

/-- The result of a script, or its error as a fault of the call that ran it. -/
def resultOf (call : Invocation) (path : String) (result : Except Error Value) : Eval Value :=
  match result with
  | .ok value => pure value
  | .error error => call.raise (.scriptFailed path error.message)

/-- Runs a script in the outermost context of the caller. -/
def includeScript (call : Invocation) (host : Host) (evaluate : Evaluate) : Eval Value := do
  match ← call.loadScript host with
  | none => call.refuse "file" .string
  | some (path, text) =>
    let root := (← get).store.rootOf call.caller
    let result ← runIn root evaluate path text
    let _ ← call.resultOf path result
    return .null

/-- Begins a script on its own: nothing has been exported, and the outermost context is new. The
value that the caller had exported is returned for later. -/
def enterScript : Eval (Option Value × ContextId) :=
  fun machine =>
    let saved := machine.exported
    let (root, machine) := { machine with exported := none }.addGlobals
    .ok (saved, root) machine

/-- Ends a script on its own: its export is returned and the one of the caller is back. -/
def leaveScript (saved : Option Value) : Eval (Option Value) :=
  fun machine => .ok machine.exported { machine with exported := saved }

/-- Runs a script in an outermost context of its own and returns what it exports. -/
def runScript (call : Invocation) (host : Host) (evaluate : Evaluate) : Eval Value := do
  match ← call.loadScript host with
  | none => call.refuse "file" .string
  | some (path, text) =>
    let (saved, root) ← enterScript
    let result ← runIn root evaluate path text
    let exported ← leaveScript saved
    let _ ← call.resultOf path result
    return exported.getD .null

/-- Does the work of a built-in function. -/
def run (call : Invocation) (host : Host) (evaluate : Evaluate) (builtin : Builtin) : Eval Value :=
  match builtin with
  | .print => do
    call.writeLine (call.argument "value").display
    return .null
  | .printRet | .str => pure (.str (call.argument "value").display)
  | .input => do return .str ((← call.readLine).getD "")
  | .inputInt => do call.readInteger (← get).input.length
  | .isNumber =>
    pure (.ofBool ((call.argument "value").kind matches .int | .float))
  | .isString => pure (.ofBool ((call.argument "value").kind = .str))
  | .isList => pure (.ofBool ((call.argument "value").kind = .list))
  | .isFunction => pure (.ofBool ((call.argument "value").kind = .function))
  | .append => call.append
  | .remove => call.remove
  | .extend => call.extend
  | .length => call.length
  | .time => pure (.float host.clock)
  | .exportValue => fun machine =>
    let value := call.argument "value"
    .ok value { machine with exported := some value }
  | .includeScript => call.includeScript host evaluate
  | .runScript => call.runScript host evaluate

end Invocation

namespace Eval

/-- The call of a built-in function with its arguments. -/
def invocationOf (function : BuiltinFunction) (arguments : List Value) (span : Span)
    (caller : ContextId) : Invocation :=
  { name := function.name
    arguments := .ofArguments function.parameters arguments
    span := span
    caller := caller }

/-- Calls a function that does not come from a program. Its work is found by its name; that there
is none is a fault of the caller. -/
def callBuiltin (host : Host) (function : BuiltinFunction) (arguments : List Value) (span : Span)
    (caller : ContextId) (evaluate : Evaluate) : Eval Value :=
  match Builtin.named? function.name with
  | none => raise (.noSuchBuiltin function.name) span caller
  | some builtin => (invocationOf function arguments span caller).run host evaluate builtin

/-- Calls a value with arguments. -/
def callValue (host : Host) (inner : Option Evaluate) (callee : Value) (arguments : List Value)
    (span : Span) (caller : ContextId) : Eval Value :=
  match callee with
  | .function function => do
    orRaise (function.checkArity arguments.length) span caller
    activate host inner span caller fun evaluate =>
      match function with
      | .user defined => callUser defined arguments span caller evaluate
      | .builtin provided => callBuiltin host provided arguments span caller evaluate
  | other => raise (.notCallable other.repr) span caller

end Eval

end Quill
