import Quill.Proofs.Tracebacks.Basic

/-!
# Accounts of programs

The constructs of evaluation once more, each with the call stack that it is evaluated with. Calls of
functions of the program, instantiations and calls of built-in functions enter a context. A script
is evaluated in an outermost context, so nothing has been entered where it begins.
-/

namespace Quill

namespace Account

open Quill.Eval (raise addContext)

variable {Result : Type}

/-! ## Loops -/

/-- A body as one round of a loop. -/
def round (body : Account Value) : Account Loop.Round :=
  regard Loop.roundOf body

/-- Repeats a body as long as a condition is true, for a number of further rounds at most. -/
def repeatWhile (condition body : Account Value) (keep : Bool)
    (tooLong : Account (List Value)) : (rounds : Nat) → List Value → Account (List Value)
  | 0, values => do
    if (← condition).isTrue then tooLong else pure values
  | rounds + 1, values => do
    if (← condition).isTrue then
      match ← round body with
      | .left => pure values
      | other => repeatWhile condition body keep tooLong rounds (Loop.collect keep values other)
    else
      pure values

/-- Repeats a body for a counter that moves by a step until it arrives, for a number of further
rounds at most. -/
def count (body : Int64 → Account Value) (keep : Bool) (tooLong : Account (List Value))
    (stop step : Int64) : (rounds : Nat) → Int64 → List Value → Account (List Value)
  | 0, counter, values => if Loop.before counter stop step then tooLong else pure values
  | rounds + 1, counter, values =>
    if Loop.before counter stop step then do
      match ← round (body counter) with
      | .left => pure values
      | other =>
        match Integer.add? counter step with
        | some next =>
          count body keep tooLong stop step rounds next (Loop.collect keep values other)
        | none => pure (Loop.collect keep values other)
    else
      pure values

/-! ## Activations -/

/-- Does some work inside a new activation, if there is room for one. -/
def activate (host : Host) (inner : Option Assess) (span : Span) (id : ContextId)
    (work : Assess → Account Result) : Account Result :=
  match inner with
  | none => perform (raise (.recursionLimit host.config.maxCallDepth) span id)
  | some assess => during (work assess)

/-- Calls a function that a program has defined. -/
def callUser (function : UserFunction) (arguments : List Value) (span : Span) (caller : ContextId)
    (assess : Assess) : Account Value := do
  let id ← perform <| addContext
    { name := function.name
      entry := some ⟨caller, span⟩
      scope := some function.closure
      table := .ofArguments function.parameters arguments }
  entering function.name span <|
    regard (Eval.resultOfBody function span id) (assess function.body id)

/-- Makes an instance of a template. -/
def instantiate (template : Object) (name : String) (span : Span) (caller : ContextId)
    (assess : Assess) : Account Value := do
  let id ← perform <| addContext
    { name := "<object " ++ name ++ ">"
      entry := some ⟨caller, span⟩
      scope := some caller
      table := .empty }
  entering ("<object " ++ name ++ ">") span <|
    regard (Eval.instanceOfMembers template span id) (assess template.body id)

/-! ## Scripts -/

/-- The call stack where code in an outermost context begins. -/
def beginning (machine : Machine) (id : ContextId) : CallStack :=
  .outermost (((machine.store.context? id).map (·.name)).getD "")

/-- Reads a text under a name and evaluates it in a context. -/
def runText (assess : Assess) (name text : String) (id : ContextId) (machine : Machine) :
    Accounted (Except Error Value × Machine) :=
  let source : Source := ⟨machine.serial, name, text⟩
  let machine := { machine with serial := machine.serial + 1 }
  match Eval.read source with
  | .error error => ⟨(.error error, machine), []⟩
  | .ok root =>
    let stack := beginning machine id
    let told := assess root id stack machine
    let result := Eval.resultOfScript root id told.ending
    ⟨result,
      told.incidents ++
        arising stack (Outcome.failure? told.ending) (Error.failure? result.1)⟩

/-- Runs a script in an existing context. Its failure is not one of the call yet. -/
def runIn (root : ContextId) (assess : Assess) (path text : String) :
    Account (Except Error Value) :=
  fun _ machine =>
    let told := runText assess path text root machine
    ⟨.ok told.ending.1 told.ending.2, told.incidents⟩

/-- Runs a script in the outermost context of the caller. -/
def includeScript (call : Invocation) (host : Host) (assess : Assess) : Account Value := do
  match ← perform (call.loadScript host) with
  | none => produce (call.refuse "file" .string)
  | some (path, text) =>
    let root ← perform fun machine => .ok (machine.store.rootOf call.caller) machine
    let result ← runIn root assess path text
    let _ ← perform (call.resultOf path result)
    return .null

/-- Runs a script in an outermost context of its own and returns what it exports. -/
def runScript (call : Invocation) (host : Host) (assess : Assess) : Account Value := do
  match ← perform (call.loadScript host) with
  | none => produce (call.refuse "file" .string)
  | some (path, text) =>
    let (saved, root) ← perform Invocation.enterScript
    let result ← runIn root assess path text
    let exported ← perform (Invocation.leaveScript saved)
    let _ ← perform (call.resultOf path result)
    return exported.getD .null

/-! ## Calls -/

/-- Does the work of a built-in function. Those that run no script evaluate nothing. A value that is
exported was there before, whatever it is. -/
def invoke (call : Invocation) (host : Host) (assess : Assess) (builtin : Builtin) :
    Account Value :=
  match builtin with
  | .includeScript => includeScript call host assess
  | .runScript => runScript call host assess
  | .exportValue => perform (call.run host (fun _ _ => pure .null) .exportValue)
  | other => produce (call.run host (fun _ _ => pure .null) other)

/-- Calls a function that does not come from a program. That there is no such function is a fault of
the caller. -/
def callBuiltin (host : Host) (function : BuiltinFunction) (arguments : List Value) (span : Span)
    (caller : ContextId) (assess : Assess) : Account Value :=
  match Builtin.named? function.name with
  | none => perform (raise (.noSuchBuiltin function.name) span caller)
  | some builtin =>
    entering function.name span <|
      invoke (Eval.invocationOf function arguments span caller) host assess builtin

/-- Calls a value with arguments. -/
def callValue (host : Host) (inner : Option Assess) (callee : Value) (arguments : List Value)
    (span : Span) (caller : ContextId) : Account Value :=
  match callee with
  | .function function => do
    perform (Eval.orRaise (function.checkArity arguments.length) span caller)
    activate host inner span caller fun assess =>
      match function with
      | .user defined => callUser defined arguments span caller assess
      | .builtin provided => callBuiltin host provided arguments span caller assess
  | other => perform (raise (.notCallable other.repr) span caller)

/-- Makes an instance of the object that a name stands for. -/
def makeInstance (host : Host) (inner : Option Assess) (name : String) (span : Span)
    (id : ContextId) : Account Value := do
  let template ← perform (Eval.objectNamed name span id)
  activate host inner span id (instantiate template name span id)

/-! ## Expressions -/

mutual

/-- Evaluates an expression in a context, with a way to evaluate what lies in other activations as
long as there is room for one. -/
def evaluateIn (host : Host) (inner : Option Assess) (id : ContextId) : Located → Account Value
  | .literal value _ => pure (.ofLiteral value)
  | .unary op operand span => do
    let value ← evaluateIn host inner id operand
    perform (Eval.orRaise (Value.unary op value) span id)
  | .binary op left right span => do
    let first ← evaluateIn host inner id left
    let second ← evaluateIn host inner id right
    perform (Eval.orRaise (Value.binary op first second) span id)
  | .list elements _ => do
    let values ← evaluateAll host inner id elements
    return .list values
  | .choice branches _ => evaluateBranches host inner id branches
  | .forLoop counter start stop step body block span => do
    let first ← evaluateIn host inner id start
    let last ← evaluateIn host inner id stop
    match first, last with
    | .int first, .int last =>
      let step ← match step with
        | none => pure 1
        | some expr => do
          let value ← evaluateIn host inner id expr
          perform (Eval.stepOf value first last expr.note id)
      let limit := host.config.maxLoopIterations
      let round (value : Int64) : Account Value := do
        perform (Eval.assign id counter (.int value) span id)
        evaluateIn host inner id body
      let values ← count round (!block) (perform (raise (.loopLimit limit) span id)) last step limit
        first []
      return Loop.result block values
    | _, _ => perform (raise .loopBounds span id)
  | .whileLoop condition body block span => do
    let limit := host.config.maxLoopIterations
    let values ← repeatWhile (evaluateIn host inner id condition)
      (evaluateIn host inner id body) (!block) (perform (raise (.loopLimit limit) span id)) limit []
    return Loop.result block values
  | .read name span => perform (Eval.readName name span id)
  | .assign name expr span => do
    let value ← evaluateIn host inner id expr
    perform (Eval.assign id name value span id)
    return value
  | .member object name span => perform (Eval.readMember object name span id)
  | .assignMember object name expr span => do
    let target ← perform (Eval.instanceNamed object span id)
    let value ← evaluateIn host inner id expr
    perform (Eval.assign target.context name value span id)
    return value
  | .function name parameters body valued span =>
    perform (Eval.define name parameters body valued span id)
  | .call callee arguments span => do
    let function ← evaluateIn host inner id callee
    let values ← evaluateAll host inner id arguments
    callValue host inner function values span id
  | .template name body span => perform (Eval.defineTemplate name body span id)
  | .instantiate name span => makeInstance host inner name span id
  | .returnWith none _ => perform (throw (.returned .null))
  | .returnWith (some expr) _ => do
    let value ← evaluateIn host inner id expr
    perform (throw (.returned value))
  | .breakLoop span => perform (throw (.broke span))
  | .continueLoop span => perform (throw (.continued span))

/-- Evaluates expressions one after the other. -/
def evaluateAll (host : Host) (inner : Option Assess) (id : ContextId) :
    List Located → Account (List Value)
  | [] => pure []
  | element :: rest => do
    let value ← evaluateIn host inner id element
    let values ← evaluateAll host inner id rest
    return value :: values

/-- Evaluates the first alternative of which the condition is true. -/
def evaluateBranches (host : Host) (inner : Option Assess) (id : ContextId) :
    Branches Span → Account Value
  | .done => pure .null
  | .otherwise body block => do
    let value ← evaluateIn host inner id body
    return if block then .null else value
  | .orElse condition body block rest => do
    if (← evaluateIn host inner id condition).isTrue then
      let value ← evaluateIn host inner id body
      return if block then .null else value
    else
      evaluateBranches host inner id rest

end

/-- Evaluates an expression in a context with room for a number of activations. -/
def evaluate (host : Host) : (room : Nat) → Assess
  | 0, expr, id => evaluateIn host none id expr
  | room + 1, expr, id => evaluateIn host (some (evaluate host room)) id expr

/-- The way to evaluate what lies in other activations, if there is room for any. -/
def inside (host : Host) : (room : Nat) → Option Assess
  | 0 => none
  | room + 1 => some (evaluate host room)

theorem evaluate_eq (host : Host) (room : Nat) (expr : Located) (id : ContextId) :
    evaluate host room expr id = evaluateIn host (inside host room) id expr := by
  cases room <;> rfl

/-! ## Sessions -/

/-- Runs a program in a context of a session. -/
def runProgram (host : Host) (session : Session) (id : ContextId) (name text : String) :
    Accounted (Except Error Value × Session) :=
  let told := runText (evaluate host (host.config.maxCallDepth - session.machine.depth)) name text
    id session.machine
  ⟨(told.ending.1, { session with machine := told.ending.2 }), told.incidents⟩

/-- Calls a value from the outermost context of a session. -/
def callFromOutside (host : Host) (session : Session) (callee : Value) (arguments : List Value)
    (span : Span) : Accounted (Except Error Value × Session) :=
  let stack := beginning session.machine session.globals
  let inner := inside host (host.config.maxCallDepth - session.machine.depth)
  let told := callValue host inner callee arguments span session.globals stack session.machine
  let result := session.resultOfCall span told.ending
  ⟨result,
    told.incidents ++ arising stack (Outcome.failure? told.ending) (Error.failure? result.1)⟩

end Account

/-- What may be asked of an interpreter. -/
inductive Request where
  /-- To run a program in the outermost context. -/
  | run (name text : String)
  /-- To run a program in a new outermost context. -/
  | runFresh (name text : String)
  /-- To call a value from the outermost context. -/
  | call (callee : Value) (arguments : List Value) (span : Span)

/-- What an interpreter answers. -/
def Session.answer (session : Session) (host : Host) : Request → Except Error Value × Session
  | .run name text => session.run host name text
  | .runFresh name text => session.runFresh host name text
  | .call callee arguments span => session.call host callee arguments span

/-- The account of what an interpreter answers. -/
def Account.answer (host : Host) (session : Session) :
    Request → Accounted (Except Error Value × Session)
  | .run name text => runProgram host session session.globals name text
  | .runFresh name text =>
    let (globals, machine) := session.machine.addGlobals
    runProgram host { session with machine := machine } globals name text
  | .call callee arguments span => callFromOutside host session callee arguments span

end Quill
