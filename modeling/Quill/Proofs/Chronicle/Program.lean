import Quill.Proofs.Chronicle.Basic

/-!
# Chronicles of programs

The constructs of evaluation once more, each with a record of what happens in it. Whatever changes
the state is a step of its own: a name that is bound, a context that is added, a line that is read.
Bindings are recorded with the code they come from, and everything that an included script does with
the context it is included in.
-/

namespace Quill.Chronicle

open Quill.Eval (raise addContext freshId)

variable {Result : Type}

/-! ## Steps -/

/-- The result of an operation, or its fault at a place of a context. -/
def orRaise (result : Except Fault Result) (span : Span) (id : ContextId) : Chronicle Result :=
  match result with
  | .ok value => pure value
  | .error fault => perform (raise fault span id)

/-- Gives a value to a name in the table of the context `target`. -/
def assign (target : ContextId) (name : String) (value : Value) (manner : Manner) (span : Span)
    (id : ContextId) : Chronicle Unit :=
  record (.bound target name value manner) (Eval.assign target name value span id)

/-- Defines a function in a context, and binds it there if it has a name. -/
def define (name : Option String) (parameters : List String) (body : Located) (valued : Bool)
    (span : Span) (id : ContextId) : Chronicle Value := do
  let serial ← perform freshId
  let value := Value.function (.user
    { id := serial
      name := name.getD "<anonymous>"
      parameters := parameters
      body := body
      closure := id
      valued := valued })
  if let some bound := name then
    assign id bound value .direct span id
  return value

/-- Defines a template of objects in a context. -/
def defineTemplate (name : String) (body : Located) (span : Span) (id : ContextId) :
    Chronicle Value := do
  let serial ← perform freshId
  let value := Value.object
    { id := serial
      name := name
      body := body
      isInstance := false
      context := id }
  assign id name value .direct span id
  return value

/-! ## Loops -/

/-- A body as one round of a loop. -/
def round (body : Chronicle Value) : Chronicle Loop.Round :=
  regard Loop.roundOf (fun _ => []) body

/-- Repeats a body as long as a condition is true, for a number of further rounds at most. -/
def repeatWhile (condition body : Chronicle Value) (keep : Bool)
    (tooLong : Chronicle (List Value)) : (rounds : Nat) → List Value → Chronicle (List Value)
  | 0, values => do
    if (← condition).isTrue then tooLong else pure values
  | rounds + 1, values => do
    if (← condition).isTrue then
      match ← round body with
      | .left => pure values
      | other => repeatWhile condition body keep tooLong rounds (Loop.collect keep values other)
    else
      pure values

/-- Repeats a body for a counter that moves by a step until it arrives, for a number of further
rounds at most. -/
def count (body : Int64 → Chronicle Value) (keep : Bool) (tooLong : Chronicle (List Value))
    (stop step : Int64) : (rounds : Nat) → Int64 → List Value → Chronicle (List Value)
  | 0, counter, values => if Loop.before counter stop step then tooLong else pure values
  | rounds + 1, counter, values =>
    if Loop.before counter stop step then do
      match ← round (body counter) with
      | .left => pure values
      | other =>
        match Integer.add? counter step with
        | some next =>
          count body keep tooLong stop step rounds next (Loop.collect keep values other)
        | none => pure (Loop.collect keep values other)
    else
      pure values

/-! ## Activations -/

/-- Does some work inside a new activation, if there is room for one. -/
def activate (host : Host) (inner : Option Recount) (span : Span) (id : ContextId)
    (work : Recount → Chronicle Result) : Chronicle Result :=
  match inner with
  | none => perform (raise (.recursionLimit host.config.maxCallDepth) span id)
  | some recount => during (work recount)

/-- Calls a function that a program has defined. -/
def callUser (function : UserFunction) (arguments : List Value) (span : Span) (caller : ContextId)
    (recount : Recount) : Chronicle Value := do
  let id ← perform <| addContext
    { name := function.name
      entry := some ⟨caller, span⟩
      scope := some function.closure
      table := .ofArguments function.parameters arguments }
  regard (Eval.resultOfBody function span id) Execution.strayFromBody (recount function.body id)

/-- Makes an instance of a template. -/
def instantiate (template : Object) (name : String) (span : Span) (caller : ContextId)
    (recount : Recount) : Chronicle Value := do
  let id ← perform <| addContext
    { name := "<object " ++ name ++ ">"
      entry := some ⟨caller, span⟩
      scope := some caller
      table := .empty }
  regard (Eval.instanceOfMembers template span id) Execution.strayFromMembers
    (recount template.body id)

/-! ## Scripts -/

/-- Reads a text under a name and evaluates it in a context. -/
def runText (recount : Recount) (name text : String) (id : ContextId) (machine : Machine) :
    Told (Except Error Value × Machine) :=
  let source : Source := ⟨machine.serial, name, text⟩
  let machine := { machine with serial := machine.serial + 1 }
  match Eval.read source with
  | .error error => ⟨(.error error, machine), [Happening.stepped.at machine]⟩
  | .ok root =>
    let told := recount root id machine
    ⟨Eval.resultOfScript root id told.ending,
      Happening.stepped.at machine :: told.log ++
        (Execution.strayFromBody told.ending).map fun event =>
          (Happening.noted event).at (Outcome.machine told.ending)⟩

/-- Runs a script in an existing context. Its failure is not one of the call yet. -/
def runIn (root : ContextId) (recount : Recount) (path text : String) :
    Chronicle (Except Error Value) :=
  fun machine =>
    let told := runText recount path text root machine
    ⟨.ok told.ending.1 told.ending.2, told.log⟩

/-- Runs a script in the outermost context of the caller. -/
def includeScript (call : Invocation) (host : Host) (recount : Recount) : Chronicle Value := do
  match ← perform (call.loadScript host) with
  | none => perform (call.refuse "file" .string)
  | some (path, text) =>
    let root ← perform fun machine => .ok (machine.store.rootOf call.caller) machine
    let result ← within root (runIn root recount path text)
    let _ ← perform (call.resultOf path result)
    return .null

/-- Runs a script in an outermost context of its own and returns what it exports. -/
def runScript (call : Invocation) (host : Host) (recount : Recount) : Chronicle Value := do
  match ← perform (call.loadScript host) with
  | none => perform (call.refuse "file" .string)
  | some (path, text) =>
    let (saved, root) ← perform Invocation.enterScript
    let result ← runIn root recount path text
    let exported ← perform (Invocation.leaveScript saved)
    let _ ← perform (call.resultOf path result)
    return exported.getD .null

/-! ## Calls -/

/-- Does the work of a built-in function. Those that run no script evaluate nothing. -/
def invoke (call : Invocation) (host : Host) (recount : Recount) (builtin : Builtin) :
    Chronicle Value := do
  note (.noted (.invoked builtin))
  match builtin with
  | .includeScript => includeScript call host recount
  | .runScript => runScript call host recount
  | other => perform (call.run host (fun _ _ => pure .null) other)

/-- Calls a function that does not come from a program. -/
def callBuiltin (host : Host) (function : BuiltinFunction) (arguments : List Value) (span : Span)
    (caller : ContextId) (recount : Recount) : Chronicle Value :=
  match Builtin.named? function.name with
  | none => perform (raise (.noSuchBuiltin function.name) span caller)
  | some builtin =>
    invoke (Eval.invocationOf function arguments span caller) host recount builtin

/-- Calls a value with arguments. -/
def callValue (host : Host) (inner : Option Recount) (callee : Value) (arguments : List Value)
    (span : Span) (caller : ContextId) : Chronicle Value :=
  match callee with
  | .function function => do
    note (.called function arguments.length)
    orRaise (function.checkArity arguments.length) span caller
    activate host inner span caller fun recount =>
      match function with
      | .user defined => callUser defined arguments span caller recount
      | .builtin provided => callBuiltin host provided arguments span caller recount
  | other => perform (raise (.notCallable other.repr) span caller)

/-- Makes an instance of the object that a name stands for. -/
def makeInstance (host : Host) (inner : Option Recount) (name : String) (span : Span)
    (id : ContextId) : Chronicle Value := do
  let template ← perform (Eval.objectNamed name span id)
  note (.instantiated template)
  activate host inner span id (instantiate template name span id)

/-! ## Expressions -/

mutual

/-- Evaluates an expression in a context, with a way to evaluate what lies in other activations as
long as there is room for one. -/
def evaluateIn (host : Host) (inner : Option Recount) (id : ContextId) :
    Located → Chronicle Value
  | .literal value _ => pure (.ofLiteral value)
  | .unary op operand span => do
    let value ← evaluateIn host inner id operand
    orRaise (Value.unary op value) span id
  | .binary op left right span => do
    let first ← evaluateIn host inner id left
    let second ← evaluateIn host inner id right
    note (.noted (.applied op first second))
    orRaise (Value.binary op first second) span id
  | .list elements _ => do
    let values ← evaluateAll host inner id elements
    return .list values
  | .choice branches _ => evaluateBranches host inner id branches
  | .forLoop counter start stop step body block span => do
    let first ← evaluateIn host inner id start
    let last ← evaluateIn host inner id stop
    match first, last with
    | .int first, .int last =>
      let step ← match step with
        | none => pure 1
        | some expr => do
          let value ← evaluateIn host inner id expr
          perform (Eval.stepOf value first last expr.note id)
      let limit := host.config.maxLoopIterations
      let round (value : Int64) : Chronicle Value := do
        assign id counter (.int value) .direct span id
        evaluateIn host inner id body
      let values ← count round (!block) (perform (raise (.loopLimit limit) span id)) last step limit
        first []
      return Loop.result block values
    | _, _ => perform (raise .loopBounds span id)
  | .whileLoop condition body block span => do
    let limit := host.config.maxLoopIterations
    let values ← repeatWhile (evaluateIn host inner id condition)
      (evaluateIn host inner id body) (!block) (perform (raise (.loopLimit limit) span id)) limit []
    return Loop.result block values
  | .read name span => perform (Eval.readName name span id)
  | .assign name expr span => do
    let value ← evaluateIn host inner id expr
    assign id name value .direct span id
    return value
  | .member object name span => perform (Eval.readMember object name span id)
  | .assignMember object name expr span => do
    let target ← perform (Eval.instanceNamed object span id)
    let value ← evaluateIn host inner id expr
    assign target.context name value (.member target) span id
    return value
  | .function name parameters body valued span => define name parameters body valued span id
  | .call callee arguments span => do
    let function ← evaluateIn host inner id callee
    let values ← evaluateAll host inner id arguments
    callValue host inner function values span id
  | .template name body span => defineTemplate name body span id
  | .instantiate name span => makeInstance host inner name span id
  | .returnWith none _ => perform (throw (.returned .null))
  | .returnWith (some expr) _ => do
    let value ← evaluateIn host inner id expr
    perform (throw (.returned value))
  | .breakLoop span => perform (throw (.broke span))
  | .continueLoop span => perform (throw (.continued span))

/-- Evaluates expressions one after the other. -/
def evaluateAll (host : Host) (inner : Option Recount) (id : ContextId) :
    List Located → Chronicle (List Value)
  | [] => pure []
  | element :: rest => do
    let value ← evaluateIn host inner id element
    let values ← evaluateAll host inner id rest
    return value :: values

/-- Evaluates the first alternative of which the condition is true. -/
def evaluateBranches (host : Host) (inner : Option Recount) (id : ContextId) :
    Branches Span → Chronicle Value
  | .done => pure .null
  | .otherwise body block => do
    let value ← evaluateIn host inner id body
    return if block then .null else value
  | .orElse condition body block rest => do
    if (← evaluateIn host inner id condition).isTrue then
      let value ← evaluateIn host inner id body
      return if block then .null else value
    else
      evaluateBranches host inner id rest

end

/-- Evaluates an expression in a context with room for a number of activations. -/
def evaluate (host : Host) : (room : Nat) → Recount
  | 0, expr, id => evaluateIn host none id expr
  | room + 1, expr, id => evaluateIn host (some (evaluate host room)) id expr

/-- The way to evaluate what lies in other activations, if there is room for any. -/
def inside (host : Host) : (room : Nat) → Option Recount
  | 0 => none
  | room + 1 => some (evaluate host room)

theorem evaluate_eq (host : Host) (room : Nat) (expr : Located) (id : ContextId) :
    evaluate host room expr id = evaluateIn host (inside host room) id expr := by
  cases room <;> rfl

/-! ## Sessions -/

/-- Runs a program in a context of a session. -/
def runProgram (host : Host) (session : Session) (id : ContextId) (name text : String) :
    Told (Except Error Value × Session) :=
  let told := runText (evaluate host (host.config.maxCallDepth - session.machine.depth)) name text
    id session.machine
  ⟨(told.ending.1, { session with machine := told.ending.2 }), told.log⟩

end Quill.Chronicle
