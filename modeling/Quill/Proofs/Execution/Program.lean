import Quill.Proofs.Execution.Basic

/-!
# Executing programs

The same constructs as in evaluation, told without any measure that decreases. An expression calls
the execution of its parts, of the bodies of functions and templates that it finds in the store,
and of scripts that are read on the way; all of these are one and the same way to execute, which is
a parameter of the rules. The execution with some fuel closes the circle: each expression that it
enters takes one unit of the fuel away, and a loop may take as many rounds as units are left.
-/

namespace Quill.Execution

open Quill.Eval (orRaise raise lookup lookupLocal addContext)

variable {Result : Type}

/-! ## Loops -/

/-- Executes a body as one round of a loop. -/
def round (body : Execution Value) : Execution Loop.Round :=
  regard Loop.roundOf (fun _ => []) body

/-- The next round of a loop under a condition, with a way to go on behind it. The rounds so far are
counted, and one more than the limit is one too many. -/
def whileRound (condition body : Execution Value) (keep : Bool) (tooLong : Execution (List Value))
    (limit : Nat) (again : Nat → List Value → Execution (List Value)) (rounds : Nat)
    (values : List Value) : Execution (List Value) := do
  if (← condition).isTrue then
    if limit < rounds + 1 then
      tooLong
    else
      match ← round body with
      | .left => pure values
      | other => again (rounds + 1) (Loop.collect keep values other)
  else
    pure values

/-- Repeats a body as long as a condition is true. -/
def repeatWhile (condition body : Execution Value) (keep : Bool)
    (tooLong : Execution (List Value)) (limit : Nat) :
    (fuel : Nat) → (rounds : Nat) → List Value → Execution (List Value)
  | 0, _, _ => cutOff
  | fuel + 1, rounds, values =>
    whileRound condition body keep tooLong limit
      (repeatWhile condition body keep tooLong limit fuel) rounds values

/-- The next round of a loop that counts, with a way to go on behind it. The rounds so far are
counted, and one more than the limit is one too many. -/
def countRound (body : Int64 → Execution Value) (keep : Bool) (tooLong : Execution (List Value))
    (limit : Nat) (stop step : Int64)
    (again : Nat → Int64 → List Value → Execution (List Value)) (rounds : Nat) (counter : Int64)
    (values : List Value) : Execution (List Value) :=
  if Loop.before counter stop step then
    if limit < rounds + 1 then
      tooLong
    else do
      match ← round (body counter) with
      | .left => pure values
      | other =>
        match Integer.add? counter step with
        | some next => again (rounds + 1) next (Loop.collect keep values other)
        | none => pure (Loop.collect keep values other)
  else
    pure values

/-- Repeats a body for a counter that moves by a step until it arrives. -/
def count (body : Int64 → Execution Value) (keep : Bool) (tooLong : Execution (List Value))
    (limit : Nat) (stop step : Int64) :
    (fuel : Nat) → (rounds : Nat) → Int64 → List Value → Execution (List Value)
  | 0, _, _, _ => cutOff
  | fuel + 1, rounds, counter, values =>
    countRound body keep tooLong limit stop step
      (count body keep tooLong limit stop step fuel) rounds counter values

/-! ## Activations -/

/-- Does some work inside a new activation, unless as many of them as the limit allows are open. -/
def activate (host : Host) (span : Span) (id : ContextId) (work : Execution Result) :
    Execution Result :=
  fun machine =>
    if host.config.maxCallDepth ≤ machine.depth then
      perform (raise (.recursionLimit host.config.maxCallDepth) span id) machine
    else
      regard Eval.leave (fun _ => []) work { machine with depth := machine.depth + 1 }

/-- The faults that arise at the edge of a body which takes the signal to return. -/
def strayFromBody : Outcome Value → List Event
  | .error (.returned _) _ => []
  | .error signal _ => signal.faults
  | .ok _ _ => []

/-- The faults that arise at the edge of statements which take no signal at all. -/
def strayFromMembers : Outcome Value → List Event
  | .error signal _ => signal.faults
  | .ok _ _ => []

/-- Calls a function that a program has defined. -/
def callUser (self : Execute) (function : UserFunction) (arguments : List Value) (span : Span)
    (caller : ContextId) : Execution Value := do
  let id ← perform <| addContext
    { name := function.name
      entry := some ⟨caller, span⟩
      scope := some function.closure
      table := .ofArguments function.parameters arguments }
  regard (Eval.resultOfBody function span id) strayFromBody (self function.body id)

/-- Makes an instance of a template. -/
def instantiate (self : Execute) (template : Object) (name : String) (span : Span)
    (caller : ContextId) : Execution Value := do
  let id ← perform <| addContext
    { name := "<object " ++ name ++ ">"
      entry := some ⟨caller, span⟩
      scope := some caller
      table := .empty }
  regard (Eval.instanceOfMembers template span id) strayFromMembers (self template.body id)

/-! ## Scripts -/

/-- Reads a text under a name and executes it in a context. -/
def runText (self : Execute) (name text : String) (id : ContextId) (machine : Machine) :
    Option ((Except Error Value × Machine) × List Event) :=
  let source : Source := ⟨machine.serial, name, text⟩
  let machine := { machine with serial := machine.serial + 1 }
  match Eval.read source with
  | .error error => some ((.error error, machine), [])
  | .ok root =>
    (self root id machine).map fun (outcome, events) =>
      (Eval.resultOfScript root id outcome, events ++ strayFromBody outcome)

/-- Runs a script in an existing context. Its failure is not one of the call yet. -/
def runIn (root : ContextId) (self : Execute) (path text : String) :
    Execution (Except Error Value) :=
  fun machine => (runText self path text root machine).map fun ((result, after), events) =>
    (.ok result after, events)

/-- Runs a script in the outermost context of the caller. -/
def includeScript (self : Execute) (host : Host) (call : Invocation) : Execution Value := do
  match ← perform (call.loadScript host) with
  | none => perform (call.refuse "file" .string)
  | some (path, text) =>
    let root ← perform fun machine => .ok (machine.store.rootOf call.caller) machine
    let result ← runIn root self path text
    let _ ← perform (call.resultOf path result)
    return .null

/-- Runs a script in an outermost context of its own and returns what it exports. -/
def runScript (self : Execute) (host : Host) (call : Invocation) : Execution Value := do
  match ← perform (call.loadScript host) with
  | none => perform (call.refuse "file" .string)
  | some (path, text) =>
    let (saved, root) ← perform Invocation.enterScript
    let result ← runIn root self path text
    let exported ← perform (Invocation.leaveScript saved)
    let _ ← perform (call.resultOf path result)
    return exported.getD .null

/-! ## Calls -/

/-- Reads lines until one of them holds an integer, and complains about every other line. -/
def readInteger (call : Invocation) : (fuel : Nat) → Execution Value
  | 0 => cutOff
  | fuel + 1 => do
    match ← perform call.readLine with
    | none => perform (call.exception (.io .endOfInput))
    | some line =>
      match Console.integer? line with
      | some value => return .int value
      | none =>
        perform (call.complain line)
        readInteger call fuel

/-- Does the work of a built-in function. Those that run no script evaluate nothing. -/
def invoke (self : Execute) (host : Host) (fuel : Nat) (call : Invocation) (builtin : Builtin) :
    Execution Value := do
  note (.invoked builtin)
  match builtin with
  | .inputInt => readInteger call fuel
  | .includeScript => includeScript self host call
  | .runScript => runScript self host call
  | other => perform (call.run host (fun _ _ => pure .null) other)

/-- Calls a function that does not come from a program. -/
def callBuiltin (self : Execute) (host : Host) (fuel : Nat) (function : BuiltinFunction)
    (arguments : List Value) (span : Span) (caller : ContextId) : Execution Value :=
  match Builtin.named? function.name with
  | none => perform (raise (.noSuchBuiltin function.name) span caller)
  | some builtin =>
    invoke self host fuel (Eval.invocationOf function arguments span caller) builtin

/-- Calls a value with arguments. -/
def callValue (self : Execute) (host : Host) (fuel : Nat) (callee : Value)
    (arguments : List Value) (span : Span) (caller : ContextId) : Execution Value :=
  match callee with
  | .function function => do
    perform (orRaise (function.checkArity arguments.length) span caller)
    activate host span caller <|
      match function with
      | .user defined => callUser self defined arguments span caller
      | .builtin provided => callBuiltin self host fuel provided arguments span caller
  | other => perform (raise (.notCallable other.repr) span caller)

/-! ## Expressions -/

/-- Executes expressions one after the other. -/
def all (self : Execute) (id : ContextId) : List Located → Execution (List Value)
  | [] => pure []
  | element :: rest => do
    let value ← self element id
    let values ← all self id rest
    return value :: values

/-- Executes the first alternative of which the condition is true. -/
def alternatives (self : Execute) (id : ContextId) : Branches Span → Execution Value
  | .done => pure .null
  | .otherwise body block => do
    let value ← self body id
    return if block then .null else value
  | .orElse condition body block rest => do
    if (← self condition id).isTrue then
      let value ← self body id
      return if block then .null else value
    else
      alternatives self id rest

/-- The steps that a loop counts in. -/
def stepOf (self : Execute) (id : ContextId) (step : Option Located) (first last : Int64) :
    Execution Int64 :=
  match step with
  | none => pure 1
  | some expr => do
    let value ← self expr id
    perform (Eval.stepOf value first last expr.note id)

/-- One round of a loop that counts. -/
def countedRound (self : Execute) (id : ContextId) (counter : String) (body : Located)
    (span : Span) (value : Int64) : Execution Value := do
  perform (Eval.assign id counter (.int value) span id)
  self body id

/-- Executes an expression in a context, with a way to execute every other expression. -/
def express (self : Execute) (host : Host) (fuel : Nat) (id : ContextId) :
    Located → Execution Value
  | .literal value _ => pure (.ofLiteral value)
  | .unary op operand span => do
    let value ← self operand id
    perform (orRaise (Value.unary op value) span id)
  | .binary op left right span => do
    let first ← self left id
    let second ← self right id
    note (.applied op first second)
    perform (orRaise (Value.binary op first second) span id)
  | .list elements _ => do
    let values ← all self id elements
    return .list values
  | .choice branches _ => alternatives self id branches
  | .forLoop counter start stop step body block span => do
    let first ← self start id
    let last ← self stop id
    match first, last with
    | .int first, .int last =>
      let step ← stepOf self id step first last
      let limit := host.config.maxLoopIterations
      let values ← count (countedRound self id counter body span) (!block)
        (perform (raise (.loopLimit limit) span id)) limit last step fuel 0 first []
      return Loop.result block values
    | _, _ => perform (raise .loopBounds span id)
  | .whileLoop condition body block span => do
    let limit := host.config.maxLoopIterations
    let values ← repeatWhile (self condition id) (self body id) (!block)
      (perform (raise (.loopLimit limit) span id)) limit fuel 0 []
    return Loop.result block values
  | .read name span => perform (Eval.readName name span id)
  | .assign name expr span => do
    let value ← self expr id
    perform (Eval.assign id name value span id)
    return value
  | .member object name span => perform (Eval.readMember object name span id)
  | .assignMember object name expr span => do
    let target ← perform (Eval.instanceNamed object span id)
    let value ← self expr id
    perform (Eval.assign target.context name value span id)
    return value
  | .function name parameters body valued span =>
    perform (Eval.define name parameters body valued span id)
  | .call callee arguments span => do
    let function ← self callee id
    let values ← all self id arguments
    callValue self host fuel function values span id
  | .template name body span => perform (Eval.defineTemplate name body span id)
  | .instantiate name span => do
    let template ← perform (Eval.objectNamed name span id)
    activate host span id (instantiate self template name span id)
  | .returnWith none _ => perform (throw (.returned .null))
  | .returnWith (some expr) _ => do
    let value ← self expr id
    perform (throw (.returned value))
  | .breakLoop span => perform (throw (.broke span))
  | .continueLoop span => perform (throw (.continued span))

/-- Executes an expression in a context with some fuel. -/
def evaluate (host : Host) : (fuel : Nat) → Execute
  | 0, _, _ => cutOff
  | fuel + 1, expr, id => express (evaluate host fuel) host fuel id expr

/-! ## Sessions -/

/-- Executes a program in the outermost context of a session with some fuel. -/
def run (host : Host) (fuel : Nat) (session : Session) (name text : String) :
    Option ((Except Error Value × Session) × List Event) :=
  (runText (evaluate host fuel) name text session.globals session.machine).map
    fun ((result, machine), events) => ((result, { session with machine := machine }), events)

/-- Executes a call from the outermost context of a session with some fuel. -/
def call (host : Host) (fuel : Nat) (session : Session) (callee : Value) (arguments : List Value)
    (span : Span) : Option ((Except Error Value × Session) × List Event) :=
  (callValue (evaluate host fuel) host fuel callee arguments span session.globals
    session.machine).map fun (outcome, events) => (session.resultOfCall span outcome, events)

end Quill.Execution
