import Quill.Proofs.Transcript.Basic

/-!
# Transcripts of programs

The constructs of evaluation once more, each with what is done in it. An assignment, a round of a
loop that counts, and the definition of a function or a template try to give a value to a name. All
that a script does is done in the call that runs it.
-/

namespace Quill

/-- A text that cannot be read has not failed to run. -/
theorem Eval.ne_running_of_read {source : Source} {error : Error}
    (unread : Eval.read source = .error error) (failure : Failure) : error ≠ .running failure := by
  rintro rfl
  unfold Eval.read at unread
  split at unread
  · cases unread
  · split at unread <;> cases unread

namespace Transcript

open Quill.Eval (raise addContext freshId)

variable {Result : Type}

/-! ## Names -/

/-- Gives a value to a name in the table of the context `target`. -/
def assign (target : ContextId) (name : String) (value : Value) (span : Span) (id : ContextId) :
    Transcript Unit :=
  attempt ⟨target, name, value⟩ (Eval.assign target name value span id)

/-- Defines a function in a context, and binds it there if it has a name. -/
def define (name : Option String) (parameters : List String) (body : Located) (valued : Bool)
    (span : Span) (id : ContextId) : Transcript Value := do
  let function : UserFunction :=
    { id := ← perform freshId
      name := name.getD "<anonymous>"
      parameters := parameters
      body := body
      closure := id
      valued := valued }
  let value := Value.function (.user function)
  if let some bound := name then
    assign id bound value span id
  return value

/-- Defines a template of objects in a context. -/
def defineTemplate (name : String) (body : Located) (span : Span) (id : ContextId) :
    Transcript Value := do
  let object : Object :=
    { id := ← perform freshId
      name := name
      body := body
      isInstance := false
      context := id }
  assign id name (.object object) span id
  return .object object

/-! ## Loops -/

/-- The view of the loop around a body. -/
def View.round : View Value Loop.Round where
  see := Loop.roundOf
  same := by
    rintro (_ | ⟨_ | _ | _ | _, _⟩) fault seen ended sees <;> cases ended <;> cases sees
    rfl

/-- A body as one round of a loop. -/
def round (body : Transcript Value) : Transcript Loop.Round :=
  regard .round body

/-- Repeats a body as long as a condition is true, for a number of further rounds at most. -/
def repeatWhile (condition body : Transcript Value) (keep : Bool)
    (tooLong : Transcript (List Value)) : (rounds : Nat) → List Value → Transcript (List Value)
  | 0, values => do
    if (← condition).isTrue then tooLong else pure values
  | rounds + 1, values => do
    if (← condition).isTrue then
      match ← round body with
      | .left => pure values
      | other => repeatWhile condition body keep tooLong rounds (Loop.collect keep values other)
    else
      pure values

/-- Repeats a body for a counter that moves by a step until it arrives, for a number of further
rounds at most. -/
def count (body : Int64 → Transcript Value) (keep : Bool) (tooLong : Transcript (List Value))
    (stop step : Int64) : (rounds : Nat) → Int64 → List Value → Transcript (List Value)
  | 0, counter, values => if Loop.before counter stop step then tooLong else pure values
  | rounds + 1, counter, values =>
    if Loop.before counter stop step then do
      match ← round (body counter) with
      | .left => pure values
      | other =>
        match Integer.add? counter step with
        | some next =>
          count body keep tooLong stop step rounds next (Loop.collect keep values other)
        | none => pure (Loop.collect keep values other)
    else
      pure values

/-! ## Activations -/

/-- Does some work inside a new activation, if there is room for one. -/
def activate (host : Host) (inner : Option Transcribe) (span : Span) (id : ContextId)
    (work : Transcribe → Transcript Result) : Transcript Result :=
  match inner with
  | none => perform (raise (.recursionLimit host.config.maxCallDepth) span id)
  | some transcribe => during (work transcribe)

/-- The view of the call around the body of a function. -/
def View.call (function : UserFunction) (span : Span) (id : ContextId) : View Value Value where
  see := Eval.resultOfBody function span id
  same := by
    rintro (_ | ⟨_ | _ | _ | _, _⟩) fault seen ended sees <;> cases ended <;> cases sees
    rfl

/-- The view of the instantiation around the members of a template. -/
def View.instantiation (template : Object) (span : Span) (id : ContextId) : View Value Value where
  see := Eval.instanceOfMembers template span id
  same := by
    rintro (_ | ⟨_ | _ | _ | _, _⟩) fault seen ended sees <;> cases ended <;> cases sees
    rfl

/-- Calls a function that a program has defined. -/
def callUser (function : UserFunction) (arguments : List Value) (span : Span) (caller : ContextId)
    (transcribe : Transcribe) : Transcript Value := do
  let id ← perform <| addContext
    { name := function.name
      entry := some ⟨caller, span⟩
      scope := some function.closure
      table := .ofArguments function.parameters arguments }
  regard (.call function span id) (transcribe function.body id)

/-- Makes an instance of a template. -/
def instantiate (template : Object) (name : String) (span : Span) (caller : ContextId)
    (transcribe : Transcribe) : Transcript Value := do
  let id ← perform <| addContext
    { name := "<object " ++ name ++ ">"
      entry := some ⟨caller, span⟩
      scope := some caller
      table := .empty }
  regard (.instantiation template span id) (transcribe template.body id)

/-! ## Scripts -/

/-- The fault that a script ended with. -/
def scriptFault : Except Error Value → Option Fault
  | .error (.running failure) => some failure.fault
  | _ => none

/-- Only a script that has failed to run has ended with a fault. -/
theorem exists_of_scriptFault {result : Except Error Value} {fault : Fault}
    (ended : scriptFault result = some fault) :
    ∃ failure, result = .error (.running failure) ∧ failure.fault = fault := by
  rcases result with (error | error | failure) | value <;> cases ended
  exact ⟨failure, rfl, rfl⟩

/-- What is done when a text is read under a name and evaluated in a context. -/
def textDeeds (transcribe : Transcribe) (name text : String) (id : ContextId) (machine : Machine) :
    List Deed :=
  let source : Source := ⟨machine.serial, name, text⟩
  let machine := { machine with serial := machine.serial + 1 }
  match Eval.read source with
  | .error _ => [.stepped none machine]
  | .ok root =>
    let inner := transcribe root id
    let outcome := inner.step machine
    .stepped none machine :: (inner.deeds machine ++ arising (Outcome.fault? outcome)
      (scriptFault (Eval.resultOfScript root id outcome).1) (Outcome.left outcome))

/-- A fault that reaches the outermost level of a script is the one that the script ends with. -/
theorem scriptFault_resultOfScript {root : Located} {id : ContextId} {outcome : Outcome Value}
    {fault seen : Fault} (ended : Outcome.fault? outcome = some fault)
    (sees : scriptFault (Eval.resultOfScript root id outcome).1 = some seen) : fault = seen := by
  rcases outcome with _ | ⟨_ | _ | _ | _, _⟩ <;> cases ended <;> cases sees
  rfl

/-- The fault that a script ended with is the fault of one of its deeds. -/
theorem disclose_textDeeds {transcribe : Transcribe} {name text : String} {id : ContextId}
    {machine : Machine} {fault : Fault}
    (ended : scriptFault (Eval.runText transcribe.plain name text id machine).1 = some fault) :
    Deed.Disclose (textDeeds transcribe name text id machine) fault := by
  let begun := { machine with serial := machine.serial + 1 }
  unfold Eval.runText at ended
  unfold textDeeds
  dsimp only at ended
  cases found : Eval.read ⟨machine.serial, name, text⟩ with
  | error error =>
    rw [found] at ended
    cases error with
    | running failure => exact absurd rfl (Eval.ne_running_of_read found failure)
    | _ => cases ended
  | ok root =>
    rw [found] at ended
    dsimp only
    rw [found]
    refine @Deed.Disclose.right fault [.stepped none begun] _ ?_
    exact disclose_arising ((transcribe root id).discloses begun)
      (fun _ _ => scriptFault_resultOfScript) ended _

/-- Runs a script in an existing context. Its failure is not one of the call yet. -/
def runIn (root : ContextId) (transcribe : Transcribe) (path text : String) :
    Transcript (Except Error Value) where
  step := Invocation.runIn root transcribe.plain path text
  deeds := textDeeds transcribe path text root
  discloses := by rintro machine fault ⟨⟩

/-- Runs a script in the outermost context of the caller. -/
def includeScript (call : Invocation) (host : Host) (transcribe : Transcribe) :
    Transcript Value := do
  match ← perform (call.loadScript host) with
  | none => perform (call.refuse "file" .string)
  | some (path, text) =>
    let root := (← perform get).store.rootOf call.caller
    let result ← runIn root transcribe path text
    let _ ← perform (call.resultOf path result)
    return .null

/-- Runs a script in an outermost context of its own and returns what it exports. -/
def runScript (call : Invocation) (host : Host) (transcribe : Transcribe) : Transcript Value := do
  match ← perform (call.loadScript host) with
  | none => perform (call.refuse "file" .string)
  | some (path, text) =>
    let (saved, root) ← perform Invocation.enterScript
    let result ← runIn root transcribe path text
    let exported ← perform (Invocation.leaveScript saved)
    let _ ← perform (call.resultOf path result)
    return exported.getD .null

/-! ## Calls -/

/-- Does the work of a built-in function. Those that run no script evaluate nothing. -/
def invoke (call : Invocation) (host : Host) (transcribe : Transcribe) (builtin : Builtin) :
    Transcript Value :=
  invoking call builtin <|
    match builtin with
    | .includeScript => includeScript call host transcribe
    | .runScript => runScript call host transcribe
    | other => perform (call.run host (fun _ _ => pure .null) other)

/-- Calls a function that does not come from a program. -/
def callBuiltin (host : Host) (function : BuiltinFunction) (arguments : List Value) (span : Span)
    (caller : ContextId) (transcribe : Transcribe) : Transcript Value :=
  match Builtin.named? function.name with
  | none => perform (raise (.noSuchBuiltin function.name) span caller)
  | some builtin =>
    invoke (Eval.invocationOf function arguments span caller) host transcribe builtin

/-- The result of an operation, or its fault at a place of a context. -/
def orRaise (result : Except Fault Result) (span : Span) (id : ContextId) : Transcript Result :=
  match result with
  | .ok value => pure value
  | .error fault => perform (raise fault span id)

/-- Calls a value with arguments. -/
def callValue (host : Host) (inner : Option Transcribe) (callee : Value) (arguments : List Value)
    (span : Span) (caller : ContextId) : Transcript Value :=
  match callee with
  | .function function => do
    orRaise (function.checkArity arguments.length) span caller
    activate host inner span caller fun transcribe =>
      match function with
      | .user defined => callUser defined arguments span caller transcribe
      | .builtin provided => callBuiltin host provided arguments span caller transcribe
  | other => perform (raise (.notCallable other.repr) span caller)

/-! ## Expressions -/

mutual

/-- Evaluates an expression in a context, with a way to evaluate what lies in other activations as
long as there is room for one. -/
def evaluateIn (host : Host) (inner : Option Transcribe) (id : ContextId) :
    Located → Transcript Value
  | .literal value _ => pure (.ofLiteral value)
  | .unary op operand span => do
    let value ← evaluateIn host inner id operand
    orRaise (Value.unary op value) span id
  | .binary op left right span => do
    let first ← evaluateIn host inner id left
    let second ← evaluateIn host inner id right
    orRaise (Value.binary op first second) span id
  | .list elements _ => do
    let values ← evaluateAll host inner id elements
    return .list values
  | .choice branches _ => evaluateBranches host inner id branches
  | .forLoop counter start stop step body block span => do
    let first ← evaluateIn host inner id start
    let last ← evaluateIn host inner id stop
    match first, last with
    | .int first, .int last =>
      let step ← match step with
        | none => pure 1
        | some expr => do
          let value ← evaluateIn host inner id expr
          perform (Eval.stepOf value first last expr.note id)
      let limit := host.config.maxLoopIterations
      let round (value : Int64) : Transcript Value := do
        assign id counter (.int value) span id
        evaluateIn host inner id body
      let values ← count round (!block) (perform (raise (.loopLimit limit) span id)) last step limit
        first []
      return Loop.result block values
    | _, _ => perform (raise .loopBounds span id)
  | .whileLoop condition body block span => do
    let limit := host.config.maxLoopIterations
    let values ← repeatWhile (evaluateIn host inner id condition)
      (evaluateIn host inner id body) (!block) (perform (raise (.loopLimit limit) span id)) limit []
    return Loop.result block values
  | .read name span => perform (Eval.readName name span id)
  | .assign name expr span => do
    let value ← evaluateIn host inner id expr
    assign id name value span id
    return value
  | .member object name span => perform (Eval.readMember object name span id)
  | .assignMember object name expr span => do
    let target ← perform (Eval.instanceNamed object span id)
    let value ← evaluateIn host inner id expr
    assign target.context name value span id
    return value
  | .function name parameters body valued span => define name parameters body valued span id
  | .call callee arguments span => do
    let function ← evaluateIn host inner id callee
    let values ← evaluateAll host inner id arguments
    callValue host inner function values span id
  | .template name body span => defineTemplate name body span id
  | .instantiate name span => do
    let template ← perform (Eval.objectNamed name span id)
    activate host inner span id (instantiate template name span id)
  | .returnWith none _ => perform (throw (.returned .null))
  | .returnWith (some expr) _ => do
    let value ← evaluateIn host inner id expr
    perform (throw (.returned value))
  | .breakLoop span => perform (throw (.broke span))
  | .continueLoop span => perform (throw (.continued span))

/-- Evaluates expressions one after the other. -/
def evaluateAll (host : Host) (inner : Option Transcribe) (id : ContextId) :
    List Located → Transcript (List Value)
  | [] => pure []
  | element :: rest => do
    let value ← evaluateIn host inner id element
    let values ← evaluateAll host inner id rest
    return value :: values

/-- Evaluates the first alternative of which the condition is true. -/
def evaluateBranches (host : Host) (inner : Option Transcribe) (id : ContextId) :
    Branches Span → Transcript Value
  | .done => pure .null
  | .otherwise body block => do
    let value ← evaluateIn host inner id body
    return if block then .null else value
  | .orElse condition body block rest => do
    if (← evaluateIn host inner id condition).isTrue then
      let value ← evaluateIn host inner id body
      return if block then .null else value
    else
      evaluateBranches host inner id rest

end

/-- Evaluates an expression in a context with room for a number of activations. -/
def evaluate (host : Host) : (room : Nat) → Transcribe
  | 0, expr, id => evaluateIn host none id expr
  | room + 1, expr, id => evaluateIn host (some (evaluate host room)) id expr

/-- The way to evaluate what lies in other activations, if there is room for any. -/
def inside (host : Host) : (room : Nat) → Option Transcribe
  | 0 => none
  | room + 1 => some (evaluate host room)

theorem evaluate_eq (host : Host) (room : Nat) (expr : Located) (id : ContextId) :
    evaluate host room expr id = evaluateIn host (inside host room) id expr := by
  cases room <;> rfl

end Transcript

end Quill
