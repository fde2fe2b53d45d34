import Quill.Eval.Call
import Quill.Eval.Loop
import Quill.Value.Comparison

/-!
# Evaluation of expressions

An expression is evaluated in one context, in which it reads and assigns. Its parts are evaluated
from left to right, and all operands are evaluated whatever the first of them turns out to be.
Bodies of functions and members of objects are not parts of the expression at hand: they are
evaluated in activations, of which there is only a limited number inside one another. So the
evaluation of an expression recurs on the expression alone, and the evaluation of programs recurs
on the room that is left for activations.
-/

namespace Quill.Eval

/-- Defines a function in a context, and binds it there if it has a name. -/
def define (name : Option String) (parameters : List String) (body : Located) (valued : Bool)
    (span : Span) (id : ContextId) : Eval Value := do
  let function : UserFunction :=
    { id := ← freshId
      name := name.getD "<anonymous>"
      parameters := parameters
      body := body
      closure := id
      valued := valued }
  let value := Value.function (.user function)
  if let some bound := name then
    assign id bound value span id
  return value

/-- Defines a template of objects in a context. -/
def defineTemplate (name : String) (body : Located) (span : Span) (id : ContextId) :
    Eval Value := do
  let object : Object :=
    { id := ← freshId
      name := name
      body := body
      isInstance := false
      context := id }
  assign id name (.object object) span id
  return .object object

/-- The object instance that a name stands for in a context. -/
def instanceNamed (name : String) (span : Span) (id : ContextId) : Eval Object := do
  match ← lookup id name with
  | some (.object object) =>
    if object.isInstance then return object else raise (.notAnInstance name) span id
  | some _ => raise (.notAnInstance name) span id
  | none => raise (.undefinedVariable name) span id

/-- The object that a name stands for in a context, instance or not. -/
def objectNamed (name : String) (span : Span) (id : ContextId) : Eval Object := do
  match ← lookup id name with
  | some (.object object) => return object
  | some _ => raise (.notAnObject name) span id
  | none => raise (.undefinedVariable name) span id

/-- Reads a variable. -/
def readName (name : String) (span : Span) (id : ContextId) : Eval Value := do
  match ← lookup id name with
  | some value => return value
  | none => raise (.undefinedVariable name) span id

/-- Reads a member of the object instance that a name stands for. -/
def readMember (object name : String) (span : Span) (id : ContextId) : Eval Value := do
  let source ← instanceNamed object span id
  match ← lookupLocal source.context name with
  | some value => return value
  | none => raise (.unknownMember object name) span id

/-- The steps that a loop counts in. A step of zero will do only if there is nothing to count. -/
def stepOf (value : Value) (start stop : Int64) (span : Span) (id : ContextId) : Eval Int64 :=
  match value with
  | .int step =>
    if step ≠ 0 || stop.toInt ≤ start.toInt then pure step else raise .loopStep span id
  | _ => raise .loopStep span id

mutual

/-- Evaluates an expression in a context, with a way to evaluate what lies in other activations as
long as there is room for one. -/
def evaluateIn (host : Host) (inner : Option Evaluate) (id : ContextId) : Located → Eval Value
  | .literal value _ => pure (.ofLiteral value)
  | .unary op operand span => do
    let value ← evaluateIn host inner id operand
    orRaise (Value.unary op value) span id
  | .binary op left right span => do
    let first ← evaluateIn host inner id left
    let second ← evaluateIn host inner id right
    orRaise (Value.binary op first second) span id
  | .list elements _ => do
    let values ← evaluateAll host inner id elements
    return .list values
  | .choice branches _ => evaluateBranches host inner id branches
  | .forLoop counter start stop step body block span => do
    let first ← evaluateIn host inner id start
    let last ← evaluateIn host inner id stop
    match first, last with
    | .int first, .int last =>
      let step ← match step with
        | none => pure 1
        | some expr => do
          let value ← evaluateIn host inner id expr
          stepOf value first last expr.note id
      let limit := host.config.maxLoopIterations
      let round (value : Int64) : Eval Value := do
        assign id counter (.int value) span id
        evaluateIn host inner id body
      let values ← Loop.count round (!block) (raise (.loopLimit limit) span id) last step limit
        first []
      return Loop.result block values
    | _, _ => raise .loopBounds span id
  | .whileLoop condition body block span => do
    let limit := host.config.maxLoopIterations
    let values ← Loop.repeatWhile (evaluateIn host inner id condition)
      (evaluateIn host inner id body) (!block) (raise (.loopLimit limit) span id) limit []
    return Loop.result block values
  | .read name span => readName name span id
  | .assign name expr span => do
    let value ← evaluateIn host inner id expr
    assign id name value span id
    return value
  | .member object name span => readMember object name span id
  | .assignMember object name expr span => do
    let target ← instanceNamed object span id
    let value ← evaluateIn host inner id expr
    assign target.context name value span id
    return value
  | .function name parameters body valued span => define name parameters body valued span id
  | .call callee arguments span => do
    let function ← evaluateIn host inner id callee
    let values ← evaluateAll host inner id arguments
    callValue host inner function values span id
  | .template name body span => defineTemplate name body span id
  | .instantiate name span => do
    let template ← objectNamed name span id
    activate host inner span id (instantiate template name span id)
  | .returnWith none _ => throw (.returned .null)
  | .returnWith (some expr) _ => do
    let value ← evaluateIn host inner id expr
    throw (.returned value)
  | .breakLoop span => throw (.broke span)
  | .continueLoop span => throw (.continued span)

/-- Evaluates expressions one after the other. -/
def evaluateAll (host : Host) (inner : Option Evaluate) (id : ContextId) :
    List Located → Eval (List Value)
  | [] => pure []
  | element :: rest => do
    let value ← evaluateIn host inner id element
    let values ← evaluateAll host inner id rest
    return value :: values

/-- Evaluates the first alternative of which the condition is true. The value of a block is
dropped. -/
def evaluateBranches (host : Host) (inner : Option Evaluate) (id : ContextId) :
    Branches Span → Eval Value
  | .done => pure .null
  | .otherwise body block => do
    let value ← evaluateIn host inner id body
    return if block then .null else value
  | .orElse condition body block rest => do
    if (← evaluateIn host inner id condition).isTrue then
      let value ← evaluateIn host inner id body
      return if block then .null else value
    else
      evaluateBranches host inner id rest

end

/-- Evaluates an expression in a context with room for a number of activations. -/
def evaluate (host : Host) : (room : Nat) → Evaluate
  | 0, expr, id => evaluateIn host none id expr
  | room + 1, expr, id => evaluateIn host (some (evaluate host room)) id expr

/-- The way to evaluate what lies in other activations, if there is room for any. -/
def inside (host : Host) : (room : Nat) → Option Evaluate
  | 0 => none
  | room + 1 => some (evaluate host room)

/-- An expression is evaluated with a way to evaluate what lies in one more activation. -/
theorem evaluate_eq (host : Host) (room : Nat) (expr : Located) (id : ContextId) :
    evaluate host room expr id = evaluateIn host (inside host room) id expr := by
  cases room <;> rfl

end Quill.Eval
