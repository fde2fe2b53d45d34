import Quill.Expr.Basic
import Quill.Fault.Failure
import Quill.Value.Kind

/-!
# Values

Values are copied freely. What must not be copied is referred to by a number: a function and an
object know the context that their free names or their members live in, and carry an identity of
their own by which they are compared.
-/

namespace Quill

/-- The number of a context in the store. -/
abbrev ContextId := Nat

/-- A function that a program has defined. -/
structure UserFunction where
  /-- Tells this function apart from every other one. -/
  id : Nat
  /-- Its name in messages. -/
  name : String
  /-- The names that arguments are bound to. -/
  parameters : List String
  /-- What a call evaluates. -/
  body : Expr Span
  /-- The context that the definition was evaluated in. -/
  closure : ContextId
  /-- Whether the value of the body is the value of a call. -/
  valued : Bool

/-- A function that does not come from a program. -/
structure BuiltinFunction where
  /-- Tells this function apart from every other one. -/
  id : Nat
  /-- The name that its work is found under. -/
  name : String
  /-- The names that arguments are bound to. -/
  parameters : List String

/-- A function. -/
inductive Function where
  | user (function : UserFunction)
  | builtin (function : BuiltinFunction)

/-- A template of objects, or an instance of one. -/
structure Object where
  /-- Tells this object apart from every other one. -/
  id : Nat
  /-- The name of the template. -/
  name : String
  /-- The statements that define the members. -/
  body : Expr Span
  /-- Whether the members exist. -/
  isInstance : Bool
  /-- The context of the members, or the one that the template was defined in. -/
  context : ContextId

/-- A value. -/
inductive Value where
  /-- No value in particular. -/
  | null
  /-- An integer. -/
  | int (value : Int64)
  /-- A float. -/
  | float (value : Float)
  /-- A text. -/
  | str (value : String)
  /-- A list of values. -/
  | list (elements : List Value)
  /-- A function. -/
  | function (function : Function)
  /-- An object. -/
  | object (object : Object)
  /-- A failure that a built-in function gave back instead of stopping the program. -/
  | exception (failure : Failure)

namespace Function

/-- The identity of the function. -/
def id : Function → Nat
  | user function => function.id
  | builtin function => function.id

/-- The name of the function in messages. -/
def name : Function → String
  | user function => function.name
  | builtin function => function.name

/-- The parameters of the function. -/
def parameters : Function → List String
  | user function => function.parameters
  | builtin function => function.parameters

/-- A call passes as many arguments as the function has parameters, no more and no fewer. -/
def checkArity (function : Function) (count : Nat) : Except Fault Unit :=
  let expected := function.parameters.length
  if expected < count then
    .error (.tooManyArguments (count - expected) function.name)
  else if count < expected then
    .error (.tooFewArguments (expected - count) function.name)
  else
    .ok ()

/-- The right number of arguments is exactly the number of parameters. -/
theorem checkArity_eq_ok_iff (function : Function) (count : Nat) :
    function.checkArity count = .ok () ↔ count = function.parameters.length := by
  unfold checkArity
  grind

end Function

namespace Value

/-- The value of a constant. -/
def ofLiteral : Literal → Value
  | .int value => int value
  | .float value => float value
  | .str value => str value

/-- A truth value is one of the integers zero and one. -/
def ofBool (truth : Bool) : Value :=
  int (if truth then 1 else 0)

/-- The kind of a value. -/
def kind : Value → Kind
  | null => .null
  | int _ => .int
  | float _ => .float
  | str _ => .str
  | list _ => .list
  | function _ => .function
  | object _ => .object
  | exception _ => .exception

/-- Whether a condition with this value holds: it does unless the value is null, an exception, a
zero, or something empty. -/
def isTrue : Value → Bool
  | null | exception _ => false
  | int value => value ≠ 0
  | float value => value != 0.0
  | str value => !value.isEmpty
  | list elements => !elements.isEmpty
  | function _ | object _ => true

/-- The integer that the value is, if it is one. -/
def int? : Value → Option Int64
  | int value => some value
  | _ => none

mutual

/-- Whether two values have the same structure. Values of different kinds never do; functions and
objects are the same only as themselves. -/
def same : Value → Value → Bool
  | null, null => true
  | int a, int b => a = b
  | float a, float b => a == b
  | str a, str b => a = b
  | list a, list b => sameAll a b
  | function a, function b => a.id = b.id
  | object a, object b => a.id = b.id
  | exception a, exception b => a = b
  | _, _ => false

/-- Whether two lists have the same structure, element by element. -/
def sameAll : List Value → List Value → Bool
  | [], [] => true
  | a :: as, b :: bs => same a b && sameAll as bs
  | _, _ => false

end

/-- Only an integer is one. -/
theorem eq_int_of_int? {value : Value} {number : Int64} (same : value.int? = some number) :
    value = .int number := by
  cases value with
  | int other => exact congrArg Value.int (Option.some.inj same)
  | _ => cases same

/-- A truth value holds exactly if it is true. -/
@[simp] theorem isTrue_ofBool (truth : Bool) : (ofBool truth).isTrue = truth := by
  cases truth <;> decide

end Value

end Quill
