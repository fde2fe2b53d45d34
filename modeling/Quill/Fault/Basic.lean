import Quill.Disk
import Quill.Operator
import Quill.Value.Kind

/-!
# Faults

A fault is the reason why an evaluation cannot go on. It holds what the reason is about; the words
for it are chosen in one place.
-/

namespace Quill

/-- What built-in functions accept for a parameter. -/
inductive Accepted where
  | list | int | listOrString | string
deriving DecidableEq, Repr

/-- How messages name what is accepted. -/
def Accepted.describe : Accepted → String
  | list => "a List"
  | int => "an Int"
  | listOrString => "a List or a String"
  | string => "a String"

/-- Why a line could not be read or written. -/
inductive StreamFailure where
  /-- The line is not a text. -/
  | notUtf8
  /-- The output does not take any more, in its own words. -/
  | closed (reason : String)
  /-- There is no line left that could be an integer. -/
  | endOfInput
deriving DecidableEq, Repr

/-- The reason in words. -/
def StreamFailure.message : StreamFailure → String
  | notUtf8 => "stream did not contain valid UTF-8"
  | closed reason => reason
  | endOfInput => "end of input while reading an integer"

/-- Why an evaluation cannot go on. -/
inductive Fault where
  /-- Nothing is bound to the name. -/
  | undefinedVariable (name : String)
  /-- The binding of the name must not change. -/
  | immutableBinding (name : String)
  /-- A function was given more arguments than it has parameters. -/
  | tooManyArguments (surplus : Nat) (name : String)
  /-- A function was given fewer arguments than it has parameters. -/
  | tooFewArguments (missing : Nat) (name : String)
  /-- A number was divided by zero. -/
  | divisionByZero
  /-- The operator is not defined on such operands. -/
  | illegalOperation (left : Kind) (op : BinaryOp) (right : Kind)
  /-- The index points at no element of a list. -/
  | indexOutOfRange (index : Int64) (length : Nat)
  /-- A text or a list was to be repeated less than zero times. -/
  | negativeRepetition (count : Int64)
  /-- A repetition would become too long. -/
  | repetitionTooLarge (count : Int64)
  /-- The exact result is not an integer of the language. -/
  | integerOverflow
  /-- A loop was to count from or to something that is no integer. -/
  | loopBounds
  /-- A loop was to count in steps that are no integers, or would never arrive. -/
  | loopStep
  /-- A loop went on for too many rounds. -/
  | loopLimit (limit : Nat)
  /-- Too many functions and objects were being evaluated inside one another. -/
  | recursionLimit (limit : Nat)
  /-- What was called is not a function. -/
  | notCallable (shown : String)
  /-- The name does not stand for an object. -/
  | notAnObject (name : String)
  /-- The name does not stand for an instance of an object. -/
  | notAnInstance (name : String)
  /-- The instance has no such member. -/
  | unknownMember (object member : String)
  /-- A built-in function of this name does not exist. -/
  | noSuchBuiltin (name : String)
  /-- There is no loop to leave. -/
  | breakOutsideLoop
  /-- There is no loop to go on with. -/
  | continueOutsideLoop
  /-- There is no function to leave. -/
  | returnOutsideFunction
  /-- A built-in function cannot work with an argument. -/
  | invalidArgument (function parameter : String) (accepted : Accepted) (found : Kind)
  /-- Reading the input or writing the output failed. -/
  | io (failure : StreamFailure)
  /-- A script could not be read. -/
  | scriptUnreadable (path : String) (reason : ReadFailure)
  /-- A script was read but failed, with the given message. -/
  | scriptFailed (path message : String)
deriving DecidableEq, Repr

/-- The fault in words. -/
def Fault.message : Fault → String
  | undefinedVariable name => "'" ++ name ++ "' is not defined"
  | immutableBinding name => "'" ++ name ++ "' is not a mutable value"
  | tooManyArguments surplus name =>
    toString surplus ++ " too many args passed into '" ++ name ++ "'"
  | tooFewArguments missing name =>
    toString missing ++ " too few args passed into '" ++ name ++ "'"
  | divisionByZero => "Division by zero"
  | illegalOperation left op right =>
    "Illegal operation: " ++ left.name ++ " " ++ op.text ++ " " ++ right.name
  | indexOutOfRange index length =>
    "Index out of range: " ++ toString index.toInt ++ " is not within a list of length " ++
      toString length
  | negativeRepetition count => "Cannot repeat a value " ++ toString count.toInt ++ " times"
  | repetitionTooLarge count =>
    "Cannot repeat a value " ++ toString count.toInt ++ " times: the result would be too large"
  | integerOverflow => "Integer overflow"
  | loopBounds => "For loop bounds must be integers"
  | loopStep => "For loop step must be a non-zero integer"
  | loopLimit limit => "Loop exceeded the limit of " ++ toString limit ++ " iterations"
  | recursionLimit limit => "Maximum call depth of " ++ toString limit ++ " exceeded"
  | notCallable shown => shown ++ " is not callable"
  | notAnObject name => "'" ++ name ++ "' is not an object"
  | notAnInstance name => "'" ++ name ++ "' is not an object instance"
  | unknownMember object member => "'" ++ member ++ "' is not a member of '" ++ object ++ "'"
  | noSuchBuiltin name => "No execute_" ++ name ++ " method defined"
  | breakOutsideLoop => "'break' outside of a loop"
  | continueOutsideLoop => "'continue' outside of a loop"
  | returnOutsideFunction => "'return' outside of a function"
  | invalidArgument function parameter accepted found =>
    "'" ++ parameter ++ "' of '" ++ function ++ "' must be " ++ accepted.describe ++ ", found " ++
      found.name
  | io failure => "IO error: " ++ failure.message
  | scriptUnreadable path reason =>
    "Failed to load script '" ++ path ++ "': " ++ reason.message
  | scriptFailed path message => "Script '" ++ path ++ "' failed:\n" ++ message

end Quill
