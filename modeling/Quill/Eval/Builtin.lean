/-!
# The built-in functions

Programs find these functions bound in their outermost context. Each has a name and parameters;
what it does is defined where it is run.
-/

namespace Quill

/-- The functions that every program may call. -/
inductive Builtin where
  /-- Prints a value on a line of its own. -/
  | print
  /-- The text that would be printed for a value. -/
  | printRet
  /-- Reads a line of text. -/
  | input
  /-- Reads lines until one of them is an integer. -/
  | inputInt
  /-- Whether a value is an integer or a float. -/
  | isNumber
  /-- Whether a value is a string. -/
  | isString
  /-- Whether a value is a list. -/
  | isList
  /-- Whether a value is a function. -/
  | isFunction
  /-- A list with one more element. -/
  | append
  /-- A list without one of its elements. -/
  | remove
  /-- Two lists in one. -/
  | extend
  /-- The number of elements of a list or of characters of a string. -/
  | length
  /-- The text of a value. -/
  | str
  /-- The time. -/
  | time
  /-- Chooses the value that the running script gives to its caller. -/
  | exportValue
  /-- Runs a script in the outermost context of the caller. -/
  | includeScript
  /-- Runs a script on its own and returns what it exports. -/
  | runScript
deriving DecidableEq, Repr

namespace Builtin

/-- All built-in functions, in the order in which they are bound. -/
def all : List Builtin :=
  [print, printRet, input, inputInt, isNumber, isString, isList, isFunction, append, remove,
    extend, length, str, time, exportValue, includeScript, runScript]

/-- The name that programs call the function by. -/
def name : Builtin → String
  | print => "Print"
  | printRet => "PrintRet"
  | input => "Input"
  | inputInt => "InputInt"
  | isNumber => "IsNumber"
  | isString => "IsString"
  | isList => "IsList"
  | isFunction => "IsFunction"
  | append => "Append"
  | remove => "Remove"
  | extend => "Extend"
  | length => "Length"
  | str => "Str"
  | time => "Time"
  | exportValue => "Export"
  | includeScript => "Include"
  | runScript => "Run"

/-- The names of the parameters. -/
def parameters : Builtin → List String
  | print | printRet | isNumber | isString | isList | isFunction | length | str | exportValue =>
    ["value"]
  | input | inputInt | time => []
  | append => ["list", "value"]
  | remove => ["list", "index"]
  | extend => ["listA", "listB"]
  | includeScript | runScript => ["file"]

/-- The function of the given name. -/
def named? (name : String) : Option Builtin :=
  all.find? (·.name = name)

/-- No function is missing from the list of all. -/
theorem mem_all (builtin : Builtin) : builtin ∈ all := by
  cases builtin <;> decide

/-- Every function is found by its name. -/
theorem named?_name (builtin : Builtin) : named? builtin.name = some builtin := by
  cases builtin <;> decide

end Builtin

end Quill
