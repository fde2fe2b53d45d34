import Quill.Decimal.Text
import Quill.Text.Quoted
import Quill.Value.Basic

/-!
# Values as text

The source text of a value shows what the value is: strings stand in quotes and floats have a
point. For numbers, strings and lists of them it is also a way to write the value in a program.
The plain text is the same except that a string stands for itself.
-/

namespace Quill.Value

/-- The source text of a function. -/
def functionText : Function → String
  | .user defined => "<function " ++ defined.name ++ ">"
  | .builtin provided => "<built-in function " ++ provided.name ++ ">"

/-- The source text of an object. -/
def objectText (object : Object) : String :=
  if object.isInstance then
    "<object " ++ object.name ++ " instance>"
  else
    "<object " ++ object.name ++ ">"

mutual

/-- The source text of a value. -/
def repr : Value → String
  | null => "null"
  | int value => toString value.toInt
  | float value => Decimal.pointedText value
  | str value => Text.Quoted.quote value
  | list elements => "[" ++ ", ".intercalate (reprAll elements) ++ "]"
  | function value => functionText value
  | object value => objectText value
  | exception failure => "<exception: " ++ failure.message ++ ">"

/-- The source texts of several values. -/
def reprAll : List Value → List String
  | [] => []
  | element :: rest => repr element :: reprAll rest

end

/-- The plain text of a value. -/
def display : Value → String
  | str value => value
  | value => value.repr

end Quill.Value
