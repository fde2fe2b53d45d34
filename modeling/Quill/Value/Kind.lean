/-!
# Kinds of values

Every value is of one of eight kinds. Messages name the kinds.
-/

namespace Quill

/-- What a value is. -/
inductive Kind where
  | null | int | float | str | list | function | object | exception
deriving DecidableEq, Repr

/-- The name of a kind. -/
def Kind.name : Kind → String
  | null => "Null"
  | int => "Int"
  | float => "Float"
  | str => "String"
  | list => "List"
  | function => "Function"
  | object => "Object"
  | exception => "Exception"

end Quill
