import Quill.Fault.Failure
import Quill.Grammar.Error
import Quill.Token.Scan

/-!
# Errors

Running a program may fail when its text is cut into tokens, when the tokens are put together, or
when it is evaluated. All three kinds of errors point at a place and can be reported.
-/

namespace Quill

/-- Why a program has no result. -/
inductive Error where
  /-- Its text has no tokens. -/
  | scanning (error : ScanError)
  /-- Its tokens are not a program. -/
  | parsing (error : SyntaxError)
  /-- Its evaluation failed. -/
  | running (failure : Failure)
deriving Repr

namespace Error

/-- The place that the error points at. -/
def span : Error → Span
  | scanning error => error.span
  | parsing error => error.span
  | running failure => failure.span

/-- The error in one line. -/
def message : Error → String
  | scanning error => error.message
  | parsing error => error.message
  | running failure => failure.message

/-- The error with the marked source, and with the traceback if there is one. -/
def report : Error → String
  | running failure => failure.report
  | error => error.message ++ "\n\n" ++ error.span.underline

end Error

end Quill
