import Quill.Fault.Basic
import Quill.Source.Span

/-!
# Failures

A failure is a fault at a place of a program, together with the contexts that were active when it
arose. The traceback lists them from the outermost one inwards, as a reader would enter them.
-/

namespace Quill

/-- An active context in a traceback. -/
structure Frame where
  /-- The file of the place that the context had got to. -/
  file : String
  /-- The line of that place. -/
  line : Nat
  /-- The name of the context. -/
  context : String
deriving DecidableEq, Repr

/-- A fault with its circumstances. -/
structure Failure where
  /-- What went wrong. -/
  fault : Fault
  /-- The expression that could not be evaluated. -/
  span : Span
  /-- The active contexts, outermost first. -/
  traceback : List Frame
deriving DecidableEq, Repr

namespace Failure

/-- The failure in one line. -/
def message (failure : Failure) : String :=
  "Runtime Error at " ++ failure.span.place ++ ": " ++ failure.fault.message

/-- One line of a traceback. -/
def frameLine (frame : Frame) : String :=
  "  File " ++ frame.file ++ ", line " ++ toString frame.line ++ ", in " ++ frame.context ++ "\n"

/-- The traceback, the message and the marked source. -/
def report (failure : Failure) : String :=
  "Traceback (most recent call last):\n" ++ String.join (failure.traceback.map frameLine) ++
    failure.message ++ "\n\n" ++ failure.span.underline

end Failure

end Quill
