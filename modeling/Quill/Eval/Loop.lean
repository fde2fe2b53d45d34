import Quill.Integer
import Quill.Machine

/-!
# Loops

A loop repeats its body until it is left. It takes the signals that are meant for it: one that
ends the round and one that ends the loop. All others pass through. The number of rounds is
limited, and the limit is what the recursion here runs on.
-/

namespace Quill.Loop

/-- How a round of a loop ended. -/
inductive Round where
  /-- The body had a value. -/
  | value (value : Value)
  /-- The body went on to the next round. -/
  | skipped
  /-- The body left the loop. -/
  | left

/-- What the outcome of a body is for the loop around it, which takes the signals meant for it. -/
def roundOf : Outcome Value → Outcome Round
  | .ok value machine => .ok (.value value) machine
  | .error (.continued _) machine => .ok .skipped machine
  | .error (.broke _) machine => .ok .left machine
  | .error signal machine => .error signal machine

/-- Evaluates a body as one round of a loop. -/
def round (body : Eval Value) : Eval Round :=
  fun machine => roundOf (body machine)

/-- The values so far, latest first, with one more if values are kept and the round had one. -/
def collect (keep : Bool) (values : List Value) : Round → List Value
  | .value value => if keep then value :: values else values
  | _ => values

/-- Repeats a body as long as a condition is true, for a number of further rounds at most. The
values of the rounds are gathered latest first. -/
def repeatWhile (condition : Eval Value) (body : Eval Value) (keep : Bool)
    (tooLong : Eval (List Value)) : (rounds : Nat) → List Value → Eval (List Value)
  | 0, values => do
    if (← condition).isTrue then tooLong else pure values
  | rounds + 1, values => do
    if (← condition).isTrue then
      match ← round body with
      | .left => pure values
      | other => repeatWhile condition body keep tooLong rounds (collect keep values other)
    else
      pure values

/-- Whether a counter has not yet arrived, going up or down as the step says. -/
def before (counter stop step : Int64) : Bool :=
  if 0 ≤ step.toInt then counter.toInt < stop.toInt else stop.toInt < counter.toInt

/-- Repeats a body for a counter that moves by a step until it arrives, for a number of further
rounds at most. A counter that would leave the range of integers has arrived. -/
def count (body : Int64 → Eval Value) (keep : Bool) (tooLong : Eval (List Value))
    (stop step : Int64) : (rounds : Nat) → Int64 → List Value → Eval (List Value)
  | 0, counter, values => if before counter stop step then tooLong else pure values
  | rounds + 1, counter, values =>
    if before counter stop step then do
      match ← round (body counter) with
      | .left => pure values
      | other =>
        match Integer.add? counter step with
        | some next => count body keep tooLong stop step rounds next (collect keep values other)
        | none => pure (collect keep values other)
    else
      pure values

/-- The value of a loop: null if its body is a block, and the list of the values of its rounds
otherwise. -/
def result (block : Bool) (values : List Value) : Value :=
  if block then .null else .list values.reverse

end Quill.Loop
