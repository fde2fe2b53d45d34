import Quill.Eval.Invocation
import Quill.Integer
import Quill.Text.Blank
import Quill.Text.Digits

/-!
# Lines of input and output

Input is read line by line. A line goes up to and including the next line feed, or to the end of
the input, and is consumed as a whole even if it turns out not to be a text. Output is only ever
added to.
-/

namespace Quill

namespace Console

/-- The first line of some bytes with its line feed, and the bytes behind it. -/
def splitLine (bytes : List UInt8) : List UInt8 × List UInt8 :=
  let line := bytes.takeWhile (· ≠ 10)
  match bytes.dropWhile (· ≠ 10) with
  | [] => (line, [])
  | feed :: rest => (line ++ [feed], rest)

/-- A line without the characters that end it. -/
def shown (line : String) : String :=
  String.ofList (Text.trimEnd (fun c => c = '\n' || c = '\r') line.toList)

/-- The integer that a line holds between white space. -/
def integer? (line : String) : Option Int64 :=
  (Text.whole? (Text.trim line.toList)).bind Integer.ofInt?

end Console

namespace Invocation

/-- Reads a line. There is none at the end of the input. -/
def readLine (call : Invocation) : Eval (Option String) :=
  fun machine =>
    if machine.input.isEmpty then
      .ok none machine
    else
      let (line, rest) := Console.splitLine machine.input
      let machine := { machine with input := rest }
      match decodeUtf8? line with
      | some text => .ok (some (Console.shown text)) machine
      | none => call.raise (.io .notUtf8) machine

/-- Prints a text and ends the line. -/
def writeLine (call : Invocation) (text : String) : Eval Unit :=
  fun machine =>
    match machine.output.print (text ++ "\n") with
    | .error reason => call.raise (.io (.closed reason)) machine
    | .ok output => .ok () { machine with output := output }

/-- Says that a line holds no integer. -/
def complain (call : Invocation) (line : String) : Eval Unit :=
  let trimmed := String.ofList (Text.trim line.toList)
  call.writeLine ("'" ++ trimmed ++ "' must be an integer. Try again!")

/-- Reads lines until one of them holds an integer, for a number of lines at most, and complains
about every other line. -/
def readInteger (call : Invocation) : (lines : Nat) → Eval Value
  | 0 => call.exception (.io .endOfInput)
  | lines + 1 => do
    match ← call.readLine with
    | none => call.exception (.io .endOfInput)
    | some line =>
      match Console.integer? line with
      | some value => return .int value
      | none =>
        call.complain line
        call.readInteger lines

/-- What holds of the ways to end, and goes on to hold with a line that is read or printed before,
holds of reading an integer. -/
theorem readInteger_elim (call : Invocation) {holds : Eval Value → Prop}
    (found : ∀ value, holds (pure (.int value))) (ended : ∀ fault, holds (call.exception fault))
    (read : ∀ next : Option String → Eval Value, (∀ line, holds (next line)) →
      holds (call.readLine >>= next))
    (printed : ∀ text next, holds next → holds (call.writeLine text >>= fun _ => next))
    (lines : Nat) : holds (call.readInteger lines) := by
  induction lines with
  | zero => exact ended _
  | succ lines ih =>
    apply read
    intro line
    cases line with
    | none => exact ended _
    | some line =>
      dsimp only
      cases Console.integer? line with
      | some value => exact found value
      | none => exact printed _ _ ih

end Invocation

end Quill
