import Quill.CommandLine
import Std.Time.DateTime.Timestamp

/-!
# The command

A run is a pure function of its surroundings: the files, the input and the time. It also tells which
files it asked for and how much of the input it took. So the command begins with no file and a
single empty line of input, fetches what turns out to be asked for, and begins again until nothing
is missing. A program that reads no input is never held up by waiting for it.
-/

namespace Quill.CommandLine

/-- The reason that the system gives for a failed reading. Some numbers come with their sign
turned. -/
def readFailure : IO.Error → ReadFailure
  | .noFileOrDirectory .. => .notFound
  | .inappropriateType _ code reason | .invalidArgument _ code reason
  | .permissionDenied _ code reason | .resourceExhausted _ code reason
  | .noSuchThing _ code reason | .alreadyExists _ code reason | .interrupted _ code reason
  | .otherError code reason | .resourceBusy code reason | .resourceVanished code reason
  | .unsupportedOperation code reason | .hardwareFault code reason
  | .unsatisfiedConstraints code reason | .illegalOperation code reason
  | .protocolError code reason | .timeExpired code reason =>
    match min code.toNat (UInt32.size - code.toNat) with
    | 20 => .notDirectory
    | 21 => .isDirectory
    | 36 => .nameTooLong
    | number => .other (reason ++ " (os error " ++ number.repr ++ ")")
  | .unexpectedEof => .other "unexpected end of file"
  | .userError reason => .other reason

/-- Reads a file. -/
def readFile (path : String) : IO (Except ReadFailure (List UInt8)) := do
  if path.toList.contains '\x00' then
    return .error .nullInPath
  try
    return .ok (← IO.FS.readBinFile path).toList
  catch error =>
    return .error (readFailure error)

/-- What is known of the surroundings of a run. -/
structure Surroundings where
  /-- The files that were asked for, with what reading them gave. -/
  files : List (String × Except ReadFailure (List UInt8))
  /-- The input, if it was asked for. -/
  input : Option (List UInt8)
  /-- The time, in seconds since the beginning of 1970. -/
  clock : Float

/-- The input of a run as long as it has not asked for any. -/
def emptyLine : List UInt8 := [10]

/-- Runs the command until everything that it asks for is known. -/
partial def attempt (arguments : List String) (known : Surroundings) : IO Outcome := do
  let disk : Disk := fun path => (known.files.lookup path).getD (.error .notFound)
  let outcome := run arguments (known.input.getD emptyLine) disk known.clock
  if known.input.isNone && outcome.rest ≠ emptyLine then
    let input ← (← IO.getStdin).readBinToEnd
    attempt arguments { known with input := some input.toList }
  else
    match outcome.requested.reverse.find? fun path => (known.files.lookup path).isNone with
    | some path =>
      let contents ← readFile path
      attempt arguments { known with files := (path, contents) :: known.files }
    | none => return outcome

end Quill.CommandLine

/-- Runs the command with the arguments of the process. -/
def main (arguments : List String) : IO UInt32 := do
  let now := (← Std.Time.Timestamp.now).toNanosecondsSinceUnixEpoch.val
  let clock := Float.ofInt now / 1000000000.0
  let outcome ← Quill.CommandLine.attempt arguments ⟨[], none, clock⟩
  IO.print outcome.stdout
  IO.eprint outcome.stderr
  return outcome.code.toUInt32
