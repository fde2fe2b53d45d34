import Quill.Session

/-!
# The command line

A program is given on the command line or in a file. It is run once; its printed text is the
standard output, and the report of an error goes to the standard error. In pipe mode the last
value that is not null is printed as well.
-/

namespace Quill.CommandLine

/-- What the arguments ask for. -/
structure Request where
  /-- Whether the script is the name of a file. -/
  fromFile : Bool := false
  /-- Whether the last value is printed. -/
  pipeMode : Bool := false
  /-- The limit on activations, if there is one of its own. -/
  maxDepth : Option Nat := none
  /-- The limit on the rounds of a loop, if there is one of its own. -/
  maxIterations : Option Nat := none
  /-- The program, or the file that it is in. -/
  script : Option String := none
deriving DecidableEq, Repr

/-- A limit: a natural number that fits into 64 bits, with or without a plus sign. -/
def limit? (text : String) : Option Nat :=
  let number :=
    match text.toList with
    | '+' :: digits => Text.unsigned? digits
    | digits => Text.unsigned? digits
  number.filter (· < UInt64.size)

/-- Takes a switch, which may be given only once. -/
def takeFile (request : Request) : Option Request :=
  if request.fromFile then none else some { request with fromFile := true }

/-- Takes a switch, which may be given only once. -/
def takePipe (request : Request) : Option Request :=
  if request.pipeMode then none else some { request with pipeMode := true }

/-- Takes a limit on activations, which may be given only once. -/
def takeDepth (request : Request) (value : String) : Option Request := do
  if request.maxDepth.isSome then none
  else some { request with maxDepth := some (← limit? value) }

/-- Takes a limit on rounds, which may be given only once. -/
def takeIterations (request : Request) (value : String) : Option Request := do
  if request.maxIterations.isSome then none
  else some { request with maxIterations := some (← limit? value) }

/-- Takes the script, of which there is only one. -/
def takeScript (request : Request) (script : String) : Option Request :=
  if request.script.isSome then none else some { request with script := some script }

/-- Takes short switches that share one dash. -/
def takeShort (request : Request) : List Char → Option Request
  | [] => some request
  | 'f' :: rest => do takeShort (← takeFile request) rest
  | 'p' :: rest => do takeShort (← takePipe request) rest
  | _ => none

/-- The value of an option that is given in one argument with its name. -/
def attached? (name argument : String) : Option String :=
  if (name ++ "=").toList.isPrefixOf argument.toList then
    some (String.ofList (argument.toList.drop (name.length + 1)))
  else
    none

/-- Takes an argument that stands for itself. A single dash is a script; everything else that
begins with a dash has to be an option. -/
def takeArgument (request : Request) (argument : String) : Option Request :=
  match argument.toList with
  | '-' :: '-' :: _ =>
    if argument = "--file" then takeFile request
    else if argument = "--pipe-mode" then takePipe request
    else
      match attached? "--max-depth" argument, attached? "--max-iterations" argument with
      | some value, _ => takeDepth request value
      | none, some value => takeIterations request value
      | none, none => none
  | '-' :: letter :: letters => takeShort request (letter :: letters)
  | _ => takeScript request argument

/-- Takes all arguments. Behind two dashes there are only scripts. -/
def takeAll (request : Request) : List String → Option Request
  | [] => some request
  | "--" :: scripts => scripts.foldlM takeScript request
  | "--max-depth" :: value :: rest => do takeAll (← takeDepth request value) rest
  | "--max-iterations" :: value :: rest => do takeAll (← takeIterations request value) rest
  | argument :: rest => do takeAll (← takeArgument request argument) rest

/-- The request that arguments make, if they are acceptable. -/
def Request.ofArguments? (arguments : List String) : Option Request :=
  takeAll {} arguments

/-- What a run of the command leaves behind. -/
structure Outcome where
  /-- The exit code. -/
  code : Nat
  /-- The text on the standard output. -/
  stdout : String
  /-- The text on the standard error. -/
  stderr : String
  /-- The paths of the files that were asked for, latest first. -/
  requested : List String
  /-- The input that was not read. -/
  rest : List UInt8
deriving DecidableEq, Repr

/-- The reminder that rejected arguments are answered with. -/
def usage : String :=
  "usage: quill [-f] [-p] [--max-depth N] [--max-iterations N] SCRIPT\n"

/-- The last value of a program that is worth printing. -/
def lastPrintable? : Value → Option Value
  | .list values => values.reverse.find? (·.kind ≠ .null)
  | .null => none
  | value => some value

/-- The limits that a request asks for. -/
def Request.config (request : Request) (baseDirectory : String) : Config :=
  let standard : Config := {}
  { maxCallDepth := request.maxDepth.getD standard.maxCallDepth
    maxLoopIterations := request.maxIterations.getD standard.maxLoopIterations
    baseDirectory := baseDirectory }

/-- Runs a program that has been found. -/
def runProgram (request : Request) (baseDirectory name text : String) (input : List UInt8)
    (disk : Disk) (clock : Float) : Outcome :=
  let host : Host := ⟨request.config baseDirectory, disk, clock⟩
  let (result, session) := (Session.start input).run host name text
  let printed := session.machine.output.written
  let (code, stdout, stderr) :=
    match result with
    | .error error => (1, printed, error.report ++ "\n")
    | .ok value =>
      match request.pipeMode, lastPrintable? value with
      | true, some last => (0, printed ++ last.display ++ "\n", "")
      | _, _ => (0, printed, "")
  ⟨code, stdout, stderr, session.machine.requested, session.machine.input⟩

/-- The name of a program that is given on the command line itself. -/
def inlineName : String := "<stdin>"

/-- Runs the command with its arguments. -/
def run (arguments : List String) (input : List UInt8) (disk : Disk) (clock : Float) : Outcome :=
  match Request.ofArguments? arguments with
  | none => ⟨2, "", usage, [], input⟩
  | some request =>
    match request.script with
    | none => ⟨2, "", usage, [], input⟩
    | some script =>
      if request.fromFile then
        match disk.readText script with
        | .ok text =>
          let outcome := runProgram request (Path.directory script) script text input disk clock
          { outcome with requested := outcome.requested ++ [script] }
        | .error _ =>
          let complaint := "Failed to read the input file '" ++ script ++
            "'. Perhaps this file does not exist?\n"
          ⟨1, "", complaint, [script], input⟩
      else
        runProgram request ({} : Config).baseDirectory inlineName script input disk clock

end Quill.CommandLine
