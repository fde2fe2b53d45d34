import Quill.Eval.Expr

/-!
# Sessions

A session is an interpreter between two runs: its state and the outermost context that programs
are run in. What one program defines the next one finds, also after a program that failed.
-/

namespace Quill

/-- An interpreter between two runs. -/
structure Session where
  /-- The state. -/
  machine : Machine
  /-- The outermost context of the programs that are run. -/
  globals : ContextId

namespace Session

/-- A new session that will read the given input. -/
def start (input : List UInt8) : Session :=
  let (globals, machine) := Machine.initial input
  ⟨machine, globals⟩

/-- The way to evaluate expressions: there is room for as many activations as the limit leaves. -/
def evaluate (session : Session) (host : Host) : Evaluate :=
  Eval.evaluate host (host.config.maxCallDepth - session.machine.depth)

/-- Runs a program in a context. -/
def runIn (session : Session) (host : Host) (id : ContextId) (name text : String) :
    Except Error Value × Session :=
  let (result, machine) := Eval.runText (session.evaluate host) name text id session.machine
  (result, { session with machine := machine })

/-- Runs a program in the outermost context of the session. -/
def run (session : Session) (host : Host) (name text : String) : Except Error Value × Session :=
  session.runIn host session.globals name text

/-- Runs a program in a new outermost context, which nothing refers to afterwards but values. -/
def runFresh (session : Session) (host : Host) (name text : String) :
    Except Error Value × Session :=
  let (globals, machine) := session.machine.addGlobals
  { session with machine := machine }.runIn host globals name text

/-- The value of a name in the outermost context. -/
def lookup (session : Session) (name : String) : Option Value :=
  session.machine.store.lookup session.globals name

/-- Binds a name in the outermost context. -/
def define (session : Session) (name : String) (value : Value) (isMutable : Bool) : Session :=
  let store := session.machine.store.define session.globals name value isMutable
  { session with machine := { session.machine with store := store } }

/-- What the outcome of a call is for whoever asked for it from outside. -/
def resultOfCall (session : Session) (span : Span) : Outcome Value → Except Error Value × Session
  | .ok value machine => (.ok value, { session with machine := machine })
  | .error signal machine =>
    let failure := Eval.failureOf signal span session.globals machine.store
    (.error (.running failure), { session with machine := machine })

/-- Calls a value from the outermost context. -/
def call (session : Session) (host : Host) (callee : Value) (arguments : List Value)
    (span : Span) : Except Error Value × Session :=
  let inner := Eval.inside host (host.config.maxCallDepth - session.machine.depth)
  session.resultOfCall span
    (Eval.callValue host inner callee arguments span session.globals session.machine)

/-- An identity that nothing in the session has. -/
def freshId (session : Session) : Nat × Session :=
  let machine := { session.machine with serial := session.machine.serial + 1 }
  (session.machine.serial, { session with machine := machine })

/-- Lets the output fail for a reason from now on, or work again. -/
def breakOutput (session : Session) (reason : Option String) : Session :=
  let output := { session.machine.output with broken := reason.map (⟨0, ·⟩) }
  { session with machine := { session.machine with output := output } }

/-- The output since it was taken last. -/
def takeOutput (session : Session) : String × Session :=
  let output := { session.machine.output with written := "" }
  (session.machine.output.written,
    { session with machine := { session.machine with output := output } })

end Session

/-- The result of a program that is run on its own, with nothing to read. -/
def runSource (host : Host) (name text : String) : Except Error Value :=
  ((Session.start []).run host name text).1

end Quill
