import Quill.Proofs.Chronicle.Behaviour
import Quill.Proofs.Chronicle.Evaluation
import Quill.Proofs.Scoping.Failing

/-!
# Signals stay where they belong

In disciplined code every `break` and every `continue` stands in the body of a loop, and every
`return` in a function or outside of all functions and templates. A run in which all code is
disciplined, that of the program as well as that of its scripts and that of the functions and
templates which the session has stored before, never comes to the edge of a body with a signal that
nothing takes there.

Without any discipline calls still end with a value or a failure, so a loop is left, or goes on to
its next round, only by a `break` or a `continue` that stands in its own body.
-/

namespace Quill

/-- The bodies of which everything that leaves them is taken, and in which all bodies are of that
kind. -/
def Bodies.disciplined : Bodies where
  routine body := body.isRoutine = true ∧ body.disciplined = true
  members body := body.isMembers = true ∧ body.disciplined = true

/-- A text that is no program, or a disciplined one. -/
def Source.Disciplined (source : Source) : Prop :=
  ∀ root, Eval.read source = .ok root → Bodies.disciplined.routine root

/-- All scripts that can be loaded are disciplined. -/
def Host.Disciplined (host : Host) : Prop :=
  ∀ path text serial, host.disk.readText path = .ok text →
    Source.Disciplined ⟨serial, path, text⟩

theorem Expr.eq_returned_of_isRoutine {body : Located} {exit : Exit}
    (routine : body.isRoutine = true) (exits : body.exits exit = true) : exit = .returned := by
  cases exit with
  | returned => rfl
  | _ => simp [isRoutine, exits] at routine

theorem Expr.not_exits_of_isMembers {body : Located} {exit : Exit}
    (members : body.isMembers = true) : ¬body.exits exit = true := by
  intro exits
  cases exit <;> simp [isMembers, exits] at members

/-- The policy that admits disciplined code, and no fault for a signal that nothing takes. -/
def Policy.disciplined (host : Host) (scripts : host.Disciplined) : Policy host where
  toBodies := Bodies.disciplined
  code expr := expr.disciplined = true
  fault reason := ¬reason.Stray
  fault_of_not_stray _ fine := fine
  code_of_mem_parts code member := Expr.disciplined_of_mem_parts code member
  routine_of_code code := Bool.and_eq_true_iff.mp code
  members_of_code code := Bool.and_eq_true_iff.mp code
  code_of_routine routine := routine.2
  code_of_members members := members.2
  fault_of_routine routine exits left :=
    absurd (Expr.eq_returned_of_isRoutine routine.1 exits) left
  fault_of_members members exits := absurd exits (Expr.not_exits_of_isMembers members.1)
  routine_of_script readable read := scripts _ _ _ readable _ read

namespace OnlyFails

theorem objectNamed (name : String) (span : Span) (id : ContextId) :
    OnlyFails (Eval.objectNamed name span id) := by
  have looksUp : OnlyFails (Eval.lookup id name) := by
    intro machine signal after ended
    cases ended
  apply bind looksUp
  intro found
  cases found with
  | none => exact raise _ span id
  | some value =>
    cases value with
    | object object => exact pure _
    | _ => exact raise _ span id

/-- The statements of a template may end with any signal, but making an instance fails then. -/
theorem instantiate (template : Object) (name : String) (span : Span) (caller : ContextId)
    (evaluate : Evaluate) : OnlyFails (Eval.instantiate template name span caller evaluate) := by
  have adds (context : Context) : OnlyFails (Eval.addContext context) := by
    intro machine signal after ended
    cases ended
  apply bind (adds _)
  intro id machine signal after ended
  change Eval.instanceOfMembers template span id (evaluate template.body id machine) = _ at ended
  cases done : evaluate template.body id machine with
  | ok value between =>
    rw [done] at ended
    cases ended
  | error earlier between =>
    rw [done] at ended
    cases ended
    exact ⟨_, rfl⟩

theorem evaluateIn_instantiate (host : Host) (inner : Option Evaluate) (id : ContextId)
    (name : String) (span : Span) :
    OnlyFails (Eval.evaluateIn host inner id (.instantiate name span)) := by
  rw [Eval.evaluateIn]
  apply bind (objectNamed name span id)
  intro template
  exact activate host inner span id (instantiate template name span id)

end OnlyFails

/-- A round of a loop leaves the loop only by a `break` that stands in the body, and goes on to the
next round only by a `continue` that stands there. -/
theorem exits_of_round (host : Host) (body : Located) (id : ContextId) (machine after : Machine) :
    let room := host.config.maxCallDepth - machine.depth
    (Loop.round (Eval.evaluate host room body id) machine = .ok .left after →
      body.exits .broke = true) ∧
    (Loop.round (Eval.evaluate host room body id) machine = .ok .skipped after →
      body.exits .continued = true) := by
  intro room
  have meets := ready_evaluate (Policy.lenient host) room body id _ trivial fun exit exits => exits
  have ends := (meets rfl (Bodies.admitMachine_all machine)).ends
  rw [Chronicle.ending_evaluate] at ends
  unfold Loop.round
  revert ends
  generalize Eval.evaluate host room body id machine = outcome
  intro ends
  cases ends with
  | broke allowed =>
    constructor
    · intro _
      exact allowed
    · rintro ⟨⟩
  | continued allowed =>
    constructor
    · rintro ⟨⟩
    · intro _
      exact allowed
  | _ =>
    constructor
    · rintro ⟨⟩
    · rintro ⟨⟩

/-- If all code is disciplined, no run ever comes to an edge with a signal that nothing takes, and
none fails for that. Whatever the code is like, calls and the making of instances end with a value
or a failure, and so a round of a loop leaves or skips only where the body of the loop itself says
so. -/
theorem signals_confined (host : Host) :
    (host.Disciplined → ∀ (session : Session) (id : ContextId) (name text : String),
      Bodies.disciplined.AdmitMachine session.machine →
      Source.Disciplined ⟨session.machine.serial, name, text⟩ →
        let told := Chronicle.runProgram host session id name text
        told.ending = session.runIn host id name text ∧
          (∀ moment ∈ told.log, ∀ fault, moment.happening = .noted (.raised fault) →
            ¬fault.Stray) ∧
          (∀ failure, told.ending.1 = .error (.running failure) → ¬failure.fault.Stray) ∧
          Bodies.disciplined.AdmitMachine told.ending.2.machine) ∧
    (∀ inner callee arguments span caller,
      OnlyFails (Eval.callValue host inner callee arguments span caller)) ∧
    (∀ inner id name span, OnlyFails (Eval.evaluateIn host inner id (.instantiate name span))) ∧
    ∀ body id machine after,
      let room := host.config.maxCallDepth - machine.depth
      (Loop.round (Eval.evaluate host room body id) machine = .ok .left after →
        body.exits .broke = true) ∧
      (Loop.round (Eval.evaluate host room body id) machine = .ok .skipped after →
        body.exits .continued = true) := by
  refine ⟨?_, OnlyFails.callValue host, OnlyFails.evaluateIn_instantiate host,
    exits_of_round host⟩
  intro scripts session id name text stored program told
  let policy := Policy.disciplined host scripts
  have ready := ready_evaluate policy (host.config.maxCallDepth - session.machine.depth)
  obtain ⟨course, admits, ends⟩ := Meets.runText ready name text id program rfl stored
  refine ⟨Chronicle.ending_runProgram host session id name text, ?_, ?_, admits⟩
  · exact course.admitted_of_raised policy.fault_of_not_stray
  · intro failure failed
    change ScriptEnds policy told.ending.1 at ends
    rw [failed] at ends
    exact ends

/-- A program with a `return`, a `break` and a `continue`, each in its place. -/
theorem signals_confined_program :
    let text := "func f(n)\n  return n\nend\nfor i = 0 to 3 then if f(i) then break else continue"
    let host : Host := ⟨{}, fun _ => .error .notFound, 0⟩
    let session := Session.start []
    host.Disciplined ∧ Bodies.disciplined.AdmitMachine session.machine ∧
      Source.Disciplined ⟨session.machine.serial, "main", text⟩ ∧
        ∀ failure, (session.runIn host session.globals "main" text).1 = .error (.running failure) →
          ¬failure.fault.Stray := by
  intro text host session
  have scripts : host.Disciplined := by
    intro path other serial readable
    cases readable
  have stored : Bodies.disciplined.AdmitMachine session.machine := Bodies.admitMachine_initial []
  have checked : (match Eval.read ⟨session.machine.serial, "main", text⟩ with
      | .ok root => root.isRoutine && root.disciplined
      | .error _ => false) = true := by decide +kernel
  have program : Source.Disciplined ⟨session.machine.serial, "main", text⟩ := by
    intro root read
    rw [read] at checked
    exact Bool.and_eq_true_iff.mp checked
  obtain ⟨told, _, failures, _⟩ :=
    (signals_confined host).1 scripts session session.globals "main" text stored program
  refine ⟨scripts, stored, program, fun failure failed => ?_⟩
  exact failures failure ((congrArg Prod.fst told).trans failed)

end Quill
