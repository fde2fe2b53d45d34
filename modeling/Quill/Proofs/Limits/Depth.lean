import Quill.Proofs.Chronicle.Behaviour
import Quill.Proofs.Chronicle.Evaluation

/-!
# The number of open activations

Every activation is asked for right before it is opened, and every one that is asked for while as
many are open as the limit allows is refused right away. So the limit is never exceeded, and the
fault for it arises for no other reason. Every activation is closed again in whatever way the work
in it ends, so an interpreter has as many open activations after a run as before.
-/

namespace Quill

/-- Whether it has to do with being let into an activation. -/
def Happening.Admission : Happening → Prop
  | .opened => True
  | .noted (.raised (.recursionLimit _)) => True
  | happening => happening.Asks

/-- Activations are asked for and opened, or asked for and refused, and refused exactly where as
many are open as the limit allows. -/
inductive Guarded (limit : Nat) : List Moment → Prop where
  /-- Nothing has happened. -/
  | nil : Guarded limit []
  /-- An activation is asked for below the limit, and is opened next. -/
  | opened {asking entry : Moment} {log : List Moment} (asks : asking.happening.Asks)
      (room : asking.machine.depth < limit) (happens : entry.happening = .opened)
      (deeper : entry.machine = asking.machine.opened) (rest : Guarded limit log) :
      Guarded limit (asking :: entry :: log)
  /-- An activation is asked for at the limit, and that is a fault before anything else happens. -/
  | refused {asking refusal : Moment} {log : List Moment} (asks : asking.happening.Asks)
      (full : asking.machine.depth = limit)
      (happens : refusal.happening = .noted (.raised (.recursionLimit limit)))
      (same : refusal.machine = asking.machine) (rest : Guarded limit log) :
      Guarded limit (asking :: refusal :: log)
  /-- Something else happens. -/
  | other {moment : Moment} {log : List Moment} (other : ¬moment.happening.Admission)
      (rest : Guarded limit log) : Guarded limit (moment :: log)

variable {host : Host} {admitted : Fault → Prop} {own : Option ContextId} {machine after : Machine}
  {log : List Moment} {limit : Nat}

namespace Guarded

theorem append {later : List Moment} (first : Guarded limit log) (second : Guarded limit later) :
    Guarded limit (log ++ later) := by
  induction first with
  | nil => exact second
  | opened asks room happens deeper _ ih => exact .opened asks room happens deeper ih
  | refused asks full happens same _ ih => exact .refused asks full happens same ih
  | other other _ ih => exact .other other ih

theorem map_within (root : ContextId) (guarded : Guarded limit log) :
    Guarded limit (log.map (Moment.within root)) := by
  induction guarded with
  | nil => exact .nil
  | opened asks room happens deeper _ ih => exact .opened asks room happens deeper ih
  | refused asks full happens same _ ih => exact .refused asks full happens same ih
  | other other _ ih => exact .other other ih

theorem singleton {moment : Moment} (other : ¬moment.happening.Admission) :
    Guarded limit [moment] :=
  .other other .nil

end Guarded

theorem Happening.Quiet.not_admission {happening : Happening} (quiet : happening.Quiet admitted) :
    ¬happening.Admission := by
  intro admission
  cases happening with
  | noted event =>
    cases event with
    | raised fault =>
      cases fault with
      | recursionLimit limit => exact quiet.elim
      | _ => exact admission.elim
    | _ => exact admission.elim
  | stepped => exact admission.elim
  | _ => exact quiet.elim

namespace Course

/-- At no moment are more activations open than the limit allows. -/
theorem depth_le (course : Course host admitted own machine log after)
    (below : machine.depth ≤ host.config.maxCallDepth) :
    ∀ moment ∈ log, moment.machine.depth ≤ host.config.maxCallDepth := by
  induction course with
  | still => simp
  | andThen first _ earlier later =>
    have kept := first.depth_eq
    exact List.forall_mem_append.mpr ⟨earlier below, later (kept ▸ below)⟩
  | quiet _ _ depth => exact List.forall_mem_singleton.mpr (depth ▸ below)
  | bound => exact List.forall_mem_singleton.mpr below
  | boundMember => exact List.forall_mem_singleton.mpr below
  | miscounted => exact List.forall_mem_cons.mpr ⟨below, List.forall_mem_singleton.mpr below⟩
  | refused => exact List.forall_mem_cons.mpr ⟨below, List.forall_mem_singleton.mpr below⟩
  | @activated own machine after happening log asks room inside inner =>
    have closed : after.closed.depth = machine.depth := Nat.sub_eq_of_eq_add inside.depth_eq
    refine List.forall_mem_append.mpr ⟨List.forall_mem_cons.mpr ⟨below, List.forall_mem_cons.mpr
      ⟨room, inner room⟩⟩, List.forall_mem_singleton.mpr ?_⟩
    exact Nat.le_trans (Nat.le_of_eq closed) below
  | entered _ depth _ inner =>
    exact List.forall_mem_cons.mpr ⟨Nat.le_trans (Nat.le_of_eq depth) below, inner (depth ▸ below)⟩
  | included _ inner => exact List.forall_mem_map.mpr (inner below)

/-- Activations are opened and refused as the limit says. -/
theorem guarded (course : Course host admitted own machine log after)
    (below : machine.depth ≤ host.config.maxCallDepth) :
    Guarded host.config.maxCallDepth log := by
  induction course with
  | still => exact .nil
  | andThen first _ earlier later =>
    have kept := first.depth_eq
    exact (earlier below).append (later (kept ▸ below))
  | quiet quiet => exact .singleton quiet.not_admission
  | bound => exact .singleton not_false
  | boundMember => exact .singleton not_false
  | @miscounted own function count fault machine wrong =>
    have notAsked : ¬(Happening.called function count).Admission := by
      intro right
      change function.checkArity count = .ok () at right
      rw [wrong] at right
      cases right
    have ordinary := Bodies.sound_checkArity function count
    rw [wrong] at ordinary
    have quiet : (Happening.noted (.raised fault)).Quiet fun _ => True :=
      Happening.quiet_of_ordinary ordinary trivial
    exact .other notAsked (.singleton quiet.not_admission)
  | refused asks full => exact .refused asks (Nat.le_antisymm below full) rfl rfl .nil
  | activated asks room _ inner =>
    exact .opened asks room rfl rfl ((inner room).append (.singleton not_false))
  | entered _ depth _ inner => exact .other not_false (inner (depth ▸ below))
  | included _ inner => exact (inner below).map_within _

end Course

/-- What is told from a state on about the number of open activations. -/
structure Balanced (host : Host) (machine : Machine) (log : List Moment) (after : Machine) :
    Prop where
  /-- As many are open afterwards as before. -/
  kept : after.depth = machine.depth
  /-- There are never more than the limit allows. -/
  below : ∀ moment ∈ log, moment.machine.depth ≤ host.config.maxCallDepth
  /-- One that is asked for is refused exactly if as many are open as the limit allows. -/
  guarded : Guarded host.config.maxCallDepth log

theorem Course.balanced (course : Course host admitted own machine log after)
    (below : machine.depth ≤ host.config.maxCallDepth) : Balanced host machine log after :=
  ⟨course.depth_eq, course.depth_le below, course.guarded below⟩

theorem Session.machine_resultOfCall (session : Session) (span : Span) (outcome : Outcome Value) :
    (session.resultOfCall span outcome).2.machine = Outcome.machine outcome := by
  cases outcome with
  | ok value machine => rfl
  | error signal machine => rfl

/-- In every state with no more open activations than the limit allows, evaluating an expression,
executing it as a program, calling a value, calling it from outside of all programs and running a
text leave as many activations open as there were, in whatever way they end, and never exceed the
limit in between. The fault for exceeding it arises exactly where an activation is asked for when as
many are open as the limit allows, and before anything in it is evaluated. -/
theorem evaluation_balanced {host : Host} {machine : Machine}
    (below : machine.depth ≤ host.config.maxCallDepth) :
    let room := host.config.maxCallDepth - machine.depth
    (∀ expr id,
      let told := Chronicle.evaluate host room expr id machine
      told.ending = Eval.evaluate host room expr id machine ∧
        Balanced host machine told.log (Outcome.machine told.ending) ∧
          (Eval.resultOfScript expr id told.ending).2 = Outcome.machine told.ending) ∧
    (∀ callee arguments span caller,
      let told := Chronicle.callValue host (Chronicle.inside host room) callee arguments span caller
        machine
      told.ending = Eval.callValue host (Eval.inside host room) callee arguments span caller
        machine ∧ Balanced host machine told.log (Outcome.machine told.ending)) ∧
    (∀ globals callee arguments span,
      ((Session.mk machine globals).call host callee arguments span).2.machine.depth =
        machine.depth) ∧
    ∀ globals id name text,
      let told := Chronicle.runProgram host ⟨machine, globals⟩ id name text
      told.ending = (Session.mk machine globals).runIn host id name text ∧
        Balanced host machine told.log told.ending.2.machine := by
  intro room
  refine ⟨?_, ?_, ?_, ?_⟩
  · intro expr id told
    refine ⟨Chronicle.ending_evaluate host room expr id machine, ?_,
      Eval.machine_resultOfScript expr id told.ending⟩
    exact (course_evaluate host machine expr id).balanced below
  · intro callee arguments span caller told
    refine ⟨Chronicle.ending_callValue host room callee arguments span caller machine, ?_⟩
    exact (course_callValue host machine callee arguments span caller).balanced below
  · intro globals callee arguments span
    rw [Session.call, Session.machine_resultOfCall, ← Chronicle.ending_callValue]
    exact (course_callValue host machine callee arguments span globals).depth_eq
  · intro globals id name text told
    refine ⟨Chronicle.ending_runProgram host ⟨machine, globals⟩ id name text, ?_⟩
    exact (course_runProgram host machine globals id name text).balanced below

/-- A program that recurs for ever, under a limit of two activations: all of this holds of its run,
and the fault for exceeding the limit does arise. -/
theorem evaluation_balanced_endless :
    let host : Host := ⟨{ maxCallDepth := 2 }, FileTree.disk ⟨[]⟩, 0⟩
    let session := Session.start []
    let told := Chronicle.runProgram host session session.globals "main" "func f() -> f()\nf()"
    session.machine.depth ≤ host.config.maxCallDepth ∧
      (told.ending = session.runIn host session.globals "main" "func f() -> f()\nf()" ∧
        Balanced host session.machine told.log told.ending.2.machine) ∧
      (told.log.any fun moment => moment.happening matches .noted (.raised (.recursionLimit 2))) =
        true := by
  intro host session told
  have below : session.machine.depth ≤ host.config.maxCallDepth := by decide +kernel
  obtain ⟨_, _, _, runs⟩ := evaluation_balanced below
  have raised : (told.log.any fun moment =>
      moment.happening matches .noted (.raised (.recursionLimit 2))) = true := by decide +kernel
  exact ⟨below, runs session.globals session.globals "main" _, raised⟩

end Quill
