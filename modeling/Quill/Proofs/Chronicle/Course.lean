import Quill.Proofs.Chronicle.Program
import Quill.Proofs.Store.Tables

/-!
# The course of events

A course says what code may do that is evaluated in a context: in which order things happen, and
what happens to the tables and to the number of open activations at each of them. Code binds names
in its own context and in instances. Whatever else it binds, it binds in contexts that have been
added on the way, or in those that a script is included in.

What holds of every course is shown by induction on it, with one case for each thing that may
happen, and need not be shown for the constructs of the language one by one.
-/

namespace Quill

namespace Machine

/-- The state in which a name has been given a value in a context. -/
def binding (machine : Machine) (id : ContextId) (name : String) (value : Value) : Machine :=
  { machine with store := machine.store.define id name value true }

/-- The state with one more activation. -/
def opened (machine : Machine) : Machine :=
  { machine with depth := machine.depth + 1 }

/-- The state with one activation less. -/
def closed (machine : Machine) : Machine :=
  { machine with depth := machine.depth - 1 }

end Machine

/-- Whether an activation is asked for: somebody calls a function with as many arguments as it has
parameters, or makes an instance. -/
def Happening.Asks : Happening → Prop
  | .called function count => function.checkArity count = .ok ()
  | .instantiated _ => True
  | _ => False

/-- Whether nothing happens to tables and activations. A fault that arises has to be admitted. -/
def Happening.Quiet (admitted : Fault → Prop) : Happening → Prop
  | .stepped => True
  | .noted (.raised (.recursionLimit _)) => False
  | .noted (.raised fault) => admitted fault
  | .noted _ => True
  | _ => False

/-- What happens between two states of a run, in code that has `own` as its context, or no context
of its own at all. -/
inductive Course (host : Host) (admitted : Fault → Prop) :
    Option ContextId → Machine → List Moment → Machine → Prop where
  /-- Nothing that anybody would tell. -/
  | still {own : Option ContextId} {machine after : Machine} (store : after.store = machine.store)
      (depth : after.depth = machine.depth) : Course host admitted own machine [] after
  /-- One thing after the other. -/
  | andThen {own : Option ContextId} {machine between after : Machine} {log later : List Moment}
      (first : Course host admitted own machine log between)
      (second : Course host admitted own between later after) :
      Course host admitted own machine (log ++ later) after
  /-- Something that changes no table. -/
  | quiet {own : Option ContextId} {machine after : Machine} {happening : Happening}
      (quiet : happening.Quiet admitted) (store : after.store = machine.store)
      (depth : after.depth = machine.depth) :
      Course host admitted own machine [happening.at after] after
  /-- A name is bound in the context of the code. -/
  | bound (machine : Machine) (id : ContextId) (name : String) (value : Value) :
      Course host admitted (some id) machine
        [(Happening.bound id name value .direct).at (machine.binding id name value)]
        (machine.binding id name value)
  /-- A name is bound in an instance. -/
  | boundMember {own : Option ContextId} {object : Object} (machine : Machine) (name : String)
      (value : Value) (made : object.isInstance = true) :
      Course host admitted own machine
        [(Happening.bound object.context name value (.member object)).at
          (machine.binding object.context name value)]
        (machine.binding object.context name value)
  /-- A function is to be called with too many or too few arguments. -/
  | miscounted {own : Option ContextId} {function : Function} {count : Nat} {fault : Fault}
      (machine : Machine) (wrong : function.checkArity count = .error fault) :
      Course host admitted own machine
        [(Happening.called function count).at machine, (Happening.noted (.raised fault)).at machine]
        machine
  /-- An activation is asked for, but there is no room left. -/
  | refused {own : Option ContextId} {machine : Machine} {happening : Happening}
      (asks : happening.Asks) (full : host.config.maxCallDepth ≤ machine.depth) :
      Course host admitted own machine
        [happening.at machine,
          (Happening.noted (.raised (.recursionLimit host.config.maxCallDepth))).at machine]
        machine
  /-- An activation is asked for, opened, and closed again. -/
  | activated {own : Option ContextId} {machine after : Machine} {happening : Happening}
      {log : List Moment} (asks : happening.Asks) (room : machine.depth < host.config.maxCallDepth)
      (inside : Course host admitted own machine.opened log after) :
      Course host admitted own machine
        (happening.at machine :: Happening.opened.at machine.opened :: log ++
          [Happening.closed.at after.closed])
        after.closed
  /-- A context is added, and is the one of the code that follows. -/
  | entered {own : Option ContextId} {machine start after : Machine} {log : List Moment}
      (grows : Store.Grows machine.store start.store) (depth : start.depth = machine.depth)
      (inside : Course host admitted (some machine.store.size) start log after) :
      Course host admitted own machine (Happening.stepped.at start :: log) after
  /-- A script is included in a context. -/
  | included {own : Option ContextId} {root : ContextId} {machine after : Machine}
      {log : List Moment} (inside : Course host admitted (some root) machine log after) :
      Course host admitted own machine (log.map (Moment.within root)) after

variable {host : Host} {admitted : Fault → Prop} {own : Option ContextId} {machine after : Machine}
  {log : List Moment}

theorem Happening.quiet_of_ordinary {fault : Fault} (ordinary : fault.Ordinary)
    (also : admitted fault) : (Happening.noted (.raised fault)).Quiet admitted := by
  cases fault with
  | recursionLimit limit => exact ordinary.elim
  | _ => exact also

theorem Exit.quiet {exit : Exit} (also : admitted exit.fault) :
    (Happening.noted (.raised exit.fault)).Quiet admitted := by
  cases exit <;> exact also

theorem Outcome.machine_leave {Result : Type} (outcome : Outcome Result) :
    Outcome.machine (Eval.leave outcome) = (Outcome.machine outcome).closed := by
  cases outcome with
  | ok result machine => rfl
  | error signal machine => rfl

namespace Course

/-- Whatever happens, as many activations are open afterwards as before. -/
theorem depth_eq (course : Course host admitted own machine log after) :
    after.depth = machine.depth := by
  induction course with
  | still _ depth => exact depth
  | andThen _ _ earlier later => exact later.trans earlier
  | quiet _ _ depth => exact depth
  | bound => rfl
  | boundMember => rfl
  | miscounted => rfl
  | refused => rfl
  | activated _ _ _ inner => exact Nat.sub_eq_of_eq_add inner
  | entered _ depth _ inner => exact inner.trans depth
  | included _ inner => exact inner

/-- Some faults that arise one after the other. -/
theorem events {events : List Event}
    (quiet : ∀ event ∈ events, (Happening.noted event).Quiet admitted) (machine : Machine) :
    Course host admitted own machine
      (events.map fun event => (Happening.noted event).at machine) machine := by
  induction events with
  | nil => exact .still rfl rfl
  | cons event rest ih =>
    obtain ⟨first, later⟩ := List.forall_mem_cons.mp quiet
    exact (Course.quiet first rfl rfl).andThen (ih later)

/-- Every fault that arises is admitted, if those are that have nothing to do with the edge of a
body. -/
theorem admitted_of_raised (course : Course host admitted own machine log after)
    (others : ∀ fault : Fault, ¬fault.Stray → admitted fault) :
    ∀ moment ∈ log, ∀ fault, moment.happening = .noted (.raised fault) → admitted fault := by
  induction course with
  | still => simp
  | andThen _ _ earlier later => exact List.forall_mem_append.mpr ⟨earlier, later⟩
  | quiet quiet =>
    rw [List.forall_mem_singleton]
    rintro fault rfl
    cases fault with
    | recursionLimit limit => exact quiet.elim
    | _ => exact quiet
  | bound => simp [Happening.at]
  | boundMember => simp [Happening.at]
  | @miscounted _ function count fault machine wrong =>
    have ordinary := Bodies.sound_checkArity function count
    rw [wrong] at ordinary
    refine List.forall_mem_cons.mpr ⟨?_, List.forall_mem_singleton.mpr ?_⟩
    · rintro other ⟨⟩
    · rintro other ⟨⟩
      exact others fault ordinary.not_stray
  | refused asks full =>
    refine List.forall_mem_cons.mpr ⟨?_, List.forall_mem_singleton.mpr ?_⟩
    · rintro other rfl
      exact asks.elim
    · rintro other ⟨⟩
      exact others _ not_false
  | activated asks room _ inner =>
    refine List.forall_mem_append.mpr
      ⟨List.forall_mem_cons.mpr ⟨?_, List.forall_mem_cons.mpr ⟨?_, inner⟩⟩,
        List.forall_mem_singleton.mpr ?_⟩
    · rintro other rfl
      exact asks.elim
    · rintro other ⟨⟩
    · rintro other ⟨⟩
  | entered _ _ _ inner =>
    refine List.forall_mem_cons.mpr ⟨?_, inner⟩
    rintro other ⟨⟩
  | included _ inner => exact List.forall_mem_map.mpr inner

end Course

end Quill
