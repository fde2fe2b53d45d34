import Quill.Proofs.Instances.Tracks
import Quill.Proofs.Isolation.Constants

/-!
# Reachable states and their pasts

A state that an interpreter gets to has a past: the instants of all runs until then. The instances
in the state have been made in its past, each by one evaluation of `new`, and two of them have the
same context exactly if it was the same evaluation.
-/

namespace Quill

/-- The instance was made by an evaluation of `new` that has begun in the past. -/
def MadeIn (past : List Instant) (made : Object) : Prop :=
  ∃ instant ∈ past, instant.Makes made

/-- The instance was made by the evaluation of `new` that has begun at the instant with the given
number in the past. -/
def MadeAt (past : List Instant) (index : Nat) (made : Object) : Prop :=
  ∃ instant, past[index]? = some instant ∧ instant.Makes made

/-- Whether an expression may be evaluated next. None is while an activation has been asked for but
has no context yet. -/
def Happening.Settled : Happening → Prop
  | .instantiated _ | .opened => False
  | _ => True

namespace Machine

/-- What may be told from a state on. Values that come from outside refer to nothing but what there
is. -/
inductive Tells (past : List Instant) (host : Host) (machine : Machine) :
    Told (Outcome Value) → Prop where
  /-- An expression is evaluated in one of the contexts. -/
  | evaluation (expr : Located) {id : ContextId} (present : id < machine.store.size) :
      Tells past host machine
        (Chronicle.evaluate host (host.config.maxCallDepth - machine.depth) expr id machine)
  /-- A value is called from one of the contexts. -/
  | call {callee : Value} {arguments : List Value} (span : Span) {caller : ContextId}
      (present : caller < machine.store.size)
      (called : callee.Fits (MadeIn past) machine.store.size)
      (given : Value.AllFit (MadeIn past) machine.store.size arguments) :
      Tells past host machine
        (Chronicle.callValue host
          (Chronicle.inside host (host.config.maxCallDepth - machine.depth)) callee arguments span
          caller machine)

/-- The states that there are, each with its past. -/
inductive Reached : List Instant → Machine → Prop where
  /-- The state of a new interpreter. -/
  | start (input : List UInt8) : Reached [] (initial input).2
  /-- The state at a moment of a run. -/
  | during {past : List Instant} {machine : Machine} (reached : Reached past machine) (host : Host)
      {told : Told (Outcome Value)} (tells : machine.Tells past host told)
      {done rest : List Moment} {moment : Moment} (split : told.log = done ++ moment :: rest)
      (settled : moment.happening.Settled) :
      Reached (past ++ (done ++ [moment]).map (Instant.mk host)) moment.machine
  /-- The state at the end of a run. -/
  | after {past : List Instant} {machine : Machine} (reached : Reached past machine) (host : Host)
      {told : Told (Outcome Value)} (tells : machine.Tells past host told) :
      Reached (past ++ told.log.map (Instant.mk host)) (Outcome.machine told.ending)
  /-- Another outermost context has been added. -/
  | globals {past : List Instant} {machine : Machine} (reached : Reached past machine) :
      Reached past machine.addGlobals.2
  /-- A name has been bound from outside. -/
  | defined {past : List Instant} {machine : Machine} (reached : Reached past machine)
      (target : ContextId) (name : String) {value : Value} (isMutable : Bool)
      (given : value.Fits (MadeIn past) machine.store.size) :
      Reached past { machine with store := machine.store.define target name value isMutable }
  /-- Nothing that is bound or exported has changed. -/
  | aside {past : List Instant} {machine after : Machine} (reached : Reached past machine)
      (store : after.store = machine.store) (exported : after.exported = machine.exported) :
      Reached past after

end Machine

/-! ## Cutting the past off -/

section

variable {low high : Nat} {earlier rest : List Instant} {instant : Instant}
  (climbs : Climbs low (earlier ++ instant :: rest) high)

include climbs

/-- A past may be cut off at an instant, unless an activation is being opened there. -/
theorem Climbs.cut (settled : instant.moment.happening.Settled) :
    Climbs low (earlier ++ [instant]) instant.size := by
  obtain ⟨ordered, -, across⟩ := List.pairwise_append.mp climbs.ordered
  have before (one : Instant) (member : one ∈ earlier) :=
    across one member instant List.mem_cons_self
  have bounds := climbs.bounds instant (List.mem_append_right _ List.mem_cons_self)
  refine ⟨bounds.1, ?_, ?_, ?_⟩
  · refine List.forall_mem_append.mpr ⟨fun one member => ?_, ?_⟩
    · exact ⟨(climbs.bounds one (List.mem_append_left _ member)).1, (before one member).1⟩
    · exact List.forall_mem_singleton.mpr ⟨bounds.1, Nat.le_refl _⟩
  · refine List.forall_mem_append.mpr ⟨fun one member begins => ?_, ?_⟩
    · refine (before one member).2 begins fun opened => ?_
      rw [opened] at settled
      exact settled
    · refine List.forall_mem_singleton.mpr fun ⟨⟨template, happened⟩, _⟩ => ?_
      rw [happened] at settled
      exact settled.elim
  · refine List.pairwise_append.mpr ⟨ordered, List.pairwise_singleton _ _, fun one member => ?_⟩
    exact List.forall_mem_singleton.mpr (before one member)

/-- What has its members in a state was not made after it. -/
theorem MadeIn.cut {made : Object} (there : made.context < instant.size)
    (before : MadeIn (earlier ++ instant :: rest) made) : MadeIn (earlier ++ [instant]) made := by
  obtain ⟨origin, member, makes⟩ := before
  rcases List.mem_append.mp member with early | late
  · exact ⟨origin, List.mem_append_left _ early, makes⟩
  · rcases List.mem_cons.mp late with rfl | later
    · exact ⟨origin, List.mem_append_right _ List.mem_cons_self, makes⟩
    · have ordered := (List.pairwise_append.mp climbs.ordered).2.1
      have after := (List.pairwise_cons.mp ordered).1 origin later
      rw [makes.begins.2.2] at there
      exact absurd after.1 (Nat.not_le_of_gt there)

end

/-! ## Invariants -/

/-- All references in a state lead to what is there, and the instances come from its past. -/
structure Machine.Founded (past : List Instant) (machine : Machine) : Prop where
  /-- All references are there, and all instances have been made. -/
  fits : machine.Fits (MadeIn past)
  /-- Contexts have been added wherever instances were made. -/
  climbs : Climbs 0 past machine.store.size

namespace Machine

variable {past : List Instant} {machine : Machine}

theorem Tells.tracked {host : Host} {told : Told (Outcome Value)} (founded : machine.Founded past)
    (tells : machine.Tells past host told) :
    Tracked host (MadeIn (past ++ told.log.map (Instant.mk host)))
      (Value.Fits (MadeIn (past ++ told.log.map (Instant.mk host)))) machine machine.store.size
      told := by
  have grown (made : Object) (before : MadeIn past made) :
      MadeIn (past ++ told.log.map (Instant.mk host)) made := by
    obtain ⟨origin, member, makes⟩ := before
    exact ⟨origin, List.mem_append_left _ member, makes⟩
  have knows : KnowsMade host (MadeIn (past ++ told.log.map (Instant.mk host))) told.log :=
    fun moment member made makes =>
      ⟨⟨host, moment⟩, List.mem_append_right _ (List.mem_map_of_mem member), makes⟩
  have fits := founded.fits.imp fun made before _ => grown made before
  cases tells with
  | evaluation expr present =>
    exact tracks_evaluate host _ _ expr present rfl (Nat.le_refl _) fits knows
  | call span present called given =>
    exact tracks_callValue host _ _ (called.imp fun made before _ => grown made before)
      (fun value member => (given value member).imp fun made before _ => grown made before) span
      present rfl (Nat.le_refl _) fits knows

/-- A moment of a run has its part of the past. -/
theorem founded_moment {host : Host} {told : Told (Outcome Value)} (founded : machine.Founded past)
    (tells : machine.Tells past host told) {done rest : List Moment} {moment : Moment}
    (split : told.log = done ++ moment :: rest) (settled : moment.happening.Settled) :
    moment.machine.Founded (past ++ (done ++ [moment]).map (Instant.mk host)) := by
  have tracked := tells.tracked founded
  have whole := founded.climbs.append tracked.climbs
  have whence := tracked.moments moment (split ▸ List.mem_append_right _ List.mem_cons_self)
  rw [split, List.map_append, List.map_cons, ← List.append_assoc] at whole whence
  rw [List.map_append, List.map_singleton, ← List.append_assoc]
  exact ⟨whence.imp fun made before there => MadeIn.cut whole there before, whole.cut settled⟩

theorem Founded.define (founded : machine.Founded past) (target : ContextId) (name : String)
    {value : Value} (isMutable : Bool) (given : value.Fits (MadeIn past) machine.store.size) :
    Machine.Founded past
      { machine with store := machine.store.define target name value isMutable } := by
  refine ⟨founded.fits.define target name given isMutable, ?_⟩
  rw [Store.size_define]
  exact founded.climbs

theorem Founded.addGlobals (founded : machine.Founded past) :
    machine.addGlobals.2.Founded past := by
  refine ⟨founded.fits.addGlobals, ?_⟩
  rw [machine.grows_addGlobals.size, ← List.append_nil past]
  exact founded.climbs.append (.nil (Nat.le_succ _))

/-- The instances of reachable states come from their pasts. -/
theorem Reached.founded (reached : Reached past machine) : machine.Founded past := by
  induction reached with
  | start input =>
    have nothing : Machine.Founded [] ⟨.empty, 1, 0, none, input, ⟨"", none⟩, []⟩ := by
      refine ⟨⟨Store.all_empty, ?_, Store.ordered_empty⟩, .nil (Nat.le_refl _)⟩
      rintro value ⟨⟩
    exact nothing.addGlobals
  | during _ host tells split settled founded => exact founded_moment founded tells split settled
  | after _ host tells founded =>
    have tracked := tells.tracked founded
    exact ⟨tracked.fits, founded.climbs.append tracked.climbs⟩
  | globals _ founded => exact founded.addGlobals
  | defined _ target name isMutable given founded =>
    exact founded.define target name isMutable given
  | aside _ store exported founded =>
    refine ⟨founded.fits.congr store (exported ▸ founded.fits.exported), ?_⟩
    rw [store]
    exact founded.climbs

end Machine

/-! ## Sessions -/

/-- The state behind a program that was run in one of the contexts. -/
theorem Machine.Reached.runIn {past : List Instant} {session : Session}
    (reached : session.machine.Reached past) (host : Host) {id : ContextId}
    (present : id < session.machine.store.size) (name text : String) :
    ∃ further, (session.runIn host id name text).2.machine.Reached further ∧
      session.machine.store.size ≤ (session.runIn host id name text).2.machine.store.size := by
  let start := { session.machine with serial := session.machine.serial + 1 }
  have begun : start.Reached past := reached.aside rfl rfl
  unfold Session.runIn Eval.runText
  dsimp only
  cases Eval.read ⟨session.machine.serial, name, text⟩ with
  | error error => exact ⟨past, begun, Nat.le_refl _⟩
  | ok root =>
    have tells : start.Tells past host _ := .evaluation root present
    have later := begun.after host tells
    have grown := (tells.tracked begun.founded).size
    dsimp only
    rw [Eval.machine_resultOfScript]
    rw [Chronicle.ending_evaluate] at later grown
    exact ⟨_, later, grown⟩

/-- The states between the programs of a session are reachable. -/
theorem Session.Programmed.reached {session : Session} (programmed : session.Programmed) :
    ∃ past, session.machine.Reached past ∧ session.globals < session.machine.store.size := by
  induction programmed with
  | start input =>
    have size := Machine.grows_addGlobals ⟨.empty, 1, 0, none, input, ⟨"", none⟩, []⟩
    exact ⟨[], .start input, size.size ▸ Nat.zero_lt_one⟩
  | run host name text _ ih =>
    obtain ⟨past, reached, present⟩ := ih
    obtain ⟨further, later, grown⟩ := reached.runIn host present name text
    exact ⟨further, later, Nat.lt_of_lt_of_le present grown⟩
  | @runFresh session host name text _ ih =>
    obtain ⟨past, reached, present⟩ := ih
    have size : session.machine.addGlobals.2.store.size = session.machine.store.size + 1 :=
      session.machine.grows_addGlobals.size
    have fresh : session.machine.store.size < session.machine.addGlobals.2.store.size :=
      Nat.lt_of_lt_of_eq (Nat.lt_succ_self _) size.symm
    obtain ⟨further, later, grown⟩ := @Machine.Reached.runIn past
      ⟨session.machine.addGlobals.2, session.globals⟩ reached.globals host _ fresh name text
    exact ⟨further, later, Nat.lt_of_lt_of_le (Nat.lt_trans present fresh) grown⟩
  | freshId _ ih =>
    obtain ⟨past, reached, present⟩ := ih
    exact ⟨past, reached.aside rfl rfl, present⟩
  | breakOutput _ _ ih =>
    obtain ⟨past, reached, present⟩ := ih
    exact ⟨past, reached.aside rfl rfl, present⟩
  | takeOutput _ ih =>
    obtain ⟨past, reached, present⟩ := ih
    exact ⟨past, reached.aside rfl rfl, present⟩

end Quill
