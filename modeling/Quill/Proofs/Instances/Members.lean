import Quill.Proofs.Instances.Reached
import Quill.Proofs.Scoping.Parameters

/-!
# Assignments to members

Values are copied, but copies of an instance have the same members. An assignment to a member binds
one name in the context of one instance. Whatever has come from the same evaluation of `new` shows
the new value, and so do the functions that look the name up there. All other instances keep their
members, whether they come from the same template or not.
-/

namespace Quill

/-! ## Reading members -/

namespace Eval

variable {host : Host} {room : Nat} {object name : String} {span : Span} {id : ContextId}
  {machine after : Machine}

/-- What is found by a name as an instance is what the name stands for. -/
theorem instanceNamed_eq_ok {made : Object}
    (found : instanceNamed name span id machine = .ok made after) :
    after = machine ∧ machine.store.lookup id name = some (.object made) ∧
      made.isInstance = true := by
  obtain ⟨_, _, looked, ended⟩ := of_bind_ok found
  cases looked
  cases bound : machine.store.lookup id name with
  | none =>
    rw [bound] at ended
    cases ended
  | some value =>
    rw [bound] at ended
    cases value with
    | object object =>
      dsimp only at ended
      split at ended
      case isTrue instances =>
        cases ended
        exact ⟨rfl, rfl, instances⟩
      case isFalse => cases ended
    | _ => cases ended

theorem instanceNamed_of_lookup {made : Object}
    (named : machine.store.lookup id name = some (.object made))
    (instances : made.isInstance = true) :
    instanceNamed name span id machine = .ok made machine := by
  have looked : lookup id name machine = .ok (some (.object made)) machine := by
    rw [lookup, named]
  rw [instanceNamed, bind_ok looked]
  dsimp only
  rw [if_pos instances]
  rfl

/-- A member of an instance has the value that the context of the instance binds it to. -/
theorem result?_member {made : Object}
    (named : machine.store.lookup id object = some (.object made))
    (instances : made.isInstance = true) :
    Outcome.result? (evaluate host room (.member object name span) id machine) =
      machine.store.lookupLocal made.context name := by
  have found : lookupLocal made.context name machine =
      .ok (machine.store.lookupLocal made.context name) machine := rfl
  rw [evaluate_eq, evaluateIn, readMember, bind_ok (instanceNamed_of_lookup named instances),
    bind_ok found]
  cases machine.store.lookupLocal made.context name with
  | some value => rfl
  | none => rfl

/-- An assignment to a member looks for the instance before the expression is evaluated, and binds
the name in the context of the instance afterwards. -/
theorem evaluate_assignMember_eq_ok {expr : Located} {value : Value}
    (evaluated : evaluate host room (.assignMember object name expr span) id machine =
      .ok value after) :
    ∃ target between, machine.store.lookup id object = some (.object target) ∧
      target.isInstance = true ∧ evaluate host room expr id machine = .ok value between ∧
      after = { between with
        store := between.store.define target.context name value true } := by
  rw [evaluate_eq, evaluateIn] at evaluated
  obtain ⟨target, start, found, right⟩ := of_bind_ok evaluated
  obtain ⟨rfl, named, instances⟩ := instanceNamed_eq_ok found
  obtain ⟨result, between, given, rest⟩ := of_bind_ok right
  obtain ⟨_, last, assigned, ended⟩ := of_bind_ok rest
  cases ended
  refine ⟨target, between, named, instances, (evaluate_eq host room expr id).symm ▸ given, ?_⟩
  unfold assign at assigned
  split at assigned
  · cases assigned
  · cases assigned
    rfl

end Eval

/-! ## Stores -/

/-- Two stores differ in what a context binds a name to, and in nothing else. Afterwards the name
has the given value, which may be replaced again. -/
structure Store.Rebinds (before : Store) (target : ContextId) (name : String) (value : Value)
    (after : Store) : Prop where
  /-- There are as many contexts. -/
  size : after.size = before.size
  /-- The other contexts are what they were. -/
  others : ∀ id, id ≠ target → after.context? id = before.context? id
  /-- The context is what it was except for its table, which binds the other names as before. -/
  own : ∃ context table, before.context? target = some context ∧
    after.context? target = some { context with table := table } ∧
    table.find? name = some ⟨value, true⟩ ∧
    ∀ other, other ≠ name → table.find? other = context.table.find? other

theorem Store.rebinds_define {store : Store} {target : ContextId} (present : target < store.size)
    (name : String) (value : Value) :
    Store.Rebinds store target name value (store.define target name value true) where
  size := size_define store target name value true
  others id different := by
    rw [define, context?_updateTable]
    cases store.context? id with
    | none => rfl
    | some context => exact congrArg some (if_neg different.symm)
  own := by
    have found : store.context? target = some store.contexts[target] :=
      Array.getElem?_eq_getElem present
    refine ⟨store.contexts[target], store.contexts[target].table.define name value true, found, ?_,
      ?_, fun other different => ?_⟩
    · rw [define, context?_updateTable, found, Option.map_some, if_pos rfl]
    · rw [Table.find?_define, if_pos rfl]
    · rw [Table.find?_define, if_neg different]

/-- A context with a scope link is there, and so is the one at the end of no links. -/
theorem Store.LeadsTo.lt_size {store : Store} {id root : ContextId} {passed : List ContextId}
    (leads : store.LeadsTo id passed root) (present : root < store.size) : id < store.size := by
  cases leads with
  | here => exact present
  | outwards link =>
    obtain ⟨context, found, -⟩ := Option.bind_eq_some_iff.mp link
    exact lt_size_of_context?_eq_some found

/-- What is found by a name is found from a context that is there. -/
theorem Store.lt_size_of_lookup {store : Store} {id : ContextId} {name : String} {value : Value}
    (found : store.lookup id name = some value) : id < store.size := by
  rw [lookup, lookupWithin] at found
  cases there : store.context? id with
  | none =>
    rw [there] at found
    cases found
  | some context => exact lt_size_of_context?_eq_some there

/-! ## Instances -/

namespace Machine

/-- Whether an instance is found somewhere in a state: in some context a name has it for its value,
or has a list with it, or the running script exports such a value. -/
def Holds (machine : Machine) (made : Object) : Prop :=
  made.isInstance = true ∧
    ((∃ id name value, machine.store.lookup id name = some value ∧ value.Holds (.object made)) ∨
    ∃ value, machine.exported = some value ∧ value.Holds (.object made))

/-- The member of the instance has the value, if any, and whoever names the instance reads it. -/
def Reads (machine : Machine) (made : Object) (member : String) (value : Option Value) : Prop :=
  machine.store.lookupLocal made.context member = value ∧
    ∀ host room object span id, machine.store.lookup id object = some (.object made) →
      Outcome.result? (Eval.evaluate host room (.member object member span) id machine) = value

/-- What an assignment to a member has changed, if the expression on its right side was evaluated
until the state `before`. The past is that of the state behind the assignment, and the index is that
of the evaluation of `new` that the instance has come from. -/
structure Reassigned (past : List Instant) (index : Nat) (target : Object) (name : String)
    (value : Value) (before after : Machine) : Prop where
  /-- Apart from the store, nothing has changed. -/
  same : after = { before with store := after.store }
  /-- In the store, only the name has changed in the context of the instance. -/
  rebinds : before.store.Rebinds target.context name value after.store
  /-- Whatever comes from the same evaluation of `new` has the new value. -/
  shared : ∀ made, MadeAt past index made → after.Reads made name (some value)
  /-- The name has the new value wherever it is looked up in the context of the instance. -/
  seen : ∀ id passed, after.store.LeadsTo id passed target.context →
    (∀ inner ∈ passed, after.store.lookupLocal inner name = none) →
      after.store.lookup id name = some value
  /-- A function that was defined there finds the new value when its body begins, unless the name is
  one of its parameters. -/
  resolved : ∀ (function : UserFunction) passed,
    after.store.LeadsTo function.closure passed target.context →
    (∀ inner ∈ passed, after.store.lookupLocal inner name = none) → name ∉ function.parameters →
      ∀ arguments span caller,
        (after.calling function arguments span caller).store.lookup after.store.size name =
          some value
  /-- What comes from another evaluation of `new` has the members that it had before. -/
  apart : ∀ other made, other ≠ index → MadeAt past other made →
    ∀ member, after.Reads made member (before.store.lookupLocal made.context member)

end Machine

variable {past : List Instant} {machine : Machine}

/-- What was made in the past was made by one of the evaluations there. -/
theorem MadeIn.madeAt {made : Object} (before : MadeIn past made) :
    ∃ index, MadeAt past index made := by
  obtain ⟨instant, member, makes⟩ := before
  obtain ⟨index, found⟩ := List.getElem?_of_mem member
  exact ⟨index, instant, found, makes⟩

theorem MadeAt.isInstance {index : Nat} {made : Object} (before : MadeAt past index made) :
    made.isInstance = true := by
  obtain ⟨instant, -, makes⟩ := before
  exact makes.begins.2.1

theorem MadeAt.append {index : Nat} {made : Object} (before : MadeAt past index made)
    (later : List Instant) : MadeAt (past ++ later) index made := by
  obtain ⟨instant, found, makes⟩ := before
  obtain ⟨present, -⟩ := List.getElem?_eq_some_iff.mp found
  exact ⟨instant, (List.getElem?_append_left present).trans found, makes⟩

/-- An evaluation of `new` that begins earlier makes its instance in an older context. -/
theorem Climbs.context_lt {low high : Nat} (climbs : Climbs low past high) {earlier later : Nat}
    {one other : Object} (first : MadeAt past earlier one) (second : MadeAt past later other)
    (before : earlier < later) : one.context < other.context := by
  obtain ⟨start, found, makes⟩ := first
  obtain ⟨stop, also, makesAlso⟩ := second
  obtain ⟨present, rfl⟩ := List.getElem?_eq_some_iff.mp found
  obtain ⟨presentAlso, rfl⟩ := List.getElem?_eq_some_iff.mp also
  have ordered :=
    List.pairwise_iff_getElem.mp climbs.ordered earlier later present presentAlso before
  rw [makes.begins.2.2, makesAlso.begins.2.2]
  obtain ⟨template, happened⟩ := makesAlso.begins.1.1
  exact ordered.2 makes.begins.1 fun opened => nomatch happened.symm.trans opened

namespace Machine

/-- Every instance in a state comes from an evaluation of `new`. -/
theorem Founded.madeAt (founded : machine.Founded past) {made : Object}
    (held : machine.Holds made) : ∃ index, MadeAt past index made := by
  obtain ⟨instances, ⟨id, name, value, bound, part⟩ | ⟨value, exports, part⟩⟩ := held
  · have fits := founded.fits.store.lookup bound
    exact (fits _ part instances).1.madeAt
  · have fits := founded.fits.exported value exports
    exact (fits _ part instances).1.madeAt

/-- Two instances have the same context exactly if they come from the same evaluation of `new`. -/
theorem Founded.context_eq_iff (founded : machine.Founded past) {index otherIndex : Nat}
    {made other : Object} (one : MadeAt past index made) (two : MadeAt past otherIndex other) :
    made.context = other.context ↔ index = otherIndex := by
  constructor
  · intro same
    rcases Nat.lt_trichotomy index otherIndex with before | equal | after
    · exact absurd same (Nat.ne_of_lt (founded.climbs.context_lt one two before))
    · exact equal
    · exact absurd same (Nat.ne_of_gt (founded.climbs.context_lt two one after))
  · rintro rfl
    obtain ⟨instant, found, makes⟩ := one
    obtain ⟨same, foundAlso, makesAlso⟩ := two
    obtain rfl := Option.some.inj (found.symm.trans foundAlso)
    rw [makes.begins.2.2, makesAlso.begins.2.2]

/-- What binds a member of an instance in a state. -/
theorem reads_of_madeAt {index : Nat} {made : Object} (before : MadeAt past index made)
    {member : String} {value : Option Value}
    (bound : machine.store.lookupLocal made.context member = value) :
    machine.Reads made member value :=
  ⟨bound, fun _ _ _ _ _ named => (Eval.result?_member named before.isInstance).trans bound⟩

/-- An assignment to a member of an instance changes one binding of it. -/
theorem Founded.reassigned {before : Machine} {target : Object} {name : String} {value : Value}
    (founded : Machine.Founded past
      { before with store := before.store.define target.context name value true })
    (present : target.context < before.store.size) {index : Nat} (made : MadeAt past index target) :
    Reassigned past index target name value before
      { before with store := before.store.define target.context name value true } := by
  have reads (id : ContextId) (member : String) :=
    Store.lookupLocal_define_any before.store target.context id name member value true present
  have bound := (reads target.context name).trans (if_pos ⟨rfl, rfl⟩)
  refine ⟨rfl, Store.rebinds_define present name value, ?_, ?_, ?_, ?_⟩
  · intro other alike
    have same := (founded.context_eq_iff alike made).mpr rfl
    exact reads_of_madeAt alike (same ▸ bound)
  · exact fun id passed leads free => leads.lookup free bound
  · intro function passed leads free unbound arguments span caller
    have defined := leads.lt_size (Nat.lt_of_lt_of_eq present (Store.size_define _ _ _ _ _).symm)
    rw [Machine.lookup_calling founded.fits.ordered defined unbound]
    exact leads.lookup free bound
  · intro other one different alike member
    have apart : one.context ≠ target.context := fun same =>
      different ((founded.context_eq_iff alike made).mp same)
    exact reads_of_madeAt alike ((reads one.context member).trans (if_neg fun both => apart both.1))

end Machine

/-- In every state that there is, instances come from evaluations of `new`, and two of them have
their members in the same context exactly if they come from the same one. The instances that an
evaluation has for its value come from evaluations of `new` as well. An assignment to a member binds
one name in the context of the instance that was meant before the right side was evaluated: all that
comes from the same evaluation of `new` shows the new value, functions that were defined there find
it, and all that comes from another one keeps its members. -/
theorem assignMember_changes_one_instance (reached : machine.Reached past) :
    (∀ made, machine.Holds made → ∃ index, MadeAt past index made) ∧
    (∀ index otherIndex made other, MadeAt past index made → MadeAt past otherIndex other →
      (made.context = other.context ↔ index = otherIndex)) ∧
    (∀ host told, machine.Tells past host told → ∀ value after, told.ending = .ok value after →
      ∀ made, value.Holds (.object made) → made.isInstance = true →
        ∃ index, MadeAt (past ++ told.log.map (Instant.mk host)) index made) ∧
    ∀ host object name expr span id value after,
      let room := host.config.maxCallDepth - machine.depth
      let told := Chronicle.evaluate host room (.assignMember object name expr span) id machine
      let further := past ++ told.log.map (Instant.mk host)
      Eval.evaluate host room (.assignMember object name expr span) id machine = .ok value after →
        after.Reached further ∧
        ∃ target before index, machine.store.lookup id object = some (.object target) ∧
          MadeAt past index target ∧ Eval.evaluate host room expr id machine = .ok value before ∧
          Machine.Reassigned further index target name value before after := by
  have founded := reached.founded
  refine ⟨fun _ => founded.madeAt, fun _ _ _ _ => founded.context_eq_iff, ?_, ?_⟩
  · intro host told tells value after ended made part instances
    have fits := (tells.tracked founded).ends
    rw [ended] at fits
    exact (fits _ part instances).1.madeAt
  · intro host object name expr span id value after room told further evaluated
    obtain ⟨target, before, named, instances, given, rfl⟩ :=
      Eval.evaluate_assignMember_eq_ok evaluated
    have inside := Store.lt_size_of_lookup named
    have tells : machine.Tells past host told := .evaluation _ inside
    have later := reached.after host tells
    rw [Chronicle.ending_evaluate, evaluated] at later
    obtain ⟨known, present⟩ := founded.fits.store.lookup named _ (.here _) instances
    obtain ⟨index, made⟩ := known.madeAt
    have grown : machine.store.size ≤ before.store.size := by
      have tells : machine.Tells past host _ := .evaluation expr inside
      have size := (tells.tracked founded).size
      rw [Chronicle.ending_evaluate, given] at size
      exact size
    refine ⟨later, target, before, index, named, made, given, ?_⟩
    exact later.founded.reassigned (Nat.lt_of_lt_of_le present grown) (made.append _)

/-- Two instances come from one template. An assignment to a member of the first one leaves the
second one alone. -/
theorem assignMember_changes_one_instance_template :
    let host : Host := ⟨{}, fun _ => .ok [], 0⟩
    let text := "object P\n  var m = 1\nend\nvar a = new P\nvar c = new P\na.m = 2"
    let machine := ((Session.start []).run host "main" text).2.machine
    let span : Span := ⟨⟨1, "main", "a.m = 5"⟩, ⟨0, 1, 1⟩, ⟨7, 1, 8⟩⟩
    let room := host.config.maxCallDepth - machine.depth
    let five : Located := .literal (.int 5) span
    ∃ past after further target before index other otherIndex,
      machine.Reached past ∧
      Eval.evaluate host room (.assignMember "a" "m" five span) 0 machine = .ok (.int 5) after ∧
      machine.store.lookup 0 "a" = some (.object target) ∧ MadeAt further index target ∧
      machine.store.lookup 0 "c" = some (.object other) ∧ MadeAt further otherIndex other ∧
      otherIndex ≠ index ∧ after.Reached further ∧
      Machine.Reassigned further index target "m" (.int 5) before after ∧
      after.store.lookupLocal other.context "m" = before.store.lookupLocal other.context "m" := by
  intro host text machine span room five
  obtain ⟨past, reached, -⟩ := ((Session.Programmed.start []).run host "main" text).reached
  change machine.Reached past at reached
  obtain ⟨-, same, -, assigned⟩ := assignMember_changes_one_instance reached
  let assign (object : String) :=
    Eval.evaluate host room (.assignMember object "m" five span) 0 machine
  have succeeds (object : String)
      (five : (Outcome.result? (assign object)).bind Value.int? = some 5) :
      ∃ after, assign object = .ok (.int 5) after := by
    obtain ⟨value, result, number⟩ := Option.bind_eq_some_iff.mp five
    obtain rfl := Value.eq_int_of_int? number
    exact Outcome.exists_of_result? result
  obtain ⟨after, evaluated⟩ := succeeds "a" (by decide +kernel)
  obtain ⟨elsewhere, evaluatedAlso⟩ := succeeds "c" (by decide +kernel)
  obtain ⟨later, target, before, index, named, made, -, reassigned⟩ :=
    assigned host "a" "m" five span 0 (.int 5) after evaluated
  obtain ⟨-, other, -, otherIndex, namedAlso, madeAlso, -, -⟩ :=
    assigned host "c" "m" five span 0 (.int 5) elsewhere evaluatedAlso
  -- The members have different values, so they are not in one context.
  let read (object : String) :=
    Outcome.result? (Eval.evaluate host room (.member object "m" span) 0 machine)
  have two : read "a" = machine.store.lookupLocal target.context "m" :=
    Eval.result?_member named made.isInstance
  have one : read "c" = machine.store.lookupLocal other.context "m" :=
    Eval.result?_member namedAlso madeAlso.isInstance
  have unequal : (read "a").bind Value.int? ≠ (read "c").bind Value.int? := by decide +kernel
  have different : otherIndex ≠ index := by
    rintro rfl
    rw [two, one, (same otherIndex otherIndex target other made madeAlso).mpr rfl] at unequal
    exact unequal rfl
  refine ⟨past, after, _, target, before, index, other, otherIndex, reached, evaluated, named,
    made.append _, namedAlso, madeAlso.append _, different, later, reassigned, ?_⟩
  exact (reassigned.apart otherIndex other different (madeAlso.append _) "m").1

end Quill
