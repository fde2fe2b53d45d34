import Quill.Proofs.Chronicle.Program
import Quill.Proofs.Instances.References

/-!
# Where instances come from

An instance is made by an evaluation of `new`, and the chronicle of a run has a moment at which this
evaluation begins. The context of the instance is added right after it. So the moments at which
instances begin have different numbers of contexts in their states, and this number tells from which
of the evaluations an instance comes.
-/

namespace Quill

namespace Eval

variable {Result Other : Type} {host : Host} {room : Nat} {name : String} {span : Span}
  {id : ContextId} {machine after : Machine}

/-! ## Steps that end well -/

/-- What comes after a step that has ended well starts with its result. -/
theorem bind_ok {first : Eval Other} {middle : Other} {between : Machine}
    (began : first machine = .ok middle between) (next : Other → Eval Result) :
    (first >>= next) machine = next middle between := by
  change EStateM.bind first next machine = _
  unfold EStateM.bind
  rw [began]

/-- Two steps only end well if the first one does and the second one does after it. -/
theorem of_bind_ok {first : Eval Other} {next : Other → Eval Result} {result : Result}
    (ended : (first >>= next) machine = .ok result after) :
    ∃ middle between, first machine = .ok middle between ∧
      next middle between = .ok result after := by
  cases began : first machine with
  | ok middle between =>
    rw [bind_ok began] at ended
    exact ⟨middle, between, rfl, ended⟩
  | error signal between =>
    change EStateM.bind first next machine = _ at ended
    unfold EStateM.bind at ended
    rw [began] at ended
    cases ended

/-- What is found by a name as an object is what the name stands for. -/
theorem objectNamed_eq_ok {template : Object}
    (found : objectNamed name span id machine = .ok template after) :
    after = machine ∧ machine.store.lookup id name = some (.object template) := by
  obtain ⟨_, _, looked, ended⟩ := of_bind_ok found
  cases looked
  cases bound : machine.store.lookup id name with
  | none =>
    rw [bound] at ended
    cases ended
  | some value =>
    rw [bound] at ended
    cases value with
    | object object =>
      cases ended
      exact ⟨rfl, rfl⟩
    | _ => cases ended

/-- What an evaluation of `new` makes is an instance, in the first context that was not there. -/
theorem evaluate_instantiate_eq_ok {made : Object}
    (evaluated :
      evaluate host room (.instantiate name span) id machine = .ok (.object made) after) :
    0 < room ∧ made.isInstance = true ∧ made.context = machine.store.size := by
  rw [evaluate_eq, evaluateIn] at evaluated
  obtain ⟨template, between, found, ended⟩ := of_bind_ok evaluated
  obtain ⟨rfl, -⟩ := objectNamed_eq_ok found
  cases room with
  | zero => cases ended
  | succ room =>
    let context : Context := ⟨"<object " ++ name ++ ">", some ⟨id, span⟩, some id, .empty⟩
    let start : Machine := { between with
      depth := between.depth + 1
      store := (between.store.add context).2 }
    change leave (instanceOfMembers template span between.store.size
      (evaluate host room template.body between.store.size start)) = _ at ended
    cases body : evaluate host room template.body between.store.size start with
    | error signal last =>
      rw [body] at ended
      cases ended
    | ok value last =>
      rw [body] at ended
      cases ended
      exact ⟨Nat.succ_pos room, rfl, rfl⟩

end Eval

/-! ## Instants -/

/-- A moment in the chronicle of a run, with the host of the run. -/
structure Instant where
  /-- The host. -/
  host : Host
  /-- The moment. -/
  moment : Moment

namespace Instant

/-- How many contexts there are at the instant. -/
def size (instant : Instant) : Nat :=
  instant.moment.machine.store.size

/-- Whether an evaluation of `new` begins, with room for its activation. -/
def Begins (instant : Instant) : Prop :=
  (∃ template, instant.moment.happening = .instantiated template) ∧
    instant.moment.machine.depth < instant.host.config.maxCallDepth

/-- Nothing else that happens is a beginning. -/
theorem not_begins {happening : Happening} (idle : ∀ template, happening ≠ .instantiated template)
    (host : Host) (machine : Machine) : ¬Begins ⟨host, happening.at machine⟩ :=
  fun begins => begins.1.elim idle

/-- The evaluation of `new` that begins at the instant has the instance for its value. -/
def Makes (instant : Instant) (made : Object) : Prop :=
  ∃ template name span id after,
    instant.moment.happening = .instantiated template ∧
      instant.moment.machine.store.lookup id name = some (.object template) ∧
      Eval.evaluate instant.host
          (instant.host.config.maxCallDepth - instant.moment.machine.depth)
          (.instantiate name span) id instant.moment.machine = .ok (.object made) after

/-- An evaluation of `new` that has a value has had room for its activation, and the context of the
instance is the first one that was not there yet. -/
theorem Makes.begins {instant : Instant} {made : Object} (makes : instant.Makes made) :
    instant.Begins ∧ made.isInstance = true ∧ made.context = instant.size := by
  obtain ⟨template, name, span, id, after, happened, -, evaluated⟩ := makes
  obtain ⟨room, instances, context⟩ := Eval.evaluate_instantiate_eq_ok evaluated
  exact ⟨⟨⟨template, happened⟩, Nat.lt_of_sub_pos room⟩, instances, context⟩

end Instant

/-- The instants lie between states with so many contexts, the number of contexts never shrinks, and
it grows wherever an evaluation of `new` begins. -/
structure Climbs (low : Nat) (past : List Instant) (high : Nat) : Prop where
  /-- There are at least as many contexts in the end. -/
  le : low ≤ high
  /-- There are at least as many as in the beginning, and no more than in the end. -/
  bounds : ∀ instant ∈ past, low ≤ instant.size ∧ instant.size ≤ high
  /-- The evaluations of `new` have added contexts until the end. -/
  begun : ∀ instant ∈ past, instant.Begins → instant.size < high
  /-- Where an evaluation of `new` begins, it adds a context as soon as its activation is open. -/
  ordered : past.Pairwise fun one other => one.size ≤ other.size ∧
    (one.Begins → other.moment.happening ≠ .opened → one.size < other.size)

namespace Climbs

variable {low between high : Nat} {past later : List Instant} {instant : Instant}

theorem nil (le : low ≤ high) : Climbs low [] high where
  le := le
  bounds := by simp
  begun := by simp
  ordered := .nil

theorem append (first : Climbs low past between) (second : Climbs between later high) :
    Climbs low (past ++ later) high where
  le := Nat.le_trans first.le second.le
  bounds := by
    refine List.forall_mem_append.mpr ⟨fun one member => ?_, fun other member => ?_⟩
    · exact (first.bounds one member).imp_right (Nat.le_trans · second.le)
    · exact (second.bounds other member).imp_left (Nat.le_trans first.le)
  begun := by
    refine List.forall_mem_append.mpr ⟨fun one member begins => ?_, second.begun⟩
    exact Nat.lt_of_lt_of_le (first.begun one member begins) second.le
  ordered := by
    refine List.pairwise_append.mpr ⟨first.ordered, second.ordered, ?_⟩
    intro one earlier other after
    have above := (second.bounds other after).1
    refine ⟨Nat.le_trans (first.bounds one earlier).2 above, fun begins _ => ?_⟩
    exact Nat.lt_of_lt_of_le (first.begun one earlier begins) above

/-- An instant at which nothing begins. -/
theorem single (low_le : low ≤ instant.size) (le_high : instant.size ≤ high)
    (idle : ¬instant.Begins) : Climbs low [instant] high where
  le := Nat.le_trans low_le le_high
  bounds := List.forall_mem_singleton.mpr ⟨low_le, le_high⟩
  begun := List.forall_mem_singleton.mpr fun begins => absurd begins idle
  ordered := List.pairwise_singleton _ _

theorem cons (low_le : low ≤ instant.size) (idle : ¬instant.Begins)
    (climbs : Climbs instant.size past high) : Climbs low (instant :: past) high :=
  (single low_le (Nat.le_refl _) idle).append climbs

/-- An evaluation of `new` begins and an activation is opened for it, before the context of the
instance is added. -/
theorem beginning {opened : Instant} (happened : opened.moment.happening = .opened)
    (same : opened.size = instant.size) (climbs : Climbs (instant.size + 1) past high) :
    Climbs instant.size (instant :: opened :: past) high where
  le := Nat.le_of_succ_le climbs.le
  bounds := by
    refine List.forall_mem_cons.mpr ⟨⟨Nat.le_refl _, Nat.le_of_succ_le climbs.le⟩,
      List.forall_mem_cons.mpr ⟨?_, fun other member => ?_⟩⟩
    · exact ⟨Nat.le_of_eq same.symm, same ▸ Nat.le_of_succ_le climbs.le⟩
    · exact (climbs.bounds other member).imp_left Nat.le_of_succ_le
  begun := by
    refine List.forall_mem_cons.mpr
      ⟨fun _ => climbs.le, List.forall_mem_cons.mpr ⟨?_, climbs.begun⟩⟩
    exact fun _ => same ▸ climbs.le
  ordered := by
    refine List.pairwise_cons.mpr ⟨List.forall_mem_cons.mpr ⟨?_, fun other member => ?_⟩,
      List.pairwise_cons.mpr ⟨fun other member => ?_, climbs.ordered⟩⟩
    · exact ⟨Nat.le_of_eq same.symm, fun _ later => absurd happened later⟩
    · have above := (climbs.bounds other member).1
      exact ⟨Nat.le_of_succ_le above, fun _ _ => above⟩
    · have above := (climbs.bounds other member).1
      rw [same]
      exact ⟨Nat.le_of_succ_le above, fun _ _ => above⟩

/-- It makes no difference whether what happens is a part of an included script. -/
theorem within {host : Host} {log : List Moment}
    (climbs : Climbs low (log.map (Instant.mk host)) high) (root : ContextId) :
    Climbs low ((log.map (Moment.within root)).map (Instant.mk host)) high where
  le := climbs.le
  bounds := List.forall_mem_map.mpr (List.forall_mem_map.mpr (List.forall_mem_map.mp climbs.bounds))
  begun := List.forall_mem_map.mpr (List.forall_mem_map.mpr (List.forall_mem_map.mp climbs.begun))
  ordered := by
    have ordered := climbs.ordered
    rw [List.pairwise_map] at ordered ⊢
    rw [List.pairwise_map]
    exact ordered

end Climbs

end Quill
