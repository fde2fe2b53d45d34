import Quill.Proofs.Chronicle.Behaviour
import Quill.Proofs.Chronicle.Evaluation

/-!
# What calls write

A call writes to the tables of the contexts that it adds: the one of the function, those of the
functions that are called in it, and so on. To the tables that existed before it writes only where
the program says so in other words than by an assignment to a variable: it assigns to a member of an
instance, or it includes a script in the outermost context of a caller.

The tables after a call are therefore the tables before with these bindings in them, made one after
the other in the order in which they were made in the call.
-/

namespace Quill

/-- What a table becomes when something happens, if it is the one of the context `id`. -/
def Happening.apply (id : ContextId) (happening : Happening) (table : Table) : Table :=
  match happening with
  | .bound target name value _ => if target = id then table.define name value true else table
  | _ => table

/-- What the table of the context `id` becomes in the course of some moments. -/
def replay (id : ContextId) (log : List Moment) (table : Table) : Table :=
  log.foldl (fun table moment => moment.happening.apply id table) table

/-- Whether a name is bound elsewhere than in the context of a call: in the table of an instance by
an assignment to its member, or at the outermost level of a script, in the context that the script
is included in. -/
def Moment.outward (moment : Moment) : Bool :=
  match moment.happening with
  | .bound target _ _ (.member object) => object.isInstance && object.context = target
  | .bound target _ _ .direct => moment.included.getLast? = some target
  | _ => false

variable {host : Host} {admitted : Fault → Prop} {own : Option ContextId} {machine after : Machine}
  {log : List Moment}

theorem replay_append (id : ContextId) (log later : List Moment) (table : Table) :
    replay id (log ++ later) table = replay id later (replay id log table) :=
  List.foldl_append

theorem replay_map_within (id root : ContextId) (log : List Moment) (table : Table) :
    replay id (log.map (Moment.within root)) table = replay id log table :=
  List.foldl_map

theorem Happening.Asks.apply {happening : Happening} (asks : happening.Asks) (id : ContextId)
    (table : Table) : happening.apply id table = table := by
  cases happening with
  | bound => exact asks.elim
  | _ => rfl

theorem Happening.Quiet.apply {happening : Happening} (quiet : happening.Quiet admitted)
    (id : ContextId) (table : Table) : happening.apply id table = table := by
  cases happening with
  | bound => exact quiet.elim
  | _ => rfl

/-- Moments that bind nothing in a table may be left out. -/
theorem replay_filter (id : ContextId) (log : List Moment) (table : Table) (kept : Moment → Bool)
    (others : ∀ moment ∈ log, kept moment = false →
      ∀ table, moment.happening.apply id table = table) :
    replay id (log.filter kept) table = replay id log table := by
  induction log generalizing table with
  | nil => rfl
  | cons moment rest ih =>
    obtain ⟨here, later⟩ := List.forall_mem_cons.mp others
    cases keeps : kept moment with
    | true =>
      rw [List.filter_cons_of_pos keeps]
      exact ih _ later
    | false =>
      rw [List.filter_cons_of_neg (by simp [keeps]), ih table later]
      exact congrArg (replay id rest) (here keeps table).symm

namespace Course

/-- No context is ever removed. -/
theorem size_le (course : Course host admitted own machine log after) :
    machine.store.size ≤ after.store.size := by
  induction course with
  | still store => exact Nat.le_of_eq (congrArg Store.size store.symm)
  | andThen _ _ earlier later => exact Nat.le_trans earlier later
  | quiet _ store => exact Nat.le_of_eq (congrArg Store.size store.symm)
  | bound machine id name value => exact Nat.le_of_eq (Store.size_define _ _ _ _ _).symm
  | boundMember machine name value => exact Nat.le_of_eq (Store.size_define _ _ _ _ _).symm
  | miscounted => exact Nat.le_refl _
  | refused => exact Nat.le_refl _
  | activated _ _ _ inner => exact inner
  | entered grows _ _ inner => exact Nat.le_trans (by simp [grows.size]) inner
  | included _ inner => exact inner

/-- Every table that existed before has become what the bindings made of it that have been told. -/
theorem table_eq (course : Course host admitted own machine log after) {id : ContextId}
    (present : id < machine.store.size) :
    after.store.table id = replay id log (machine.store.table id) := by
  have bindingTable (machine : Machine) (target : ContextId) (name : String) (value : Value)
      (present : id < machine.store.size) :
      (machine.binding target name value).store.table id =
        if target = id then (machine.store.table id).define name value true
        else machine.store.table id := by
    rw [Machine.binding, Store.table_define]
    simp only [present, and_true]
  induction course with
  | still store =>
    rw [store]
    rfl
  | andThen first second earlier later =>
    rw [replay_append, ← earlier present]
    exact later (Nat.lt_of_lt_of_le present first.size_le)
  | quiet quiet store =>
    rw [store]
    exact (quiet.apply id _).symm
  | bound machine target name value => exact bindingTable machine target name value present
  | boundMember machine name value => exact bindingTable machine _ name value present
  | miscounted => rfl
  | refused asks => exact (asks.apply id _).symm
  | @activated own machine after happening log asks room inside inner =>
    rw [replay_append]
    change after.store.table id = replay id log (happening.apply id (machine.store.table id))
    rw [asks.apply]
    exact inner present
  | entered grows depth inside inner =>
    rw [← grows.table id present]
    exact inner (by rw [grows.size]; exact Nat.lt_succ_of_lt present)
  | included inside inner =>
    rw [replay_map_within]
    exact inner present

end Course

/-- Where a name may be bound, if one is, when there were `size` contexts in the beginning: in a
context that has been added since, elsewhere as the moment tells, or in the context `own`. -/
def Moment.Placed (size : Nat) (own : Option ContextId) (moment : Moment) : Prop :=
  match moment.happening with
  | .bound _ _ _ (.member _) => moment.outward = true
  | .bound target _ _ .direct =>
    size ≤ target ∨ moment.outward = true ∨ own = some target ∧ moment.included = []
  | _ => True

theorem Happening.Asks.placed {happening : Happening} (asks : happening.Asks) (size : Nat) :
    (happening.at machine).Placed size own := by
  cases happening with
  | bound => exact asks.elim
  | _ => trivial

theorem Happening.Quiet.placed {happening : Happening} (quiet : happening.Quiet admitted)
    (size : Nat) : (happening.at machine).Placed size own := by
  cases happening with
  | bound => exact quiet.elim
  | _ => trivial

namespace Moment.Placed

variable {size : Nat} {moment : Moment}

/-- There may have been fewer contexts in the beginning. -/
theorem of_le {fewer : Nat} (placed : moment.Placed size own) (le : fewer ≤ size) :
    moment.Placed fewer own := by
  obtain ⟨machine, happening, included⟩ := moment
  cases happening with
  | bound target name value manner =>
    cases manner with
    | member object => exact placed
    | direct => exact placed.imp_left (Nat.le_trans le)
  | _ => trivial

/-- Code in a context that has been added has no other context of its own. -/
theorem of_added (placed : moment.Placed (size + 1) (some size)) : moment.Placed size own := by
  obtain ⟨machine, happening, included⟩ := moment
  cases happening with
  | bound target name value manner =>
    cases manner with
    | member object => exact placed
    | direct =>
      obtain added | outward | ⟨same, _⟩ := placed
      · exact Or.inl (Nat.le_of_succ_le added)
      · exact Or.inr (Or.inl outward)
      · exact Or.inl (Nat.le_of_eq (Option.some.inj same))
  | _ => trivial

/-- What a script binds at its outermost level is bound in the context that it is included in. -/
theorem within {root : ContextId} (placed : moment.Placed size (some root)) :
    (moment.within root).Placed size own := by
  obtain ⟨machine, happening, included⟩ := moment
  cases happening with
  | bound target name value manner =>
    cases manner with
    | member object => exact placed
    | direct =>
      obtain added | outward | ⟨same, outermost⟩ := placed
      · exact Or.inl added
      · have last : included.getLast? = some target := of_decide_eq_true outward
        refine Or.inr (Or.inl (decide_eq_true ?_))
        change (root :: included).getLast? = some target
        rw [List.getLast?_cons, last]
        rfl
      · obtain rfl := Option.some.inj same
        obtain rfl : included = [] := outermost
        exact Or.inr (Or.inl (decide_eq_true rfl))
  | _ => trivial

end Moment.Placed

/-- Whatever is bound is bound in its place. -/
theorem Course.placed (course : Course host admitted own machine log after) :
    ∀ moment ∈ log, moment.Placed machine.store.size own := by
  induction course with
  | still => simp
  | andThen first second earlier later =>
    exact List.forall_mem_append.mpr
      ⟨earlier, fun moment member => (later moment member).of_le first.size_le⟩
  | quiet quiet => exact List.forall_mem_singleton.mpr (quiet.placed _)
  | bound => exact List.forall_mem_singleton.mpr (Or.inr (Or.inr ⟨rfl, rfl⟩))
  | @boundMember own object machine name value made =>
    refine List.forall_mem_singleton.mpr ?_
    simp [Moment.Placed, Moment.outward, Happening.at, made]
  | miscounted => exact List.forall_mem_cons.mpr ⟨trivial, List.forall_mem_singleton.mpr trivial⟩
  | refused asks =>
    exact List.forall_mem_cons.mpr ⟨asks.placed _, List.forall_mem_singleton.mpr trivial⟩
  | activated asks room inside inner =>
    exact List.forall_mem_append.mpr
      ⟨List.forall_mem_cons.mpr ⟨asks.placed _, List.forall_mem_cons.mpr ⟨trivial, inner⟩⟩,
        List.forall_mem_singleton.mpr trivial⟩
  | entered grows depth inside inner =>
    refine List.forall_mem_cons.mpr ⟨trivial, fun moment member => ?_⟩
    rw [grows.size] at inner
    exact (inner moment member).of_added
  | included inside inner =>
    exact List.forall_mem_map.mpr fun moment member => (inner moment member).within

/-- The tables of old contexts after code without a context of its own. -/
theorem Course.table_eq_outward (course : Course host admitted none machine log after)
    {id : ContextId} (present : id < machine.store.size) :
    after.store.table id = replay id (log.filter Moment.outward) (machine.store.table id) := by
  rw [replay_filter, course.table_eq present]
  intro moment member inward table
  have placed := course.placed moment member
  obtain ⟨machine, happening, included⟩ := moment
  cases happening with
  | bound target name value manner =>
    cases manner with
    | member object =>
      rw [Moment.Placed, inward] at placed
      cases placed
    | direct =>
      obtain added | outward | ⟨own, _⟩ := placed
      · exact if_neg (Nat.ne_of_gt (Nat.lt_of_lt_of_le present added))
      · rw [inward] at outward
        cases outward
      · cases own
  | _ => rfl

/-- The old tables after what was told are the old tables before with the bindings in them that were
made elsewhere than in the contexts of calls. -/
def OnlyOutward {Result : Type} (machine : Machine) (told : Told (Outcome Result)) : Prop :=
  ∀ id < machine.store.size, (Outcome.machine told.ending).store.table id =
    replay id (told.log.filter Moment.outward) (machine.store.table id)

/-- However a call or the making of an instance ends, and in whatever state it is begun, it changes
the tables that existed before only by assignments to members of instances, and by what scripts bind
at their outermost level in the contexts that they are included in. -/
theorem calls_onlyOutward (host : Host) (machine : Machine) :
    let room := host.config.maxCallDepth - machine.depth
    (∀ callee arguments span caller,
      let told := Chronicle.callValue host (Chronicle.inside host room) callee arguments span caller
        machine
      told.ending = Eval.callValue host (Eval.inside host room) callee arguments span caller
        machine ∧ OnlyOutward machine told) ∧
    ∀ name span id,
      let told := Chronicle.evaluate host room (.instantiate name span) id machine
      told.ending = Eval.evaluate host room (.instantiate name span) id machine ∧
        OnlyOutward machine told := by
  intro room
  constructor
  · intro callee arguments span caller told
    refine ⟨Chronicle.ending_callValue host room callee arguments span caller machine, ?_⟩
    intro id present
    exact (course_callValue host machine callee arguments span caller).table_eq_outward present
  · intro name span id told
    refine ⟨Chronicle.ending_evaluate host room _ id machine, ?_⟩
    intro old present
    exact (course_instantiate host machine name span id).table_eq_outward present

end Quill
