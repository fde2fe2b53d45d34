import Quill.Proofs.Isolation.Scripts
import Quill.Proofs.Scoping.Writes

/-!
# What an included script leaves to be seen

A script that is included binds names in the outermost context around its caller, which is found
along the entry links. There later code of the program finds them. The caller itself looks up names
along its scope links. It finds what the script has bound if they lead to the same outermost
context, and may find nothing otherwise: a function that was obtained from another script looks up
its names there, but what it includes is bound for the program that calls it.
-/

namespace Quill

/-- The value that a name in the table of a context is bound to at a moment, if it is bound. -/
def Moment.binding? (id : ContextId) (name : String) (moment : Moment) : Option Value :=
  match moment.happening with
  | .bound target other value _ => if target = id ∧ other = name then some value else none
  | _ => none

/-- The value that a name in the table of a context is bound to last. -/
def lastBinding (id : ContextId) (name : String) : List Moment → Option Value
  | [] => none
  | moment :: rest => (lastBinding id name rest).or (moment.binding? id name)

/-- Whether a script that is included in a context binds a name at its outermost level. -/
def Moment.bindsOutermost (root : ContextId) (name : String) (moment : Moment) : Bool :=
  match moment.happening with
  | .bound target other _ .direct => target = root && other = name && moment.included = [root]
  | _ => false

theorem Happening.value?_apply (id : ContextId) (name : String) (moment : Moment) (table : Table) :
    (moment.happening.apply id table).value? name =
      (moment.binding? id name).or (table.value? name) := by
  unfold Happening.apply Moment.binding?
  cases moment.happening with
  | bound target other value manner =>
    by_cases here : target = id
    · simp only [here, if_true, true_and, Table.value?_define]
      by_cases same : name = other
      · simp [same]
      · simp [same, Ne.symm same]
    · simp [here]
  | _ => rfl

/-- A table has the bindings that were made last, and those from before for other names. -/
theorem value?_replay (id : ContextId) (name : String) (log : List Moment) (table : Table) :
    (replay id log table).value? name = (lastBinding id name log).or (table.value? name) := by
  induction log generalizing table with
  | nil => rfl
  | cons moment rest ih =>
    change (replay id rest (moment.happening.apply id table)).value? name = _
    rw [ih, Happening.value?_apply, lastBinding, Option.or_assoc]

/-- A name that is bound at some moment is bound last at some moment. -/
theorem isSome_lastBinding {id : ContextId} {name : String} {log : List Moment} {moment : Moment}
    (member : moment ∈ log) (binds : (moment.binding? id name).isSome = true) :
    (lastBinding id name log).isSome = true := by
  induction log with
  | nil => cases member
  | cons first rest ih =>
    rw [lastBinding, Option.isSome_or, Bool.or_eq_true]
    obtain rfl | later := List.mem_cons.mp member
    · exact .inr binds
    · exact .inl (ih later)

theorem Moment.isSome_of_bindsOutermost {root : ContextId} {name : String} {moment : Moment}
    (binds : moment.bindsOutermost root name = true) :
    (moment.binding? root name).isSome = true := by
  obtain ⟨machine, happening, included⟩ := moment
  cases happening with
  | bound target other value manner =>
    cases manner with
    | direct =>
      simp only [bindsOutermost, Bool.and_eq_true, decide_eq_true_eq] at binds
      simp [binding?, binds.1]
    | member object => cases binds
  | _ => cases binds

namespace Course

variable {host : Host} {admitted : Fault → Prop} {own : Option ContextId} {machine after : Machine}
  {log : List Moment}

/-- Contexts look up names where they did before. -/
theorem scope_eq (course : Course host admitted own machine log after) :
    ∀ id < machine.store.size, after.store.scope id = machine.store.scope id := by
  induction course with
  | still store => exact fun id _ => by rw [store]
  | andThen first second earlier later =>
    intro id present
    have still := Nat.lt_of_lt_of_le present first.size_le
    exact (later id still).trans (earlier id present)
  | quiet _ store => exact fun id _ => by rw [store]
  | bound machine target name value => exact fun id _ => Store.scope_define _ _ _ _ _ _
  | boundMember machine name value => exact fun id _ => Store.scope_define _ _ _ _ _ _
  | miscounted => exact fun id _ => rfl
  | refused => exact fun id _ => rfl
  | activated _ _ _ inner => exact inner
  | @entered _ _ start _ _ grows _ _ inner =>
    intro id present
    have still : id < start.store.size := by
      rw [grows.size]
      exact Nat.lt_succ_of_lt present
    exact (inner id still).trans (grows.scope id present)
  | included _ inner => exact inner

/-- A name that was bound on the way in an older context has the value there that it was bound to
last. -/
theorem lookupLocal_eq (course : Course host admitted own machine log after) {id : ContextId}
    {name : String} {value : Value} (present : id < machine.store.size)
    (last : lastBinding id name log = some value) :
    after.store.lookupLocal id name = some value := by
  rw [Store.lookupLocal, course.table_eq present, value?_replay, last]
  rfl

end Course

/-- Behind a call of the built-in function that includes a script, every name that the script has
bound at its outermost level has the value that it was bound to last. Code in the outermost context
around the caller finds it, and so does the caller, unless the name is bound on the way, if names of
the caller are looked up in this context in the end. -/
theorem include_shows_bindings (host : Host) (serial : Nat) (arguments : List Value) (span : Span)
    {caller : ContextId} {machine : Machine} (present : caller < machine.store.size) :
    let function := Function.builtin (Builtin.includeScript.function serial)
    let room := host.config.maxCallDepth - machine.depth
    let told := Chronicle.callValue host (Chronicle.inside host room) (.function function) arguments
      span caller machine
    let outcome := Eval.callValue host (Eval.inside host room) (.function function) arguments span
      caller machine
    let root := machine.store.rootOf caller
    let after := (Outcome.machine outcome).store
    told.ending = outcome ∧
      ∀ name, (∃ moment ∈ told.log, moment.bindsOutermost root name = true) →
        ∃ value, lastBinding root name told.log = some value ∧
          after.lookup root name = some value ∧
          ∀ passed, machine.store.AtHome caller passed →
            (∀ inner ∈ passed, after.lookupLocal inner name = none) →
              after.lookup caller name = some value := by
  intro function room told outcome root after
  have same : told.ending = outcome :=
    Chronicle.ending_callValue host room (.function function) arguments span caller machine
  have course : Course host (fun _ => True) none machine told.log (Outcome.machine outcome) := by
    rw [← same]
    exact course_callValue host machine (.function function) arguments span caller
  refine ⟨same, ?_⟩
  rintro name ⟨moment, member, binds⟩
  obtain ⟨value, last⟩ := Option.isSome_iff_exists.mp
    (isSome_lastBinding member (moment.isSome_of_bindsOutermost binds))
  have outermost : root < machine.store.size :=
    Nat.lt_of_le_of_lt (machine.store.rootOf_le caller) present
  have bound := course.lookupLocal_eq outermost last
  refine ⟨value, last, Store.lookup_of_lookupLocal bound, fun passed home free => ?_⟩
  exact (Store.LeadsTo.congr home course.scope_eq present).lookup free bound

/-- A function includes a script that binds a name twice. The context of the function looks up names
where it was entered from, and finds the later value. -/
theorem include_shows_bindings_function :
    let text := "var answer = 1\nanswer = 42"
    let host : Host := ⟨{}, fun _ => .ok text.toUTF8.toList, 0⟩
    let function := Function.builtin (Builtin.includeScript.function 16)
    let span : Span := ⟨⟨0, "main", "f()"⟩, ⟨0, 1, 1⟩, ⟨3, 1, 4⟩⟩
    let start := (Session.start []).machine
    let machine := { start with store := (start.store.nested "f" 0 span (some 0)).2 }
    let outcome := Eval.callValue host (Eval.inside host 512) (.function function) [.str "defs"]
      span 1 machine
    let after := (Outcome.machine outcome).store
    1 < machine.store.size ∧ machine.store.rootOf 1 = 0 ∧ machine.store.AtHome 1 [1] ∧
      after.lookupLocal 1 "answer" = none ∧
      after.lookup 0 "answer" = some (.int 42) ∧ after.lookup 1 "answer" = some (.int 42) := by
  intro text host function span start machine outcome after
  have present : 1 < machine.store.size := by decide +kernel
  have root : machine.store.rootOf 1 = 0 := by decide +kernel
  have home : machine.store.AtHome 1 [1] := by
    rw [Store.AtHome, root]
    exact .outwards (by decide +kernel) (by decide) (.here 0)
  have free : (after.lookupLocal 1 "answer").isNone = true := by decide +kernel
  have free : ∀ inner ∈ [1], after.lookupLocal inner "answer" = none := by
    simpa using free
  let told := Chronicle.callValue host (Chronicle.inside host 512) (.function function)
    [.str "defs"] span 1 machine
  have binds : told.log.any (·.bindsOutermost 0 "answer") = true := by decide +kernel
  have number : (lastBinding 0 "answer" told.log).bind Value.int? = some 42 := by decide +kernel
  obtain ⟨-, shows⟩ := include_shows_bindings host 16 [.str "defs"] span present
  rw [root] at shows
  obtain ⟨value, last, later, own⟩ := shows "answer" (List.any_eq_true.mp binds)
  obtain ⟨same, found, number⟩ := Option.bind_eq_some_iff.mp number
  obtain rfl := Option.some.inj (last.symm.trans found)
  obtain rfl := Value.eq_int_of_int? number
  exact ⟨present, root, home, free 1 (List.mem_singleton.mpr rfl), later, own [1] home free⟩

/-- A function that was obtained from a script of its own includes another script. It cannot see
what that script has bound, although nothing hides the name, and its caller can. -/
theorem include_hides_bindings :
    let scripts := fun path => if path = "./lib.sympl" then
        "func load()\n  Include(\"defs.sympl\")\n  return answer\nend\nExport(load)"
      else "var answer = 42"
    let host : Host := ⟨{}, fun path => .ok (scripts path).toUTF8.toList, 0⟩
    let function := Function.builtin (Builtin.includeScript.function 16)
    let span : Span := ⟨⟨0, "main", "load()"⟩, ⟨0, 1, 1⟩, ⟨6, 1, 7⟩⟩
    let session := ((Session.start []).run host "main" "var load = Run(\"lib.sympl\")").2
    let start := session.machine
    -- The state in which the body of the function begins.
    let machine := { start with store := (start.store.nested "load" 0 span (some 1)).2 }
    let told := Chronicle.callValue host (Chronicle.inside host 512) (.function function)
      [.str "defs.sympl"] span 2 machine
    let outcome := Eval.callValue host (Eval.inside host 512) (.function function)
      [.str "defs.sympl"] span 2 machine
    let after := (Outcome.machine outcome).store
    after.LeadsTo 2 [2] 1 ∧ (Outcome.result? outcome).isSome = true ∧
      told.log.any (·.bindsOutermost (machine.store.rootOf 2) "answer") = true ∧
      (after.lookupLocal 2 "answer").isNone = true ∧
      (after.lookup 0 "answer").bind Value.int? = some 42 ∧
      (after.lookup 2 "answer").isNone = true ∧
      Transcript.scriptFault (session.run host "main" "load()").1 =
        some (.undefinedVariable "answer") := by
  intro scripts host function span session start machine told outcome after
  have link : after.scope 2 = some 1 := by decide +kernel
  exact ⟨.outwards link (by decide) (.here 1), by decide +kernel⟩

end Quill
