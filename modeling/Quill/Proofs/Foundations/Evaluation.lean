import Quill.Proofs.Chronicle.Course
import Quill.Proofs.Chronicle.Evaluation
import Quill.Proofs.Foundations.Steps

/-!
# Evaluation on grounded states

A run that begins in a grounded state goes through grounded states only. What is more, it evaluates
expressions nowhere but in contexts of which the entry links end in an outermost context. The
second statement is about what does not happen, and so it is made by a comparison. A guarded run
looks along the entry links wherever the evaluation of a program, a body or the members of an object
begins in a context, and does something arbitrary unless they end in an outermost one. What is a
part of the expression is evaluated in the same context, so nothing escapes the guard. It turns out
that a guarded run and a plain one never differ.

The rules here say both of each way to put code together, if it is so of its parts.
-/

namespace Quill

/-! ## Guarded runs -/

instance Store.decidableGlobal (store : Store) (id : ContextId) : Decidable (store.Global id) :=
  match found : store.context? id with
  | none => isFalse fun ⟨_, known, _⟩ => nomatch found.symm.trans known
  | some context =>
    if first : context.entry.isNone then isTrue ⟨context, found, Option.isNone_iff_eq_none.mp first⟩
    else isFalse fun ⟨_, known, outermost⟩ =>
      first (Option.some.inj (found.symm.trans known) ▸ Option.isNone_iff_eq_none.mpr outermost)

namespace Chronicle

/-- Evaluates an expression in a context if its entry links end in an outermost context, and does
something else if they do not. -/
def guard (astray recount : Recount) : Recount :=
  fun expr id machine =>
    if machine.store.Global (machine.store.rootOf id) then recount expr id machine
    else astray expr id machine

/-- Evaluates an expression with a guard in front of everything that is evaluated in a context. -/
def evaluateGuarded (host : Host) (astray : Recount) : (room : Nat) → Recount
  | 0 => guard astray fun expr id => evaluateIn host none id expr
  | room + 1 =>
    guard astray fun expr id => evaluateIn host (some (evaluateGuarded host astray room)) id expr

/-- The way to evaluate, with guards, what lies in other activations. -/
def insideGuarded (host : Host) (astray : Recount) : (room : Nat) → Option Recount
  | 0 => none
  | room + 1 => some (evaluateGuarded host astray room)

theorem evaluateGuarded_eq (host : Host) (astray : Recount) (room : Nat) :
    evaluateGuarded host astray room =
      guard astray fun expr id => evaluateIn host (insideGuarded host astray room) id expr := by
  cases room <;> rfl

end Chronicle

/-- A context that there is in a grounded state has links that end in an outermost one. -/
theorem Machine.Grounded.global_rootOf {machine : Machine} (grounded : machine.Grounded)
    {id : ContextId} (present : id < machine.store.size) :
    machine.store.Global (machine.store.rootOf id) :=
  (grounded.walksEnd present).root.global

/-! ## Chronicles that match -/

variable {Result Other : Type} {size : Nat} {post : Nat → Result → Prop}

/-- What two chronicles tell from a grounded state on. -/
structure Matched (post : Nat → Result → Prop) (machine : Machine)
    (told other : Told (Outcome Result)) :
    Prop extends Regime.grounded.Upheld post machine told.ending where
  /-- They tell the same. -/
  same : other = told
  /-- All states on the way are grounded. -/
  moments : ∀ moment ∈ told.log, moment.machine.Grounded

/-- Two chronicles tell the same from grounded states with at least so many contexts, and go through
grounded states. -/
def Matches (size : Nat) (post : Nat → Result → Prop) (told other : Chronicle Result) : Prop :=
  ∀ ⦃machine : Machine⦄, size ≤ machine.store.size → machine.Grounded →
    Matched post machine (told machine) (other machine)

namespace Matches

open Chronicle (andThen_ok andThen_error)

theorem mono {told other : Chronicle Result} (matched : Matches size post told other) {more : Nat}
    (grown : size ≤ more) : Matches more post told other :=
  fun _ enough grounded => matched (Nat.le_trans grown enough) grounded

theorem pure {result : Result} (results : ∀ more, size ≤ more → post more result) :
    Matches size post (Pure.pure result) (Pure.pure result) :=
  fun _ enough grounded =>
    ⟨.aside grounded rfl rfl rfl (results _ enough), rfl, List.forall_mem_nil _⟩

theorem bind {middle : Nat → Other → Prop} {first other : Chronicle Other}
    {next after : Other → Chronicle Result} (firsts : Matches size middle first other)
    (nexts : ∀ result more, size ≤ more → middle more result →
      Matches more post (next result) (after result)) :
    Matches size post (first >>= next) (other >>= after) := by
  intro machine enough grounded
  obtain ⟨began, same, moments⟩ := firsts enough grounded
  cases told : first machine with
  | mk ending log =>
    rw [told] at began same moments
    cases ending with
    | error signal between =>
      rw [andThen_error next told, andThen_error after same]
      exact ⟨⟨began.size, began.depth, began.orders, began.ends⟩, rfl, moments⟩
    | ok result between =>
      rw [andThen_ok next told, andThen_ok after same]
      obtain ⟨later, again, rest⟩ := nexts result between.store.size
        (Nat.le_trans enough began.size) began.ends (Nat.le_refl _) began.orders
      refine ⟨⟨Nat.le_trans began.size later.size, later.depth.trans began.depth, later.orders,
        later.ends⟩, ?_, List.forall_mem_append.mpr ⟨moments, rest⟩⟩
      rw [again]

theorem ite {condition : Prop} [Decidable condition] {told other less more : Chronicle Result}
    (yes : Matches size post told other) (no : Matches size post less more) :
    Matches size post (if condition then told else less) (if condition then other else more) := by
  split
  · exact yes
  · exact no

/-! ### Steps -/

theorem record {step : Eval Result} (upholds : Regime.grounded.Upholds size post step)
    (success : Happening) :
    Matches size post (Chronicle.record success step) (Chronicle.record success step) := by
  intro machine enough grounded
  have upheld := upholds enough grounded
  exact ⟨upheld, rfl, List.forall_mem_singleton.mpr upheld.orders⟩

theorem perform {step : Eval Result} (upholds : Regime.grounded.Upholds size post step) :
    Matches size post (Chronicle.perform step) (Chronicle.perform step) :=
  record upholds .stepped

theorem raise (fault : Fault) (span : Span) (id : ContextId) :
    Matches size post (Chronicle.perform (Eval.raise fault span id))
      (Chronicle.perform (Eval.raise fault span id)) :=
  perform (.raise fault span id)

theorem orRaise {result : Except Fault Result}
    (sound : ∀ more, size ≤ more → Sound (post more) result) (span : Span) (id : ContextId) :
    Matches size post (Chronicle.orRaise result span id) (Chronicle.orRaise result span id) := by
  cases result with
  | ok value => exact pure sound
  | error fault => exact raise fault span id

theorem note (happening : Happening) :
    Matches size (fun _ _ => True) (Chronicle.note happening) (Chronicle.note happening) := by
  intro machine _ grounded
  exact ⟨.aside grounded rfl rfl rfl trivial, rfl, List.forall_mem_singleton.mpr grounded⟩

theorem assign (target : ContextId) (name : String) {value : Value} (also : value.Present size)
    (manner : Manner) (span : Span) (id : ContextId) :
    Matches size (fun _ _ => True) (Chronicle.assign target name value manner span id)
      (Chronicle.assign target name value manner span id) :=
  record (.assign target name also span id) _

/-- A function refers to the context that it is defined in. -/
theorem define (name : Option String) (parameters : List String) (body : Located) (valued : Bool)
    (span : Span) {id : ContextId} (present : id < size) :
    Matches size Value.Present (Chronicle.define name parameters body valued span id)
      (Chronicle.define name parameters body valued span id) := by
  apply bind (perform .freshId)
  intro serial more grown _
  have here := Nat.lt_of_lt_of_le present grown
  have function (size : Nat) (here : id < size) (name : String) :
      (Value.function (.user ⟨serial, name, parameters, body, id, valued⟩)).Present size :=
    Value.within_user ⟨Nat.zero_le _, here⟩
  cases name with
  | none => exact pure fun most enough => function most (Nat.lt_of_lt_of_le here enough) _
  | some bound =>
    apply bind (assign id bound (function more here _) .direct span id)
    intro _ further again _
    exact pure fun most enough =>
      function most (Nat.lt_of_lt_of_le here (Nat.le_trans again enough)) _

/-- So does a template. -/
theorem defineTemplate (name : String) (body : Located) (span : Span) {id : ContextId}
    (present : id < size) :
    Matches size Value.Present (Chronicle.defineTemplate name body span id)
      (Chronicle.defineTemplate name body span id) := by
  apply bind (perform .freshId)
  intro serial more grown _
  have here := Nat.lt_of_lt_of_le present grown
  have template (size : Nat) (here : id < size) :
      (Value.object ⟨serial, name, body, false, id⟩).Present size :=
    Value.within_object ⟨Nat.zero_le _, here⟩
  apply bind (assign id name (template more here) .direct span id)
  intro _ further again _
  exact pure fun most enough => template most (Nat.lt_of_lt_of_le here (Nat.le_trans again enough))

/-! ### Edges -/

/-- What an outcome looks like from outside an edge, where nothing is changed. -/
structure Viewed (post : Nat → Result → Prop) (inner : Machine) (outer : Outcome Result) :
    Prop where
  /-- The contexts are the same on both sides. -/
  store : (Outcome.machine outer).store = inner.store
  /-- As many activations are open on both sides. -/
  depth : (Outcome.machine outer).depth = inner.depth
  /-- The running script exports the same on both sides. -/
  exported : (Outcome.machine outer).exported = inner.exported
  /-- The outcome is as it should be. -/
  ends : Regime.grounded.Ends post outer

theorem regard {later : Nat → Other → Prop} {view : Outcome Result → Outcome Other}
    {arising : Outcome Result → List Event} {inner other : Chronicle Result}
    (matched : Matches size post inner other)
    (views : ∀ outcome, size ≤ (Outcome.machine outcome).store.size →
      Regime.grounded.Ends post outcome → Viewed later (Outcome.machine outcome) (view outcome)) :
    Matches size later (Chronicle.regard view arising inner)
      (Chronicle.regard view arising other) := by
  intro machine enough grounded
  obtain ⟨upheld, same, moments⟩ := matched enough grounded
  obtain ⟨store, depth, exported, ends⟩ := views _ (Nat.le_trans enough upheld.size) upheld.ends
  have sizes := congrArg Store.size store
  have ordered : Machine.Grounded _ := upheld.orders
  refine ⟨⟨sizes ▸ upheld.size, depth.trans upheld.depth, ?_, ends⟩, ?_, ?_⟩
  · exact ordered.congr store (exported ▸ ordered.exported)
  · unfold Chronicle.regard
    rw [same]
  · exact List.forall_mem_append.mpr
      ⟨moments, List.forall_mem_map.mpr fun _ _ => upheld.orders⟩

/-! ### Loops -/

theorem round {body other : Chronicle Value} (matched : Matches size Value.Present body other) :
    Matches size (fun more => Loop.Round.Has (Value.Present more)) (Chronicle.round body)
      (Chronicle.round other) := by
  apply regard matched
  intro outcome _ ends
  cases outcome with
  | ok value after => exact ⟨rfl, rfl, rfl, ends⟩
  | error signal after =>
    cases signal with
    | failed failure => exact ⟨rfl, rfl, rfl, trivial⟩
    | returned value => exact ⟨rfl, rfl, rfl, ends⟩
    | broke span => exact ⟨rfl, rfl, rfl, trivial⟩
    | continued span => exact ⟨rfl, rfl, rfl, trivial⟩

theorem repeatWhile {condition body : Chronicle Value} {whether work : Chronicle Value}
    {tooLong : Chronicle (List Value)} (conditions : Matches size Value.Present condition whether)
    (bodies : Matches size Value.Present body work)
    (ends : Matches size Value.AllPresent tooLong tooLong) (keep : Bool) (rounds : Nat) {more : Nat}
    (grown : size ≤ more) {values : List Value} (earlier : Value.AllPresent more values) :
    Matches more Value.AllPresent (Chronicle.repeatWhile condition body keep tooLong rounds values)
      (Chronicle.repeatWhile whether work keep tooLong rounds values) := by
  induction rounds generalizing values more with
  | zero =>
    apply bind (conditions.mono grown)
    intro _ most further _
    exact ite (ends.mono (Nat.le_trans grown further)) (pure fun _ enough =>
      earlier.mono (Nat.le_trans further enough))
  | succ rounds ih =>
    apply bind (conditions.mono grown)
    intro _ most further _
    have enough := Nat.le_trans grown further
    apply ite _ (pure fun _ last => earlier.mono (Nat.le_trans further last))
    apply bind (round (bodies.mono enough))
    intro ended least again last
    have kept := earlier.mono (Nat.le_trans further again)
    have collected := Loop.forall_mem_collect kept keep last
    cases ended with
    | left => exact pure fun _ last => kept.mono last
    | value result => exact ih (Nat.le_trans enough again) collected
    | skipped => exact ih (Nat.le_trans enough again) collected

theorem count {body work : Int64 → Chronicle Value} {tooLong : Chronicle (List Value)}
    (bodies : ∀ counter, Matches size Value.Present (body counter) (work counter))
    (ends : Matches size Value.AllPresent tooLong tooLong) (keep : Bool) (stop step : Int64)
    (rounds : Nat) (counter : Int64) {more : Nat} (grown : size ≤ more) {values : List Value}
    (earlier : Value.AllPresent more values) :
    Matches more Value.AllPresent
      (Chronicle.count body keep tooLong stop step rounds counter values)
      (Chronicle.count work keep tooLong stop step rounds counter values) := by
  induction rounds generalizing counter values more with
  | zero => exact ite (ends.mono grown) (pure fun _ enough => earlier.mono enough)
  | succ rounds ih =>
    apply ite _ (pure fun _ enough => earlier.mono enough)
    apply bind (round ((bodies counter).mono grown))
    intro ended most further last
    have enough := Nat.le_trans grown further
    have kept := earlier.mono further
    have collected := Loop.forall_mem_collect kept keep last
    cases Integer.add? counter step with
    | none =>
      cases ended with
      | left => exact pure fun _ last => kept.mono last
      | value result => exact pure fun _ last => Value.AllPresent.mono collected last
      | skipped => exact pure fun _ last => Value.AllPresent.mono collected last
    | some next =>
      cases ended with
      | left => exact pure fun _ last => kept.mono last
      | value result => exact ih next enough collected
      | skipped => exact ih next enough collected

/-! ### Activations -/

/-- The activation is closed again, which changes nothing else. -/
theorem upheld_leave {machine : Machine} {outcome : Outcome Result}
    (upheld : Regime.grounded.Upheld post machine.opened outcome) :
    Regime.grounded.Upheld post machine (Eval.leave outcome) := by
  obtain ⟨size, depth, orders, ends⟩ := upheld
  have grounded : Machine.Grounded _ := orders
  cases outcome with
  | ok result after =>
    exact ⟨size, Nat.sub_eq_of_eq_add depth, grounded.congr rfl grounded.exported, ends⟩
  | error signal after =>
    exact ⟨size, Nat.sub_eq_of_eq_add depth, grounded.congr rfl grounded.exported, ends⟩

theorem during {told other : Chronicle Result} (matched : Matches size post told other) :
    Matches size post (Chronicle.during told) (Chronicle.during other) := by
  intro machine enough grounded
  have opened : machine.opened.Grounded := grounded.congr rfl grounded.exported
  obtain ⟨upheld, same, moments⟩ := @matched machine.opened enough opened
  have left := upheld_leave upheld
  refine ⟨left, ?_, ?_⟩
  · have again : other { machine with depth := machine.depth + 1 } = told machine.opened := same
    rw [Chronicle.during, again]
    rfl
  · exact List.forall_mem_cons.mpr ⟨opened, List.forall_mem_append.mpr
      ⟨moments, List.forall_mem_singleton.mpr left.orders⟩⟩

/-- Two ways to evaluate what lies in other activations, if there is room for any. -/
inductive Rooms : Option Recount → Option Recount → Prop where
  /-- There is room for none. -/
  | full : Rooms none none
  /-- Both of them tell the same of what is evaluated in any context. -/
  | inside {recount guarded : Recount}
      (matched : ∀ expr id size, id < size →
        Matches size Value.Present (recount expr id) (guarded expr id)) :
      Rooms (some recount) (some guarded)

variable {inner outer : Option Recount} {host : Host}

theorem activate (rooms : Rooms inner outer) (span : Span) (id : ContextId)
    {work other : Recount → Chronicle Result}
    (works : ∀ recount guarded,
      (∀ expr id size, id < size → Matches size Value.Present (recount expr id) (guarded expr id)) →
        Matches size post (work recount) (other guarded)) :
    Matches size post (Chronicle.activate host inner span id work)
      (Chronicle.activate host outer span id other) := by
  cases rooms with
  | full => exact raise _ span id
  | inside matched => exact during (works _ _ matched)

section

variable {recount guarded : Recount}
  (inside : ∀ expr id size, id < size →
    Matches size Value.Present (recount expr id) (guarded expr id))

include inside

/-- The context of a call is entered from the caller's, and looks up names where the function was
defined. -/
theorem callUser {function : UserFunction} (closure : function.closure < size)
    {arguments : List Value} (all : Value.AllPresent size arguments) (span : Span)
    {caller : ContextId} (present : caller < size) :
    Matches size Value.Present (Chronicle.callUser function arguments span caller recount)
      (Chronicle.callUser function arguments span caller guarded) := by
  have table := Table.all_ofArguments function.parameters all
  apply bind (perform (Regime.upholds_addContext table
    (fun outer scope => Option.some.inj scope ▸ closure)
    (fun entry link => Option.some.inj link ▸ present)))
  intro id more grown ⟨_, here⟩
  apply regard (inside function.body id more here)
  intro outcome _ ends
  cases outcome with
  | ok value after =>
    have shown : (if function.valued then value else .null).Present after.store.size := by
      split
      · exact ends
      · exact (Value.hereditary_within 0 _).null
    exact ⟨rfl, rfl, rfl, shown⟩
  | error signal after =>
    cases signal with
    | returned value => exact ⟨rfl, rfl, rfl, ends⟩
    | failed failure => exact ⟨rfl, rfl, rfl, trivial⟩
    | broke span => exact ⟨rfl, rfl, rfl, trivial⟩
    | continued span => exact ⟨rfl, rfl, rfl, trivial⟩

/-- The context of the members is entered from where the instance is made, and looks up names there
as well. -/
theorem instantiate (template : Object) (name : String) (span : Span) {caller : ContextId}
    (present : caller < size) :
    Matches size Value.Present (Chronicle.instantiate template name span caller recount)
      (Chronicle.instantiate template name span caller guarded) := by
  apply bind (perform (Regime.upholds_addContext Table.all_empty
    (fun outer scope => Option.some.inj scope ▸ present)
    (fun entry link => Option.some.inj link ▸ present)))
  intro id more grown ⟨_, here⟩
  apply regard (inside template.body id more here)
  intro outcome enough ends
  cases outcome with
  | ok value after =>
    exact ⟨rfl, rfl, rfl, Value.within_object ⟨Nat.zero_le _, Nat.lt_of_lt_of_le here enough⟩⟩
  | error signal after => exact ⟨rfl, rfl, rfl, trivial⟩

/-! ### Scripts -/

theorem runIn {root : ContextId} (present : root < size) (path text : String) :
    Matches size (fun _ _ => True) (Chronicle.runIn root recount path text)
      (Chronicle.runIn root guarded path text) := by
  intro machine enough grounded
  let start := { machine with serial := machine.serial + 1 }
  have begun : start.Grounded := grounded.congr rfl grounded.exported
  unfold Chronicle.runIn Chronicle.runText
  dsimp only
  cases Eval.read ⟨machine.serial, path, text⟩ with
  | error error =>
    exact ⟨.aside grounded rfl rfl rfl trivial, rfl,
      List.forall_mem_singleton.mpr begun⟩
  | ok tree =>
    obtain ⟨upheld, same, moments⟩ := @inside tree root size present start enough begun
    have again : guarded tree root { machine with serial := machine.serial + 1 } =
      recount tree root start := same
    dsimp only
    rw [again]
    rw [Eval.machine_resultOfScript]
    refine ⟨⟨upheld.size, upheld.depth, upheld.orders, trivial⟩, rfl, ?_⟩
    exact List.forall_mem_append.mpr ⟨List.forall_mem_cons.mpr ⟨begun, moments⟩,
      List.forall_mem_map.mpr fun _ _ => upheld.orders⟩

omit inside in
theorem within {root : ContextId} {told other : Chronicle Result}
    (matched : Matches size post told other) :
    Matches size post (Chronicle.within root told) (Chronicle.within root other) := by
  intro machine enough grounded
  obtain ⟨upheld, same, moments⟩ := matched enough grounded
  refine ⟨upheld, ?_, List.forall_mem_map.mpr moments⟩
  unfold Chronicle.within
  rw [same]

/-- The outermost context of the caller is there. -/
theorem includeScript (call : Invocation) (present : call.caller < size) :
    Matches size Value.Present (Chronicle.includeScript call host recount)
      (Chronicle.includeScript call host guarded) := by
  apply bind (perform (.loadScript call host))
  intro loaded more grown _
  cases loaded with
  | none => exact perform (.exception call _)
  | some script =>
    apply bind (perform (.rootOf (Nat.lt_of_lt_of_le present grown)))
    intro root further _ here
    apply bind (within (runIn inside here script.1 script.2))
    intro result most _ _
    apply bind (perform (.resultOf call script.1 result))
    intro _ _ _ _
    exact pure fun _ _ => (Value.hereditary_within 0 _).null

theorem runScript (call : Invocation) :
    Matches size Value.Present (Chronicle.runScript call host recount)
      (Chronicle.runScript call host guarded) := by
  apply bind (perform (.loadScript call host))
  intro loaded more grown _
  cases loaded with
  | none => exact perform (.exception call _)
  | some script =>
    apply bind (perform .enterScript)
    rintro ⟨saved, root⟩ further _ ⟨kept, here⟩
    apply bind (runIn inside here script.1 script.2)
    intro result most upwards _
    apply bind (perform (.leaveScript fun value same => (kept value same).mono upwards))
    intro exported last onwards exports
    apply bind (perform (.resultOf call script.1 result))
    intro _ final after _
    apply pure
    intro ending enough
    cases exported with
    | none => exact (Value.hereditary_within 0 _).null
    | some value => exact (exports value rfl).mono (Nat.le_trans after enough)

/-! ### Calls -/

theorem invoke {call : Invocation} (present : call.caller < size)
    (arguments : ∀ parameter, (call.argument parameter).Present size) (builtin : Builtin) :
    Matches size Value.Present (Chronicle.invoke call host recount builtin)
      (Chronicle.invoke call host guarded builtin) := by
  apply bind (note _)
  intro _ more grown _
  by_cases included : builtin = .includeScript
  · subst included
    exact includeScript inside call (Nat.lt_of_lt_of_le present grown)
  by_cases started : builtin = .runScript
  · subst started
    exact runScript inside call
  have upholds := @Regime.Upholds.run .grounded more call
    (fun parameter => (arguments parameter).mono grown) host (fun _ _ => Pure.pure .null) builtin
    included started
  cases builtin with
  | includeScript => exact absurd rfl included
  | runScript => exact absurd rfl started
  | _ => exact perform upholds

theorem callBuiltin (function : BuiltinFunction) {arguments : List Value}
    (all : Value.AllPresent size arguments) (span : Span) {caller : ContextId}
    (present : caller < size) :
    Matches size Value.Present
      (Chronicle.callBuiltin host function arguments span caller recount)
      (Chronicle.callBuiltin host function arguments span caller guarded) := by
  unfold Chronicle.callBuiltin
  cases Builtin.named? function.name with
  | none => exact raise _ span caller
  | some builtin =>
    apply invoke inside present
    intro parameter
    have table := Table.all_ofArguments function.parameters all
    unfold Invocation.argument Eval.invocationOf
    cases found : (Table.ofArguments function.parameters arguments).value? parameter with
    | none => exact (Value.hereditary_within 0 _).null
    | some value => exact table parameter value found

end

theorem callValue (rooms : Rooms inner outer) {callee : Value} (called : callee.Present size)
    {arguments : List Value} (all : Value.AllPresent size arguments) (span : Span)
    {caller : ContextId} (present : caller < size) :
    Matches size Value.Present (Chronicle.callValue host inner callee arguments span caller)
      (Chronicle.callValue host outer callee arguments span caller) := by
  cases callee with
  | function function =>
    apply bind (note _)
    intro _ more grown _
    apply bind (orRaise (fun _ _ => Bodies.sound_checkArity _ _) span caller)
    intro _ further onwards _
    have whole := Nat.le_trans grown onwards
    apply activate rooms span caller
    intro recount guarded inside
    cases function with
    | user defined =>
      exact callUser inside (Nat.lt_of_lt_of_le called.closure.2 whole)
        (all.mono whole) span (Nat.lt_of_lt_of_le present whole)
    | builtin provided =>
      exact callBuiltin inside provided (all.mono whole) span
        (Nat.lt_of_lt_of_le present whole)
  | _ => exact raise _ span caller

theorem makeInstance (rooms : Rooms inner outer) (name : String) (span : Span) {id : ContextId}
    (present : id < size) :
    Matches size Value.Present (Chronicle.makeInstance host inner name span id)
      (Chronicle.makeInstance host outer name span id) := by
  apply bind (perform (.objectNamed name span id))
  intro template more grown _
  apply bind (note _)
  intro _ further onwards _
  apply activate rooms span id
  intro recount guarded inside
  exact instantiate inside template name span
    (Nat.lt_of_lt_of_le present (Nat.le_trans grown onwards))

/-! ### Expressions -/

mutual

/-- Two evaluations of an expression match if they do in what lies in other activations. -/
theorem evaluateIn (rooms : Rooms inner outer) {id : ContextId} {size : Nat} (present : id < size) :
    (expr : Located) →
    Matches size Value.Present (Chronicle.evaluateIn host inner id expr)
      (Chronicle.evaluateIn host outer id expr)
  | .literal value _ => pure fun _ _ => (Value.hereditary_within 0 _).ofLiteral value
  | .unary op operand span => by
    apply bind (evaluateIn rooms present operand)
    intro value more _ also
    exact orRaise (fun _ enough =>
      (Value.hereditary_within 0 _).sound_unary op (also.mono enough)) span id
  | .binary op left right span => by
    apply bind (evaluateIn rooms present left)
    intro first more grown also
    apply bind (evaluateIn rooms (Nat.lt_of_lt_of_le present grown) right)
    intro second further onwards too
    apply bind (note _)
    intro _ most again _
    have before := also.mono (Nat.le_trans onwards again)
    exact orRaise (fun _ enough => (Value.hereditary_within 0 _).sound_binary op
      (before.mono enough) ((too.mono again).mono enough)) span id
  | .list elements _ => by
    apply bind (evaluateAll rooms present elements)
    intro values more _ all
    exact pure fun _ enough =>
      ((Value.hereditary_within 0 _).list_iff values).mpr (all.mono enough)
  | .choice branches _ => evaluateBranches rooms present branches
  | .forLoop counter start stop step body block span => by
    rw [Chronicle.evaluateIn, Chronicle.evaluateIn]
    apply bind (evaluateIn rooms present start)
    intro first more grown _
    apply bind (evaluateIn rooms (Nat.lt_of_lt_of_le present grown) stop)
    intro last further onwards _
    have here := Nat.lt_of_lt_of_le present (Nat.le_trans grown onwards)
    cases first with
    | int first =>
      cases last with
      | int last =>
        have round {most : Nat} (enough : further ≤ most) (value : Int64) :
            Matches most Value.Present
              (Chronicle.assign id counter (.int value) .direct span id >>= fun _ =>
                Chronicle.evaluateIn host inner id body)
              (Chronicle.assign id counter (.int value) .direct span id >>= fun _ =>
                Chronicle.evaluateIn host outer id body) := by
          have plain := (Value.hereditary_within 0 most).int value
          apply bind (assign id counter plain .direct span id)
          intro _ _ again _
          exact evaluateIn rooms (Nat.lt_of_lt_of_le here (Nat.le_trans enough again)) body
        have results {most : Nat} (enough : further ≤ most) (step : Int64) := bind
          (count (round enough)
            (raise (.loopLimit host.config.maxLoopIterations) span id) (!block) last step
            host.config.maxLoopIterations first (Nat.le_refl _) (List.forall_mem_nil _))
          fun values _ _ all => pure fun size enough =>
            (Value.hereditary_within 0 size).loop block (all.mono enough)
        cases step with
        | none =>
          have one : Matches further (fun _ _ => True)
              (Pure.pure 1 : Chronicle Int64) (Pure.pure 1) := pure fun _ _ => trivial
          exact bind one fun step _ enough _ => results enough step
        | some expr =>
          apply bind (evaluateIn rooms here expr)
          intro value most enough _
          exact bind (perform (.stepOf value first last expr.note id))
            fun step _ again _ => results (Nat.le_trans enough again) step
      | _ => exact raise .loopBounds span id
    | _ => exact raise .loopBounds span id
  | .whileLoop condition body block span => by
    rw [Chronicle.evaluateIn, Chronicle.evaluateIn]
    apply bind (repeatWhile (evaluateIn rooms present condition)
      (evaluateIn rooms present body)
      (raise (.loopLimit host.config.maxLoopIterations) span id) (!block) _ (Nat.le_refl _)
      (List.forall_mem_nil _))
    intro values more _ all
    exact pure fun size enough =>
      (Value.hereditary_within 0 size).loop block (all.mono enough)
  | .read name span => perform (.readName name span id)
  | .assign name expr span => by
    apply bind (evaluateIn rooms present expr)
    intro value more _ also
    apply bind (assign id name also .direct span id)
    intro _ _ again _
    exact pure fun _ enough => also.mono (Nat.le_trans again enough)
  | .member object name span => perform (.readMember object name span id)
  | .assignMember object name expr span => by
    apply bind (perform (.instanceNamed object span id))
    intro target more grown _
    apply bind (evaluateIn rooms (Nat.lt_of_lt_of_le present grown) expr)
    intro value further _ also
    apply bind (assign target.context name also (.member target) span id)
    intro _ _ again _
    exact pure fun _ enough => also.mono (Nat.le_trans again enough)
  | .function name parameters body valued span => define name parameters body valued span present
  | .call callee arguments span => by
    apply bind (evaluateIn rooms present callee)
    intro function more grown called
    apply bind (evaluateAll rooms (Nat.lt_of_lt_of_le present grown) arguments)
    intro values further onwards all
    exact callValue rooms (called.mono onwards) all span
      (Nat.lt_of_lt_of_le present (Nat.le_trans grown onwards))
  | .template name body span => defineTemplate name body span present
  | .instantiate name span => makeInstance rooms name span present
  | .returnWith none _ =>
    perform (.returned (Value.hereditary_within 0 _).null)
  | .returnWith (some expr) _ => by
    apply bind (evaluateIn rooms present expr)
    intro value more _ also
    exact perform (.returned also)
  | .breakLoop span => perform (.broke span)
  | .continueLoop span => perform (.continued span)

theorem evaluateAll (rooms : Rooms inner outer) {id : ContextId} {size : Nat}
    (present : id < size) : (elements : List Located) →
    Matches size Value.AllPresent (Chronicle.evaluateAll host inner id elements)
      (Chronicle.evaluateAll host outer id elements)
  | [] => pure fun _ _ => List.forall_mem_nil _
  | element :: rest => by
    apply bind (evaluateIn rooms present element)
    intro value more grown also
    apply bind (evaluateAll rooms (Nat.lt_of_lt_of_le present grown) rest)
    intro values further onwards all
    exact pure fun _ enough => List.forall_mem_cons.mpr
      ⟨also.mono (Nat.le_trans onwards enough), all.mono enough⟩

theorem evaluateBranches (rooms : Rooms inner outer) {id : ContextId} {size : Nat}
    (present : id < size) : (branches : Branches Span) →
    Matches size Value.Present (Chronicle.evaluateBranches host inner id branches)
      (Chronicle.evaluateBranches host outer id branches)
  | .done => pure fun _ _ => (Value.hereditary_within 0 _).null
  | .otherwise body block => by
    apply bind (evaluateIn rooms present body)
    intro value more _ also
    exact pure fun size enough => (Value.hereditary_within 0 size).body block (also.mono enough)
  | .orElse condition body block rest => by
    apply bind (evaluateIn rooms present condition)
    intro truth more grown _
    have here := Nat.lt_of_lt_of_le present grown
    apply ite _ (evaluateBranches rooms here rest)
    apply bind (evaluateIn rooms here body)
    intro value further _ also
    exact pure fun size enough => (Value.hereditary_within 0 size).body block (also.mono enough)

end

end Matches

/-! ## Runs -/

/-- A guard in front of an evaluation changes nothing, as the state is grounded. -/
theorem matches_guard {told : Chronicle Value} {guarded : Recount} {id : ContextId}
    (present : id < size) {expr : Located}
    (matched : Matches size Value.Present told (guarded expr id)) (astray : Recount) :
    Matches size Value.Present told (Chronicle.guard astray guarded expr id) := by
  intro machine enough grounded
  have rooted := grounded.global_rootOf (Nat.lt_of_lt_of_le present enough)
  rw [Chronicle.guard, if_pos rooted]
  exact matched enough grounded

theorem rooms_insideGuarded (host : Host) (astray : Recount) (room : Nat) :
    Matches.Rooms (Chronicle.inside host room) (Chronicle.insideGuarded host astray room) := by
  induction room with
  | zero => exact .full
  | succ room ih =>
    apply Matches.Rooms.inside
    intro expr id size present
    rw [Chronicle.evaluate_eq, Chronicle.evaluateGuarded_eq]
    exact matches_guard present (Matches.evaluateIn ih present expr) astray

theorem matches_evaluate (host : Host) (astray : Recount) (room : Nat) (expr : Located)
    {id : ContextId} (present : id < size) :
    Matches size Value.Present (Chronicle.evaluate host room expr id)
      (Chronicle.evaluateGuarded host astray room expr id) := by
  cases rooms_insideGuarded host astray (room + 1) with
  | inside matched => exact matched expr id size present

theorem matches_callValue (host : Host) (astray : Recount) (room : Nat) {callee : Value}
    (called : callee.Present size) {arguments : List Value} (all : Value.AllPresent size arguments)
    (span : Span) {caller : ContextId} (present : caller < size) :
    Matches size Value.Present
      (Chronicle.callValue host (Chronicle.inside host room) callee arguments span caller)
      (Chronicle.callValue host (Chronicle.insideGuarded host astray room) callee arguments span
        caller) :=
  Matches.callValue (rooms_insideGuarded host astray room) called all span present

end Quill
