import Quill.Proofs.Chronicle.Course
import Quill.Proofs.Chronicle.Evaluation
import Quill.Proofs.Instances.Origins

/-!
# References and instances in chronicles

Whatever happens in a run, all references are kept, and all instances that are in the states of the
run or in what it ends with were there before, or come from an evaluation of `new` that has begun at
one of its moments. Contexts are added all along, and wherever an instance is made.

The rules here say so of each way to put code together, if it is so of its parts.
-/

namespace Quill

/-! ## Tracks -/

/-- Whether all instances are known that evaluations of `new` make which begin in the record. -/
def KnowsMade (host : Host) (known : Object → Prop) (log : List Moment) : Prop :=
  ∀ moment ∈ log, ∀ made, Instant.Makes ⟨host, moment⟩ made → known made

/-- What was told from a state on, at moments with at least `low` contexts. -/
structure Tracked {Result : Type} (host : Host) (known : Object → Prop)
    (post : Nat → Result → Prop) (machine : Machine) (low : Nat) (told : Told (Outcome Result)) :
    Prop extends Retains known post machine told.ending where
  /-- Contexts are added wherever instances are made. -/
  climbs : Climbs low (told.log.map (Instant.mk host)) (Outcome.machine told.ending).store.size
  /-- All references are kept, at all moments. -/
  moments : ∀ moment ∈ told.log, moment.machine.Fits known

/-- What a chronicle tells from every state on that has at least so many contexts and leaves room
for as many activations as given, if all instances are known that are made. -/
def Tracks {Result : Type} (host : Host) (known : Object → Prop) (left size : Nat)
    (post : Nat → Result → Prop) (told : Chronicle Result) : Prop :=
  ∀ ⦃machine : Machine⦄, host.config.maxCallDepth - machine.depth = left →
    size ≤ machine.store.size → machine.Fits known → KnowsMade host known (told machine).log →
      Tracked host known post machine machine.store.size (told machine)

variable {Result Other : Type} {host : Host} {known : Object → Prop} {left size : Nat}
  {post : Nat → Result → Prop}

theorem Retains.imp {machine : Machine} {outcome : Outcome Result} {later : Nat → Result → Prop}
    (retains : Retains known post machine outcome)
    (results : ∀ result after, outcome = .ok result after → post after.store.size result →
      later after.store.size result) : Retains known later machine outcome where
  size := retains.size
  depth := retains.depth
  fits := retains.fits
  ends := by
    cases outcome with
    | ok result after => exact results result after rfl retains.ends
    | error signal after => exact retains.ends

namespace Tracks

open Chronicle (andThen_ok andThen_error)

theorem mono {told : Chronicle Result} (tracks : Tracks host known left size post told) {more : Nat}
    (grown : size ≤ more) : Tracks host known left more post told :=
  fun _ room enough fits => tracks room (Nat.le_trans grown enough) fits

theorem pure {result : Result} (results : ∀ more, size ≤ more → post more result) :
    Tracks host known left size post (Pure.pure result) := by
  intro machine _ enough fits _
  exact ⟨.of_store_eq fits rfl rfl fits.exported (results _ enough), .nil (Nat.le_refl _),
    List.forall_mem_nil _⟩

theorem bind {middle : Nat → Other → Prop} {first : Chronicle Other}
    {next : Other → Chronicle Result} (firsts : Tracks host known left size middle first)
    (nexts : ∀ result more, size ≤ more → middle more result →
      Tracks host known left more post (next result)) :
    Tracks host known left size post (first >>= next) := by
  intro machine room enough fits knows
  cases told : first machine with
  | mk ending log =>
    have began := firsts room enough fits
    rw [told] at began
    cases ending with
    | error signal after =>
      rw [andThen_error next told] at knows ⊢
      obtain ⟨retains, climbs, moments⟩ := began knows
      exact ⟨⟨retains.size, retains.depth, retains.fits, retains.ends⟩, climbs, moments⟩
    | ok result between =>
      rw [andThen_ok next told] at knows ⊢
      obtain ⟨earlier, later⟩ := List.forall_mem_append.mp knows
      obtain ⟨retains, climbs, moments⟩ := began earlier
      have same : host.config.maxCallDepth - between.depth = left := retains.depth ▸ room
      obtain ⟨further, climb, rest⟩ := nexts result between.store.size
        (Nat.le_trans enough retains.size) retains.ends same (Nat.le_refl _) retains.fits later
      refine ⟨⟨Nat.le_trans retains.size further.size, further.depth.trans retains.depth,
        further.fits, further.ends⟩, ?_, List.forall_mem_append.mpr ⟨moments, rest⟩⟩
      rw [List.map_append]
      exact climbs.append climb

theorem ite {condition : Prop} [Decidable condition] {told other : Chronicle Result}
    (yes : Tracks host known left size post told) (no : Tracks host known left size post other) :
    Tracks host known left size post (if condition then told else other) := by
  split
  · exact yes
  · exact no

/-! ### Steps -/

/-- Something happens in a step at which no evaluation of `new` begins. -/
theorem record {step : Eval Result} (steady : Steady known size post step) {success : Happening}
    (idle : ∀ template, success ≠ .instantiated template) :
    Tracks host known left size post (Chronicle.record success step) := by
  intro machine _ enough fits _
  have retains := steady enough fits
  refine ⟨retains, .single retains.size (Nat.le_refl _) (Instant.not_begins ?_ _ _),
    List.forall_mem_singleton.mpr retains.fits⟩
  intro template
  unfold Outcome.happening
  split
  · exact idle template
  · rintro ⟨⟩
  · rintro ⟨⟩

theorem perform {step : Eval Result} (upholds : (Regime.fits known).Upholds size post step) :
    Tracks host known left size post (Chronicle.perform step) :=
  record (.of_upholds upholds) fun _ same => nomatch same

theorem raise (fault : Fault) (span : Span) (id : ContextId) :
    Tracks host known left size post (Chronicle.perform (Eval.raise fault span id)) :=
  perform (.raise fault span id)

theorem orRaise {result : Except Fault Result}
    (sound : ∀ more, size ≤ more → Sound (post more) result) (span : Span) (id : ContextId) :
    Tracks host known left size post (Chronicle.orRaise result span id) := by
  cases result with
  | ok value => exact pure sound
  | error fault => exact raise fault span id

theorem note {happening : Happening} (idle : ∀ template, happening ≠ .instantiated template) :
    Tracks host known left size (fun _ _ => True) (Chronicle.note happening) := by
  intro machine _ _ fits _
  refine ⟨.of_store_eq fits rfl rfl fits.exported trivial,
    .single (Nat.le_refl _) (Nat.le_refl _) (Instant.not_begins idle _ _),
    List.forall_mem_singleton.mpr fits⟩

theorem assign (target : ContextId) (name : String) {value : Value} (also : value.Fits known size)
    (manner : Manner) (span : Span) (id : ContextId) :
    Tracks host known left size (fun _ _ => True)
      (Chronicle.assign target name value manner span id) :=
  record (.of_upholds (.assign target name also span id)) fun _ same => nomatch same

theorem define (name : Option String) (parameters : List String) (body : Located) (valued : Bool)
    (span : Span) {id : ContextId} (present : id < size) :
    Tracks host known left size (Value.Fits known)
      (Chronicle.define name parameters body valued span id) := by
  apply bind (perform .freshId)
  intro serial more grown _
  have here := Nat.lt_of_lt_of_le present grown
  cases name with
  | none => exact pure fun most enough => Value.fits_user.mpr (Nat.lt_of_lt_of_le here enough)
  | some bound =>
    apply bind (assign id bound (Value.fits_user.mpr here) .direct span id)
    intro _ further again _
    exact pure fun most enough =>
      Value.fits_user.mpr (Nat.lt_of_lt_of_le here (Nat.le_trans again enough))

theorem defineTemplate (name : String) (body : Located) (span : Span) (id : ContextId) :
    Tracks host known left size (Value.Fits known)
      (Chronicle.defineTemplate name body span id) := by
  apply bind (perform .freshId)
  intro serial more _ _
  have template (more : Nat) : Value.Fits known more (.object ⟨serial, name, body, false, id⟩) :=
    Value.fits_object.mpr fun made => absurd made Bool.false_ne_true
  apply bind (assign id name (template more) .direct span id)
  intro _ _ _ _
  exact pure fun most _ => template most

/-! ### Edges -/

/-- What an outcome looks like from outside an edge, where nothing is changed. -/
structure Shown (known : Object → Prop) (post : Nat → Result → Prop) (inner : Machine)
    (outer : Outcome Result) : Prop where
  /-- The contexts are the same on both sides. -/
  store : (Outcome.machine outer).store = inner.store
  /-- As many activations are open on both sides. -/
  depth : (Outcome.machine outer).depth = inner.depth
  /-- The running script exports the same on both sides. -/
  exported : (Outcome.machine outer).exported = inner.exported
  /-- The outcome fits. -/
  ends : Outcome.Fits known post outer

/-- Noting events is no beginning. -/
theorem climbs_events (host : Host) (machine : Machine) (events : List Event) :
    Climbs machine.store.size
      ((events.map fun event => (Happening.noted event).at machine).map (Instant.mk host))
      machine.store.size := by
  induction events with
  | nil => exact .nil (Nat.le_refl _)
  | cons event rest ih =>
    exact .cons (Nat.le_refl _) (Instant.not_begins (by rintro _ ⟨⟩) _ _) ih

theorem regard {later : Nat → Other → Prop} {view : Outcome Result → Outcome Other}
    {arising : Outcome Result → List Event} {inner : Chronicle Result}
    (tracks : Tracks host known left size post inner)
    (views : ∀ outcome, size ≤ (Outcome.machine outcome).store.size →
      Outcome.Fits known post outcome →
        Shown known later (Outcome.machine outcome) (view outcome)) :
    Tracks host known left size later (Chronicle.regard view arising inner) := by
  intro machine room enough fits knows
  obtain ⟨retains, climbs, moments⟩ :=
    tracks room enough fits (List.forall_mem_append.mp knows).1
  obtain ⟨store, depth, exported, ends⟩ :=
    views _ (Nat.le_trans enough retains.size) retains.ends
  have same := congrArg Store.size store
  refine ⟨⟨same ▸ retains.size, depth.trans retains.depth, ?_, ends⟩, ?_, ?_⟩
  · exact retains.fits.congr store (exported ▸ retains.fits.exported)
  · have whole := climbs.append (climbs_events host _ (arising (inner machine).ending))
    rw [← List.map_append] at whole
    exact same ▸ whole
  · refine List.forall_mem_append.mpr ⟨moments, List.forall_mem_map.mpr fun _ _ => retains.fits⟩

/-! ### Loops -/

theorem round {body : Chronicle Value}
    (tracks : Tracks host known left size (Value.Fits known) body) :
    Tracks host known left size (fun more => Loop.Round.Has (Value.Fits known more))
      (Chronicle.round body) := by
  apply regard tracks
  intro outcome _ ends
  cases outcome with
  | ok value after => exact ⟨rfl, rfl, rfl, ends⟩
  | error signal after =>
    cases signal with
    | failed failure => exact ⟨rfl, rfl, rfl, trivial⟩
    | returned value => exact ⟨rfl, rfl, rfl, ends⟩
    | broke span => exact ⟨rfl, rfl, rfl, trivial⟩
    | continued span => exact ⟨rfl, rfl, rfl, trivial⟩

theorem repeatWhile {condition body : Chronicle Value} {tooLong : Chronicle (List Value)}
    (conditions : Tracks host known left size (Value.Fits known) condition)
    (bodies : Tracks host known left size (Value.Fits known) body)
    (ends : Tracks host known left size (Value.AllFit known) tooLong) (keep : Bool) (rounds : Nat)
    {more : Nat} (grown : size ≤ more) {values : List Value}
    (earlier : Value.AllFit known more values) :
    Tracks host known left more (Value.AllFit known)
      (Chronicle.repeatWhile condition body keep tooLong rounds values) := by
  induction rounds generalizing values more with
  | zero =>
    apply bind (conditions.mono grown)
    intro _ most further _
    exact ite (ends.mono (Nat.le_trans grown further)) (pure fun _ enough =>
      earlier.mono (Nat.le_trans further enough))
  | succ rounds ih =>
    apply bind (conditions.mono grown)
    intro _ most further _
    have enough := Nat.le_trans grown further
    apply ite _ (pure fun _ last => earlier.mono (Nat.le_trans further last))
    apply bind (round (bodies.mono enough))
    intro ended least again last
    have kept := earlier.mono (Nat.le_trans further again)
    have collected := Loop.forall_mem_collect kept keep last
    cases ended with
    | left => exact pure fun _ last => kept.mono last
    | value result => exact ih (Nat.le_trans enough again) collected
    | skipped => exact ih (Nat.le_trans enough again) collected

theorem count {body : Int64 → Chronicle Value} {tooLong : Chronicle (List Value)}
    (bodies : ∀ counter, Tracks host known left size (Value.Fits known) (body counter))
    (ends : Tracks host known left size (Value.AllFit known) tooLong) (keep : Bool)
    (stop step : Int64) (rounds : Nat) (counter : Int64) {more : Nat} (grown : size ≤ more)
    {values : List Value} (earlier : Value.AllFit known more values) :
    Tracks host known left more (Value.AllFit known)
      (Chronicle.count body keep tooLong stop step rounds counter values) := by
  induction rounds generalizing counter values more with
  | zero => exact ite (ends.mono grown) (pure fun _ enough => earlier.mono enough)
  | succ rounds ih =>
    apply ite _ (pure fun _ enough => earlier.mono enough)
    apply bind (round ((bodies counter).mono grown))
    intro ended most further last
    have enough := Nat.le_trans grown further
    have kept := earlier.mono further
    have collected := Loop.forall_mem_collect kept keep last
    cases Integer.add? counter step with
    | none =>
      cases ended with
      | left => exact pure fun _ last => kept.mono last
      | value result => exact pure fun _ last => Value.AllFit.mono collected last
      | skipped => exact pure fun _ last => Value.AllFit.mono collected last
    | some next =>
      cases ended with
      | left => exact pure fun _ last => kept.mono last
      | value result => exact ih next enough collected
      | skipped => exact ih next enough collected

/-! ### Activations -/

/-- The activation is closed again, which changes nothing else. -/
theorem retains_leave {machine : Machine} {outcome : Outcome Result}
    (retains : Retains known post machine.opened outcome) :
    Retains known post machine (Eval.leave outcome) := by
  obtain ⟨size, depth, fits, ends⟩ := retains
  cases outcome with
  | ok result after =>
    exact ⟨size, Nat.sub_eq_of_eq_add depth, fits.congr rfl fits.exported, ends⟩
  | error signal after =>
    exact ⟨size, Nat.sub_eq_of_eq_add depth, fits.congr rfl fits.exported, ends⟩

theorem climbs_leave {low : Nat} {log : List Moment} {outcome : Outcome Result}
    (climbs : Climbs low (log.map (Instant.mk host)) (Outcome.machine outcome).store.size) :
    Climbs low
      ((log ++ [Happening.closed.at (Outcome.machine (Eval.leave outcome))]).map (Instant.mk host))
      (Outcome.machine (Eval.leave outcome)).store.size := by
  rw [List.map_append, Outcome.machine_leave]
  exact climbs.append (.single (Nat.le_refl _) (Nat.le_refl _)
    (Instant.not_begins (by rintro _ ⟨⟩) _ _))

theorem opened_room {machine : Machine}
    (room : host.config.maxCallDepth - machine.depth = left + 1) :
    host.config.maxCallDepth - machine.opened.depth = left := by
  change host.config.maxCallDepth - (machine.depth + 1) = left
  omega

theorem during {told : Chronicle Result} (tracks : Tracks host known left size post told) :
    Tracks host known (left + 1) size post (Chronicle.during told) := by
  intro machine room enough fits knows
  have opened : machine.opened.Fits known := fits.congr rfl fits.exported
  have inner : KnowsMade host known (told machine.opened).log := fun moment member =>
    knows moment (List.mem_cons_of_mem _ (List.mem_append_left _ member))
  obtain ⟨retains, climbs, moments⟩ := tracks (opened_room room) enough opened inner
  have left := retains_leave retains
  refine ⟨left, ?_, ?_⟩
  · exact .cons (Nat.le_refl _) (Instant.not_begins (by rintro _ ⟨⟩) _ _)
      (climbs_leave climbs)
  · exact List.forall_mem_cons.mpr ⟨opened, List.forall_mem_append.mpr
      ⟨moments, List.forall_mem_singleton.mpr left.fits⟩⟩

/-- With room for `left` more activations, everything can be evaluated that lies in them. -/
def Prepared (host : Host) (known : Object → Prop) (left : Nat) : Prop :=
  ∀ fewer, left = fewer + 1 → ∀ expr id size, id < size →
    Tracks host known fewer size (Value.Fits known) (Chronicle.evaluate host fewer expr id)

theorem activate (prepared : Prepared host known left) (span : Span) (id : ContextId)
    {work : Recount → Chronicle Result}
    (works : ∀ fewer, left = fewer + 1 →
      Tracks host known fewer size post (work (Chronicle.evaluate host fewer))) :
    Tracks host known left size post
      (Chronicle.activate host (Chronicle.inside host left) span id work) := by
  cases left with
  | zero => exact raise _ span id
  | succ fewer => exact during (works fewer rfl)

/-- Behind a step that adds a context, there is one context more at all moments. -/
theorem entering {context : Context} (table : context.table.All (Value.Fits known size))
    (older : ∀ outer, context.scope = some outer → outer < size)
    {next : ContextId → Chronicle Result}
    (nexts : ∀ id more, size ≤ more → id < more → Tracks host known left more post (next id))
    {machine : Machine} (room : host.config.maxCallDepth - machine.depth = left)
    (enough : size ≤ machine.store.size) (fits : machine.Fits known)
    (knows : KnowsMade host known
      ((Chronicle.perform (Eval.addContext context) >>= next) machine).log) :
    Tracked host known post machine (machine.store.size + 1)
      ((Chronicle.perform (Eval.addContext context) >>= next) machine) := by
  have added := Steady.addContext table older enough fits
  have grown : (machine.store.add context).2.size = machine.store.size + 1 := Store.size_add _ _
  rw [andThen_ok next rfl] at knows ⊢
  have tracks := nexts machine.store.size (machine.store.size + 1) (Nat.le_succ_of_le enough)
    (Nat.lt_succ_self _)
  obtain ⟨retains, climbs, moments⟩ :=
    @tracks { machine with store := (machine.store.add context).2 } room (Nat.le_of_eq grown.symm)
      added.fits (List.forall_mem_append.mp knows).2
  refine ⟨⟨Nat.le_trans added.size retains.size, retains.depth, retains.fits, retains.ends⟩, ?_,
    List.forall_mem_cons.mpr ⟨added.fits, moments⟩⟩
  exact .cons (Nat.le_of_eq grown.symm) (Instant.not_begins (by rintro _ ⟨⟩) _ _) climbs

theorem callUser (inside : ∀ expr id size, id < size →
      Tracks host known left size (Value.Fits known) (Chronicle.evaluate host left expr id))
    {function : UserFunction} (present : function.closure < size) {arguments : List Value}
    (all : Value.AllFit known size arguments) (span : Span) (caller : ContextId) :
    Tracks host known left size (Value.Fits known)
      (Chronicle.callUser function arguments span caller (Chronicle.evaluate host left)) := by
  have table := Table.all_ofArguments function.parameters all
  apply bind (record (Steady.addContext table fun outer scope => Option.some.inj scope ▸ present)
    (by rintro _ ⟨⟩))
  intro id more grown here
  apply regard (inside function.body id more here.2)
  intro outcome _ ends
  cases outcome with
  | ok value after =>
    have shown : (if function.valued then value else .null).Fits known after.store.size := by
      split
      · exact ends
      · exact Value.hereditary_fits.null
    exact ⟨rfl, rfl, rfl, shown⟩
  | error signal after =>
    cases signal with
    | returned value => exact ⟨rfl, rfl, rfl, ends⟩
    | failed failure => exact ⟨rfl, rfl, rfl, trivial⟩
    | broke span => exact ⟨rfl, rfl, rfl, trivial⟩
    | continued span => exact ⟨rfl, rfl, rfl, trivial⟩

/-- The members of an instance are evaluated in a context that is there in the end. -/
theorem instanceOfMembers {template : Object} {body : Chronicle Value} (span : Span)
    {id : ContextId} (present : id < size)
    (tracks : Tracks host known left size (Value.Fits known) body) :
    Tracks host known left size
      (fun more value => ∃ made, value = .object made ∧ made.context < more)
      (Chronicle.regard (Eval.instanceOfMembers template span id) Execution.strayFromMembers
        body) := by
  apply regard tracks
  intro outcome enough ends
  cases outcome with
  | ok value after => exact ⟨rfl, rfl, rfl, _, rfl, Nat.lt_of_lt_of_le present enough⟩
  | error signal after => exact ⟨rfl, rfl, rfl, trivial⟩

/-- The context of an instance is added where the evaluation of `new` has begun. -/
theorem activateNew (prepared : Prepared host known left) (template : Object) (name : String)
    (span : Span) {id : ContextId} (present : id < size) :
    Tracks host known left size
      (fun more value => ∃ made, value = .object made ∧ made.context < more)
      (Chronicle.note (.instantiated template) >>= fun _ =>
        Chronicle.activate host (Chronicle.inside host left) span id
          (Chronicle.instantiate template name span id)) := by
  intro machine room enough fits knows
  rw [andThen_ok _ rfl] at knows ⊢
  cases left with
  | zero =>
    have idle : ¬Instant.Begins ⟨host, (Happening.instantiated template).at machine⟩ :=
      fun begins => Nat.not_lt_of_ge (Nat.le_of_sub_eq_zero room) begins.2
    refine ⟨.of_store_eq fits rfl rfl fits.exported trivial, .cons (Nat.le_refl _) idle ?_, ?_⟩
    · exact .single (Nat.le_refl _) (Nat.le_refl _) (Instant.not_begins (by rintro _ ⟨⟩) _ _)
    · exact List.forall_mem_cons.mpr ⟨fits, List.forall_mem_singleton.mpr fits⟩
  | succ fewer =>
    have opened : machine.opened.Fits known := fits.congr rfl fits.exported
    have inner : KnowsMade host known
        (Chronicle.instantiate template name span id (Chronicle.evaluate host fewer)
          machine.opened).log := fun moment member =>
      knows moment (List.mem_cons_of_mem _ (List.mem_cons_of_mem _ (List.mem_append_left _ member)))
    obtain ⟨retains, climbs, moments⟩ := entering Table.all_empty
      (fun outer scope => Option.some.inj scope ▸ present)
      (fun own more _ here => instanceOfMembers span here
        (prepared fewer rfl template.body own more here))
      (opened_room room) enough opened inner
    have left := retains_leave retains
    refine ⟨left, ?_, ?_⟩
    · exact @Climbs.beginning _ _ ⟨host, (Happening.instantiated template).at machine⟩
        ⟨host, Happening.opened.at machine.opened⟩ rfl rfl (climbs_leave climbs)
    · exact List.forall_mem_cons.mpr ⟨fits, List.forall_mem_cons.mpr ⟨opened,
        List.forall_mem_append.mpr ⟨moments, List.forall_mem_singleton.mpr left.fits⟩⟩⟩

/-- What is told by a successful evaluation of `new` has the beginning of it. -/
theorem makes_of_makeInstance {name : String} {span : Span} {id : ContextId}
    {machine after : Machine} {made : Object} {room : Nat}
    (left : host.config.maxCallDepth - machine.depth = room)
    (ended :
      (Chronicle.makeInstance host (Chronicle.inside host room) name span id machine).ending =
        .ok (.object made) after) :
    ∃ moment ∈ (Chronicle.makeInstance host (Chronicle.inside host room) name span id machine).log,
      Instant.Makes ⟨host, moment⟩ made := by
  cases found : Eval.objectNamed name span id machine with
  | error signal between =>
    have performed : Chronicle.perform (Eval.objectNamed name span id) machine =
        ⟨.error signal between,
          [(Outcome.happening .stepped (.error signal between : Outcome Object)).at between]⟩ := by
      rw [Chronicle.perform, Chronicle.record, found]
      rfl
    rw [Chronicle.makeInstance, andThen_error _ performed] at ended
    cases ended
  | ok template between =>
    obtain ⟨rfl, bound⟩ := Eval.objectNamed_eq_ok found
    have evaluated : Eval.evaluate host (host.config.maxCallDepth - between.depth)
        (.instantiate name span) id between = .ok (.object made) after := by
      rw [left, ← Chronicle.ending_evaluate, Chronicle.evaluate_eq, Chronicle.evaluateIn]
      exact ended
    refine ⟨(Happening.instantiated template).at between, ?_, template, name, span, id, after, rfl,
      bound, evaluated⟩
    have performed : Chronicle.perform (Eval.objectNamed name span id) between =
        ⟨.ok template between, [Happening.stepped.at between]⟩ := by
      rw [Chronicle.perform, Chronicle.record, found]
      rfl
    rw [Chronicle.makeInstance, andThen_ok _ performed, andThen_ok _ rfl]
    simp

theorem makeInstance (prepared : Prepared host known left) (name : String) (span : Span)
    {id : ContextId} (present : id < size) :
    Tracks host known left size (Value.Fits known)
      (Chronicle.makeInstance host (Chronicle.inside host left) name span id) := by
  intro machine room enough fits knows
  have weak : Tracks host known left size
      (fun more value => ∃ made, value = .object made ∧ made.context < more)
      (Chronicle.makeInstance host (Chronicle.inside host left) name span id) :=
    bind (perform (.objectNamed name span id)) fun template more grown _ =>
      activateNew prepared template name span (Nat.lt_of_lt_of_le present grown)
  obtain ⟨retains, climbs, moments⟩ := weak room enough fits knows
  refine ⟨retains.imp ?_, climbs, moments⟩
  rintro value after ended ⟨made, rfl, here⟩
  obtain ⟨moment, member, makes⟩ := makes_of_makeInstance room ended
  exact Value.fits_object.mpr fun _ => ⟨knows moment member made makes, here⟩

/-! ### Scripts -/

section

variable (inside : ∀ expr id size, id < size →
  Tracks host known left size (Value.Fits known) (Chronicle.evaluate host left expr id))

include inside

theorem runIn {root : ContextId} (present : root < size) (path text : String) :
    Tracks host known left size (fun _ _ => True)
      (Chronicle.runIn root (Chronicle.evaluate host left) path text) := by
  intro machine room enough fits knows
  let start := { machine with serial := machine.serial + 1 }
  have begun : start.Fits known := fits.congr rfl fits.exported
  have stepped : ¬Instant.Begins ⟨host, Happening.stepped.at start⟩ :=
    Instant.not_begins (by rintro _ ⟨⟩) _ _
  revert knows
  unfold Chronicle.runIn Chronicle.runText
  dsimp only
  cases read : Eval.read ⟨machine.serial, path, text⟩ with
  | error error =>
    intro _
    exact ⟨.of_store_eq fits rfl rfl fits.exported trivial,
      .single (Nat.le_refl _) (Nat.le_refl _) stepped, List.forall_mem_singleton.mpr begun⟩
  | ok tree =>
    intro knows
    have inner : KnowsMade host known (Chronicle.evaluate host left tree root start).log :=
      fun moment member =>
        knows moment (List.mem_append_left _ (List.mem_cons_of_mem _ member))
    obtain ⟨retains, climbs, moments⟩ :=
      @inside tree root size present start room enough begun inner
    have whole := (Climbs.cons (Nat.le_refl _) stepped climbs).append
      (climbs_events host _
        (Execution.strayFromBody (Chronicle.evaluate host left tree root start).ending))
    rw [← List.map_cons, ← List.map_append] at whole
    dsimp only
    rw [Eval.machine_resultOfScript]
    refine ⟨⟨retains.size, retains.depth, retains.fits, trivial⟩, whole, ?_⟩
    exact List.forall_mem_append.mpr ⟨List.forall_mem_cons.mpr ⟨begun, moments⟩,
      List.forall_mem_map.mpr fun _ _ => retains.fits⟩

omit inside in
theorem within {root : ContextId} {told : Chronicle Result}
    (tracks : Tracks host known left size post told) :
    Tracks host known left size post (Chronicle.within root told) := by
  intro machine room enough fits knows
  obtain ⟨retains, climbs, moments⟩ := tracks room enough fits (List.forall_mem_map.mp knows)
  exact ⟨retains, climbs.within root, List.forall_mem_map.mpr moments⟩

theorem includeScript (call : Invocation) (present : call.caller < size) :
    Tracks host known left size (Value.Fits known)
      (Chronicle.includeScript call host (Chronicle.evaluate host left)) := by
  apply bind (perform (.loadScript call host))
  intro loaded more grown _
  cases loaded with
  | none => exact perform (.exception call _)
  | some script =>
    apply bind (perform (.rootOf (Nat.lt_of_lt_of_le present grown)))
    intro root further _ here
    apply bind (within (runIn inside here script.1 script.2))
    intro result most _ _
    apply bind (perform (.resultOf call script.1 result))
    intro _ _ _ _
    exact pure fun _ _ => Value.hereditary_fits.null

theorem runScript (call : Invocation) :
    Tracks host known left size (Value.Fits known)
      (Chronicle.runScript call host (Chronicle.evaluate host left)) := by
  apply bind (perform (.loadScript call host))
  intro loaded more grown _
  cases loaded with
  | none => exact perform (.exception call _)
  | some script =>
    apply bind (perform .enterScript)
    rintro ⟨saved, root⟩ further _ ⟨kept, here⟩
    apply bind (runIn inside here script.1 script.2)
    intro result most upwards _
    apply bind (perform (.leaveScript fun value same => (kept value same).mono upwards))
    intro exported last onwards exports
    apply bind (perform (.resultOf call script.1 result))
    intro _ final after _
    apply pure
    intro ending enough
    cases exported with
    | none => exact Value.hereditary_fits.null
    | some value => exact (exports value rfl).mono (Nat.le_trans after enough)

/-! ### Calls -/

theorem invoke {call : Invocation} (present : call.caller < size)
    (arguments : ∀ parameter, (call.argument parameter).Fits known size) (builtin : Builtin) :
    Tracks host known left size (Value.Fits known)
      (Chronicle.invoke call host (Chronicle.evaluate host left) builtin) := by
  apply bind (note (by rintro _ ⟨⟩))
  intro _ more grown _
  by_cases included : builtin = .includeScript
  · subst included
    exact includeScript inside call (Nat.lt_of_lt_of_le present grown)
  by_cases started : builtin = .runScript
  · subst started
    exact runScript inside call
  have upholds := @Regime.Upholds.run (.fits known) more call
    (fun parameter => (arguments parameter).mono grown) host (fun _ _ => Pure.pure .null) builtin
    included started
  cases builtin with
  | includeScript => exact absurd rfl included
  | runScript => exact absurd rfl started
  | _ => exact perform upholds

theorem callBuiltin (function : BuiltinFunction) {arguments : List Value}
    (all : Value.AllFit known size arguments) (span : Span) {caller : ContextId}
    (present : caller < size) :
    Tracks host known left size (Value.Fits known)
      (Chronicle.callBuiltin host function arguments span caller
        (Chronicle.evaluate host left)) := by
  unfold Chronicle.callBuiltin
  cases Builtin.named? function.name with
  | none => exact raise _ span caller
  | some builtin =>
    apply invoke inside present
    intro parameter
    have table := Table.all_ofArguments function.parameters all
    unfold Invocation.argument Eval.invocationOf
    cases found : (Table.ofArguments function.parameters arguments).value? parameter with
    | none => exact Value.hereditary_fits.null
    | some value => exact table parameter value found

end

theorem callValue (prepared : Prepared host known left) {callee : Value}
    (called : callee.Fits known size) {arguments : List Value}
    (all : Value.AllFit known size arguments) (span : Span) {caller : ContextId}
    (present : caller < size) :
    Tracks host known left size (Value.Fits known)
      (Chronicle.callValue host (Chronicle.inside host left) callee arguments span caller) := by
  cases callee with
  | function function =>
    apply bind (note (by rintro _ ⟨⟩))
    intro _ more grown _
    apply bind (orRaise (fun _ _ => Bodies.sound_checkArity _ _) span caller)
    intro _ further onwards _
    have whole := Nat.le_trans grown onwards
    apply activate prepared span caller
    intro fewer same
    cases function with
    | user defined =>
      exact callUser (prepared fewer same) (Nat.lt_of_lt_of_le (Value.fits_user.mp called) whole)
        (all.mono whole) span caller
    | builtin provided =>
      exact callBuiltin (prepared fewer same) provided (all.mono whole) span
        (Nat.lt_of_lt_of_le present whole)
  | _ => exact raise _ span caller

/-! ### Expressions -/

mutual

/-- All references are kept in the evaluation of an expression if they are in what lies in other
activations. -/
theorem evaluateIn (prepared : Prepared host known left) {id : ContextId} {size : Nat}
    (present : id < size) : (expr : Located) →
    Tracks host known left size (Value.Fits known)
      (Chronicle.evaluateIn host (Chronicle.inside host left) id expr)
  | .literal value _ => pure fun _ _ => Value.hereditary_fits.ofLiteral value
  | .unary op operand span => by
    apply bind (evaluateIn prepared present operand)
    intro value more _ also
    exact orRaise (fun _ enough => Value.hereditary_fits.sound_unary op (also.mono enough)) span id
  | .binary op left right span => by
    apply bind (evaluateIn prepared present left)
    intro first more grown also
    apply bind (evaluateIn prepared (Nat.lt_of_lt_of_le present grown) right)
    intro second further onwards too
    apply bind (note (by rintro _ ⟨⟩))
    intro _ most again _
    have before := also.mono (Nat.le_trans onwards again)
    exact orRaise (fun _ enough => Value.hereditary_fits.sound_binary op (before.mono enough)
      ((too.mono again).mono enough)) span id
  | .list elements _ => by
    apply bind (evaluateAll prepared present elements)
    intro values more _ all
    exact pure fun _ enough => (Value.hereditary_fits.list_iff values).mpr (all.mono enough)
  | .choice branches _ => evaluateBranches prepared present branches
  | .forLoop counter start stop step body block span => by
    rw [Chronicle.evaluateIn]
    apply bind (evaluateIn prepared present start)
    intro first more grown _
    apply bind (evaluateIn prepared (Nat.lt_of_lt_of_le present grown) stop)
    intro last further onwards _
    have here := Nat.lt_of_lt_of_le present (Nat.le_trans grown onwards)
    cases first with
    | int first =>
      cases last with
      | int last =>
        have round {most : Nat} (enough : further ≤ most) (value : Int64) :
            Tracks host known left most (Value.Fits known)
              (Chronicle.assign id counter (.int value) .direct span id >>= fun _ =>
                Chronicle.evaluateIn host (Chronicle.inside host left) id body) := by
          apply bind (assign id counter (Value.hereditary_fits.int value) .direct span id)
          intro _ _ again _
          exact evaluateIn prepared
            (Nat.lt_of_lt_of_le here (Nat.le_trans enough again)) body
        have results {most : Nat} (enough : further ≤ most) (step : Int64) := bind
          (count (round enough)
            (raise (.loopLimit host.config.maxLoopIterations) span id) (!block) last step
            host.config.maxLoopIterations first (Nat.le_refl _) (List.forall_mem_nil _))
          fun values _ _ all => pure fun _ enough =>
            Value.hereditary_fits.loop block (Value.AllFit.mono all enough)
        cases step with
        | none =>
          have one : Tracks host known left further (fun _ _ => True)
              (Pure.pure 1 : Chronicle Int64) := pure fun _ _ => trivial
          exact bind one fun step _ enough _ => results enough step
        | some expr =>
          apply bind (evaluateIn prepared here expr)
          intro value most enough _
          exact bind (perform (.stepOf value first last expr.note id))
            fun step _ again _ => results (Nat.le_trans enough again) step
      | _ => exact raise .loopBounds span id
    | _ => exact raise .loopBounds span id
  | .whileLoop condition body block span => by
    rw [Chronicle.evaluateIn]
    apply bind (repeatWhile (evaluateIn prepared present condition)
      (evaluateIn prepared present body)
      (raise (.loopLimit host.config.maxLoopIterations) span id) (!block) _ (Nat.le_refl _)
      (List.forall_mem_nil _))
    intro values more _ all
    exact pure fun _ enough => Value.hereditary_fits.loop block (Value.AllFit.mono all enough)
  | .read name span => perform (.readName name span id)
  | .assign name expr span => by
    apply bind (evaluateIn prepared present expr)
    intro value more _ also
    apply bind (assign id name also .direct span id)
    intro _ _ again _
    exact pure fun _ enough => also.mono (Nat.le_trans again enough)
  | .member object name span => perform (.readMember object name span id)
  | .assignMember object name expr span => by
    apply bind (perform (.instanceNamed object span id))
    intro target more grown _
    apply bind (evaluateIn prepared (Nat.lt_of_lt_of_le present grown) expr)
    intro value further _ also
    apply bind (assign target.context name also (.member target) span id)
    intro _ _ again _
    exact pure fun _ enough => also.mono (Nat.le_trans again enough)
  | .function name parameters body valued span => define name parameters body valued span present
  | .call callee arguments span => by
    apply bind (evaluateIn prepared present callee)
    intro function more grown called
    apply bind (evaluateAll prepared (Nat.lt_of_lt_of_le present grown) arguments)
    intro values further onwards all
    exact callValue prepared (called.mono onwards) all span
      (Nat.lt_of_lt_of_le present (Nat.le_trans grown onwards))
  | .template name body span => defineTemplate name body span id
  | .instantiate name span => makeInstance prepared name span present
  | .returnWith none _ => perform (.returned Value.hereditary_fits.null)
  | .returnWith (some expr) _ => by
    apply bind (evaluateIn prepared present expr)
    intro value more _ also
    exact perform (.returned also)
  | .breakLoop span => perform (.broke span)
  | .continueLoop span => perform (.continued span)

theorem evaluateAll (prepared : Prepared host known left) {id : ContextId} {size : Nat}
    (present : id < size) : (elements : List Located) →
    Tracks host known left size (Value.AllFit known)
      (Chronicle.evaluateAll host (Chronicle.inside host left) id elements)
  | [] => pure fun _ _ => List.forall_mem_nil _
  | element :: rest => by
    apply bind (evaluateIn prepared present element)
    intro value more grown also
    apply bind (evaluateAll prepared (Nat.lt_of_lt_of_le present grown) rest)
    intro values further onwards all
    exact pure fun _ enough => List.forall_mem_cons.mpr
      ⟨also.mono (Nat.le_trans onwards enough), all.mono enough⟩

theorem evaluateBranches (prepared : Prepared host known left) {id : ContextId} {size : Nat}
    (present : id < size) : (branches : Branches Span) →
    Tracks host known left size (Value.Fits known)
      (Chronicle.evaluateBranches host (Chronicle.inside host left) id branches)
  | .done => pure fun _ _ => Value.hereditary_fits.null
  | .otherwise body block => by
    apply bind (evaluateIn prepared present body)
    intro value more _ also
    exact pure fun _ enough => Value.hereditary_fits.body block (also.mono enough)
  | .orElse condition body block rest => by
    apply bind (evaluateIn prepared present condition)
    intro truth more grown _
    have here := Nat.lt_of_lt_of_le present grown
    apply ite _ (evaluateBranches prepared here rest)
    apply bind (evaluateIn prepared here body)
    intro value further _ also
    exact pure fun _ enough => Value.hereditary_fits.body block (also.mono enough)

end

end Tracks

/-! ## Runs -/

theorem prepared_of_room (host : Host) (known : Object → Prop) (left : Nat) :
    Tracks.Prepared host known left := by
  induction left with
  | zero => rintro fewer ⟨⟩
  | succ left ih =>
    rintro fewer ⟨⟩ expr id size present
    rw [Chronicle.evaluate_eq]
    exact Tracks.evaluateIn ih present expr

theorem tracks_evaluate (host : Host) (known : Object → Prop) (left : Nat) (expr : Located)
    {id : ContextId} {size : Nat} (present : id < size) :
    Tracks host known left size (Value.Fits known) (Chronicle.evaluate host left expr id) := by
  rw [Chronicle.evaluate_eq]
  exact Tracks.evaluateIn (prepared_of_room host known left) present expr

theorem tracks_callValue (host : Host) (known : Object → Prop) (left : Nat) {callee : Value}
    {size : Nat} (called : callee.Fits known size) {arguments : List Value}
    (all : Value.AllFit known size arguments) (span : Span) {caller : ContextId}
    (present : caller < size) :
    Tracks host known left size (Value.Fits known)
      (Chronicle.callValue host (Chronicle.inside host left) callee arguments span caller) :=
  Tracks.callValue (prepared_of_room host known left) called all span present

end Quill
