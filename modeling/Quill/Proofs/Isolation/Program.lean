import Quill.Proofs.Isolation.Lawful

/-!
# Programs are lawful

Code that is evaluated in sealed contexts is lawful, whatever it calls, includes or runs. A script
that is run on its own begins with a new outermost context, which nothing leads out of. So it leaves
every older context and the export of its caller alone, also if the contexts of the caller are not
sealed.
-/

namespace Quill.Transcript

variable {Result : Type} {host : Host} {base size : Nat} {transcribe : Transcribe}

/-- Whatever lies in other activations is lawful, from every context that is not older. -/
def Lawful (base : Nat) (transcribe : Transcribe) : Prop :=
  ∀ size expr id, Between base size id → Obeys base size (Inside base) (transcribe expr id)

/-- Whatever lies in other activations is lawful, if there is room for any. -/
def AllLawful (base : Nat) (inner : Option Transcribe) : Prop :=
  ∀ transcribe, inner = some transcribe → Lawful base transcribe

/-! ## Definitions -/

theorem obeys_define (name : Option String) (parameters : List String) (body : Located)
    (valued : Bool) (span : Span) {id : ContextId} (between : Between base size id) :
    Obeys base size (Inside base) (define name parameters body valued span id) := by
  apply obeys_bind (obeys_perform Confined.freshId)
  intro more grown serial _
  have closure : Between base more id := between.mono grown
  cases name with
  | none => exact obeys_pure fun most grows => Value.within_user (closure.mono grows)
  | some bound =>
    apply obeys_bind (obeys_assign between.1 bound (Value.within_user closure) span id)
    intro most also _ _
    exact obeys_pure fun last grows => Value.within_user (closure.mono (Nat.le_trans also grows))

theorem obeys_defineTemplate (name : String) (body : Located) (span : Span) {id : ContextId}
    (between : Between base size id) :
    Obeys base size (Inside base) (defineTemplate name body span id) := by
  apply obeys_bind (obeys_perform Confined.freshId)
  intro more grown serial _
  have context : Between base more id := between.mono grown
  apply obeys_bind (obeys_assign between.1 name (Value.within_object context) span id)
  intro most also _ _
  exact obeys_pure fun last grows => Value.within_object (context.mono (Nat.le_trans also grows))

/-! ## Activations -/

theorem obeys_activate {inner : Option Transcribe} (inners : AllLawful base inner) (span : Span)
    (id : ContextId) {post : Nat → Result → Prop} {work : Transcribe → Transcript Result}
    (works : ∀ transcribe, Lawful base transcribe → Obeys base size post (work transcribe)) :
    Obeys base size post (activate host inner span id work) := by
  cases inner with
  | none => exact obeys_raise not_false
  | some transcribe => exact obeys_during (works transcribe (inners transcribe rfl))

section

variable (lawful : Lawful base transcribe)

include lawful

theorem obeys_callUser {function : UserFunction} (closure : Between base size function.closure)
    {arguments : List Value} (all : ∀ argument ∈ arguments, argument.Within base size)
    (span : Span) {caller : ContextId} (between : Between base size caller) :
    Obeys base size (Inside base) (callUser function arguments span caller transcribe) := by
  apply obeys_bind (obeys_perform (Confined.addContext rfl between ?_
    (Table.all_ofArguments function.parameters all)
    (Table.isMutable_ofArguments function.parameters arguments)))
  · intro more _ id inside
    apply obeys_regard (lawful more function.body id inside)
    · rintro (_ | ⟨_ | _ | _ | _, _⟩) <;> rfl
    · rintro (_ | ⟨_ | _ | _ | _, _⟩) <;> rfl
    · rintro (⟨value, after⟩ | ⟨_ | _ | _ | _, after⟩) _ ends
      · change (if function.valued then value else .null).Within base _
        cases function.valued with
        | true => exact ends
        | false => exact (Value.hereditary_within base _).null
      · trivial
      · exact ends
      · trivial
      · trivial
    · rintro (_ | ⟨_ | _ | _ | _, _⟩) fault none some <;> cases none <;> cases some <;>
        exact not_false
  · rintro outer ⟨⟩
    exact closure

theorem obeys_instantiate (template : Object) (name : String) (span : Span) {caller : ContextId}
    (between : Between base size caller) :
    Obeys base size (Inside base) (instantiate template name span caller transcribe) := by
  apply obeys_bind (obeys_perform (Confined.addContext rfl between ?_ Table.all_empty ?_))
  · intro more _ id inside
    apply obeys_regard (lawful more template.body id inside)
    · rintro (_ | ⟨_ | _ | _ | _, _⟩) <;> rfl
    · rintro (_ | ⟨_ | _ | _ | _, _⟩) <;> rfl
    · rintro (⟨value, after⟩ | ⟨_ | _ | _ | _, after⟩) grown ends
      · exact Value.within_object (inside.mono grown)
      all_goals trivial
    · rintro (_ | ⟨_ | _ | _ | _, _⟩) fault none some <;> cases none <;> cases some <;>
        exact not_false
  · rintro outer ⟨⟩
    exact between
  · rintro bound binding ⟨⟩

/-! ## Scripts -/

theorem obeys_runIn {root : ContextId} (between : Between base size root) (path text : String) :
    Obeys base size (fun _ _ => True) (runIn root transcribe path text) := by
  intro machine sealed enough
  let begun := { machine with serial := machine.serial + 1 }
  have kept : machine.Keeps base begun := .refl sealed.store
  have start : Obeyed base machine [.stepped none begun] begun := by
    refine .stepped kept rfl ?_
    rintro fault ⟨⟩
  unfold runIn Invocation.runIn Eval.runText textDeeds
  dsimp only
  cases read : Eval.read ⟨machine.serial, path, text⟩ with
  | error error => exact ⟨start, trivial⟩
  | ok tree =>
    have ready : begun.Sealed base := ⟨sealed.store, sealed.exported⟩
    obtain ⟨obeyed, -⟩ := lawful size tree root between ready enough
    dsimp only
    change Obeyed base machine (.stepped none begun :: ((transcribe tree root).deeds begun ++ _))
      (Eval.resultOfScript tree root ((transcribe tree root).step begun)).2 ∧ True
    refine ⟨start.trans ?_, trivial⟩
    generalize (transcribe tree root).step begun = outcome at *
    have same : (Eval.resultOfScript tree root outcome).2 = Outcome.left outcome := by
      rcases outcome with _ | ⟨_ | _ | _ | _, _⟩ <;> rfl
    rw [same]
    apply obeyed.trans
    unfold arising
    split
    · rename_i fault none some
      refine .stepped (.refl obeyed.kept.sealed) rfl ?_
      rintro other ⟨⟩
      rcases outcome with _ | ⟨_ | _ | _ | _, _⟩ <;> cases none <;> cases some <;> exact not_false
    · exact .nothing (.refl obeyed.kept.sealed) rfl

theorem obeys_includeScript (host : Host) {call : Invocation}
    (between : Between base size call.caller) :
    Obeys base size (Inside base) (includeScript call host transcribe) := by
  apply obeys_bind (obeys_perform (Confined.loadScript call host))
  intro more grown loaded _
  cases loaded with
  | none => exact obeys_perform (Confined.exception call _)
  | some script =>
    apply obeys_bind (obeys_perform (Confined.rootOf (between.mono grown)))
    intro most _ machine root
    apply obeys_bind (obeys_runIn lawful root script.1 script.2)
    intro _ _ result _
    apply obeys_bind (obeys_perform (Confined.resultOf call script.1 result))
    intro _ _ _ _
    exact obeys_pure fun last _ => (Value.hereditary_within base last).null

/-- What is done for a script that is run on its own: contexts before `base` are left as they are,
and so is the export. -/
structure Isolated (base : Nat) (before : Machine) (deeds : List Deed) (outcome : Outcome Value) :
    Prop where
  /-- Older contexts are left as they are. -/
  kept : before.Keeps base (Outcome.left outcome)
  /-- Nothing is exported. -/
  exported : (Outcome.left outcome).exported = before.exported
  /-- Every deed is proper. -/
  proper : Deed.AllProper (Store.Sealed base) deeds
  /-- The result leads to no older context. -/
  ends : Outcome.Ends base (Inside base) outcome

/-- What runs a script that was loaded. -/
def runLoaded (call : Invocation) (transcribe : Transcribe) (path text : String) :
    Transcript Value := do
  let (saved, root) ← perform Invocation.enterScript
  let result ← runIn root transcribe path text
  let exported ← perform (Invocation.leaveScript saved)
  let _ ← perform (call.resultOf path result)
  return exported.getD .null

omit lawful in
/-- A script on its own begins with nothing exported, in a new outermost context. -/
theorem enterScript_eq_ok {machine : Machine} (sealed : machine.store.Sealed base)
    (present : base ≤ machine.store.size) :
    ∃ root entered, Invocation.enterScript machine = .ok (machine.exported, root) entered ∧
      machine.Keeps base entered ∧ Between base entered.store.size root ∧
      entered.exported = none := by
  let begun := { machine with exported := none }
  obtain ⟨keeps, inside⟩ := @Machine.keeps_addGlobals base begun sealed present
  exact ⟨_, _, rfl, keeps, inside, begun.exported_addGlobals⟩

omit lawful in
/-- What happens behind a script that was run on its own and has ended with the result: the export
of the caller is brought back, and an error becomes a fault. -/
theorem runLoaded_eq (call : Invocation) (path text : String) {machine entered ended : Machine}
    {root : ContextId} {result : Except Error Value}
    (enters : Invocation.enterScript machine = .ok (machine.exported, root) entered)
    (runs : (runIn root transcribe path text).step entered = .ok result ended) :
    let told := runLoaded call transcribe path text
    let restored := { ended with exported := machine.exported }
    let closed := call.resultOf path result restored
    (told.step machine =
        (call.resultOf path result >>= fun _ => pure (ended.exported.getD .null)) restored) ∧
      told.deeds machine = [.stepped none entered] ++
        ((runIn root transcribe path text).deeds entered ++ ([.stepped none restored] ++
          [.stepped (Outcome.fault? closed) (Outcome.left closed)])) := by
  have enter : (perform Invocation.enterScript).step machine = _ := enters
  have leaves : (perform (Invocation.leaveScript machine.exported)).step ended =
      .ok ended.exported { ended with exported := machine.exported } := rfl
  constructor
  · exact (step_bind_ok _ enter).trans ((step_bind_ok _ runs).trans (step_bind_ok _ leaves))
  · refine (deeds_bind_ok _ enter).trans ?_
    rw [deeds_bind_ok _ runs, deeds_bind_ok _ leaves]
    change [Deed.stepped (Outcome.fault? (Invocation.enterScript machine))
      (Outcome.left (Invocation.enterScript machine))] ++ _ = _
    rw [enters]
    cases result <;> rfl

/-- A script that was loaded begins in a new outermost context, with nothing exported. When it has
ended, what it has exported last is the result, and the caller's export is back. -/
theorem isolated_runLoaded (call : Invocation) (path text : String) {machine : Machine}
    (sealed : machine.store.Sealed base) (present : base ≤ machine.store.size) :
    let told := runLoaded call transcribe path text
    Isolated base machine (told.deeds machine) (told.step machine) ∧
      ∀ value after, told.step machine = .ok value after →
        value = (Deed.lastExport? (told.deeds machine)).getD .null := by
  obtain ⟨root, entered, enters, keeps, inside, forgotten⟩ := enterScript_eq_ok sealed present
  have ready : entered.Sealed base := by
    refine ⟨keeps.sealed, ?_⟩
    rw [forgotten]
    rintro value ⟨⟩
  obtain ⟨obeyed, -⟩ := obeys_runIn lawful inside path text ready (Nat.le_refl _)
  obtain ⟨result, ended, runs⟩ : ∃ result ended,
      (runIn root transcribe path text).step entered = .ok result ended := ⟨_, _, rfl⟩
  rw [runs] at obeyed
  let restored := { ended with exported := machine.exported }
  let closed := call.resultOf path result restored
  have kept : machine.Keeps base restored := keeps.trans obeyed.kept
  have closes := Confined.resultOf call path result kept.sealed (Nat.zero_le _)
  obtain ⟨steps, deeds⟩ := runLoaded_eq call path text enters runs
  intro told
  have proper : Deed.AllProper (Store.Sealed base) (told.deeds machine) := by
    have no (other : Fault) (none : (Option.none : Option Fault) = some other) :
        ¬other.Refuses := by cases none
    rw [deeds]
    exact (Deed.allProper_stepped keeps.sealed no).append (obeyed.proper.append
      ((Deed.allProper_stepped kept.sealed no).append
        (Deed.allProper_stepped closes.kept.sealed closes.unrefused)))
  have exports : ended.exported = Deed.lastExport? (told.deeds machine) := by
    have last : ended.exported = _ := obeyed.exported
    rw [deeds, last, forgotten]
    simp [Deed.lastExport?_append]
  have within : (ended.exported.getD .null).Within base restored.store.size := by
    cases found : ended.exported with
    | none => exact (Value.hereditary_within base _).null
    | some value => exact (obeyed.sealed ready).exported value found
  rw [steps]
  cases result with
  | ok value =>
    refine ⟨⟨kept, rfl, proper, within⟩, ?_⟩
    rintro value after ⟨⟩
    rw [exports]
  | error error =>
    refine ⟨⟨kept, rfl, proper, trivial⟩, ?_⟩
    rintro value after ⟨⟩

omit lawful in
/-- There is a script exactly if the argument is a string. -/
theorem loadScript_eq_ok {call : Invocation} {script : Option (String × String)}
    {machine after : Machine} (loaded : call.loadScript host machine = .ok script after) :
    script.isSome = true ↔ ∃ file, call.argument "file" = .str file := by
  rw [Invocation.loadScript] at loaded
  cases named : call.argument "file" with
  | str file =>
    rw [named] at loaded
    dsimp only at loaded
    cases read : host.disk.readText (Path.join host.config.baseDirectory file) with
    | ok text =>
      rw [read] at loaded
      cases loaded
      simp
    | error reason =>
      rw [read] at loaded
      cases loaded
  | _ =>
    rw [named] at loaded
    cases loaded
    simp

/-- What running a script on its own results in, given the argument and what has been done: the
value that was exported last, or an exception if the argument names no script. -/
def RunResult (argument : Value) (deeds : List Deed) (value : Value) : Prop :=
  match argument with
  | .str _ => value = (Deed.lastExport? deeds).getD .null
  | _ => ∃ failure, value = .exception failure

/-- Running a script on its own leaves older contexts and the export alone, whether there is such a
script or not. If there is and it does not fail, the result is what it has exported last. -/
theorem isolated_runScript (host : Host) (call : Invocation) {machine : Machine}
    (sealed : machine.store.Sealed base) (present : base ≤ machine.store.size) :
    let told := runScript call host transcribe
    Isolated base machine (told.deeds machine) (told.step machine) ∧
      ∀ value after, told.step machine = .ok value after →
        RunResult (call.argument "file") (told.deeds machine) value := by
  have loads : Outcome.Confined base machine _ (call.loadScript host machine) :=
    Confined.loadScript call host sealed (Nat.zero_le _)
  have first : Deed.AllProper (Store.Sealed base)
      ((perform (call.loadScript host)).deeds machine) :=
    Deed.allProper_stepped loads.kept.sealed loads.unrefused
  have nothing : Deed.lastExport? ((perform (call.loadScript host)).deeds machine) = none := by
    simp [perform]
  intro told
  cases loaded : (perform (call.loadScript host)).step machine with
  | error signal between =>
    have steps : told.step machine = _ := step_bind_error _ loaded
    have deeds : told.deeds machine = _ := deeds_bind_error _ loaded
    have same : call.loadScript host machine = _ := loaded
    rw [same] at loads
    rw [steps, deeds]
    refine ⟨⟨loads.kept, loads.exported, first, loads.ends⟩, ?_⟩
    rintro value after ⟨⟩
  | ok script between =>
    have steps : told.step machine = _ := step_bind_ok _ loaded
    have deeds : told.deeds machine = _ := deeds_bind_ok _ loaded
    have same : call.loadScript host machine = _ := loaded
    have named := loadScript_eq_ok same
    rw [same] at loads
    rw [steps, deeds]
    cases script with
    | none =>
      have refused : Outcome.Confined base between _ (call.refuse "file" .string between) :=
        Confined.exception call _ loads.kept.sealed (Nat.zero_le _)
      refine ⟨⟨loads.kept.trans refused.kept, refused.exported.trans loads.exported, ?_,
        refused.ends⟩, ?_⟩
      · exact first.append (Deed.allProper_stepped refused.kept.sealed refused.unrefused)
      · rintro value after ⟨⟩
        unfold RunResult
        split
        · rename_i file string
          cases named.mpr ⟨file, string⟩
        · exact ⟨_, rfl⟩
    | some script =>
      have grown := Nat.le_trans present loads.kept.size
      obtain ⟨isolated, returns⟩ := isolated_runLoaded lawful call script.1 script.2
        loads.kept.sealed grown
      refine ⟨⟨loads.kept.trans isolated.kept, isolated.exported.trans loads.exported,
        first.append isolated.proper, isolated.ends⟩, ?_⟩
      intro value after ended
      obtain ⟨file, string⟩ := named.mp rfl
      rw [string, RunResult, Deed.lastExport?_append, nothing, Option.or_none]
      exact returns value after ended

/-! ## Calls -/

omit lawful in
/-- A call of a built-in function that exports nothing for its caller. -/
theorem obeyed_invoked {before after : Machine} {inside : List Deed} {builtin : Builtin}
    (exports : builtin ≠ .exportValue) (includes : builtin ≠ .includeScript) (call : Invocation)
    (kept : before.Keeps base after) (same : after.exported = before.exported)
    (proper : Deed.AllProper (Store.Sealed base) inside) :
    Obeyed base before [.invoked call builtin inside] after where
  kept := kept
  exported := by simp [Deed.export?_invoked exports includes, same]
  exports value found := by simp [Deed.export?_invoked exports includes] at found
  proper := proper.invoked call builtin

omit lawful in
theorem obeys_exportValue {call : Invocation}
    (arguments : ∀ parameter, (call.argument parameter).Within base size) :
    Obeys base size (Inside base) (invoke call host transcribe .exportValue) := by
  intro machine sealed enough
  let exported := { machine with exported := some (call.argument "value") }
  have kept : machine.Keeps base exported := .refl sealed.store
  have unrefused (other : Fault) (none : (Option.none : Option Fault) = some other) :
      ¬other.Refuses := by cases none
  have within := (arguments "value").mono enough
  change Obeyed base machine [.invoked call .exportValue [.stepped none exported]] exported ∧
    (call.argument "value").Within base machine.store.size
  refine ⟨⟨kept, ?_, ?_, ?_⟩, within⟩
  · simp [exported]
  · intro value found
    rw [Deed.lastExport?_cons, Deed.lastExport?_nil, Option.none_or,
      Deed.export?_exportValue] at found
    cases found
    exact within
  · exact (Deed.allProper_stepped kept.sealed unrefused).invoked call .exportValue

theorem obeys_invoke {call : Invocation} (between : Between base size call.caller)
    (arguments : ∀ parameter, (call.argument parameter).Within base size) (builtin : Builtin) :
    Obeys base size (Inside base) (invoke call host transcribe builtin) := by
  by_cases exports : builtin = .exportValue
  · subst exports
    exact obeys_exportValue arguments
  intro machine sealed enough
  by_cases includes : builtin = .includeScript
  · subst includes
    obtain ⟨obeyed, ends⟩ := obeys_includeScript lawful host between sealed enough
    refine ⟨⟨obeyed.kept, ?_, ?_, obeyed.proper.invoked call _⟩, ends⟩
    · simpa [invoke, invoking] using obeyed.exported
    · simpa [invoke, invoking] using obeyed.exports
  by_cases runs : builtin = .runScript
  · subst runs
    have present : base ≤ machine.store.size :=
      Nat.le_trans (Nat.le_of_lt (Nat.lt_of_le_of_lt between.1 between.2)) enough
    obtain ⟨isolated, -⟩ := isolated_runScript lawful host call sealed.store present
    exact ⟨obeyed_invoked exports includes call isolated.kept isolated.exported isolated.proper,
      isolated.ends⟩
  have confined := Confined.run arguments host (fun _ _ => pure .null) exports includes runs
    sealed.store enough
  have proper := Deed.allProper_stepped confined.kept.sealed confined.unrefused
  have obeyed := obeyed_invoked exports includes call confined.kept confined.exported proper
  cases builtin with
  | exportValue => exact absurd rfl exports
  | includeScript => exact absurd rfl includes
  | runScript => exact absurd rfl runs
  | _ => exact ⟨obeyed, confined.ends⟩

theorem obeys_callBuiltin (function : BuiltinFunction) {arguments : List Value}
    (all : ∀ argument ∈ arguments, argument.Within base size) (span : Span) {caller : ContextId}
    (between : Between base size caller) :
    Obeys base size (Inside base)
      (callBuiltin host function arguments span caller transcribe) := by
  unfold callBuiltin
  cases Builtin.named? function.name with
  | none => exact obeys_raise not_false
  | some builtin =>
    apply obeys_invoke lawful between
    intro parameter
    have table := Table.all_ofArguments function.parameters all
    unfold Invocation.argument Eval.invocationOf
    cases found : (Table.ofArguments function.parameters arguments).value? parameter with
    | none => exact (Value.hereditary_within base size).null
    | some value => exact table parameter value found

end

variable {inner : Option Transcribe}

theorem obeys_callValue (inners : AllLawful base inner) {callee : Value}
    (within : callee.Within base size) {arguments : List Value}
    (all : ∀ argument ∈ arguments, argument.Within base size) (span : Span) {caller : ContextId}
    (between : Between base size caller) :
    Obeys base size (Inside base) (callValue host inner callee arguments span caller) := by
  cases callee with
  | function function =>
    have checked : Obeys base size (fun _ _ => True)
        (orRaise (function.checkArity arguments.length) span caller) :=
      obeys_orRaise (function.unrefused_checkArity _) (fun _ _ _ _ => trivial) span caller
    apply obeys_bind checked
    intro more grown _ _
    have values := allInside_mono all grown
    apply obeys_activate inners
    intro transcribe lawful
    cases function with
    | user defined =>
      exact obeys_callUser lawful (within.closure.mono grown) values span (between.mono grown)
    | builtin provided =>
      exact obeys_callBuiltin lawful provided values span (between.mono grown)
  | _ => exact obeys_raise not_false

/-! ## Expressions -/

mutual

/-- The evaluation of an expression is lawful if whatever lies in other activations is. -/
theorem obeys_evaluateIn (inners : AllLawful base inner) {size : Nat} {id : ContextId}
    (between : Between base size id) :
    (expr : Located) → Obeys base size (Inside base) (evaluateIn host inner id expr)
  | .literal value _ =>
    obeys_pure fun more _ => (Value.hereditary_within base more).ofLiteral value
  | .unary op operand span => by
    apply obeys_bind (obeys_evaluateIn inners between operand)
    intro more grown value within
    apply obeys_orRaise (value.unrefused_unary op)
    intro result same most grows
    have sound := (Value.hereditary_within base more).sound_unary op within
    rw [same] at sound
    exact sound.mono grows
  | .binary op left right span => by
    apply obeys_bind (obeys_evaluateIn inners between left)
    intro more grown first within
    apply obeys_bind (obeys_evaluateIn inners (between.mono grown) right)
    intro most grows second also
    apply obeys_orRaise (Value.unrefused_binary op first second)
    intro result same last through
    have sound := (Value.hereditary_within base most).sound_binary op (within.mono grows) also
    rw [same] at sound
    exact sound.mono through
  | .list elements _ => by
    apply obeys_bind (obeys_evaluateAll inners between elements)
    intro more grown values all
    exact obeys_pure fun most grows =>
      ((Value.hereditary_within base most).list_iff values).mpr (allInside_mono all grows)
  | .choice branches _ => obeys_evaluateBranches inners between branches
  | .forLoop counter start stop step body block span => by
    rw [evaluateIn]
    apply obeys_bind (obeys_evaluateIn inners between start)
    intro more grown first _
    apply obeys_bind (obeys_evaluateIn inners (between.mono grown) stop)
    intro most grows last _
    have here : Between base most id := between.mono (Nat.le_trans grown grows)
    cases first with
    | int first =>
      cases last with
      | int last =>
        have round (size : Nat) (enough : most ≤ size) (value : Int64) :
            Obeys base size (Inside base) (assign id counter (.int value) span id >>= fun _ =>
              evaluateIn host inner id body) := by
          have number := (Value.hereditary_within base size).int value
          apply obeys_bind (obeys_assign between.1 counter number span id)
          intro _ also _ _
          exact obeys_evaluateIn inners (here.mono (Nat.le_trans enough also)) body
        have tooLong (size : Nat) : Obeys base size (AllInside base) (perform
            (Eval.raise (.loopLimit host.config.maxLoopIterations) span id)) :=
          obeys_raise not_false
        have results (size : Nat) (enough : most ≤ size) (step : Int64) := obeys_bind
          (obeys_count (fun _ also => round _ (Nat.le_trans enough also))
            tooLong (!block) last step host.config.maxLoopIterations first
            (List.forall_mem_nil _))
          fun last _ values all => obeys_pure fun _ through =>
            ((Value.hereditary_within base last).loop block all).mono through
        cases step with
        | none =>
          have one : Obeys base most (fun _ _ => True) (pure 1 : Transcript Int64) :=
            obeys_pure fun _ _ => trivial
          exact obeys_bind one fun _ also step _ => results _ also step
        | some expr =>
          apply obeys_bind (obeys_evaluateIn inners here expr)
          intro _ also value _
          exact obeys_bind (obeys_perform (Confined.stepOf value first last expr.note id))
            fun _ through step _ => results _ (Nat.le_trans also through) step
      | _ => exact obeys_raise not_false
    | _ => exact obeys_raise not_false
  | .whileLoop condition body block span => by
    rw [evaluateIn]
    have tooLong (size : Nat) : Obeys base size (AllInside base) (perform
        (Eval.raise (.loopLimit host.config.maxLoopIterations) span id)) :=
      obeys_raise not_false
    apply obeys_bind (obeys_repeatWhile
      (fun _ grown => obeys_evaluateIn inners (between.mono grown) condition)
      (fun _ grown => obeys_evaluateIn inners (between.mono grown) body)
      tooLong (!block) _ (List.forall_mem_nil _))
    intro more _ values all
    exact obeys_pure fun _ grows =>
      ((Value.hereditary_within base more).loop block all).mono grows
  | .read name span => obeys_perform (Confined.readName between.1 name span)
  | .assign name expr span => by
    apply obeys_bind (obeys_evaluateIn inners between expr)
    intro more grown value within
    apply obeys_bind (obeys_assign between.1 name within span id)
    intro most grows _ _
    exact obeys_pure fun last also => within.mono (Nat.le_trans grows also)
  | .member object name span => obeys_perform (Confined.readMember between.1 object name span)
  | .assignMember object name expr span => by
    apply obeys_bind (obeys_perform (Confined.instanceNamed between.1 object span))
    intro more grown target context
    apply obeys_bind (obeys_evaluateIn inners (between.mono grown) expr)
    intro most grows value within
    apply obeys_bind (obeys_assign context.1 name within span id)
    intro last also _ _
    exact obeys_pure fun _ through => within.mono (Nat.le_trans also through)
  | .function name parameters body valued span =>
    obeys_define name parameters body valued span between
  | .call callee arguments span => by
    apply obeys_bind (obeys_evaluateIn inners between callee)
    intro more grown function within
    apply obeys_bind (obeys_evaluateAll inners (between.mono grown) arguments)
    intro most grows values all
    exact obeys_callValue inners (within.mono grows) all span
      (between.mono (Nat.le_trans grown grows))
  | .template name body span => obeys_defineTemplate name body span between
  | .instantiate name span => by
    apply obeys_bind (obeys_perform (Confined.objectNamed between.1 name span))
    intro more grown template _
    apply obeys_activate inners
    intro transcribe lawful
    exact obeys_instantiate lawful template name span (between.mono grown)
  | .returnWith none _ =>
    obeys_perform (Confined.throw (by
      rintro value ⟨⟩
      exact (Value.hereditary_within base size).null) (by rintro failure ⟨⟩))
  | .returnWith (some expr) _ => by
    apply obeys_bind (obeys_evaluateIn inners between expr)
    intro more grown value within
    apply obeys_perform (Confined.throw _ _)
    · rintro result ⟨⟩
      exact within
    · rintro failure ⟨⟩
  | .breakLoop span => obeys_perform (Confined.throw (by rintro _ ⟨⟩) (by rintro _ ⟨⟩))
  | .continueLoop span => obeys_perform (Confined.throw (by rintro _ ⟨⟩) (by rintro _ ⟨⟩))

theorem obeys_evaluateAll (inners : AllLawful base inner) {size : Nat} {id : ContextId}
    (between : Between base size id) :
    (elements : List Located) →
      Obeys base size (AllInside base) (evaluateAll host inner id elements)
  | [] => obeys_pure fun _ _ => List.forall_mem_nil _
  | element :: rest => by
    apply obeys_bind (obeys_evaluateIn inners between element)
    intro more grown value within
    apply obeys_bind (obeys_evaluateAll inners (between.mono grown) rest)
    intro most grows values all
    exact obeys_pure fun last also => allInside_mono
      (List.forall_mem_cons.mpr ⟨within.mono grows, all⟩) also

theorem obeys_evaluateBranches (inners : AllLawful base inner) {size : Nat} {id : ContextId}
    (between : Between base size id) :
    (branches : Branches Span) →
      Obeys base size (Inside base) (evaluateBranches host inner id branches)
  | .done => obeys_pure fun more _ => (Value.hereditary_within base more).null
  | .otherwise body block => by
    apply obeys_bind (obeys_evaluateIn inners between body)
    intro more grown value within
    exact obeys_pure fun most grows =>
      ((Value.hereditary_within base more).body block within).mono grows
  | .orElse condition body block rest => by
    apply obeys_bind (obeys_evaluateIn inners between condition)
    intro more grown truth _
    apply obeys_ite _ (obeys_evaluateBranches inners (between.mono grown) rest)
    apply obeys_bind (obeys_evaluateIn inners (between.mono grown) body)
    intro most _ value within
    exact obeys_pure fun last grows =>
      ((Value.hereditary_within base most).body block within).mono grows

end

/-! ## Programs -/

theorem allLawful_inside (base : Nat) (host : Host) (room : Nat) :
    AllLawful base (inside host room) := by
  induction room with
  | zero => rintro transcribe ⟨⟩
  | succ room ih =>
    rintro transcribe ⟨⟩ size expr id between
    rw [evaluate_eq]
    exact obeys_evaluateIn ih between expr

/-- The evaluation of an expression in a sealed context is lawful. -/
theorem obeys_evaluate (host : Host) (room : Nat) (expr : Located) {id : ContextId}
    (between : Between base size id) :
    Obeys base size (Inside base) (evaluate host room expr id) := by
  rw [evaluate_eq]
  exact obeys_evaluateIn (allLawful_inside base host room) between expr

end Quill.Transcript
