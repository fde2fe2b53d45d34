import Quill.Proofs.Grafting.Steps
import Quill.Proofs.Isolation.Program

/-!
# Programs behind other states

Code that refers to nothing but its own contexts does the same behind another state as it does
without that state: it takes the same steps, each of them behind the other state. Everything that it
makes on the way gets the number or the identity that it would have got, moved by what the other
state has taken.
-/

namespace Quill.Transcript

variable {Result Moved Other Last : Type} {old : Machine} {size : Nat}

/-! ## Sequences -/

/-- From all sealed states with at least `size` contexts, what the transcript tells of leads to a
sealed state, and its result is as it should be. -/
def Sound (size : Nat) (post : Nat → Result → Prop) (told : Transcript Result) : Prop :=
  ∀ ⦃machine : Machine⦄, machine.Sealed 0 → size ≤ machine.store.size →
    (Outcome.left (told.step machine)).Sealed 0 ∧
      machine.store.size ≤ (Outcome.left (told.step machine)).store.size ∧
      Outcome.Ends 0 post (told.step machine)

/-- From all sealed states with at least `size` contexts, the evaluation behind the old state does
what the transcript tells of. -/
def Grafts (old : Machine) (size : Nat) (move : Result → Moved) (told : Transcript Result)
    (plain : Eval Moved) : Prop :=
  ∀ ⦃machine : Machine⦄, machine.Sealed 0 → size ≤ machine.store.size →
    plain (old.graft machine) = Outcome.graft old move (told.step machine)

variable {move : Result → Moved} {later : Other → Last} {post middle : Nat → Result → Prop}
  {told : Transcript Result} {plain : Eval Moved}

theorem Obeys.sound (obeys : Obeys 0 size post told) : Sound size post told := by
  intro machine sealed enough
  obtain ⟨obeyed, ends⟩ := obeys sealed enough
  exact ⟨obeyed.sealed sealed, obeyed.kept.size, ends⟩

theorem grafts_pure (result : Result) : Grafts old size move (pure result) (pure (move result)) :=
  fun _ _ _ => rfl

theorem grafts_pure_of_eq {result : Result} {other : Moved} (same : move result = other) :
    Grafts old size move (pure result) (pure other) :=
  same ▸ grafts_pure result

theorem grafts_perform {step : Eval Result} (moves : Moves old move step plain) :
    Grafts old size move (perform step) plain :=
  fun _ sealed _ => moves sealed.store

theorem grafts_bind_sound {next : Result → Transcript Other} {plainNext : Moved → Eval Last}
    (sound : Sound size middle told) (grafts : Grafts old size move told plain)
    (nexts : ∀ more, size ≤ more → ∀ result, middle more result →
      Grafts old more later (next result) (plainNext (move result))) :
    Grafts old size later (told >>= next) (plain >>= plainNext) := by
  intro machine sealed enough
  obtain ⟨stays, grown, ends⟩ := sound sealed enough
  change EStateM.bind plain plainNext (old.graft machine) = _
  rw [EStateM.bind, grafts sealed enough]
  cases ended : told.step machine with
  | error signal after =>
    rw [step_bind_error next ended]
    rfl
  | ok result after =>
    rw [ended] at stays grown ends
    rw [step_bind_ok next ended]
    exact nexts _ (Nat.le_trans enough grown) result ends stays (Nat.le_refl _)

theorem grafts_bind {next : Result → Transcript Other} {plainNext : Moved → Eval Last}
    (obeys : Obeys 0 size middle told) (grafts : Grafts old size move told plain)
    (nexts : ∀ more, size ≤ more → ∀ result, middle more result →
      Grafts old more later (next result) (plainNext (move result))) :
    Grafts old size later (told >>= next) (plain >>= plainNext) :=
  grafts_bind_sound obeys.sound grafts nexts

theorem grafts_ite {condition : Prop} [Decidable condition] {toldOther : Transcript Result}
    {plainOther : Eval Moved} (yes : Grafts old size move told plain)
    (no : Grafts old size move toldOther plainOther) :
    Grafts old size move (if condition then told else toldOther)
      (if condition then plain else plainOther) := by
  split
  · exact yes
  · exact no

theorem grafts_raise (fault : Fault) (span : Span) (id : ContextId) :
    Grafts old size move (perform (Eval.raise fault span id))
      (Eval.raise fault (old.shift.span span) (id + old.store.size)) :=
  grafts_perform (.raise fault span id)

theorem grafts_orRaise {result : Except Fault Result} {other : Except Fault Moved}
    (same : result.map move = other) (span : Span) (id : ContextId) :
    Grafts old size move (orRaise result span id)
      (Eval.orRaise other (old.shift.span span) (id + old.store.size)) := by
  subst same
  cases result with
  | ok value => exact grafts_pure value
  | error fault => exact grafts_raise fault span id

/-- An outcome may be looked at behind the old state. -/
theorem grafts_regard {view : View Result Other} {plainView : Outcome Moved → Outcome Last}
    (obeys : Obeys 0 size post told) (grafts : Grafts old size move told plain)
    (views : ∀ outcome, (Outcome.left outcome).store.Sealed 0 →
      plainView (Outcome.graft old move outcome) = Outcome.graft old later (view.see outcome)) :
    Grafts old size later (regard view told) fun machine => plainView (plain machine) := by
  intro machine sealed enough
  change plainView (plain (old.graft machine)) = _
  rw [grafts sealed enough]
  exact views _ (obeys sealed enough).1.kept.sealed

theorem grafts_during (grafts : Grafts old size move told plain) :
    Grafts old size move (during told) fun machine =>
      Eval.leave (plain { machine with depth := machine.depth + 1 }) := by
  intro machine sealed enough
  let opened := { machine with depth := machine.depth + 1 }
  have opens : opened.Sealed 0 := ⟨sealed.store, sealed.exported⟩
  have same : plain (old.graft opened) = _ := grafts opens enough
  change Eval.leave (plain (old.graft opened)) =
    Outcome.graft old move (Eval.leave (told.step opened))
  rw [same]
  cases told.step opened <;> rfl

theorem grafts_assign (target : ContextId) (name : String) (value : Value) (span : Span)
    (id : ContextId) :
    Grafts old size (fun _ => ()) (assign target name value span id)
      (Eval.assign (target + old.store.size) name (old.shift.value value) (old.shift.span span)
        (id + old.store.size)) :=
  fun _ sealed _ => Moves.assign target name value span id sealed.store

/-! ## Definitions -/

theorem grafts_define (name : Option String) (parameters : List String) (body : Located)
    (valued : Bool) (span : Span) {id : ContextId} (between : Between 0 size id) :
    Grafts old size old.shift.value (define name parameters body valued span id)
      (Eval.define name parameters (old.shift.expr body) valued (old.shift.span span)
        (id + old.store.size)) := by
  apply grafts_bind (obeys_perform Confined.freshId) (grafts_perform .freshId)
  intro more grown serial _
  cases name with
  | none => exact grafts_pure _
  | some bound =>
    apply grafts_bind
      (obeys_assign between.1 bound (Value.within_user (between.mono grown)) span id)
      (grafts_assign id bound _ span id)
    intro _ _ _ _
    exact grafts_pure _

theorem grafts_defineTemplate (name : String) (body : Located) (span : Span) {id : ContextId}
    (between : Between 0 size id) :
    Grafts old size old.shift.value (defineTemplate name body span id)
      (Eval.defineTemplate name (old.shift.expr body) (old.shift.span span)
        (id + old.store.size)) := by
  apply grafts_bind (obeys_perform Confined.freshId) (grafts_perform .freshId)
  intro more grown serial _
  apply grafts_bind
    (obeys_assign between.1 name (Value.within_object (between.mono grown)) span id)
    (grafts_assign id name _ span id)
  intro _ _ _ _
  exact grafts_pure _

/-! ## Loops -/

theorem grafts_round {body : Transcript Value} {plainBody : Eval Value}
    (obeys : Obeys 0 size (Inside 0) body)
    (grafts : Grafts old size old.shift.value body plainBody) :
    Grafts old size old.shift.round (round body) (Loop.round plainBody) := by
  apply grafts_regard obeys grafts
  rintro (_ | ⟨_ | _ | _ | _, _⟩) _ <;> rfl

section

variable {body : Transcript Value} {plainBody : Eval Value} {tooLong : Transcript (List Value)}
  {plainTooLong : Eval (List Value)}

theorem grafts_repeatWhile {condition : Transcript Value} {plainCondition : Eval Value}
    (lawful : ∀ more, size ≤ more → Obeys 0 more (Inside 0) condition)
    (conditions : ∀ more, size ≤ more →
      Grafts old more old.shift.value condition plainCondition)
    (keeps : ∀ more, size ≤ more → Obeys 0 more (Inside 0) body)
    (bodies : ∀ more, size ≤ more → Grafts old more old.shift.value body plainBody)
    (ends : ∀ more, Grafts old more (List.map old.shift.value) tooLong plainTooLong) (keep : Bool)
    (rounds : Nat) (values : List Value) :
    Grafts old size (List.map old.shift.value)
      (repeatWhile condition body keep tooLong rounds values)
      (Loop.repeatWhile plainCondition plainBody keep plainTooLong rounds
        (values.map old.shift.value)) := by
  induction rounds generalizing size values with
  | zero =>
    apply grafts_bind (lawful size (Nat.le_refl _)) (conditions size (Nat.le_refl _))
    intro more _ truth _
    rw [old.shift.isTrue_value]
    exact grafts_ite (ends more) (grafts_pure values)
  | succ rounds ih =>
    apply grafts_bind (lawful size (Nat.le_refl _)) (conditions size (Nat.le_refl _))
    intro more grown truth _
    rw [old.shift.isTrue_value]
    apply grafts_ite _ (grafts_pure values)
    apply grafts_bind (obeys_round (keeps more grown))
      (grafts_round (keeps more grown) (bodies more grown))
    intro most also ended _
    have through := Nat.le_trans grown also
    have further := ih (fun _ grows => lawful _ (Nat.le_trans through grows))
      (fun _ grows => conditions _ (Nat.le_trans through grows))
      (fun _ grows => keeps _ (Nat.le_trans through grows))
      (fun _ grows => bodies _ (Nat.le_trans through grows)) (Loop.collect keep values ended)
    rw [← old.shift.collect_round] at further
    cases ended with
    | left => exact grafts_pure values
    | value result => exact further
    | skipped => exact further

theorem grafts_count {body : Int64 → Transcript Value} {plainBody : Int64 → Eval Value}
    (keeps : ∀ more, size ≤ more → ∀ counter, Obeys 0 more (Inside 0) (body counter))
    (bodies : ∀ more, size ≤ more → ∀ counter,
      Grafts old more old.shift.value (body counter) (plainBody counter))
    (ends : ∀ more, Grafts old more (List.map old.shift.value) tooLong plainTooLong) (keep : Bool)
    (stop step : Int64) (rounds : Nat) (counter : Int64) (values : List Value) :
    Grafts old size (List.map old.shift.value)
      (count body keep tooLong stop step rounds counter values)
      (Loop.count plainBody keep plainTooLong stop step rounds counter
        (values.map old.shift.value)) := by
  induction rounds generalizing size counter values with
  | zero => exact grafts_ite (ends size) (grafts_pure values)
  | succ rounds ih =>
    apply grafts_ite _ (grafts_pure values)
    apply grafts_bind (obeys_round (keeps size (Nat.le_refl _) counter))
      (grafts_round (keeps size (Nat.le_refl _) counter) (bodies size (Nat.le_refl _) counter))
    intro more grown ended _
    have all := old.shift.collect_round keep values ended
    have further (next : Int64) := ih (fun _ grows => keeps _ (Nat.le_trans grown grows))
      (fun _ grows => bodies _ (Nat.le_trans grown grows)) next (Loop.collect keep values ended)
    rw [← all] at further
    cases Integer.add? counter step with
    | none =>
      cases ended with
      | left => exact grafts_pure values
      | value result => exact grafts_pure_of_eq all.symm
      | skipped => exact grafts_pure_of_eq all.symm
    | some next =>
      cases ended with
      | left => exact grafts_pure values
      | value result => exact further next
      | skipped => exact further next

end

/-- A loop that counts, from where its bounds and its step are known. -/
theorem grafts_counted {body : Transcript Value} {plainBody : Eval Value} {id : ContextId}
    (between : Between 0 size id) (keeps : ∀ more, size ≤ more → Obeys 0 more (Inside 0) body)
    (bodies : ∀ more, size ≤ more → Grafts old more old.shift.value body plainBody)
    (counter : String) (stop step : Int64) (block : Bool) (limit : Nat) (start : Int64)
    (span : Span) :
    Grafts old size old.shift.value
      (do
        let values ← count
          (fun value => do
            assign id counter (.int value) span id
            body)
          (!block) (perform (Eval.raise (.loopLimit limit) span id)) stop step limit start []
        return Loop.result block values)
      (do
        let values ← Loop.count
          (fun value => do
            Eval.assign (id + old.store.size) counter (.int value) (old.shift.span span)
              (id + old.store.size)
            plainBody)
          (!block) (Eval.raise (.loopLimit limit) (old.shift.span span) (id + old.store.size)) stop
          step limit start []
        return Loop.result block values) := by
  have number (size : Nat) (value : Int64) : (Value.int value).Within 0 size :=
    (Value.hereditary_within 0 size).int value
  have lawful (more : Nat) (enough : size ≤ more) (value : Int64) :
      Obeys 0 more (Inside 0) (assign id counter (.int value) span id >>= fun _ => body) :=
    obeys_bind (obeys_assign between.1 counter (number more value) span id)
      fun _ grown _ _ => keeps _ (Nat.le_trans enough grown)
  have unrefused : ¬(Fault.loopLimit limit).Refuses := not_false
  apply grafts_bind (obeys_count lawful (fun _ => obeys_raise unrefused) (!block) stop step limit
    start (List.forall_mem_nil _))
  · apply grafts_count lawful
    · intro more enough value
      apply grafts_bind (obeys_assign between.1 counter (number more value) span id)
        (grafts_assign id counter (.int value) span id)
      intro _ grown _ _
      exact bodies _ (Nat.le_trans enough grown)
    · exact fun _ => grafts_raise _ span id
  · intro _ _ values _
    exact grafts_pure_of_eq (old.shift.value_result block values)

/-! ## Activations -/

/-- The evaluation of what lies in other activations does the same behind the old state. -/
def Grafting (old : Machine) (transcribe : Transcribe) (evaluate : Evaluate) : Prop :=
  ∀ size expr id, Between 0 size id →
    Grafts old size old.shift.value (transcribe expr id)
      (evaluate (old.shift.expr expr) (id + old.store.size))

variable {host : Host} {inner : Option Transcribe} {plainInner : Option Evaluate}

theorem grafts_activate (inners : AllLawful 0 inner)
    (grafting : Option.Rel (Grafting old) inner plainInner) (span : Span) (id : ContextId)
    {work : Transcribe → Transcript Result} {plainWork : Evaluate → Eval Moved}
    (works : ∀ transcribe evaluate, Lawful 0 transcribe → Grafting old transcribe evaluate →
      Grafts old size move (work transcribe) (plainWork evaluate)) :
    Grafts old size move (activate host inner span id work)
      (Eval.activate host plainInner (old.shift.span span) (id + old.store.size) plainWork) := by
  cases grafting with
  | none => exact grafts_raise _ span id
  | some grafts => exact grafts_during (works _ _ (inners _ rfl) grafts)

section

variable {transcribe : Transcribe} {evaluate : Evaluate} (lawful : Lawful 0 transcribe)
  (grafting : Grafting old transcribe evaluate)

include lawful grafting

theorem grafts_callUser {function : UserFunction} (closure : Between 0 size function.closure)
    {arguments : List Value} (all : ∀ argument ∈ arguments, argument.Within 0 size) (span : Span)
    {caller : ContextId} (between : Between 0 size caller) :
    Grafts old size old.shift.value (callUser function arguments span caller transcribe)
      (Eval.callUser (old.shift.userFunction function) (arguments.map old.shift.value)
        (old.shift.span span) (caller + old.store.size) evaluate) := by
  let context (arguments : Table) : Context :=
    ⟨function.name, some ⟨caller, span⟩, some function.closure, arguments⟩
  have table : old.shift.table (.ofArguments function.parameters arguments) = _ :=
    Table.mapped_ofArguments old.shift.value function.parameters arguments
  have adds := @Moves.addContext old (context (.ofArguments function.parameters arguments))
  simp only [context, Shift.context, table] at adds
  apply grafts_bind (obeys_perform (Confined.addContext rfl between ?_
    (Table.all_ofArguments function.parameters all)
    (Table.isMutable_ofArguments function.parameters arguments)))
    (grafts_perform adds)
  · intro more _ id inside
    apply grafts_regard (lawful more function.body id inside)
      (grafting more function.body id inside)
    rintro (⟨value, after⟩ | ⟨signal, after⟩) sealed
    · change EStateM.Result.ok (if function.valued then _ else _) _ =
        EStateM.Result.ok (old.shift.value (if function.valued then _ else _)) _
      cases function.valued <;> rfl
    · have fails := @Moves.failed Value Value old old.shift.value after sealed signal span id
      cases signal with
      | returned value => rfl
      | _ => exact fails
  · rintro outer ⟨⟩
    exact closure

theorem grafts_instantiate (template : Object) (name : String) (span : Span) {caller : ContextId}
    (between : Between 0 size caller) :
    Grafts old size old.shift.value (instantiate template name span caller transcribe)
      (Eval.instantiate (old.shift.object template) name (old.shift.span span)
        (caller + old.store.size) evaluate) := by
  apply grafts_bind (obeys_perform (Confined.addContext rfl between ?_ Table.all_empty ?_))
    (grafts_perform (.addContext _))
  · intro more _ id inside
    apply grafts_regard (lawful more template.body id inside)
      (grafting more template.body id inside)
    rintro (⟨value, after⟩ | ⟨signal, after⟩) sealed
    · simp only [Eval.instanceOfMembers, View.instantiation, Outcome.graft, Machine.graft,
        Nat.add_right_comm]
      rfl
    · exact Moves.failed sealed signal span id
  · rintro outer ⟨⟩
    exact between
  · rintro bound binding ⟨⟩

/-! ## Scripts -/

omit lawful grafting in
/-- What the outcome of a script's statements is behind the old state. -/
theorem resultOfScript_graft (root : Located) (id : ContextId) {outcome : Outcome Value}
    (sealed : (Outcome.left outcome).store.Sealed 0) :
    let ended := Eval.resultOfScript root id outcome
    Eval.resultOfScript (old.shift.expr root) (id + old.store.size)
        (Outcome.graft old old.shift.value outcome) =
      (old.shift.result ended.1, old.graft ended.2) := by
  rcases outcome with ⟨value, after⟩ | ⟨signal, after⟩
  · rfl
  · have failure := @Moves.failureOf old _ sealed signal root.note id
    rw [← old.shift.note_expr] at failure
    cases signal with
    | returned value => rfl
    | _ =>
      exact congrArg (fun failure => (Except.error (Error.running failure), old.graft after))
        failure

theorem grafts_runIn {root : ContextId} (between : Between 0 size root) (path text : String) :
    Grafts old size old.shift.result (runIn root transcribe path text)
      (Invocation.runIn (root + old.store.size) evaluate path text) := by
  intro machine sealed enough
  let begun := { machine with serial := machine.serial + 1 }
  have ready : begun.Sealed 0 := ⟨sealed.store, sealed.exported⟩
  have moved : { old.graft machine with serial := (old.graft machine).serial + 1 } =
      old.graft begun := by
    simp only [Machine.graft, begun, Nat.add_right_comm]
  -- The text is another source there, and read as the same program at the places in that source.
  have reads : Eval.read ⟨(old.graft machine).serial, path, text⟩ = _ :=
    Eval.read_source old.shift ⟨machine.serial, path, text⟩
  have ran : Eval.runText evaluate path text (root + old.store.size) (old.graft machine) =
      (old.shift.result (Eval.runText transcribe.plain path text root machine).1,
        old.graft (Eval.runText transcribe.plain path text root machine).2) := by
    unfold Eval.runText
    dsimp only
    rw [moved, reads]
    cases Eval.read ⟨machine.serial, path, text⟩ with
    | error error => rfl
    | ok tree =>
      have keeps := (lawful size tree root between ready enough).1.kept
      dsimp only
      rw [grafting size tree root between ready enough]
      exact resultOfScript_graft tree root keeps.sealed
  unfold Invocation.runIn
  rw [ran]
  rfl

theorem grafts_includeScript (host : Host) {call : Invocation}
    (between : Between 0 size call.caller) :
    Grafts old size old.shift.value (includeScript call host transcribe)
      ((call.graft old).includeScript host evaluate) := by
  apply grafts_bind (obeys_perform (Confined.loadScript call host))
    (grafts_perform (.loadScript call host))
  intro more grown loaded _
  cases loaded with
  | none => exact grafts_perform (.refuse call _ _)
  | some script =>
    have reads : Moves old old.graft (get : Eval Machine) get := fun _ _ => rfl
    apply grafts_bind (obeys_perform (Confined.rootOf (between.mono grown)))
      (grafts_perform reads)
    intro most _ machine root
    have moved := old.rootOf_graftStore machine.store call.caller
    change Grafts old most _ _ (Invocation.runIn ((old.graftStore machine.store).rootOf
      (call.caller + old.store.size)) evaluate script.1 script.2 >>= _)
    rw [moved]
    apply grafts_bind (obeys_runIn lawful root script.1 script.2)
      (grafts_runIn lawful grafting root script.1 script.2)
    intro _ _ result _
    apply grafts_bind (obeys_perform (Confined.resultOf call script.1 result))
      (grafts_perform (.resultOf call script.1 result))
    intro _ _ _ _
    exact grafts_pure _

omit lawful grafting in
/-- A script on its own begins in a sealed state. What the caller has exported is kept for later. -/
theorem sound_enterScript :
    Sound size (fun more (saved, root) => Between 0 more root ∧
      ∀ value, saved = some value → value.Within 0 more) (perform Invocation.enterScript) := by
  intro machine sealed enough
  obtain ⟨root, entered, enters, keeps, inside, forgotten⟩ :=
    enterScript_eq_ok sealed.store (Nat.zero_le _)
  have same : (perform Invocation.enterScript).step machine = _ := enters
  rw [same]
  refine ⟨⟨keeps.sealed, ?_⟩, keeps.size, inside, ?_⟩
  · intro value exported
    cases forgotten.symm.trans exported
  · exact fun value exported => (sealed.exported value exported).mono keeps.size

omit lawful grafting in
/-- The export of the caller is back. -/
theorem sound_leaveScript {saved : Option Value}
    (within : ∀ value, saved = some value → value.Within 0 size) :
    Sound size (fun _ _ => True) (perform (Invocation.leaveScript saved)) :=
  fun _ sealed enough => ⟨⟨sealed.store, fun value same => (within value same).mono enough⟩,
    Nat.le_refl _, trivial⟩

theorem grafts_runScript (host : Host) (call : Invocation) :
    Grafts old size old.shift.value (runScript call host transcribe)
      ((call.graft old).runScript host evaluate) := by
  apply grafts_bind (obeys_perform (Confined.loadScript call host))
    (grafts_perform (.loadScript call host))
  intro more _ loaded _
  cases loaded with
  | none => exact grafts_perform (.refuse call _ _)
  | some script =>
    apply grafts_bind_sound sound_enterScript (grafts_perform .enterScript)
    rintro most _ ⟨saved, root⟩ ⟨inside, within⟩
    apply grafts_bind (obeys_runIn lawful inside script.1 script.2)
      (grafts_runIn lawful grafting inside script.1 script.2)
    intro last grows result _
    apply grafts_bind_sound
      (sound_leaveScript fun value same => (within value same).mono grows)
      (grafts_perform (.leaveScript saved))
    intro _ _ exported _
    apply grafts_bind (obeys_perform (Confined.resultOf call script.1 result))
      (grafts_perform (.resultOf call script.1 result))
    intro _ _ _ _
    apply grafts_pure_of_eq
    cases exported <;> rfl

/-! ## Calls -/

theorem grafts_invoke {call : Invocation} (between : Between 0 size call.caller)
    (builtin : Builtin) :
    Grafts old size old.shift.value (invoke call host transcribe builtin)
      ((call.graft old).run host evaluate builtin) := by
  have others (noInclude : builtin ≠ .includeScript) (noRun : builtin ≠ .runScript) :
      Grafts old size old.shift.value (perform (call.run host (fun _ _ => pure .null) builtin))
        ((call.graft old).run host evaluate builtin) :=
    grafts_perform (.run call host _ evaluate noInclude noRun)
  cases builtin with
  | includeScript => exact grafts_includeScript lawful grafting host between
  | runScript => exact grafts_runScript lawful grafting host call
  | _ => exact others (by rintro ⟨⟩) (by rintro ⟨⟩)

theorem grafts_callBuiltin (function : BuiltinFunction) (arguments : List Value) (span : Span)
    {caller : ContextId} (between : Between 0 size caller) :
    Grafts old size old.shift.value (callBuiltin host function arguments span caller transcribe)
      (Eval.callBuiltin host (old.shift.builtinFunction function) (arguments.map old.shift.value)
        (old.shift.span span) (caller + old.store.size) evaluate) := by
  have moved : (Eval.invocationOf function arguments span caller).graft old =
      Eval.invocationOf (old.shift.builtinFunction function) (arguments.map old.shift.value)
        (old.shift.span span) (caller + old.store.size) := by
    have table : old.shift.table (.ofArguments function.parameters arguments) = _ :=
      Table.mapped_ofArguments old.shift.value function.parameters arguments
    rw [Invocation.graft, Eval.invocationOf, table]
    rfl
  have name : (old.shift.builtinFunction function).name = function.name := rfl
  unfold callBuiltin Eval.callBuiltin
  rw [← moved, name]
  cases Builtin.named? function.name with
  | none => exact grafts_raise _ span caller
  | some builtin => exact grafts_invoke lawful grafting between builtin

end

theorem grafts_callValue (inners : AllLawful 0 inner)
    (grafting : Option.Rel (Grafting old) inner plainInner) {callee : Value}
    (within : callee.Within 0 size) {arguments : List Value}
    (all : ∀ argument ∈ arguments, argument.Within 0 size) (span : Span) {caller : ContextId}
    (between : Between 0 size caller) :
    Grafts old size old.shift.value (callValue host inner callee arguments span caller)
      (Eval.callValue host plainInner (old.shift.value callee) (arguments.map old.shift.value)
        (old.shift.span span) (caller + old.store.size)) := by
  cases callee with
  | function function =>
    have arity : ((function.checkArity arguments.length).map fun _ => ()) =
        (old.shift.function function).checkArity (arguments.map old.shift.value).length := by
      rw [List.length_map]
      cases function <;> exact congrFun Except.map_id _
    have checked : Obeys 0 size (fun _ _ => True)
        (orRaise (function.checkArity arguments.length) span caller) :=
      obeys_orRaise (function.unrefused_checkArity _) (fun _ _ _ _ => trivial) span caller
    apply grafts_bind checked (grafts_orRaise arity span caller)
    intro more grown _ _
    have values := allInside_mono all grown
    apply grafts_activate inners grafting
    intro transcribe evaluate lawful grafts
    cases function with
    | user defined =>
      exact grafts_callUser lawful grafts (within.closure.mono grown) values span
        (between.mono grown)
    | builtin provided =>
      exact grafts_callBuiltin lawful grafts provided arguments span (between.mono grown)
  | list elements =>
    have shown := old.shift.repr_value (.list elements)
    rw [old.shift.value_list] at shown ⊢
    change Grafts old size _ _ (Eval.raise
      (.notCallable (Value.list (elements.map old.shift.value)).repr) _ _)
    rw [shown]
    exact grafts_raise _ span caller
  | _ => exact grafts_raise _ span caller

/-! ## Expressions -/

mutual

/-- An expression does the same behind the old state if whatever lies in other activations does. -/
theorem grafts_evaluateIn (inners : AllLawful 0 inner)
    (grafting : Option.Rel (Grafting old) inner plainInner) {size : Nat} {id : ContextId}
    (between : Between 0 size id) :
    (expr : Located) → Grafts old size old.shift.value (evaluateIn host inner id expr)
      (Eval.evaluateIn host plainInner (id + old.store.size) (old.shift.expr expr))
  | .literal value _ => grafts_pure_of_eq (Value.changed_ofLiteral old.shift.change value)
  | .unary op operand span =>
    grafts_bind (obeys_evaluateIn inners between operand)
      (grafts_evaluateIn inners grafting between operand)
      fun _ _ value _ => grafts_orRaise (old.shift.map_unary op value) span id
  | .binary op left right span => by
    apply grafts_bind (obeys_evaluateIn inners between left)
      (grafts_evaluateIn inners grafting between left)
    intro more grown first _
    have here := between.mono grown
    apply grafts_bind (obeys_evaluateIn inners here right)
      (grafts_evaluateIn inners grafting here right)
    intro _ _ second _
    exact grafts_orRaise (old.shift.map_binary op first second) span id
  | .list elements _ =>
    grafts_bind (obeys_evaluateAll inners between elements)
      (grafts_evaluateAll inners grafting between elements)
      fun _ _ values _ => grafts_pure_of_eq (old.shift.value_list values)
  | .choice branches _ => grafts_evaluateBranches inners grafting between branches
  | .forLoop counter start stop step body block span => by
    rw [old.shift.expr_forLoop, evaluateIn, Eval.evaluateIn]
    apply grafts_bind (obeys_evaluateIn inners between start)
      (grafts_evaluateIn inners grafting between start)
    intro more grown first _
    have here := between.mono grown
    apply grafts_bind (obeys_evaluateIn inners here stop)
      (grafts_evaluateIn inners grafting here stop)
    intro most grows last _
    have there := here.mono grows
    cases first with
    | int first =>
      cases last with
      | int last =>
        have results (size : Nat) (enough : most ≤ size) (step : Int64) :=
          grafts_counted (there.mono enough)
            (fun _ also => obeys_evaluateIn inners (there.mono (Nat.le_trans enough also)) body)
            (fun _ also =>
              grafts_evaluateIn inners grafting (there.mono (Nat.le_trans enough also)) body)
            counter last step block host.config.maxLoopIterations first span
        cases step with
        | none =>
          have one : Obeys 0 most (fun _ _ => True) (pure 1 : Transcript Int64) :=
            obeys_pure fun _ _ => trivial
          exact grafts_bind one (grafts_pure 1) fun _ also step _ => results _ also step
        | some expr =>
          apply grafts_bind (obeys_evaluateIn inners there expr)
            (grafts_evaluateIn inners grafting there expr)
          intro _ also value _
          rw [old.shift.note_expr]
          exact grafts_bind (obeys_perform (Confined.stepOf value first last expr.note id))
            (grafts_perform (.stepOf value first last expr.note id))
            fun _ through step _ => results _ (Nat.le_trans also through) step
      | _ => exact grafts_raise _ span id
    | _ => exact grafts_raise _ span id
  | .whileLoop condition body block span => by
    have unrefused : ¬(Fault.loopLimit host.config.maxLoopIterations).Refuses := not_false
    apply grafts_bind
      (obeys_repeatWhile
        (fun _ grown => obeys_evaluateIn inners (between.mono grown) condition)
        (fun _ grown => obeys_evaluateIn inners (between.mono grown) body)
        (fun _ => obeys_raise unrefused) (!block) _ (List.forall_mem_nil _))
      (grafts_repeatWhile
        (fun _ grown => obeys_evaluateIn inners (between.mono grown) condition)
        (fun _ grown => grafts_evaluateIn inners grafting (between.mono grown) condition)
        (fun _ grown => obeys_evaluateIn inners (between.mono grown) body)
        (fun _ grown => grafts_evaluateIn inners grafting (between.mono grown) body)
        (fun _ => grafts_raise _ span id) (!block) _ [])
    intro _ _ values _
    exact grafts_pure_of_eq (old.shift.value_result block values)
  | .read name span => grafts_perform (.readName name span id)
  | .assign name expr span => by
    apply grafts_bind (obeys_evaluateIn inners between expr)
      (grafts_evaluateIn inners grafting between expr)
    intro more _ value within
    apply grafts_bind (obeys_assign between.1 name within span id)
      (grafts_assign id name value span id)
    intro _ _ _ _
    exact grafts_pure value
  | .member object name span => grafts_perform (.readMember object name span id)
  | .assignMember object name expr span => by
    apply grafts_bind (obeys_perform (Confined.instanceNamed between.1 object span))
      (grafts_perform (.instanceNamed object span id))
    intro more grown target context
    have here := between.mono grown
    apply grafts_bind (obeys_evaluateIn inners here expr)
      (grafts_evaluateIn inners grafting here expr)
    intro _ _ value within
    apply grafts_bind (obeys_assign context.1 name within span id)
      (grafts_assign target.context name value span id)
    intro _ _ _ _
    exact grafts_pure value
  | .function name parameters body valued span =>
    grafts_define name parameters body valued span between
  | .call callee arguments span => by
    apply grafts_bind (obeys_evaluateIn inners between callee)
      (grafts_evaluateIn inners grafting between callee)
    intro more grown function within
    have here := between.mono grown
    apply grafts_bind (obeys_evaluateAll inners here arguments)
      (grafts_evaluateAll inners grafting here arguments)
    intro most grows values all
    exact grafts_callValue inners grafting (within.mono grows) all span (here.mono grows)
  | .template name body span => grafts_defineTemplate name body span between
  | .instantiate name span => by
    apply grafts_bind (obeys_perform (Confined.objectNamed between.1 name span))
      (grafts_perform (.objectNamed name span id))
    intro more grown template _
    apply grafts_activate inners grafting
    intro transcribe evaluate lawful grafts
    exact grafts_instantiate lawful grafts template name span (between.mono grown)
  | .returnWith none _ => grafts_perform (.throw (.returned .null))
  | .returnWith (some expr) _ =>
    grafts_bind (obeys_evaluateIn inners between expr)
      (grafts_evaluateIn inners grafting between expr)
      fun _ _ value _ => grafts_perform (.throw (.returned value))
  | .breakLoop span => grafts_perform (.throw (.broke span))
  | .continueLoop span => grafts_perform (.throw (.continued span))

theorem grafts_evaluateAll (inners : AllLawful 0 inner)
    (grafting : Option.Rel (Grafting old) inner plainInner) {size : Nat} {id : ContextId}
    (between : Between 0 size id) :
    (elements : List Located) →
      Grafts old size (List.map old.shift.value) (evaluateAll host inner id elements)
        (Eval.evaluateAll host plainInner (id + old.store.size)
          (Expr.mapAllNotes old.shift.span elements))
  | [] => grafts_pure _
  | element :: rest => by
    apply grafts_bind (obeys_evaluateIn inners between element)
      (grafts_evaluateIn inners grafting between element)
    intro more grown value _
    have here := between.mono grown
    apply grafts_bind (obeys_evaluateAll inners here rest)
      (grafts_evaluateAll inners grafting here rest)
    intro _ _ values _
    exact grafts_pure (value :: values)

theorem grafts_evaluateBranches (inners : AllLawful 0 inner)
    (grafting : Option.Rel (Grafting old) inner plainInner) {size : Nat} {id : ContextId}
    (between : Between 0 size id) :
    (branches : Branches Span) →
      Grafts old size old.shift.value (evaluateBranches host inner id branches)
        (Eval.evaluateBranches host plainInner (id + old.store.size)
          (branches.mapNotes old.shift.span))
  | .done => grafts_pure _
  | .otherwise body block => by
    apply grafts_bind (obeys_evaluateIn inners between body)
      (grafts_evaluateIn inners grafting between body)
    intro _ _ value _
    exact grafts_pure_of_eq (apply_ite old.shift.value _ _ _)
  | .orElse condition body block rest => by
    apply grafts_bind (obeys_evaluateIn inners between condition)
      (grafts_evaluateIn inners grafting between condition)
    intro more grown truth _
    have here := between.mono grown
    rw [old.shift.isTrue_value]
    apply grafts_ite _ (grafts_evaluateBranches inners grafting here rest)
    apply grafts_bind (obeys_evaluateIn inners here body)
      (grafts_evaluateIn inners grafting here body)
    intro _ _ value _
    exact grafts_pure_of_eq (apply_ite old.shift.value _ _ _)

end

/-! ## Programs -/

/-- With the same room for activations, everything does the same behind the old state. -/
theorem grafting_inside (old : Machine) (host : Host) (room : Nat) :
    Option.Rel (Grafting old) (inside host room) (Eval.inside host room) := by
  induction room with
  | zero => exact .none
  | succ room ih =>
    refine .some fun size expr id between => ?_
    rw [evaluate_eq, Eval.evaluate_eq]
    exact grafts_evaluateIn (allLawful_inside 0 host room) ih between expr

end Quill.Transcript
