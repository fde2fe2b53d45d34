import Quill.Proofs.Scoping.Simulation

/-!
# Programs in two runs

Every construct follows itself if the expressions inside it do, which are executed in the same
contexts by both runs. The caller of a function is where the runs may be in different contexts: it
becomes the entry of a new context, whose free names are looked up where the function was defined,
or the place that a built-in function was called from.
-/

namespace Quill.Execution

variable {Result : Type} {callers : Callers} {alike : Result → Result → Prop}
  {host host' : Host} {self self' : Execute} {fuel fuel' : Nat}

/-! ## Activations -/

theorem corresponds_leave {outcome ended : Outcome Result}
    (corresponds : Corresponds callers alike outcome ended) :
    Corresponds callers alike (Eval.leave outcome) (Eval.leave ended) := by
  cases corresponds with
  | ok results linked =>
    have left := linked.change (fun machine => { machine with depth := machine.depth - 1 })
      (fun _ => rfl) (fun _ => rfl)
    exact .ok results left
  | error signals linked =>
    have left := linked.change (fun machine => { machine with depth := machine.depth - 1 })
      (fun _ => rfl) (fun _ => rfl)
    exact .error signals left

/-- The limit is reached in both runs or in none. -/
theorem follows_activate (config : host.config = host'.config) (span : Span) (id place : ContextId)
    {work work' : Execution Result} (works : Follows callers alike work work') :
    Follows callers alike (activate host span id work) (activate host' span place work') := by
  intro machine last outcome events linked finished quiet
  unfold activate at finished ⊢
  rw [← config, ← linked.depth_eq]
  by_cases full : host.config.maxCallDepth ≤ machine.depth
  · rw [if_pos full] at finished ⊢
    have raises : Agree callers alike
        (Eval.raise (.recursionLimit host.config.maxCallDepth) span id)
        (Eval.raise (.recursionLimit host.config.maxCallDepth) span place) := Agree.raise _ _ _ _
    exact follows_perform raises linked finished quiet
  · rw [if_neg full] at finished ⊢
    have entered := linked.change (fun machine => { machine with depth := machine.depth + 1 })
      (fun _ => rfl) (fun _ => rfl)
    have leaves := follows_regard (fun _ => []) (fun _ => [])
      (fun _ _ => corresponds_leave) works entered finished quiet
    rw [linked.depth_eq]
    exact leaves

theorem failureOf_alike {signal last : Signal} (signals : signal.Alike last) (boundary : Span)
    (id : ContextId) (store other : Store) :
    (Eval.failureOf signal boundary id store).fault =
        (Eval.failureOf last boundary id other).fault ∧
      (Eval.failureOf signal boundary id store).span =
        (Eval.failureOf last boundary id other).span := by
  cases signals with
  | failed faults spans => exact ⟨faults, spans⟩
  | returned values => exact ⟨rfl, rfl⟩
  | broke span => exact ⟨rfl, rfl⟩
  | continued span => exact ⟨rfl, rfl⟩

theorem corresponds_resultOfBody (function : UserFunction) (span : Span) (id : ContextId)
    {outcome ended : Outcome Value} (corresponds : Corresponds callers Value.Alike outcome ended) :
    Corresponds callers Value.Alike (Eval.resultOfBody function span id outcome)
      (Eval.resultOfBody function span id ended) := by
  cases corresponds with
  | ok results linked =>
    rw [Eval.resultOfBody, Eval.resultOfBody]
    cases function.valued with
    | true => exact .ok results linked
    | false => exact .ok (Value.Alike.refl .null) linked
  | @error signal last machine other signals linked =>
    obtain ⟨faults, spans⟩ := failureOf_alike signals span id machine.store other.store
    cases signals with
    | returned values => exact .ok values linked
    | _ => exact .error (.failed faults spans) linked

theorem corresponds_instanceOfMembers (template : Object) (span : Span) (id : ContextId)
    {outcome ended : Outcome Value} (corresponds : Corresponds callers Value.Alike outcome ended) :
    Corresponds callers Value.Alike (Eval.instanceOfMembers template span id outcome)
      (Eval.instanceOfMembers template span id ended) := by
  cases corresponds with
  | ok results linked =>
    have grown := linked.change (fun machine => { machine with serial := machine.serial + 1 })
      (fun _ => rfl) (fun _ => rfl)
    rw [Eval.instanceOfMembers, Eval.instanceOfMembers, linked.serial_eq] at *
    exact .ok (Value.Alike.refl _) grown
  | @error signal last machine other signals linked =>
    obtain ⟨faults, spans⟩ := failureOf_alike signals span id machine.store other.store
    exact .error (.failed faults spans) linked

/-! ## Messages and lines -/

open Invocation.Alike (ScriptAlike)

/-- The message of a failure does not show its traceback. -/
theorem message_eq {failure last : Failure} (faults : failure.fault = last.fault)
    (spans : failure.span = last.span) :
    (Error.running failure).message = (Error.running last).message := by
  obtain ⟨fault, span, traceback⟩ := failure
  obtain ⟨fault', span', traceback'⟩ := last
  cases faults
  cases spans
  rfl

theorem alike_resultOfScript (root : Located) (id : ContextId) {outcome ended : Outcome Value}
    (corresponds : Corresponds callers Value.Alike outcome ended) :
    ScriptAlike (Eval.resultOfScript root id outcome).1 (Eval.resultOfScript root id ended).1 ∧
      Linked callers (Eval.resultOfScript root id outcome).2
        (Eval.resultOfScript root id ended).2 := by
  cases corresponds with
  | ok results linked => exact ⟨.ok results, linked⟩
  | @error signal last machine other signals linked =>
    obtain ⟨faults, spans⟩ := failureOf_alike signals root.note id machine.store other.store
    have errors := ScriptAlike.error (message_eq faults spans)
    cases signals with
    | returned values => exact ⟨.ok values, linked⟩
    | _ => exact ⟨errors, linked⟩

/-- Both runs read the same lines and complain about the same ones. -/
theorem follows_readInteger {call other : Invocation} (calls : call.Alike callers other)
    (more : fuel ≤ fuel') :
    Follows callers Value.Alike (readInteger call fuel) (readInteger other fuel') := by
  induction fuel generalizing fuel' with
  | zero => exact follows_cutOff _
  | succ fuel ih =>
    obtain ⟨extra, rfl⟩ := Nat.exists_eq_add_of_lt more
    apply follows_andThen (follows_perform calls.readLine)
    rintro line _ rfl
    cases line with
    | none => exact follows_perform (calls.exception (.io .endOfInput))
    | some line =>
      dsimp only
      cases Console.integer? line with
      | some value => exact follows_pure (Value.Alike.refl (.int value))
      | none =>
        apply follows_andThen (follows_perform (calls.complain line))
        intro _ _ _
        exact ih (by omega)

/-! ## Values of blocks and loops -/

/-- The value of an alternative counts unless the alternative is a block. -/
theorem follows_dropped (block : Bool) {value last : Value} (values : Value.Alike value last) :
    Follows callers Value.Alike (pure (if block then .null else value))
      (pure (if block then .null else last)) := by
  cases block with
  | true => exact follows_pure (Value.Alike.refl .null)
  | false => exact follows_pure values

theorem alike_result (block : Bool) {values others : List Value}
    (alike : Value.AllAlike values others) :
    Value.Alike (Loop.result block values) (Loop.result block others) := by
  cases block with
  | true => exact Value.Alike.refl .null
  | false =>
    apply Value.AllAlike.list
    rw [Value.AllAlike, List.map_reverse, List.map_reverse, alike]

/-! ## What runs other work -/

section

variable (selves : ∀ expr id, Follows callers Value.Alike (self expr id) (self' expr id))

include selves

/-- The bodies of functions are executed in the same context, wherever the functions are called. -/
theorem follows_callUser (function : UserFunction) {arguments arguments' : List Value}
    (values : Value.AllAlike arguments arguments') (span : Span) {caller caller' : ContextId}
    (meet : callers.Meet caller caller') :
    Follows callers Value.Alike (callUser self function arguments span caller)
      (callUser self' function arguments' span caller') := by
  have outline : Context.outline
      ⟨function.name, some ⟨caller, span⟩, some function.closure,
        .ofArguments function.parameters arguments⟩ =
      Context.outline
      ⟨function.name, some ⟨caller', span⟩, some function.closure,
        .ofArguments function.parameters arguments'⟩ := by
    simp only [Context.outline, Table.untraced_ofArguments]
    rw [values]
    rfl
  apply follows_andThen (follows_perform (Agree.addContext outline meet))
  rintro id _ rfl
  exact follows_regard _ _ (fun _ _ => corresponds_resultOfBody function span id)
    (selves function.body id)

theorem follows_instantiate (template : Object) (name : String) (span : Span) (caller : ContextId) :
    Follows callers Value.Alike (instantiate self template name span caller)
      (instantiate self' template name span caller) := by
  apply follows_andThen (follows_perform (Agree.addContext rfl (Linked.enteredAlike_self _ _)))
  rintro id _ rfl
  exact follows_regard _ _ (fun _ _ => corresponds_instanceOfMembers template span id)
    (selves template.body id)

/-- A script is read as the same source in both runs. -/
theorem follows_runIn (root : ContextId) (path text : String) :
    Follows callers ScriptAlike (runIn root self path text) (runIn root self' path text) := by
  intro machine last outcome events linked finished quiet
  have grown := linked.change (fun machine => { machine with serial := machine.serial + 1 })
    (fun _ => rfl) (fun _ => rfl)
  unfold runIn runText at finished ⊢
  rw [← linked.serial_eq] at *
  cases read : Eval.read ⟨machine.serial, path, text⟩ with
  | error error =>
    simp only [read, Option.map_some] at finished ⊢
    cases finished
    exact ⟨_, _, rfl, .ok (.error rfl) grown⟩
  | ok program =>
    simp only [read, Option.map_map] at finished ⊢
    obtain ⟨⟨ended, earlier⟩, done, same⟩ := Option.map_eq_some_iff.mp finished
    obtain ⟨rfl, rfl⟩ := Prod.mk.inj same
    obtain ⟨ended', later, done', corresponds⟩ :=
      selves program root grown done (quiet_append quiet).1
    obtain ⟨results, linked⟩ := alike_resultOfScript program root corresponds
    rw [done']
    exact ⟨_, _, rfl, .ok results linked⟩

/-! ## Parts of expressions -/

theorem follows_all (id : ContextId) (elements : List Located) :
    Follows callers Value.AllAlike (all self id elements) (all self' id elements) := by
  induction elements with
  | nil => exact follows_pure rfl
  | cons element rest ih =>
    apply follows_andThen (selves element id)
    intro value last values
    apply follows_andThen ih
    intro others lasts alike
    exact follows_pure (Value.AllAlike.cons values alike)

theorem follows_alternatives (id : ContextId) (branches : Branches Span) :
    Follows callers Value.Alike (alternatives self id branches)
      (alternatives self' id branches) := by
  cases branches with
  | done => exact follows_pure (Value.Alike.refl .null)
  | otherwise body block =>
    apply follows_andThen (selves body id)
    intro value last values
    exact follows_dropped block values
  | orElse condition body block rest =>
    apply follows_andThen (selves condition id)
    intro truth last truths
    rw [truths.isTrue_eq]
    by_cases holds : last.isTrue = true
    · rw [if_pos holds, if_pos holds]
      apply follows_andThen (selves body id)
      intro value last values
      exact follows_dropped block values
    · rw [if_neg holds, if_neg holds]
      exact follows_alternatives id rest

theorem follows_stepOf (id : ContextId) (step : Option Located) (first last : Int64) :
    Follows callers Eq (stepOf self id step first last) (stepOf self' id step first last) := by
  cases step with
  | none => exact follows_pure rfl
  | some expr =>
    apply follows_andThen (selves expr id)
    intro value other values
    exact follows_perform (Agree.stepOf values first last expr.note id)

theorem follows_countedRound (id : ContextId) (counter : String) (body : Located) (span : Span)
    (value : Int64) :
    Follows callers Value.Alike (countedRound self id counter body span value)
      (countedRound self' id counter body span value) := by
  apply follows_andThen (follows_perform (Agree.assign id counter (Value.Alike.refl _) span id))
  intro _ _ _
  exact selves body id

theorem follows_binary (id : ContextId) (op : BinaryOp) (left right : Located) (span : Span) :
    Follows callers Value.Alike (express self host fuel id (.binary op left right span))
      (express self' host' fuel' id (.binary op left right span)) := by
  apply follows_andThen (selves left id)
  intro first first' firsts
  apply follows_andThen (selves right id)
  intro second second' seconds
  apply follows_note
  intro discreet
  apply follows_perform
  apply Agree.orRaise
  exact Value.binary_alike firsts seconds discreet

theorem follows_forLoop (config : host.config = host'.config) (more : fuel ≤ fuel') (id : ContextId)
    (counter : String) (start stop : Located) (step : Option Located) (body : Located)
    (block : Bool) (span : Span) :
    Follows callers Value.Alike
      (express self host fuel id (.forLoop counter start stop step body block span))
      (express self' host' fuel' id (.forLoop counter start stop step body block span)) := by
  rw [express, express, config]
  apply follows_andThen (selves start id)
  intro first first' firsts
  apply follows_andThen (selves stop id)
  intro last last' lasts
  cases firsts.paired with
  | int first =>
    cases lasts.paired with
    | int last =>
      apply follows_andThen (follows_stepOf selves id step first last)
      rintro by' _ rfl
      have counts := follows_count (follows_countedRound selves id counter body span)
        (follows_perform (Agree.raise (.loopLimit host'.config.maxLoopIterations) span id id))
        (!block) host'.config.maxLoopIterations last by' more 0 first Value.AllAlike.nil
      apply follows_andThen counts
      intro values others alike
      exact follows_pure (alike_result block alike)
    | _ => exact follows_perform (Agree.raise .loopBounds span id id)
  | _ => exact follows_perform (Agree.raise .loopBounds span id id)

/-! ## Scripts -/

variable (config : host.config = host'.config) (disk : host.disk = host'.disk)

include config disk

theorem follows_includeScript {call other : Invocation} (calls : call.Alike callers other) :
    Follows callers Value.Alike (includeScript self host call)
      (includeScript self' host' other) := by
  apply follows_andThen (follows_perform (calls.loadScript config disk))
  rintro loaded _ rfl
  cases loaded with
  | none => exact follows_perform (calls.refuse "file" .string)
  | some script =>
    apply follows_andThen (follows_perform calls.rootOf)
    rintro root _ rfl
    apply follows_andThen (follows_runIn selves root script.1 script.2)
    intro result last results
    apply follows_andThen (follows_perform (calls.resultOf script.1 results))
    intro _ _ _
    exact follows_pure (Value.Alike.refl .null)

theorem follows_runScript {call other : Invocation} (calls : call.Alike callers other) :
    Follows callers Value.Alike (runScript self host call) (runScript self' host' other) := by
  apply follows_andThen (follows_perform (calls.loadScript config disk))
  rintro loaded _ rfl
  cases loaded with
  | none => exact follows_perform (calls.refuse "file" .string)
  | some script =>
    apply follows_andThen (follows_perform Agree.enterScript)
    rintro ⟨saved, root⟩ ⟨saved', _⟩ ⟨both, rfl⟩
    apply follows_andThen (follows_runIn selves root script.1 script.2)
    intro result last results
    apply follows_andThen (follows_perform (Agree.leaveScript both))
    intro exported exported' exports
    apply follows_andThen (follows_perform (calls.resultOf script.1 results))
    intro _ _ _
    cases exports with
    | none => exact follows_pure (Value.Alike.refl .null)
    | some values => exact follows_pure values

/-! ## Calls -/

variable (more : fuel ≤ fuel')

include more

theorem follows_invoke {call other : Invocation} (calls : call.Alike callers other)
    (builtin : Builtin) :
    Follows callers Value.Alike (invoke self host fuel call builtin)
      (invoke self' host' fuel' other builtin) := by
  apply follows_note
  intro timeless
  by_cases integer : builtin = .inputInt
  · subst integer
    exact follows_readInteger calls more
  by_cases included : builtin = .includeScript
  · subst included
    exact follows_includeScript selves config disk calls
  by_cases started : builtin = .runScript
  · subst started
    exact follows_runScript selves config disk calls
  have plain := calls.run_plain host host' (fun _ _ => pure .null) (fun _ _ => pure .null)
    timeless integer included started
  cases builtin with
  | inputInt => exact absurd rfl integer
  | includeScript => exact absurd rfl included
  | runScript => exact absurd rfl started
  | _ => exact follows_perform plain

theorem follows_callBuiltin (function : BuiltinFunction) {arguments arguments' : List Value}
    (values : Value.AllAlike arguments arguments') (span : Span) {caller caller' : ContextId}
    (meet : callers.Meet caller caller') :
    Follows callers Value.Alike (callBuiltin self host fuel function arguments span caller)
      (callBuiltin self' host' fuel' function arguments' span caller') := by
  unfold callBuiltin
  cases Builtin.named? function.name with
  | none => exact follows_perform (Agree.raise _ _ _ _)
  | some builtin =>
    have calls : (Eval.invocationOf function arguments span caller).Alike callers
        (Eval.invocationOf function arguments' span caller') := by
      constructor
      · rfl
      · rfl
      · simp only [Eval.invocationOf, Table.untraced_ofArguments]
        rw [values]
      · exact meet
    exact follows_invoke selves config disk more calls builtin

/-- A call follows the same call from another context of the program. -/
theorem follows_callValue {callee callee' : Value} (callees : Value.Alike callee callee')
    {arguments arguments' : List Value} (values : Value.AllAlike arguments arguments') (span : Span)
    {caller caller' : ContextId} (meet : callers.Meet caller caller') :
    Follows callers Value.Alike (callValue self host fuel callee arguments span caller)
      (callValue self' host' fuel' callee' arguments' span caller') := by
  have reprs := callees.repr_eq
  cases callees.paired with
  | function function =>
    have checked : Agree callers Eq
        (Eval.orRaise (function.checkArity arguments.length) span caller)
        (Eval.orRaise (function.checkArity arguments'.length) span caller') := by
      rw [values.length_eq]
      cases function.checkArity arguments'.length with
      | ok _ => exact Agree.pure rfl
      | error fault => exact Agree.raise fault span caller caller'
    apply follows_andThen (follows_perform checked)
    intro _ _ _
    apply follows_activate config
    cases function with
    | user defined => exact follows_callUser selves defined values span meet
    | builtin provided =>
      exact follows_callBuiltin selves config disk more provided values span meet
  | _ =>
    unfold callValue
    dsimp only
    rw [reprs]
    exact follows_perform (Agree.raise _ _ _ _)

/-! ## Expressions -/

theorem follows_express (id : ContextId) (expr : Located) :
    Follows callers Value.Alike (express self host fuel id expr)
      (express self' host' fuel' id expr) := by
  cases expr with
  | literal value note => exact follows_pure (Value.Alike.refl _)
  | unary op operand span =>
    apply follows_andThen (selves operand id)
    intro value last values
    apply follows_perform
    apply Agree.orRaise
    exact Value.unary_alike op values
  | binary op left right span => exact follows_binary selves id op left right span
  | list elements note =>
    apply follows_andThen (follows_all selves id elements)
    intro values others alike
    exact follows_pure alike.list
  | choice branches note => exact follows_alternatives selves id branches
  | forLoop counter start stop step body block span =>
    exact follows_forLoop selves config more id counter start stop step body block span
  | whileLoop condition body block span =>
    rw [express, express, config]
    apply follows_andThen (follows_repeatWhile (selves condition id) (selves body id)
      (follows_perform (Agree.raise (.loopLimit host'.config.maxLoopIterations) span id id))
      (!block) host'.config.maxLoopIterations more 0 Value.AllAlike.nil)
    intro values others alike
    exact follows_pure (alike_result block alike)
  | read name span => exact follows_perform (Agree.readName name span id)
  | assign name expr span =>
    apply follows_andThen (selves expr id)
    intro value last values
    apply follows_andThen (follows_perform (Agree.assign id name values span id))
    intro _ _ _
    exact follows_pure values
  | member object name span => exact follows_perform (Agree.readMember object name span id)
  | assignMember object name expr span =>
    apply follows_andThen (follows_perform (Agree.instanceNamed object span id))
    rintro target _ rfl
    apply follows_andThen (selves expr id)
    intro value last values
    apply follows_andThen (follows_perform (Agree.assign target.context name values span id))
    intro _ _ _
    exact follows_pure values
  | function name parameters body valued span =>
    exact follows_perform (Agree.define name parameters body valued span id)
  | call callee arguments span =>
    apply follows_andThen (selves callee id)
    intro function function' functions
    apply follows_andThen (follows_all selves id arguments)
    intro values others alike
    exact follows_callValue selves config disk more functions alike span (callers.meet_self id)
  | template name body span => exact follows_perform (Agree.defineTemplate name body span id)
  | instantiate name span =>
    apply follows_andThen (follows_perform (Agree.objectNamed name span id))
    rintro template _ rfl
    apply follows_activate config
    exact follows_instantiate selves template name span id
  | returnWith value note =>
    cases value with
    | none => exact follows_perform (Agree.throw (.returned (Value.Alike.refl .null)))
    | some expr =>
      apply follows_andThen (selves expr id)
      intro value last values
      exact follows_perform (Agree.throw (.returned values))
  | breakLoop span => exact follows_perform (Agree.throw (.broke span))
  | continueLoop span => exact follows_perform (Agree.throw (.continued span))

end

/-- Every expression follows itself in the same context, with as much fuel or more. -/
theorem follows_evaluate (config : host.config = host'.config) (disk : host.disk = host'.disk)
    (more : fuel ≤ fuel') (expr : Located) (id : ContextId) :
    Follows callers Value.Alike (evaluate host fuel expr id) (evaluate host' fuel' expr id) := by
  induction fuel generalizing fuel' expr id with
  | zero => exact follows_cutOff _
  | succ fuel ih =>
    obtain ⟨extra, rfl⟩ := Nat.exists_eq_add_of_lt more
    have less : fuel ≤ fuel + extra := Nat.le_add_right fuel extra
    exact follows_express (ih less) config disk less id expr

end Quill.Execution
