import Quill.Proofs.Execution.Settling

/-!
# Every execution finishes

A run has an outcome, whatever the program, the limits, the input and the script files are, and
whatever happened before: from some amount of fuel on, its execution is no longer cut off. What it
computes is what evaluation computes.

The proof follows the three measures that decrease in evaluation, one inside the other. The room
for activations decreases where the body of a function, the members of a template or a script are
executed, although these expressions come from the store or from a file and may be of any size. In
one activation the rounds that are left to a loop decrease, and within one round the expression.
-/

namespace Quill.Execution

open Quill.Eval (raise orRaise)

variable {Result Other : Type}

/-! ## Pieces that settle -/

theorem settlesFrom_pure (machine : Machine) (result : Result) :
    SettlesFrom machine (fun _ => pure result) (pure result) :=
  ⟨rfl, 0, [], fun _ _ => rfl⟩

theorem settlesFrom_perform (machine : Machine) {step : Eval Result} (balanced : Balanced step) :
    SettlesFrom machine (fun _ => perform step) step :=
  ⟨balanced machine, 0, _, fun _ _ => rfl⟩

/-- Only what an execution does with much fuel counts. -/
theorem settlesFrom_of_eventually {machine : Machine} {other : Nat → Execution Result}
    {plain : Eval Result} (start : Nat) (work : Nat → Execution Result)
    (same : ∀ fuel, start ≤ fuel → other fuel = work fuel)
    (settles : SettlesFrom machine work plain) : SettlesFrom machine other plain := by
  obtain ⟨kept, enough, events, settled⟩ := settles
  refine ⟨kept, max start enough, events, fun fuel more => ?_⟩
  rw [same fuel (by omega), settled fuel (by omega)]

/-- The second one of two executions has to settle in the states that the first one ends in. -/
theorem settlesFrom_andThen {machine : Machine} {work : Nat → Execution Result}
    {plain : Eval Result} {next : Nat → Result → Execution Other} {plainNext : Result → Eval Other}
    (first : SettlesFrom machine work plain)
    (second : ∀ result after, plain machine = .ok result after →
      SettlesFrom after (fun fuel => next fuel result) (plainNext result)) :
    SettlesFrom machine (fun fuel => work fuel >>= next fuel) (plain >>= plainNext) := by
  obtain ⟨kept, enough, events, settled⟩ := first
  change (Outcome.machine (EStateM.bind plain plainNext machine)).depth = machine.depth ∧
    ∃ enough events, ∀ fuel, enough ≤ fuel →
      (work fuel >>= next fuel) machine = some (EStateM.bind plain plainNext machine, events)
  unfold EStateM.bind
  cases ended : plain machine with
  | error signal after =>
    rw [ended] at kept settled
    exact ⟨kept, enough, events, fun fuel more => andThen_error _ (settled fuel more)⟩
  | ok result after =>
    rw [ended] at kept settled
    obtain ⟨keptLater, enoughLater, later, settledLater⟩ := second result after ended
    refine ⟨keptLater.trans kept, max enough enoughLater, events ++ later, fun fuel more => ?_⟩
    exact andThen_ok (settled fuel (by omega)) (settledLater fuel (by omega))

theorem settles_pure (depth : Nat) (result : Result) :
    Settles depth (fun _ => pure result) (pure result) :=
  fun machine _ => settlesFrom_pure machine result

theorem settles_perform (depth : Nat) {step : Eval Result} (balanced : Balanced step) :
    Settles depth (fun _ => perform step) step :=
  fun machine _ => settlesFrom_perform machine balanced

theorem settles_of_eventually {depth : Nat} {other : Nat → Execution Result}
    {plain : Eval Result} (start : Nat) (work : Nat → Execution Result)
    (same : ∀ fuel, start ≤ fuel → other fuel = work fuel)
    (settles : Settles depth work plain) : Settles depth other plain :=
  fun machine atDepth => settlesFrom_of_eventually start work same (settles machine atDepth)

theorem settles_andThen {depth : Nat} {work : Nat → Execution Result} {plain : Eval Result}
    {next : Nat → Result → Execution Other} {plainNext : Result → Eval Other}
    (first : Settles depth work plain)
    (second : ∀ result, Settles depth (fun fuel => next fuel result) (plainNext result)) :
    Settles depth (fun fuel => work fuel >>= next fuel) (plain >>= plainNext) := by
  intro machine atDepth
  apply settlesFrom_andThen (first machine atDepth)
  intro result after ended
  have kept := (first machine atDepth).1
  rw [ended] at kept
  exact second result after (kept.trans atDepth)

/-- A fixed loss of fuel does not matter. -/
theorem settles_sub {depth : Nat} {work : Nat → Execution Result} {plain : Eval Result}
    (loss : Nat) (settles : Settles depth work plain) :
    Settles depth (fun fuel => work (fuel - loss)) plain := by
  intro machine atDepth
  obtain ⟨kept, enough, events, settled⟩ := settles machine atDepth
  exact ⟨kept, enough + loss, events, fun fuel more => settled (fuel - loss) (by omega)⟩

/-- A noted event has no part in the outcome. -/
theorem settles_note {depth : Nat} {work : Nat → Execution Result} {plain : Eval Result}
    (event : Event) (settles : Settles depth work plain) :
    Settles depth (fun fuel => note event >>= fun _ => work fuel) plain := by
  intro machine atDepth
  obtain ⟨kept, enough, events, settled⟩ := settles machine atDepth
  exact ⟨kept, enough, [event] ++ events, fun fuel more => andThen_ok rfl (settled fuel more)⟩

theorem settles_regard {depth : Nat} {work : Nat → Execution Result} {plain : Eval Result}
    {view : Outcome Result → Outcome Other} {arising : Outcome Result → List Event}
    (keeps : ∀ outcome, (Outcome.machine (view outcome)).depth = (Outcome.machine outcome).depth)
    (settles : Settles depth work plain) :
    Settles depth (fun fuel => regard view arising (work fuel))
      (fun machine => view (plain machine)) := by
  intro machine atDepth
  obtain ⟨kept, enough, events, settled⟩ := settles machine atDepth
  refine ⟨(keeps _).trans kept, enough, events ++ arising (plain machine), fun fuel more => ?_⟩
  change (work fuel machine).map _ = _
  rw [settled fuel more]
  rfl

/-! ## Loops -/

theorem depth_roundOf (outcome : Outcome Value) :
    (Outcome.machine (Loop.roundOf outcome)).depth = (Outcome.machine outcome).depth := by
  unfold Loop.roundOf
  split <;> rfl

theorem settles_round {depth : Nat} {body : Nat → Execution Value} {plain : Eval Value}
    (settles : Settles depth body plain) :
    Settles depth (fun fuel => round (body fuel)) (Loop.round plain) :=
  settles_regard depth_roundOf settles

/-- Counting the rounds up to the limit comes to the same as counting down the rounds that are
left. The loop takes one unit of its own fuel in each round, which the loss accounts for. -/
theorem settles_repeatWhile {depth : Nat} {condition body : Nat → Execution Value}
    {plainCondition plainBody : Eval Value} {tooLong : Eval (List Value)}
    (conditionSettles : Settles depth condition plainCondition)
    (bodySettles : Settles depth body plainBody) (balanced : Balanced tooLong)
    (keep : Bool) (limit left rounds loss : Nat) (split : rounds + left = limit)
    (values : List Value) :
    Settles depth
      (fun fuel => repeatWhile (condition fuel) (body fuel) keep (perform tooLong) limit
        (fuel - loss) rounds values)
      (Loop.repeatWhile plainCondition plainBody keep tooLong left values) := by
  induction left generalizing rounds loss values with
  | zero =>
    have beyond : limit < rounds + 1 := by omega
    refine settles_of_eventually (loss + 1) (fun fuel =>
      whileRound (condition fuel) (body fuel) keep (perform tooLong) limit
        (repeatWhile (condition fuel) (body fuel) keep (perform tooLong) limit
          (fuel - (loss + 1))) rounds values) (fun fuel more => ?_) ?_
    · rw [show fuel - loss = fuel - (loss + 1) + 1 by omega]
      rfl
    · apply settles_andThen conditionSettles
      intro value
      simp only [beyond, if_true]
      split
      · exact settles_perform depth balanced
      · exact settles_pure depth values
  | succ left ih =>
    have within : ¬limit < rounds + 1 := by omega
    refine settles_of_eventually (loss + 1) (fun fuel =>
      whileRound (condition fuel) (body fuel) keep (perform tooLong) limit
        (repeatWhile (condition fuel) (body fuel) keep (perform tooLong) limit
          (fuel - (loss + 1))) rounds values) (fun fuel more => ?_) ?_
    · rw [show fuel - loss = fuel - (loss + 1) + 1 by omega]
      rfl
    · apply settles_andThen conditionSettles
      intro value
      simp only [within, if_false]
      split
      · apply settles_andThen (settles_round bodySettles)
        intro ended
        cases ended with
        | left => exact settles_pure depth values
        | value result => exact ih (rounds + 1) (loss + 1) (by omega) _
        | skipped => exact ih (rounds + 1) (loss + 1) (by omega) _
      · exact settles_pure depth values

theorem settles_count {depth : Nat} {body : Nat → Int64 → Execution Value}
    {plainBody : Int64 → Eval Value} {tooLong : Eval (List Value)}
    (bodySettles : ∀ counter, Settles depth (fun fuel => body fuel counter) (plainBody counter))
    (balanced : Balanced tooLong) (keep : Bool) (stop step : Int64)
    (limit left rounds loss : Nat) (split : rounds + left = limit) (counter : Int64)
    (values : List Value) :
    Settles depth
      (fun fuel => count (body fuel) keep (perform tooLong) limit stop step (fuel - loss) rounds
        counter values)
      (Loop.count plainBody keep tooLong stop step left counter values) := by
  induction left generalizing rounds loss counter values with
  | zero =>
    have beyond : limit < rounds + 1 := by omega
    refine settles_of_eventually (loss + 1) (fun fuel =>
      countRound (body fuel) keep (perform tooLong) limit stop step
        (count (body fuel) keep (perform tooLong) limit stop step (fuel - (loss + 1)))
        rounds counter values) (fun fuel more => ?_) ?_
    · rw [show fuel - loss = fuel - (loss + 1) + 1 by omega]
      rfl
    · simp only [countRound, Loop.count, beyond, if_true]
      split
      · exact settles_perform depth balanced
      · exact settles_pure depth values
  | succ left ih =>
    have within : ¬limit < rounds + 1 := by omega
    refine settles_of_eventually (loss + 1) (fun fuel =>
      countRound (body fuel) keep (perform tooLong) limit stop step
        (count (body fuel) keep (perform tooLong) limit stop step (fuel - (loss + 1)))
        rounds counter values) (fun fuel more => ?_) ?_
    · rw [show fuel - loss = fuel - (loss + 1) + 1 by omega]
      rfl
    · simp only [countRound, Loop.count, within, if_false]
      split
      · apply settles_andThen (settles_round (bodySettles counter))
        intro ended
        cases Integer.add? counter step with
        | none => cases ended <;> exact settles_pure depth _
        | some next =>
          cases ended with
          | left => exact settles_pure depth values
          | value result => exact ih (rounds + 1) (loss + 1) (by omega) next _
          | skipped => exact ih (rounds + 1) (loss + 1) (by omega) next _
      · exact settles_pure depth values

/-! ## Activations -/

/-- The room that is left with some number of open activations. -/
def room (host : Host) (depth : Nat) : Nat :=
  host.config.maxCallDepth - depth

/-- Everything that is evaluated in one more activation settles on what it is evaluated to with the
room that is left then. -/
def SettlesInside (host : Host) (depth : Nat) : Prop :=
  ∀ left, room host depth = left + 1 → ∀ expr id,
    Settles (depth + 1) (fun fuel => evaluate host fuel expr id) (Eval.evaluate host left expr id)

theorem depth_resultOfBody (function : UserFunction) (span : Span) (id : ContextId)
    (outcome : Outcome Value) :
    (Outcome.machine (Eval.resultOfBody function span id outcome)).depth =
      (Outcome.machine outcome).depth := by
  unfold Eval.resultOfBody
  split <;> rfl

theorem depth_instanceOfMembers (template : Object) (span : Span) (id : ContextId)
    (outcome : Outcome Value) :
    (Outcome.machine (Eval.instanceOfMembers template span id outcome)).depth =
      (Outcome.machine outcome).depth := by
  unfold Eval.instanceOfMembers
  split <;> rfl

/-- An activation is opened if there is room for it, which is as long as the number of open ones is
below the limit. -/
theorem settles_activate {host : Host} {depth : Nat} {work : Nat → Execution Result}
    {plain : Evaluate → Eval Result} (span : Span) (id : ContextId)
    (settles : ∀ left, room host depth = left + 1 →
      Settles (depth + 1) work (plain (Eval.evaluate host left))) :
    Settles depth (fun fuel => activate host span id (work fuel))
      (Eval.activate host (Eval.inside host (room host depth)) span id plain) := by
  intro machine atDepth
  cases left : room host depth with
  | zero =>
    have full : host.config.maxCallDepth ≤ machine.depth := by
      rw [atDepth]
      exact Nat.sub_eq_zero_iff_le.mp left
    refine ⟨rfl, 0, [.raised (.recursionLimit host.config.maxCallDepth)], fun fuel _ => ?_⟩
    simp only [activate, full, if_true]
    rfl
  | succ left' =>
    have open_ : ¬host.config.maxCallDepth ≤ machine.depth := by
      unfold room at left
      omega
    obtain ⟨kept, enough, events, settled⟩ :=
      settles left' left { machine with depth := machine.depth + 1 } (by simp [atDepth])
    have closed (outcome : Outcome Result) (above : (Outcome.machine outcome).depth = depth + 1) :
        (Outcome.machine (Eval.leave outcome)).depth = depth := by
      cases outcome <;> simp_all [Eval.leave, Outcome.machine]
    refine ⟨(closed _ (kept.trans (by simp [atDepth]))).trans atDepth.symm, enough, events ++ [],
      fun fuel more => ?_⟩
    simp only [activate, open_, if_false]
    rw [regard_apply, settled fuel more]
    rfl

theorem settles_callUser {host : Host} {depth left : Nat}
    (inside : ∀ expr id, Settles (depth + 1) (fun fuel => evaluate host fuel expr id)
      (Eval.evaluate host left expr id))
    (function : UserFunction) (arguments : List Value) (span : Span) (caller : ContextId) :
    Settles (depth + 1)
      (fun fuel => callUser (evaluate host fuel) function arguments span caller)
      (Eval.callUser function arguments span caller (Eval.evaluate host left)) := by
  apply settles_andThen (settles_perform _ (balanced_addContext _))
  intro id
  exact settles_regard (depth_resultOfBody function span id) (inside function.body id)

theorem settles_instantiate {host : Host} {depth left : Nat}
    (inside : ∀ expr id, Settles (depth + 1) (fun fuel => evaluate host fuel expr id)
      (Eval.evaluate host left expr id))
    (template : Object) (name : String) (span : Span) (caller : ContextId) :
    Settles (depth + 1)
      (fun fuel => instantiate (evaluate host fuel) template name span caller)
      (Eval.instantiate template name span caller (Eval.evaluate host left)) := by
  apply settles_andThen (settles_perform _ (balanced_addContext _))
  intro id
  exact settles_regard (depth_instanceOfMembers template span id) (inside template.body id)

/-! ## Scripts -/

theorem depth_resultOfScript (root : Located) (id : ContextId) (outcome : Outcome Value) :
    (Eval.resultOfScript root id outcome).2.depth = (Outcome.machine outcome).depth := by
  unfold Eval.resultOfScript
  split <;> rfl

/-- A text that is run settles if the program that it stands for does. -/
theorem settles_runText {depth : Nat} {self : Nat → Execute} {plain : Evaluate}
    (settles : ∀ expr id, Settles depth (fun fuel => self fuel expr id) (plain expr id))
    (name text : String) (id : ContextId) {machine : Machine} (atDepth : machine.depth = depth) :
    (Eval.runText plain name text id machine).2.depth = depth ∧
      ∃ enough events, ∀ fuel, enough ≤ fuel →
        runText (self fuel) name text id machine =
          some (Eval.runText plain name text id machine, events) := by
  unfold Eval.runText runText
  dsimp only
  cases Eval.read ⟨machine.serial, name, text⟩ with
  | error error => exact ⟨atDepth, 0, [], fun _ _ => rfl⟩
  | ok root =>
    obtain ⟨kept, enough, events, settled⟩ :=
      settles root id { machine with serial := machine.serial + 1 } atDepth
    refine ⟨(depth_resultOfScript root id _).trans (kept.trans atDepth), enough,
      events ++ strayFromBody (plain root id { machine with serial := machine.serial + 1 }),
      fun fuel more => ?_⟩
    have finished : self fuel root id _ = _ := settled fuel more
    dsimp only
    rw [finished]
    rfl

theorem settles_runIn {depth : Nat} {self : Nat → Execute} {plain : Evaluate}
    (settles : ∀ expr id, Settles depth (fun fuel => self fuel expr id) (plain expr id))
    (root : ContextId) (path text : String) :
    Settles depth (fun fuel => runIn root (self fuel) path text)
      (Invocation.runIn root plain path text) := by
  intro machine atDepth
  obtain ⟨kept, enough, events, settled⟩ := settles_runText settles path text root atDepth
  refine ⟨kept.trans atDepth.symm, enough, events, fun fuel more => ?_⟩
  change (runText (self fuel) path text root machine).map _ = _
  rw [settled fuel more]
  rfl

theorem settles_includeScript {depth : Nat} {self : Nat → Execute} {plain : Evaluate}
    (settles : ∀ expr id, Settles depth (fun fuel => self fuel expr id) (plain expr id))
    (host : Host) (call : Invocation) :
    Settles depth (fun fuel => includeScript (self fuel) host call)
      (call.includeScript host plain) := by
  apply settles_andThen (settles_perform depth (balanced_loadScript call host))
  intro loaded
  cases loaded with
  | none => exact settles_perform depth (balanced_exception call _)
  | some script =>
    obtain ⟨path, text⟩ := script
    let reading : Eval ContextId := fun machine => .ok (machine.store.rootOf call.caller) machine
    change Settles depth _ (reading >>= fun root => Invocation.runIn root plain path text >>=
      fun result => call.resultOf path result >>= fun _ => pure Value.null)
    apply settles_andThen (settles_perform depth fun _ => rfl)
    intro root
    apply settles_andThen (settles_runIn settles root path text)
    intro result
    apply settles_andThen (settles_perform depth (balanced_resultOf call path result))
    intro _
    exact settles_pure depth _

theorem settles_runScript {depth : Nat} {self : Nat → Execute} {plain : Evaluate}
    (settles : ∀ expr id, Settles depth (fun fuel => self fuel expr id) (plain expr id))
    (host : Host) (call : Invocation) :
    Settles depth (fun fuel => runScript (self fuel) host call) (call.runScript host plain) := by
  apply settles_andThen (settles_perform depth (balanced_loadScript call host))
  intro loaded
  cases loaded with
  | none => exact settles_perform depth (balanced_exception call _)
  | some script =>
    obtain ⟨path, text⟩ := script
    apply settles_andThen (settles_perform depth balanced_enterScript)
    intro entered
    obtain ⟨saved, root⟩ := entered
    apply settles_andThen (settles_runIn settles root path text)
    intro result
    apply settles_andThen (settles_perform depth (balanced_leaveScript saved))
    intro exported
    apply settles_andThen (settles_perform depth (balanced_resultOf call path result))
    intro _
    exact settles_pure depth _


/-! ## Calls -/

theorem length_rest_lt (bytes : List UInt8) (more : bytes ≠ []) :
    (Console.splitLine bytes).2.length < bytes.length := by
  have shorter := (List.dropWhile_suffix (· ≠ (10 : UInt8)) : _ <:+ bytes).length_le
  unfold Console.splitLine
  dsimp only
  split
  · exact List.length_pos_iff.mpr more
  · rename_i feed rest dropped
    rw [dropped] at shorter
    exact Nat.lt_of_succ_le shorter

/-- A line that was read is no longer a part of the input. -/
theorem length_input_lt (call : Invocation) {machine after : Machine} {line : String}
    (ended : call.readLine machine = .ok (some line) after) :
    after.input.length < machine.input.length := by
  unfold Invocation.readLine at ended
  split at ended
  · simp at ended
  · rename_i filled
    dsimp only at ended
    split at ended
    · simp only [EStateM.Result.ok.injEq] at ended
      rw [← ended.2]
      exact length_rest_lt _ (by simpa using filled)
    · simp [Invocation.raise] at ended

theorem input_complain (call : Invocation) (line : String) (machine : Machine) :
    (Outcome.machine (call.complain line machine)).input = machine.input := by
  unfold Invocation.complain Invocation.writeLine
  split <;> rfl

/-- Reading an integer ends with the input at the latest, as every line that it reads is taken from
the input. -/
theorem settlesFrom_readInteger (call : Invocation) (lines loss : Nat) (machine : Machine)
    (bounded : machine.input.length ≤ lines) :
    SettlesFrom machine (fun fuel => readInteger call (fuel - loss)) (call.readInteger lines) := by
  induction lines generalizing loss machine with
  | zero =>
    have empty : machine.input = [] := List.length_eq_zero_iff.mp (Nat.le_zero.mp bounded)
    have ended : perform call.readLine machine = some (.ok none machine, []) := by
      simp [perform, Invocation.readLine, empty, Outcome.faults]
    refine ⟨rfl, loss + 1, [], fun fuel more => ?_⟩
    dsimp only
    rw [show fuel - loss = fuel - (loss + 1) + 1 by omega]
    exact andThen_ok ended rfl
  | succ lines ih =>
    refine settlesFrom_of_eventually (loss + 1)
      (fun fuel => readInteger call (fuel - (loss + 1) + 1)) (fun fuel more => ?_) ?_
    · rw [show fuel - loss = fuel - (loss + 1) + 1 by omega]
    · refine settlesFrom_andThen (settlesFrom_perform machine (balanced_readLine call))
        fun found after ended => ?_
      cases found with
      | none => exact settlesFrom_perform after (balanced_exception call _)
      | some line =>
        have shorter := length_input_lt call ended
        dsimp only
        cases Console.integer? line with
        | some value => exact settlesFrom_pure after _
        | none =>
          refine settlesFrom_andThen (settlesFrom_perform after (balanced_writeLine call _))
            fun _ last complained => ih (loss + 1) last ?_
          have kept := input_complain call line after
          rw [complained] at kept
          have same : last.input = after.input := kept
          rw [same]
          omega

theorem settles_invoke {host : Host} {depth left : Nat}
    (inside : ∀ expr id, Settles depth (fun fuel => evaluate host fuel expr id)
      (Eval.evaluate host left expr id))
    (call : Invocation) (builtin : Builtin) :
    Settles depth (fun fuel => invoke (evaluate host fuel) host fuel call builtin)
      (call.run host (Eval.evaluate host left) builtin) := by
  refine settles_note (.invoked builtin) ?_
  by_cases integer : builtin = .inputInt
  · subst integer
    intro machine _
    exact settlesFrom_readInteger call machine.input.length 0 machine (Nat.le_refl _)
  by_cases included : builtin = .includeScript
  · subst included
    exact settles_includeScript inside host call
  by_cases started : builtin = .runScript
  · subst started
    exact settles_runScript inside host call
  obtain ⟨same, balanced⟩ :=
    run_plain call host (Eval.evaluate host left) integer included started
  rw [same] at balanced ⊢
  cases builtin <;> first
    | exact absurd rfl integer
    | exact absurd rfl included
    | exact absurd rfl started
    | exact settles_perform depth balanced

theorem settles_callBuiltin {host : Host} {depth left : Nat}
    (inside : ∀ expr id, Settles depth (fun fuel => evaluate host fuel expr id)
      (Eval.evaluate host left expr id))
    (function : BuiltinFunction) (arguments : List Value) (span : Span) (caller : ContextId) :
    Settles depth
      (fun fuel => callBuiltin (evaluate host fuel) host fuel function arguments span caller)
      (Eval.callBuiltin host function arguments span caller (Eval.evaluate host left)) := by
  unfold callBuiltin Eval.callBuiltin
  cases Builtin.named? function.name with
  | none => exact settles_perform depth (balanced_raise _ _ _)
  | some builtin => exact settles_invoke inside _ builtin

/-- Every call settles, as what it runs is evaluated with less room. -/
theorem settles_callValue {host : Host} {depth : Nat} (inside : SettlesInside host depth)
    (callee : Value) (arguments : List Value) (span : Span) (caller : ContextId) :
    Settles depth
      (fun fuel => callValue (evaluate host fuel) host fuel callee arguments span caller)
      (Eval.callValue host (Eval.inside host (room host depth)) callee arguments span caller) := by
  cases callee with
  | function function =>
    apply settles_andThen (settles_perform depth (balanced_orRaise _ _ _))
    intro _
    apply settles_activate span caller
    intro left more
    cases function with
    | user defined => exact settles_callUser (inside left more) defined arguments span caller
    | builtin provided =>
      exact settles_callBuiltin (inside left more) provided arguments span caller
  | _ => exact settles_perform depth (balanced_raise _ _ _)

/-! ## Expressions -/

/-- What is executed with all of the fuel settles if it does so with one unit less. -/
theorem settles_of_express {host : Host} {depth : Nat} {expr : Located} {id : ContextId}
    {plain : Eval Value}
    (settles : Settles depth (fun fuel => express (evaluate host fuel) host fuel id expr) plain) :
    Settles depth (fun fuel => evaluate host fuel expr id) plain := by
  refine settles_of_eventually 1 _ (fun fuel more => ?_) (settles_sub 1 settles)
  obtain ⟨fuel, rfl⟩ := Nat.exists_eq_add_of_le' more
  rfl

mutual

/-- Every expression settles if everything does that lies in one more activation. -/
theorem settles_evaluateIn {host : Host} {depth : Nat} (inside : SettlesInside host depth)
    (id : ContextId) : (expr : Located) →
    Settles depth (fun fuel => evaluate host fuel expr id)
      (Eval.evaluateIn host (Eval.inside host (room host depth)) id expr)
  | .literal value _ => settles_of_express (settles_pure depth _)
  | .unary op operand span => by
    apply settles_of_express
    apply settles_andThen (settles_evaluateIn inside id operand)
    intro value
    exact settles_perform depth (balanced_orRaise _ _ _)
  | .binary op left right span => by
    apply settles_of_express
    apply settles_andThen (settles_evaluateIn inside id left)
    intro first
    apply settles_andThen (settles_evaluateIn inside id right)
    intro second
    exact settles_note _ (settles_perform depth (balanced_orRaise _ _ _))
  | .list elements _ => by
    apply settles_of_express
    apply settles_andThen (settles_evaluateAll inside id elements)
    intro values
    exact settles_pure depth _
  | .choice branches _ => settles_of_express (settles_evaluateBranches inside id branches)
  | .forLoop counter start stop step body block span => by
    apply settles_of_express
    rw [Eval.evaluateIn]
    apply settles_andThen (settles_evaluateIn inside id start)
    intro first
    apply settles_andThen (settles_evaluateIn inside id stop)
    intro last
    cases first with
    | int first =>
      cases last with
      | int last =>
        have counts (step : Int64) : Settles depth
            (fun fuel => count (countedRound (evaluate host fuel) id counter body span) (!block)
              (perform (raise (.loopLimit host.config.maxLoopIterations) span id))
              host.config.maxLoopIterations last step (fuel - 0) 0 first [])
            (Loop.count (fun value => do
                Eval.assign id counter (.int value) span id
                Eval.evaluateIn host (Eval.inside host (room host depth)) id body) (!block)
              (raise (.loopLimit host.config.maxLoopIterations) span id) last step
              host.config.maxLoopIterations first []) := by
          refine settles_count (fun value => ?_) (balanced_raise _ _ _) _ _ _ _ _ _ _ (by omega) _ _
          apply settles_andThen (settles_perform depth (balanced_assign _ _ _ _ _))
          intro _
          exact settles_evaluateIn inside id body
        cases step with
        | none =>
          apply settles_andThen (settles_pure depth 1)
          intro step
          exact settles_andThen (counts step) fun values => settles_pure depth _
        | some expr =>
          have settles := settles_andThen
            (settles_andThen (settles_evaluateIn inside id expr) fun value =>
              settles_perform depth (balanced_stepOf value first last expr.note id))
            fun step => settles_andThen (counts step) fun values =>
              settles_pure depth (Loop.result block values)
          rw [bind_assoc] at settles
          exact settles
      | _ => exact settles_perform depth (balanced_raise _ _ _)
    | _ => exact settles_perform depth (balanced_raise _ _ _)
  | .whileLoop condition body block span => by
    apply settles_of_express
    refine settles_andThen (settles_repeatWhile (settles_evaluateIn inside id condition)
      (settles_evaluateIn inside id body) (balanced_raise _ _ _) _ _ _ 0 0 (by omega) _)
      fun values => ?_
    exact settles_pure depth _
  | .read name span =>
    settles_of_express (settles_perform depth (balanced_readName name span id))
  | .assign name expr span => by
    apply settles_of_express
    apply settles_andThen (settles_evaluateIn inside id expr)
    intro value
    apply settles_andThen (settles_perform depth (balanced_assign _ _ _ _ _))
    intro _
    exact settles_pure depth value
  | .member object name span =>
    settles_of_express (settles_perform depth (balanced_readMember object name span id))
  | .assignMember object name expr span => by
    apply settles_of_express
    apply settles_andThen (settles_perform depth (balanced_instanceNamed _ _ _))
    intro target
    apply settles_andThen (settles_evaluateIn inside id expr)
    intro value
    apply settles_andThen (settles_perform depth (balanced_assign _ _ _ _ _))
    intro _
    exact settles_pure depth value
  | .function name parameters body valued span =>
    settles_of_express (settles_perform depth (balanced_define _ _ _ _ _ _))
  | .call callee arguments span => by
    apply settles_of_express
    apply settles_andThen (settles_evaluateIn inside id callee)
    intro function
    apply settles_andThen (settles_evaluateAll inside id arguments)
    intro values
    exact settles_callValue inside function values span id
  | .template name body span =>
    settles_of_express (settles_perform depth (balanced_defineTemplate _ _ _ _))
  | .instantiate name span => by
    apply settles_of_express
    apply settles_andThen (settles_perform depth (balanced_objectNamed _ _ _))
    intro template
    exact settles_activate span id fun left more =>
      settles_instantiate (inside left more) template name span id
  | .returnWith none _ => settles_of_express (settles_perform depth (balanced_throw _))
  | .returnWith (some expr) _ => by
    apply settles_of_express
    apply settles_andThen (settles_evaluateIn inside id expr)
    intro value
    exact settles_perform depth (balanced_throw _)
  | .breakLoop span => settles_of_express (settles_perform depth (balanced_throw _))
  | .continueLoop span => settles_of_express (settles_perform depth (balanced_throw _))

theorem settles_evaluateAll {host : Host} {depth : Nat} (inside : SettlesInside host depth)
    (id : ContextId) : (elements : List Located) →
    Settles depth (fun fuel => all (evaluate host fuel) id elements)
      (Eval.evaluateAll host (Eval.inside host (room host depth)) id elements)
  | [] => settles_pure depth []
  | element :: rest => by
    apply settles_andThen (settles_evaluateIn inside id element)
    intro value
    apply settles_andThen (settles_evaluateAll inside id rest)
    intro values
    exact settles_pure depth _

theorem settles_evaluateBranches {host : Host} {depth : Nat} (inside : SettlesInside host depth)
    (id : ContextId) : (branches : Branches Span) →
    Settles depth (fun fuel => alternatives (evaluate host fuel) id branches)
      (Eval.evaluateBranches host (Eval.inside host (room host depth)) id branches)
  | .done => settles_pure depth _
  | .otherwise body block => by
    apply settles_andThen (settles_evaluateIn inside id body)
    intro value
    exact settles_pure depth _
  | .orElse condition body block rest => by
    apply settles_andThen (settles_evaluateIn inside id condition)
    intro value
    split
    · apply settles_andThen (settles_evaluateIn inside id body)
      intro value
      exact settles_pure depth _
    · exact settles_evaluateBranches inside id rest

end

/-- Every expression settles, whatever the number of open activations is. -/
theorem settles_evaluate (host : Host) (depth : Nat) (expr : Located) (id : ContextId) :
    Settles depth (fun fuel => evaluate host fuel expr id)
      (Eval.evaluate host (room host depth) expr id) := by
  induction left : room host depth generalizing depth expr id with
  | zero =>
    have inside : SettlesInside host depth := fun left' more => by omega
    have settles := settles_evaluateIn inside id expr
    rwa [left, ← Eval.evaluate_eq] at settles
  | succ left' ih =>
    have inside : SettlesInside host depth := by
      intro left'' more expr id
      obtain rfl : left' = left'' := by omega
      exact ih (depth + 1) expr id (by unfold room at more ⊢; omega)
    have settles := settles_evaluateIn inside id expr
    rwa [left, ← Eval.evaluate_eq] at settles

/-! ## Sessions -/

/-- Every run finishes: with enough fuel its execution is not cut off but has the result and the
session that evaluation arrives at. The session may be in any state. -/
theorem run_finishes (host : Host) (session : Session) (name text : String) :
    ∃ enough events, ∀ fuel, enough ≤ fuel →
      run host fuel session name text = some (session.run host name text, events) := by
  obtain ⟨_, enough, events, settled⟩ :=
    settles_runText (settles_evaluate host session.machine.depth) name text session.globals rfl
  refine ⟨enough, events, fun fuel more => ?_⟩
  unfold run
  rw [settled fuel more]
  rfl

/-- What lies in one more activation settles. -/
theorem settlesInside (host : Host) (depth : Nat) : SettlesInside host depth := by
  intro left more expr id
  have settles := settles_evaluate host (depth + 1) expr id
  have same : room host (depth + 1) = left := by
    unfold room at more ⊢
    omega
  rwa [same] at settles

/-- Every call finishes, whatever is called and wherever the call is made. -/
theorem callValue_finishes (host : Host) (callee : Value) (arguments : List Value) (span : Span)
    (caller : ContextId) (machine : Machine) :
    ∃ enough events, ∀ fuel, enough ≤ fuel →
      callValue (evaluate host fuel) host fuel callee arguments span caller machine =
        some (Eval.callValue host (Eval.inside host (host.config.maxCallDepth - machine.depth))
          callee arguments span caller machine, events) := by
  obtain ⟨_, enough, events, settled⟩ :=
    settles_callValue (settlesInside host machine.depth) callee arguments span caller machine rfl
  exact ⟨enough, events, fun fuel more => settled fuel more⟩

/-- Every call from outside finishes. -/
theorem call_finishes (host : Host) (session : Session) (callee : Value) (arguments : List Value)
    (span : Span) : ∃ enough events, ∀ fuel, enough ≤ fuel →
      call host fuel session callee arguments span =
        some (session.call host callee arguments span, events) := by
  obtain ⟨enough, events, settled⟩ :=
    callValue_finishes host callee arguments span session.globals session.machine
  refine ⟨enough, events, fun fuel more => ?_⟩
  unfold call
  rw [settled fuel more]
  rfl

end Quill.Execution
