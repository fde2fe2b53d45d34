import Quill.Proofs.Transcript.Program

/-!
# Transcripts take no part in evaluation

The step of a transcript is the evaluation that it tells of. So what is done in an evaluation can be
told of any evaluation, and the telling changes nothing about it.
-/

namespace Quill.Transcript

open Quill.Eval (raise)

variable {Result Other : Type}

/-- The transcript tells of the step. -/
def Tells (told : Transcript Result) (step : Eval Result) : Prop :=
  told.step = step

theorem tells_pure (result : Result) : Tells (pure result) (pure result) := rfl

theorem tells_perform (step : Eval Result) : Tells (perform step) step := rfl

theorem tells_bind {first : Transcript Result} {next : Result → Transcript Other}
    {plain : Eval Result} {plainNext : Result → Eval Other} (firsts : Tells first plain)
    (nexts : ∀ result, Tells (next result) (plainNext result)) :
    Tells (first >>= next) (plain >>= plainNext) := by
  have same : (fun result => (next result).step) = plainNext := funext nexts
  subst firsts same
  rfl

theorem tells_ite {condition : Prop} [Decidable condition] {told other : Transcript Result}
    {plain plainOther : Eval Result} (yes : Tells told plain) (no : Tells other plainOther) :
    Tells (if condition then told else other) (if condition then plain else plainOther) := by
  split
  · exact yes
  · exact no

theorem tells_regard (view : View Result Other) {inner : Transcript Result}
    {plain : Eval Result} (tells : Tells inner plain) :
    Tells (regard view inner) fun machine => view.see (plain machine) := by
  subst tells
  rfl

theorem tells_orRaise (result : Except Fault Result) (span : Span) (id : ContextId) :
    Tells (orRaise result span id) (Eval.orRaise result span id) := by
  cases result <;> rfl

/-! ## Loops -/

theorem tells_round {body : Transcript Value} {plain : Eval Value} (tells : Tells body plain) :
    Tells (round body) (Loop.round plain) :=
  tells_regard .round tells

theorem tells_repeatWhile {condition body : Transcript Value} {plainCondition plain : Eval Value}
    {tooLong : Transcript (List Value)} {plainTooLong : Eval (List Value)}
    (conditions : Tells condition plainCondition) (bodies : Tells body plain)
    (ends : Tells tooLong plainTooLong) (keep : Bool) (rounds : Nat) (values : List Value) :
    Tells (repeatWhile condition body keep tooLong rounds values)
      (Loop.repeatWhile plainCondition plain keep plainTooLong rounds values) := by
  induction rounds generalizing values with
  | zero => exact tells_bind conditions fun _ => tells_ite ends (tells_pure values)
  | succ rounds ih =>
    apply tells_bind conditions
    intro truth
    apply tells_ite _ (tells_pure values)
    apply tells_bind (tells_round bodies)
    intro ended
    cases ended with
    | left => exact tells_pure values
    | value result => exact ih _
    | skipped => exact ih _

theorem tells_count {body : Int64 → Transcript Value} {plain : Int64 → Eval Value}
    {tooLong : Transcript (List Value)} {plainTooLong : Eval (List Value)}
    (bodies : ∀ counter, Tells (body counter) (plain counter)) (ends : Tells tooLong plainTooLong)
    (keep : Bool) (stop step : Int64) (rounds : Nat) (counter : Int64) (values : List Value) :
    Tells (count body keep tooLong stop step rounds counter values)
      (Loop.count plain keep plainTooLong stop step rounds counter values) := by
  induction rounds generalizing counter values with
  | zero => exact tells_ite ends (tells_pure values)
  | succ rounds ih =>
    apply tells_ite _ (tells_pure values)
    apply tells_bind (tells_round (bodies counter))
    intro ended
    cases Integer.add? counter step with
    | none => cases ended <;> exact tells_pure _
    | some next =>
      cases ended with
      | left => exact tells_pure values
      | value result => exact ih next _
      | skipped => exact ih next _

/-! ## Activations, scripts and calls -/

theorem tells_activate (host : Host) (inner : Option Transcribe) (span : Span) (id : ContextId)
    {work : Transcribe → Transcript Result} {plain : Evaluate → Eval Result}
    (works : ∀ transcribe : Transcribe, Tells (work transcribe) (plain transcribe.plain)) :
    Tells (activate host inner span id work)
      (Eval.activate host (inner.map Transcribe.plain) span id plain) := by
  cases inner with
  | none => rfl
  | some transcribe =>
    have same := works transcribe
    rw [Tells] at same ⊢
    rw [Option.map_some, Eval.activate, ← same]
    rfl

theorem tells_callUser (function : UserFunction) (arguments : List Value) (span : Span)
    (caller : ContextId) (transcribe : Transcribe) :
    Tells (callUser function arguments span caller transcribe)
      (Eval.callUser function arguments span caller transcribe.plain) :=
  tells_bind (tells_perform _) fun _ => tells_regard _ rfl

theorem tells_instantiate (template : Object) (name : String) (span : Span) (caller : ContextId)
    (transcribe : Transcribe) :
    Tells (instantiate template name span caller transcribe)
      (Eval.instantiate template name span caller transcribe.plain) :=
  tells_bind (tells_perform _) fun _ => tells_regard _ rfl

theorem tells_includeScript (call : Invocation) (host : Host) (transcribe : Transcribe) :
    Tells (includeScript call host transcribe) (call.includeScript host transcribe.plain) := by
  apply tells_bind (tells_perform _)
  intro loaded
  cases loaded with
  | none => rfl
  | some script => rfl

theorem tells_runScript (call : Invocation) (host : Host) (transcribe : Transcribe) :
    Tells (runScript call host transcribe) (call.runScript host transcribe.plain) := by
  apply tells_bind (tells_perform _)
  intro loaded
  cases loaded with
  | none => rfl
  | some script => rfl

theorem tells_invoke (call : Invocation) (host : Host) (transcribe : Transcribe)
    (builtin : Builtin) :
    Tells (invoke call host transcribe builtin) (call.run host transcribe.plain builtin) := by
  cases builtin with
  | includeScript => exact tells_includeScript call host transcribe
  | runScript => exact tells_runScript call host transcribe
  | _ => rfl

theorem tells_callBuiltin (host : Host) (function : BuiltinFunction) (arguments : List Value)
    (span : Span) (caller : ContextId) (transcribe : Transcribe) :
    Tells (callBuiltin host function arguments span caller transcribe)
      (Eval.callBuiltin host function arguments span caller transcribe.plain) := by
  unfold callBuiltin Eval.callBuiltin
  cases Builtin.named? function.name with
  | none => rfl
  | some builtin => exact tells_invoke _ host transcribe builtin

theorem tells_callValue (host : Host) (inner : Option Transcribe) (callee : Value)
    (arguments : List Value) (span : Span) (caller : ContextId) :
    Tells (callValue host inner callee arguments span caller)
      (Eval.callValue host (inner.map Transcribe.plain) callee arguments span caller) := by
  cases callee with
  | function function =>
    apply tells_bind (tells_orRaise _ span caller)
    intro _
    apply tells_activate
    intro transcribe
    cases function with
    | user defined => exact tells_callUser defined arguments span caller transcribe
    | builtin provided => exact tells_callBuiltin host provided arguments span caller transcribe
  | _ => rfl

/-! ## Expressions -/

theorem tells_define (name : Option String) (parameters : List String) (body : Located)
    (valued : Bool) (span : Span) (id : ContextId) :
    Tells (define name parameters body valued span id)
      (Eval.define name parameters body valued span id) := by
  cases name <;> rfl

mutual

/-- The transcript of an expression tells of its evaluation. -/
theorem tells_evaluateIn (host : Host) (inner : Option Transcribe) (id : ContextId) :
    (expr : Located) → Tells (evaluateIn host inner id expr)
      (Eval.evaluateIn host (inner.map Transcribe.plain) id expr)
  | .literal value _ => rfl
  | .unary op operand span =>
    tells_bind (tells_evaluateIn host inner id operand) fun _ => tells_orRaise _ span id
  | .binary op left right span =>
    tells_bind (tells_evaluateIn host inner id left) fun _ =>
      tells_bind (tells_evaluateIn host inner id right) fun _ => tells_orRaise _ span id
  | .list elements _ => tells_bind (tells_evaluateAll host inner id elements) fun _ => rfl
  | .choice branches _ => tells_evaluateBranches host inner id branches
  | .forLoop counter start stop step body block span => by
    rw [evaluateIn, Eval.evaluateIn]
    apply tells_bind (tells_evaluateIn host inner id start)
    intro first
    apply tells_bind (tells_evaluateIn host inner id stop)
    intro last
    cases first with
    | int first =>
      cases last with
      | int last =>
        have round (value : Int64) :
            Tells
              (assign id counter (.int value) span id >>= fun _ => evaluateIn host inner id body)
              (Eval.assign id counter (.int value) span id >>= fun _ =>
                Eval.evaluateIn host (inner.map Transcribe.plain) id body) :=
          tells_bind rfl fun _ => tells_evaluateIn host inner id body
        let tooLong : Eval (List Value) := raise (.loopLimit host.config.maxLoopIterations) span id
        have results (step : Int64) := tells_bind
          (tells_count round (tells_perform tooLong) (!block) last step
            host.config.maxLoopIterations first [])
          fun values => tells_pure (Loop.result block values)
        cases step with
        | none => exact tells_bind (tells_pure 1) results
        | some expr =>
          apply tells_bind (tells_evaluateIn host inner id expr)
          intro value
          exact tells_bind (tells_perform _) results
      | _ => rfl
    | _ => rfl
  | .whileLoop condition body block span =>
    tells_bind (tells_repeatWhile (tells_evaluateIn host inner id condition)
      (tells_evaluateIn host inner id body) rfl (!block) _ []) fun _ => rfl
  | .read name span => rfl
  | .assign name expr span =>
    tells_bind (tells_evaluateIn host inner id expr) fun _ => tells_bind rfl fun _ => rfl
  | .member object name span => rfl
  | .assignMember object name expr span =>
    tells_bind (tells_perform _) fun _ =>
      tells_bind (tells_evaluateIn host inner id expr) fun _ => tells_bind rfl fun _ => rfl
  | .function name parameters body valued span => tells_define name parameters body valued span id
  | .call callee arguments span =>
    tells_bind (tells_evaluateIn host inner id callee) fun function =>
      tells_bind (tells_evaluateAll host inner id arguments) fun values =>
        tells_callValue host inner function values span id
  | .template name body span => rfl
  | .instantiate name span =>
    tells_bind (tells_perform _) fun template =>
      tells_activate host inner span id fun transcribe =>
        tells_instantiate template name span id transcribe
  | .returnWith none _ => rfl
  | .returnWith (some expr) _ => tells_bind (tells_evaluateIn host inner id expr) fun _ => rfl
  | .breakLoop span => rfl
  | .continueLoop span => rfl

theorem tells_evaluateAll (host : Host) (inner : Option Transcribe) (id : ContextId) :
    (elements : List Located) → Tells (evaluateAll host inner id elements)
      (Eval.evaluateAll host (inner.map Transcribe.plain) id elements)
  | [] => rfl
  | element :: rest =>
    tells_bind (tells_evaluateIn host inner id element) fun _ =>
      tells_bind (tells_evaluateAll host inner id rest) fun _ => rfl

theorem tells_evaluateBranches (host : Host) (inner : Option Transcribe) (id : ContextId) :
    (branches : Branches Span) → Tells (evaluateBranches host inner id branches)
      (Eval.evaluateBranches host (inner.map Transcribe.plain) id branches)
  | .done => rfl
  | .otherwise body _ => tells_bind (tells_evaluateIn host inner id body) fun _ => rfl
  | .orElse condition body _ rest =>
    tells_bind (tells_evaluateIn host inner id condition) fun _ =>
      tells_ite (tells_bind (tells_evaluateIn host inner id body) fun _ => rfl)
        (tells_evaluateBranches host inner id rest)

end

/-- What lies in other activations is told of as well. -/
theorem map_plain_inside (host : Host) (room : Nat) :
    (inside host room).map Transcribe.plain = Eval.inside host room := by
  induction room with
  | zero => rfl
  | succ room ih =>
    refine congrArg some (funext fun expr => funext fun id => ?_)
    rw [Transcribe.plain, evaluate_eq, Eval.evaluate_eq, ← ih]
    exact tells_evaluateIn host (inside host room) id expr

theorem plain_evaluate (host : Host) (room : Nat) :
    Transcribe.plain (evaluate host room) = Eval.evaluate host room :=
  Option.some.inj (map_plain_inside host (room + 1))

end Quill.Transcript
