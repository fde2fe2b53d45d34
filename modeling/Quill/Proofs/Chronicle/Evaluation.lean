import Quill.Proofs.Chronicle.Agreement

/-!
# Chronicles agree with evaluation

Every construct agrees with its counterpart in evaluation if its parts do. In one and the same host
everything is admitted, so a chronicle always ends as evaluation does. In a host with higher limits
that holds of chronicles in which no limit is exceeded and nobody asks for the time.
-/

namespace Quill.Chronicle

open Quill.Eval (raise)

variable {Result : Type} {holds : Happening → Prop} {host other : Host} {inner : Option Recount}
  {room : Option Evaluate} {recount : Recount} {evaluation : Evaluate}

/-- The hosts differ only in what is not admitted to happen. -/
structure Fits (holds : Happening → Prop) (host other : Host) : Prop where
  /-- Paths of scripts count from the same directory. -/
  baseDirectory : other.config.baseDirectory = host.config.baseDirectory
  /-- The script files are the same. -/
  disk : other.disk = host.disk
  /-- The time is the same if it is admitted to ask for it. -/
  clock : holds (.noted (.invoked .time)) → other.clock = host.clock
  /-- Loops may take as many rounds, or more if it is not admitted that they take too many. -/
  rounds : other.config.maxLoopIterations = host.config.maxLoopIterations ∨
    host.config.maxLoopIterations ≤ other.config.maxLoopIterations ∧
      ¬holds (.noted (.raised (.loopLimit host.config.maxLoopIterations)))

/-- The room for activations in two hosts. -/
inductive Rooms (holds : Happening → Prop) (host other : Host) :
    Option Recount → Option Evaluate → Prop where
  /-- There is room in both of them. -/
  | inside {recount : Recount} {evaluation : Evaluate}
      (agrees : ∀ expr id, Agrees holds (recount expr id) (evaluation expr id)) :
      Rooms holds host other (some recount) (some evaluation)
  /-- There is no room in either of them, and their limits are the same. -/
  | full (same : other.config.maxCallDepth = host.config.maxCallDepth) :
      Rooms holds host other none none
  /-- There is no room in the first one, but it is not admitted that any is asked for. -/
  | never (never : ¬holds (.noted (.raised (.recursionLimit host.config.maxCallDepth))))
      (room : Option Evaluate) : Rooms holds host other none room

/-- A loop may take as many rounds in the other host as it needs in the first one. -/
theorem Fits.allows (fits : Fits holds host other) (span : Span) (id : ContextId) :
    Allows holds (perform (raise (.loopLimit host.config.maxLoopIterations) span id) :
      Chronicle (List Value)) host.config.maxLoopIterations other.config.maxLoopIterations := by
  obtain same | ⟨more, never⟩ := fits.rounds
  · exact Or.inl same
  · exact Or.inr ⟨more, fun plain => agrees_raise_of_not never span id plain⟩

/-- A loop that takes too many rounds in both hosts fails in the same way, if that is admitted. -/
theorem Fits.agrees_loopLimit (fits : Fits holds host other) (span : Span) (id : ContextId) :
    Agrees holds
      (perform (raise (.loopLimit host.config.maxLoopIterations) span id) : Chronicle (List Value))
      (raise (.loopLimit other.config.maxLoopIterations) span id) := by
  obtain same | ⟨_, never⟩ := fits.rounds
  · rw [same]
    exact agrees_perform _
  · exact agrees_raise_of_not never span id _

theorem Fits.loadScript_eq (fits : Fits holds host other) (call : Invocation) :
    call.loadScript other = call.loadScript host := by
  rw [Invocation.loadScript, Invocation.loadScript, fits.baseDirectory, fits.disk]

/-- The work of a built-in function that runs no script depends on nothing of the host but the
clock. -/
theorem Fits.run_eq (fits : Fits holds host other) (call : Invocation) (evaluation : Evaluate)
    {builtin : Builtin} (invoked : holds (.noted (.invoked builtin)))
    (noInclude : builtin ≠ .includeScript) (noRun : builtin ≠ .runScript) :
    call.run other evaluation builtin = call.run host (fun _ _ => pure .null) builtin := by
  cases builtin with
  | includeScript => exact absurd rfl noInclude
  | runScript => exact absurd rfl noRun
  | time => rw [Invocation.run, Invocation.run, fits.clock invoked]
  | _ => rfl

/-! ## Activations -/

theorem agrees_activate (rooms : Rooms holds host other inner room) (span : Span) (id : ContextId)
    {work : Recount → Chronicle Result} {plain : Evaluate → Eval Result}
    (works : ∀ recount evaluation,
      (∀ expr id, Agrees holds (recount expr id) (evaluation expr id)) →
        Agrees holds (work recount) (plain evaluation)) :
    Agrees holds (activate host inner span id work) (Eval.activate other room span id plain) := by
  cases rooms with
  | @inside recount evaluation agrees => exact agrees_during (works recount evaluation agrees)
  | full same =>
    rw [Eval.activate, same]
    exact agrees_perform _
  | never never => exact agrees_raise_of_not never span id _

section

variable (inside : ∀ expr id, Agrees holds (recount expr id) (evaluation expr id))

include inside

theorem agrees_callUser (function : UserFunction) (arguments : List Value) (span : Span)
    (caller : ContextId) :
    Agrees holds (callUser function arguments span caller recount)
      (Eval.callUser function arguments span caller evaluation) := by
  apply agrees_andThen (agrees_perform _)
  intro id
  exact agrees_regard _ (inside function.body id)

theorem agrees_instantiate (template : Object) (name : String) (span : Span) (caller : ContextId) :
    Agrees holds (instantiate template name span caller recount)
      (Eval.instantiate template name span caller evaluation) := by
  apply agrees_andThen (agrees_perform _)
  intro id
  exact agrees_regard _ (inside template.body id)

/-! ## Scripts -/

theorem agrees_runText (name text : String) (id : ContextId) (machine : Machine)
    (admitted : ∀ moment ∈ (runText recount name text id machine).log, holds moment.happening) :
    Eval.runText evaluation name text id machine =
      (runText recount name text id machine).ending := by
  unfold runText Eval.runText at *
  dsimp only at *
  cases read : Eval.read ⟨machine.serial, name, text⟩ with
  | error error => rfl
  | ok root =>
    rw [read] at admitted
    obtain ⟨_, inner⟩ := List.forall_mem_cons.mp (List.forall_mem_append.mp admitted).1
    exact congrArg (Eval.resultOfScript root id) (inside root id _ inner)

theorem agrees_runIn (root : ContextId) (path text : String) :
    Agrees holds (runIn root recount path text) (Invocation.runIn root evaluation path text) := by
  intro machine admitted
  have same := agrees_runText inside path text root machine admitted
  unfold Invocation.runIn
  rw [same]
  rfl

theorem agrees_includeScript (fits : Fits holds host other) (call : Invocation) :
    Agrees holds (includeScript call host recount) (call.includeScript other evaluation) := by
  rw [includeScript, Invocation.includeScript, fits.loadScript_eq]
  apply agrees_andThen (agrees_perform _)
  intro loaded
  cases loaded with
  | none => exact agrees_perform _
  | some script =>
    let reading : Eval ContextId := fun machine => .ok (machine.store.rootOf call.caller) machine
    change Agrees holds _ (reading >>= fun root =>
      Invocation.runIn root evaluation script.1 script.2 >>= fun result =>
        call.resultOf script.1 result >>= fun _ => pure Value.null)
    apply agrees_andThen (agrees_perform reading)
    intro root
    apply agrees_andThen (agrees_within root (agrees_runIn inside root script.1 script.2))
    intro result
    apply agrees_andThen (agrees_perform _)
    intro _
    exact agrees_pure _

theorem agrees_runScript (fits : Fits holds host other) (call : Invocation) :
    Agrees holds (runScript call host recount) (call.runScript other evaluation) := by
  rw [runScript, Invocation.runScript, fits.loadScript_eq]
  apply agrees_andThen (agrees_perform _)
  intro loaded
  cases loaded with
  | none => exact agrees_perform _
  | some script =>
    apply agrees_andThen (agrees_perform _)
    rintro ⟨saved, root⟩
    apply agrees_andThen (agrees_runIn inside root script.1 script.2)
    intro result
    apply agrees_andThen (agrees_perform _)
    intro exported
    apply agrees_andThen (agrees_perform _)
    intro _
    exact agrees_pure _

/-! ## Calls -/

theorem agrees_invoke (fits : Fits holds host other) (call : Invocation) (builtin : Builtin) :
    Agrees holds (invoke call host recount builtin) (call.run other evaluation builtin) := by
  apply agrees_note
  intro invoked
  by_cases included : builtin = .includeScript
  · subst included
    exact agrees_includeScript inside fits call
  by_cases started : builtin = .runScript
  · subst started
    exact agrees_runScript inside fits call
  rw [fits.run_eq call evaluation invoked included started]
  cases builtin with
  | includeScript => exact absurd rfl included
  | runScript => exact absurd rfl started
  | _ => exact agrees_perform _

theorem agrees_callBuiltin (fits : Fits holds host other) (function : BuiltinFunction)
    (arguments : List Value) (span : Span) (caller : ContextId) :
    Agrees holds (callBuiltin host function arguments span caller recount)
      (Eval.callBuiltin other function arguments span caller evaluation) := by
  unfold callBuiltin Eval.callBuiltin
  cases Builtin.named? function.name with
  | none => exact agrees_perform _
  | some builtin => exact agrees_invoke inside fits _ builtin

end

theorem agrees_callValue (fits : Fits holds host other) (rooms : Rooms holds host other inner room)
    (callee : Value) (arguments : List Value) (span : Span) (caller : ContextId) :
    Agrees holds (callValue host inner callee arguments span caller)
      (Eval.callValue other room callee arguments span caller) := by
  cases callee with
  | function function =>
    apply agrees_note
    intro _
    apply agrees_andThen (agrees_orRaise _ span caller)
    intro _
    apply agrees_activate rooms
    intro recount evaluation inside
    cases function with
    | user defined => exact agrees_callUser inside defined arguments span caller
    | builtin provided => exact agrees_callBuiltin inside fits provided arguments span caller
  | _ => exact agrees_perform _

theorem agrees_makeInstance (rooms : Rooms holds host other inner room) (name : String)
    (span : Span) (id : ContextId) :
    Agrees holds (makeInstance host inner name span id)
      (Eval.evaluateIn other room id (.instantiate name span)) := by
  rw [Eval.evaluateIn]
  apply agrees_andThen (agrees_perform _)
  intro template
  apply agrees_note
  intro _
  apply agrees_activate rooms
  intro recount evaluation inside
  exact agrees_instantiate inside template name span id

/-! ## Expressions -/

mutual

/-- Evaluating an expression agrees if evaluating in more activations does. -/
theorem agrees_evaluateIn (fits : Fits holds host other) (rooms : Rooms holds host other inner room)
    (id : ContextId) : (expr : Located) →
    Agrees holds (evaluateIn host inner id expr) (Eval.evaluateIn other room id expr)
  | .literal value _ => agrees_pure _
  | .unary op operand span => by
    apply agrees_andThen (agrees_evaluateIn fits rooms id operand)
    intro value
    exact agrees_orRaise _ span id
  | .binary op left right span => by
    apply agrees_andThen (agrees_evaluateIn fits rooms id left)
    intro first
    apply agrees_andThen (agrees_evaluateIn fits rooms id right)
    intro second
    apply agrees_note
    intro _
    exact agrees_orRaise _ span id
  | .list elements _ => by
    apply agrees_andThen (agrees_evaluateAll fits rooms id elements)
    intro values
    exact agrees_pure _
  | .choice branches _ => agrees_evaluateBranches fits rooms id branches
  | .forLoop counter start stop step body block span => by
    rw [evaluateIn, Eval.evaluateIn]
    apply agrees_andThen (agrees_evaluateIn fits rooms id start)
    intro first
    apply agrees_andThen (agrees_evaluateIn fits rooms id stop)
    intro last
    cases first with
    | int first =>
      cases last with
      | int last =>
        have counts (step : Int64) := agrees_count (fun value =>
          agrees_andThen (agrees_assign id counter (.int value) .direct span id) fun _ =>
            agrees_evaluateIn fits rooms id body) (fits.agrees_loopLimit span id) (!block) last step
              (fits.allows span id) first []
        have results (step : Int64) := agrees_andThen (counts step) fun values =>
          agrees_pure (Loop.result block values)
        cases step with
        | none => exact agrees_andThen (agrees_pure 1) results
        | some expr =>
          apply agrees_andThen (agrees_evaluateIn fits rooms id expr)
          intro value
          exact agrees_andThen (agrees_perform _) results
      | _ => exact agrees_perform _
    | _ => exact agrees_perform _
  | .whileLoop condition body block span => by
    rw [evaluateIn, Eval.evaluateIn]
    apply agrees_andThen (agrees_repeatWhile (agrees_evaluateIn fits rooms id condition)
      (agrees_evaluateIn fits rooms id body) (fits.agrees_loopLimit span id) (!block)
      (fits.allows span id) [])
    intro values
    exact agrees_pure _
  | .read name span => agrees_perform _
  | .assign name expr span => by
    apply agrees_andThen (agrees_evaluateIn fits rooms id expr)
    intro value
    apply agrees_andThen (agrees_assign id name value .direct span id)
    intro _
    exact agrees_pure value
  | .member object name span => agrees_perform _
  | .assignMember object name expr span => by
    apply agrees_andThen (agrees_perform _)
    intro target
    apply agrees_andThen (agrees_evaluateIn fits rooms id expr)
    intro value
    apply agrees_andThen (agrees_assign target.context name value (.member target) span id)
    intro _
    exact agrees_pure value
  | .function name parameters body valued span => agrees_define name parameters body valued span id
  | .call callee arguments span => by
    apply agrees_andThen (agrees_evaluateIn fits rooms id callee)
    intro function
    apply agrees_andThen (agrees_evaluateAll fits rooms id arguments)
    intro values
    exact agrees_callValue fits rooms function values span id
  | .template name body span => agrees_defineTemplate name body span id
  | .instantiate name span => agrees_makeInstance rooms name span id
  | .returnWith none _ => agrees_perform _
  | .returnWith (some expr) _ => by
    apply agrees_andThen (agrees_evaluateIn fits rooms id expr)
    intro value
    exact agrees_perform _
  | .breakLoop span => agrees_perform _
  | .continueLoop span => agrees_perform _

theorem agrees_evaluateAll (fits : Fits holds host other)
    (rooms : Rooms holds host other inner room) (id : ContextId) : (elements : List Located) →
    Agrees holds (evaluateAll host inner id elements) (Eval.evaluateAll other room id elements)
  | [] => agrees_pure []
  | element :: rest => by
    apply agrees_andThen (agrees_evaluateIn fits rooms id element)
    intro value
    apply agrees_andThen (agrees_evaluateAll fits rooms id rest)
    intro values
    exact agrees_pure _

theorem agrees_evaluateBranches (fits : Fits holds host other)
    (rooms : Rooms holds host other inner room) (id : ContextId) : (branches : Branches Span) →
    Agrees holds (evaluateBranches host inner id branches)
      (Eval.evaluateBranches other room id branches)
  | .done => agrees_pure _
  | .otherwise body block => by
    apply agrees_andThen (agrees_evaluateIn fits rooms id body)
    intro value
    exact agrees_pure _
  | .orElse condition body block rest => by
    apply agrees_andThen (agrees_evaluateIn fits rooms id condition)
    intro truth
    apply agrees_ite _ (agrees_evaluateBranches fits rooms id rest)
    apply agrees_andThen (agrees_evaluateIn fits rooms id body)
    intro value
    exact agrees_pure _

end

/-! ## Programs -/

/-- A host fits itself, whatever is admitted to happen. -/
theorem Fits.refl (holds : Happening → Prop) (host : Host) : Fits holds host host :=
  ⟨rfl, rfl, fun _ => rfl, Or.inl rfl⟩

/-- The room for a number of activations in two hosts: as much in both of them, or more in the other
one if it is not admitted that there is too little in the first one. -/
theorem rooms_inside (fits : Fits holds host other) {left right : Nat}
    (more : right = left ∧ other.config.maxCallDepth = host.config.maxCallDepth ∨
      left ≤ right ∧ ¬holds (.noted (.raised (.recursionLimit host.config.maxCallDepth)))) :
    Rooms holds host other (inside host left) (Eval.inside other right) := by
  induction left generalizing right with
  | zero =>
    obtain ⟨rfl, same⟩ | ⟨_, never⟩ := more
    · exact Rooms.full same
    · exact Rooms.never never _
  | succ left ih =>
    obtain ⟨further, rfl, fewer⟩ : ∃ further, right = further + 1 ∧
        Rooms holds host other (inside host left) (Eval.inside other further) := by
      obtain ⟨rfl, same⟩ | ⟨atLeast, never⟩ := more
      · exact ⟨left, rfl, ih (Or.inl ⟨rfl, same⟩)⟩
      · obtain ⟨surplus, rfl⟩ := Nat.exists_eq_add_of_le' atLeast
        exact ⟨surplus + left, rfl, ih (Or.inr ⟨Nat.le_add_left left surplus, never⟩)⟩
    apply Rooms.inside
    intro expr id
    rw [evaluate_eq, Eval.evaluate_eq]
    exact agrees_evaluateIn fits fewer id expr

theorem agrees_evaluate (fits : Fits holds host other) {left right : Nat}
    (rooms : Rooms holds host other (inside host left) (Eval.inside other right)) (expr : Located)
    (id : ContextId) :
    Agrees holds (evaluate host left expr id) (Eval.evaluate other right expr id) := by
  rw [evaluate_eq, Eval.evaluate_eq]
  exact agrees_evaluateIn fits rooms id expr

/-- In one and the same host there is the same room. -/
theorem rooms_refl (holds : Happening → Prop) (host : Host) (room : Nat) :
    Rooms holds host host (inside host room) (Eval.inside host room) :=
  rooms_inside (Fits.refl holds host) (Or.inl ⟨rfl, rfl⟩)

/-- If everything is admitted, what agrees has the same outcome. -/
theorem Agrees.ending_eq {told : Chronicle Result} {plain : Eval Result}
    (agrees : Agrees (fun _ => True) told plain) (machine : Machine) :
    (told machine).ending = plain machine :=
  (agrees machine fun _ _ => trivial).symm

theorem ending_evaluate (host : Host) (room : Nat) (expr : Located) (id : ContextId)
    (machine : Machine) :
    (evaluate host room expr id machine).ending = Eval.evaluate host room expr id machine :=
  (agrees_evaluate (Fits.refl _ host) (rooms_refl _ host room) expr id).ending_eq machine

theorem ending_callValue (host : Host) (room : Nat) (callee : Value) (arguments : List Value)
    (span : Span) (caller : ContextId) (machine : Machine) :
    (callValue host (inside host room) callee arguments span caller machine).ending =
      Eval.callValue host (Eval.inside host room) callee arguments span caller machine :=
  (agrees_callValue (Fits.refl _ host) (rooms_refl _ host room) callee arguments span
    caller).ending_eq machine

theorem ending_runText (host : Host) (room : Nat) (name text : String) (id : ContextId)
    (machine : Machine) :
    (runText (evaluate host room) name text id machine).ending =
      Eval.runText (Eval.evaluate host room) name text id machine := by
  have agrees := agrees_evaluate (Fits.refl (fun _ => True) host) (rooms_refl _ host room)
  exact (agrees_runText agrees name text id machine fun _ _ => trivial).symm

theorem ending_runProgram (host : Host) (session : Session) (id : ContextId) (name text : String) :
    (runProgram host session id name text).ending = session.runIn host id name text := by
  rw [runProgram, ending_runText]
  rfl

end Quill.Chronicle
