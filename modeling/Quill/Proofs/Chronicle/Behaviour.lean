import Quill.Proofs.Chronicle.Conduct
import Quill.Proofs.Execution.Settling

/-!
# The conduct of programs

Every program conducts itself: what it does follows the course of events, under every policy that
admits its code. The exits of an expression are all the ways in which its evaluation can be left,
and a call is left in no way at all.
-/

namespace Quill

open Quill.Chronicle

variable {Result : Type} {host : Host} {policy : Policy host} {left : Nat}
  {own : Option ContextId} {may : Exit → Prop} {post : Result → Prop}

/-- A way to evaluate admitted code with room for a number of activations. -/
def Ready (policy : Policy host) (left : Nat) (recount : Recount) : Prop :=
  ∀ (expr : Located) (id : ContextId) (may : Exit → Prop), policy.code expr →
    (∀ exit, expr.exits exit = true → may exit) →
    Meets policy left (some id) may policy.Admit (recount expr id)

/-- The room that is left for activations, with a way to evaluate what lies in them. -/
inductive Furnished (policy : Policy host) : Nat → Option Recount → Prop where
  /-- There is no room left. -/
  | full : Furnished policy 0 none
  /-- There is room for one more activation, and for the others in it. -/
  | inside {left : Nat} {recount : Recount} (ready : Ready policy left recount) :
      Furnished policy (left + 1) (some recount)

namespace Meets

/-! ## Activations -/

/-- What is done in an activation is done if one is asked for and there is room. -/
theorem activate {inner : Option Recount} (furnished : Furnished policy left inner)
    {happening : Happening} (asks : happening.Asks) (span : Span) (id : ContextId)
    {work : Recount → Chronicle Result}
    (works : ∀ fewer recount, Ready policy fewer recount →
      Meets policy fewer own may post (work recount)) :
    Meets policy left own may post
      (Chronicle.note happening >>= fun _ => Chronicle.activate host inner span id work) := by
  intro machine room admitted
  rw [andThen_ok _ rfl]
  cases furnished with
  | full =>
    have also : policy.fault (.recursionLimit host.config.maxCallDepth) :=
      policy.fault_of_not_stray _ not_false
    exact ⟨.refused asks (Nat.le_of_sub_eq_zero room), admitted, .failed also⟩
  | @inside fewer recount ready =>
    have below : machine.depth < host.config.maxCallDepth := by omega
    have less : host.config.maxCallDepth - machine.opened.depth = fewer := by
      change host.config.maxCallDepth - (machine.depth + 1) = fewer
      omega
    obtain ⟨course, admits, ends⟩ :=
      works fewer recount ready less ⟨admitted.store, admitted.exported⟩
    have activated := Course.activated asks below course
    rw [← Outcome.machine_leave] at activated
    have closed : policy.AdmitMachine
        (Outcome.machine (Eval.leave (work recount machine.opened).ending)) := by
      rw [Outcome.machine_leave]
      exact ⟨admits.store, admits.exported⟩
    exact ⟨activated, closed, ends.leave⟩

/-- Code in a new context has this context for its own. -/
theorem entering {Next : Type} {post : Next → Prop} {step : Eval Result}
    {next : Result → Chronicle Next}
    (enters : ∀ machine : Machine, policy.AdmitMachine machine → ∃ result after,
      step machine = .ok result after ∧ Store.Grows machine.store after.store ∧
        after.depth = machine.depth ∧ policy.AdmitMachine after ∧
          Meets policy left (some machine.store.size) may post (next result)) :
    Meets policy left own may post (Chronicle.perform step >>= next) := by
  intro machine room admitted
  obtain ⟨result, after, entered, grows, depth, admits, meets⟩ := enters machine admitted
  have performed : Chronicle.perform step machine =
      ⟨.ok result after, [Happening.stepped.at after]⟩ := by
    rw [Chronicle.perform, record, entered]
    rfl
  rw [andThen_ok next performed]
  obtain ⟨course, last, ends⟩ := meets (by rw [depth, room]) admits
  exact ⟨.entered grows depth course, last, ends⟩

theorem addContext {Next : Type} {post : Next → Prop} {context : Context}
    (table : context.table.All policy.Admit) {next : ContextId → Chronicle Next}
    (nexts : ∀ id, Meets policy left (some id) may post (next id)) :
    Meets policy left own may post (Chronicle.perform (Eval.addContext context) >>= next) := by
  apply entering
  intro machine admitted
  have stored := Store.All.add admitted.store table
  exact ⟨_, _, rfl, Store.grows_add _ _, rfl, ⟨stored, admitted.exported⟩, nexts _⟩

section

variable {recount : Recount} (ready : Ready policy left recount)

include ready

theorem callUser {function : UserFunction} (routine : policy.routine function.body)
    {arguments : List Value} (admitted : ∀ argument ∈ arguments, policy.Admit argument)
    (span : Span) (caller : ContextId) :
    Meets policy left own may policy.Admit
      (Chronicle.callUser function arguments span caller recount) := by
  apply addContext (Table.all_ofArguments _ admitted)
  intro id
  have code := policy.code_of_routine routine
  exact resultOfBody (ready function.body id _ code fun exit exits => exits)
    (fun exit => policy.fault_of_routine routine) function span id

theorem instantiate {template : Object} (members : policy.members template.body) (name : String)
    (span : Span) (caller : ContextId) :
    Meets policy left own may policy.Admit
      (Chronicle.instantiate template name span caller recount) := by
  apply addContext Table.all_empty
  intro id
  have code := policy.code_of_members members
  exact instanceOfMembers (ready template.body id _ code fun exit exits => exits)
    (fun exit => policy.fault_of_members members) members span id

/-! ## Scripts -/

/-- What a text does that is run in a context, if it is admitted as a program. -/
theorem runText (name text : String) (id : ContextId) {machine : Machine}
    (routine : ∀ root, Eval.read ⟨machine.serial, name, text⟩ = .ok root → policy.routine root)
    (room : host.config.maxCallDepth - machine.depth = left)
    (admitted : policy.AdmitMachine machine) :
    let told := Chronicle.runText recount name text id machine
    Course host policy.fault (some id) machine told.log told.ending.2 ∧
      policy.AdmitMachine told.ending.2 ∧ ScriptEnds policy told.ending.1 := by
  let start := { machine with serial := machine.serial + 1 }
  have begun : Course host policy.fault (some id) machine [Happening.stepped.at start] start :=
    .quiet trivial rfl rfl
  have same : host.config.maxCallDepth - start.depth = left := room
  have admits : policy.AdmitMachine start := ⟨admitted.store, admitted.exported⟩
  unfold Chronicle.runText
  dsimp only
  cases read : Eval.read ⟨machine.serial, name, text⟩ with
  | error error => exact ⟨begun, admits, scriptEnds_of_read read⟩
  | ok root =>
    have taken := routine root read
    have code := policy.code_of_routine taken
    obtain ⟨course, after, ends⟩ := ready root id _ code (fun exit exits => exits) same admits
    have faults (exit : Exit) (left : root.exits exit = true) := policy.fault_of_routine taken left
    have quiet := quiet_strayFromBody ends faults
    obtain ⟨kept, values⟩ := resultOfScript ends faults root id
    have whole := (begun.andThen course).andThen (Course.events quiet _)
    dsimp only
    rw [kept]
    exact ⟨whole, after, values⟩

/-- A script that is run in a context may do what any code in this context may. -/
theorem runIn (root : ContextId) {path text : String}
    (loaded : host.disk.readText path = .ok text) :
    Meets policy left (some root) may (ScriptEnds policy)
      (Chronicle.runIn root recount path text) := by
  intro machine room admitted
  have routine (tree : Located) (read : Eval.read ⟨machine.serial, path, text⟩ = .ok tree) :=
    policy.routine_of_script loaded read
  obtain ⟨course, admits, values⟩ := runText ready path text root routine room admitted
  exact ⟨course, admits, .ok values⟩

omit ready in
theorem within {root : ContextId} {told : Chronicle Result}
    (meets : Meets policy left (some root) may post told) :
    Meets policy left own may post (Chronicle.within root told) := by
  intro machine room admitted
  obtain ⟨course, admits, ends⟩ := meets room admitted
  exact ⟨.included course, admits, ends⟩

theorem includeScript (call : Invocation) :
    Meets policy left own may policy.Admit (Chronicle.includeScript call host recount) := by
  apply andThen (perform (Still.loadScript call host))
  intro loaded readable
  cases loaded with
  | none => exact perform (Still.exception call _)
  | some script =>
    obtain ⟨path, text⟩ := script
    have reading : Still policy.toBodies (fun _ => True)
        (fun machine => .ok (machine.store.rootOf call.caller) machine) := by
      intro machine admitted
      exact .ok admitted.kept trivial
    apply andThen (perform reading)
    intro root _
    apply andThen (within (runIn ready root (readable path text rfl)))
    intro result values
    apply andThen (perform (Still.resultOf call path values.admitted))
    intro _ _
    exact pure trivial

theorem runScript (call : Invocation) :
    Meets policy left own may policy.Admit (Chronicle.runScript call host recount) := by
  apply andThen (perform (Still.loadScript call host))
  intro loaded readable
  cases loaded with
  | none => exact perform (Still.exception call _)
  | some script =>
    obtain ⟨path, text⟩ := script
    apply entering
    intro machine admitted
    have forgotten : policy.AdmitMachine { machine with exported := none } := by
      refine ⟨admitted.store, ?_⟩
      rintro value ⟨⟩
    obtain ⟨grows, globals⟩ := forgotten.addGlobals
    refine ⟨(machine.exported, machine.store.size), _, rfl, grows,
      Execution.depth_addGlobals _, globals, ?_⟩
    apply andThen (runIn ready machine.store.size (readable path text rfl))
    intro result values
    apply andThen (perform (Still.leaveScript admitted.exported))
    intro exported exports
    apply andThen (perform (Still.resultOf call path values.admitted))
    intro _ _
    apply pure
    cases exported with
    | none => trivial
    | some value => exact exports value rfl

/-! ## Calls -/

theorem invoke {call : Invocation} (arguments : ∀ parameter, policy.Admit (call.argument parameter))
    (builtin : Builtin) :
    Meets policy left own may policy.Admit (Chronicle.invoke call host recount builtin) := by
  have quiet : (Happening.noted (.invoked builtin)).Quiet policy.fault := trivial
  apply andThen (note quiet)
  intro _ _
  by_cases included : builtin = .includeScript
  · subst included
    exact includeScript ready call
  by_cases started : builtin = .runScript
  · subst started
    exact runScript ready call
  have still := Still.run arguments host (fun _ _ => Pure.pure .null) included started
  cases builtin with
  | includeScript => exact absurd rfl included
  | runScript => exact absurd rfl started
  | _ => exact perform still

theorem callBuiltin (function : BuiltinFunction) {arguments : List Value}
    (admitted : ∀ argument ∈ arguments, policy.Admit argument) (span : Span) (caller : ContextId) :
    Meets policy left own may policy.Admit
      (Chronicle.callBuiltin host function arguments span caller recount) := by
  unfold Chronicle.callBuiltin
  cases Builtin.named? function.name with
  | none => exact raise (.noSuchBuiltin function.name) trivial span caller
  | some builtin =>
    apply invoke ready
    intro parameter
    have table := Table.all_ofArguments function.parameters admitted
    unfold Invocation.argument Eval.invocationOf
    cases found : (Table.ofArguments function.parameters arguments).value? parameter with
    | none => trivial
    | some value => exact table parameter value found

end

section

variable {inner : Option Recount} (furnished : Furnished policy left inner)

include furnished

/-- A call conducts itself whatever is called, and binds no name in the context of its caller. -/
theorem callValue {callee : Value} (called : policy.Admit callee) {arguments : List Value}
    (admitted : ∀ argument ∈ arguments, policy.Admit argument) (span : Span) (caller : ContextId) :
    Meets policy left own may policy.Admit
      (Chronicle.callValue host inner callee arguments span caller) := by
  cases callee with
  | function function =>
    unfold Chronicle.callValue
    dsimp only
    cases arity : function.checkArity arguments.length with
    | error fault =>
      have ordinary := Bodies.sound_checkArity function arguments.length
      rw [arity] at ordinary
      intro machine room all
      rw [andThen_ok _ rfl]
      exact ⟨.miscounted machine arity, all,
        .failed (policy.fault_of_not_stray fault ordinary.not_stray)⟩
    | ok _ =>
      have asks : (Happening.called function arguments.length).Asks := arity
      apply activate furnished asks span caller
      intro fewer recount ready
      cases function with
      | user defined => exact callUser ready called admitted span caller
      | builtin provided => exact callBuiltin ready provided admitted span caller
  | _ => exact raise (.notCallable _) trivial span caller

/-- Making an instance conducts itself, and binds no name in the context it is made in. -/
theorem makeInstance (name : String) (span : Span) (id : ContextId) :
    Meets policy left own may policy.Admit
      (Chronicle.makeInstance host inner name span id) := by
  apply andThen (perform (Still.objectNamed name span id))
  intro template members
  have asks : (Happening.instantiated template).Asks := trivial
  apply activate furnished asks span id
  intro fewer recount ready
  exact instantiate ready members name span id

end

/-! ## Expressions -/

mutual

/-- An expression conducts itself. It is left only by an exit that stands in it. -/
theorem evaluateIn {inner : Option Recount} (furnished : Furnished policy left inner)
    (id : ContextId) : (expr : Located) → (may : Exit → Prop) → policy.code expr →
    (∀ exit, expr.exits exit = true → may exit) →
    Meets policy left (some id) may policy.Admit (Chronicle.evaluateIn host inner id expr)
  | .literal value _, _, _, _ => pure (Bodies.hereditary_admit.ofLiteral value)
  | .unary op operand span, may, code, exits => by
    have operands : policy.code operand := policy.code_of_mem_parts code (by simp [Expr.parts])
    apply andThen (evaluateIn furnished id operand may operands exits)
    intro value admitted
    exact orRaise (Bodies.hereditary_admit.sound_unary op admitted) span id
  | .binary op left right span, may, code, exits => by
    have firsts : policy.code left := policy.code_of_mem_parts code (by simp [Expr.parts])
    have seconds : policy.code right := policy.code_of_mem_parts code (by simp [Expr.parts])
    apply andThen (evaluateIn furnished id left may firsts fun exit here =>
      exits exit (by simp [Expr.exits, here]))
    intro first admitted
    apply andThen (evaluateIn furnished id right may seconds fun exit here =>
      exits exit (by simp [Expr.exits, here]))
    intro second also
    have quiet : (Happening.noted (.applied op first second)).Quiet policy.fault := trivial
    apply andThen (note quiet)
    intro _ _
    exact orRaise (Bodies.hereditary_admit.sound_binary op admitted also) span id
  | .list elements _, may, code, exits => by
    apply andThen (evaluateAll furnished id elements may
      (fun element => policy.code_of_mem_parts code) exits)
    intro values admitted
    exact pure ((Bodies.admit_list values).mpr admitted)
  | .choice branches _, may, code, exits =>
    evaluateBranches furnished id branches may (fun part => policy.code_of_mem_parts code) exits
  | .forLoop counter start stop step body block span, may, code, exits => by
    rw [Chronicle.evaluateIn]
    have starts : policy.code start := policy.code_of_mem_parts code (by simp [Expr.parts])
    have stops : policy.code stop := policy.code_of_mem_parts code (by simp [Expr.parts])
    have bodies : policy.code body := policy.code_of_mem_parts code (by simp [Expr.parts])
    apply andThen (evaluateIn furnished id start may starts fun exit here =>
      exits exit (by cases step <;> simp [Expr.exits, here]))
    intro first _
    apply andThen (evaluateIn furnished id stop may stops fun exit here =>
      exits exit (by cases step <;> simp [Expr.exits, here]))
    intro last _
    cases first with
    | int first =>
      cases last with
      | int last =>
        have taken (exit : Exit) (here : body.exits exit = true) : InLoop may exit := by
          cases exit with
          | returned => exact exits .returned (by cases step <;> simp [Expr.exits, here])
          | _ => trivial
        have counted (value : Int64) : policy.Admit (.int value) := trivial
        have round (value : Int64) : Meets policy left (some id) (InLoop may) policy.Admit
            (Chronicle.assign id counter (.int value) .direct span id >>= fun _ =>
              Chronicle.evaluateIn host inner id body) := by
          apply andThen (assign (counted value) span)
          intro _ _
          exact evaluateIn furnished id body (InLoop may) bodies taken
        have none : ∀ value ∈ ([] : List Value), policy.Admit value := by simp
        have results (step : Int64) := andThen
          (count round (loopLimit span id) (!block) last step host.config.maxLoopIterations first
            none) fun values admitted => pure (Bodies.hereditary_admit.loop block admitted)
        cases step with
        | none =>
          have one : Meets policy left (some id) may (fun _ => True)
              (Pure.pure 1 : Chronicle Int64) := pure trivial
          exact andThen one fun step _ => results step
        | some expr =>
          have steps : policy.code expr := policy.code_of_mem_parts code (by simp [Expr.parts])
          apply andThen (evaluateIn furnished id expr may steps fun exit here =>
            exits exit (by simp [Expr.exits, here]))
          intro value _
          exact andThen (perform (Still.stepOf value first last expr.note id)) fun step _ =>
            results step
      | _ => exact raise .loopBounds trivial span id
    | _ => exact raise .loopBounds trivial span id
  | .whileLoop condition body block span, may, code, exits => by
    rw [Chronicle.evaluateIn]
    have conditions : policy.code condition :=
      policy.code_of_mem_parts code (by simp [Expr.parts])
    have bodies : policy.code body := policy.code_of_mem_parts code (by simp [Expr.parts])
    have taken (exit : Exit) (here : body.exits exit = true) : InLoop may exit := by
      cases exit with
      | returned => exact exits .returned (by simp [Expr.exits, here])
      | _ => trivial
    apply andThen
    · apply repeatWhile _ _ (loopLimit span id)
      · simp
      · exact evaluateIn furnished id condition may conditions fun exit here =>
          exits exit (by simp [Expr.exits, here])
      · exact evaluateIn furnished id body (InLoop may) bodies taken
    · intro values admitted
      exact pure (Bodies.hereditary_admit.loop block admitted)
  | .read name span, _, _, _ => perform (Still.readName name span id)
  | .assign name expr span, may, code, exits => by
    have values : policy.code expr := policy.code_of_mem_parts code (by simp [Expr.parts])
    apply andThen (evaluateIn furnished id expr may values exits)
    intro value admitted
    apply andThen (assign admitted span)
    intro _ _
    exact pure admitted
  | .member object name span, _, _, _ => perform (Still.readMember object name span id)
  | .assignMember object name expr span, may, code, exits => by
    have values : policy.code expr := policy.code_of_mem_parts code (by simp [Expr.parts])
    apply andThen (perform (Still.instanceNamed object span id))
    intro target made
    apply andThen (evaluateIn furnished id expr may values exits)
    intro value admitted
    apply andThen (assignMember made admitted span id)
    intro _ _
    exact pure admitted
  | .function name parameters body valued span, _, code, _ =>
    define name parameters (policy.routine_of_code code) valued span
  | .call callee arguments span, may, code, exits => by
    have callees : policy.code callee := policy.code_of_mem_parts code (by simp [Expr.parts])
    apply andThen (evaluateIn furnished id callee may callees fun exit here =>
      exits exit (by simp [Expr.exits, here]))
    intro function called
    apply andThen (evaluateAll furnished id arguments may
      (fun argument member => policy.code_of_mem_parts code (by simp [Expr.parts, member]))
      fun exit here => exits exit (by simp [Expr.exits, here]))
    intro values admitted
    exact callValue furnished called admitted span id
  | .template name body span, _, code, _ =>
    defineTemplate name (policy.members_of_code code) span
  | .instantiate name span, _, _, _ => makeInstance furnished name span id
  | .returnWith none _, _, _, exits => returned (exits .returned (by simp [Expr.exits])) trivial
  | .returnWith (some expr) _, may, code, exits => by
    have values : policy.code expr := policy.code_of_mem_parts code (by simp [Expr.parts])
    apply andThen (evaluateIn furnished id expr may values fun exit here =>
      exits exit (by simp [Expr.exits, here]))
    intro value admitted
    exact returned (exits .returned (by simp [Expr.exits])) admitted
  | .breakLoop span, _, _, exits => broke (exits .broke (by simp [Expr.exits])) span
  | .continueLoop span, _, _, exits => continued (exits .continued (by simp [Expr.exits])) span

theorem evaluateAll {inner : Option Recount} (furnished : Furnished policy left inner)
    (id : ContextId) : (elements : List Located) → (may : Exit → Prop) →
    (∀ element ∈ elements, policy.code element) →
    (∀ exit, Expr.anyExits exit elements = true → may exit) →
    Meets policy left (some id) may (fun values => ∀ value ∈ values, policy.Admit value)
      (Chronicle.evaluateAll host inner id elements)
  | [], _, _, _ => pure (by simp)
  | element :: rest, may, code, exits => by
    obtain ⟨first, later⟩ := List.forall_mem_cons.mp code
    apply andThen (evaluateIn furnished id element may first fun exit here =>
      exits exit (by simp [Expr.anyExits, here]))
    intro value admitted
    apply andThen (evaluateAll furnished id rest may later fun exit here =>
      exits exit (by simp [Expr.anyExits, here]))
    intro values also
    exact pure (List.forall_mem_cons.mpr ⟨admitted, also⟩)

theorem evaluateBranches {inner : Option Recount} (furnished : Furnished policy left inner)
    (id : ContextId) : (branches : Branches Span) → (may : Exit → Prop) →
    (∀ part ∈ branches.parts, policy.code part) →
    (∀ exit, branches.exits exit = true → may exit) →
    Meets policy left (some id) may policy.Admit
      (Chronicle.evaluateBranches host inner id branches)
  | .done, _, _, _ => pure trivial
  | .otherwise body block, may, code, exits => by
    apply andThen (evaluateIn furnished id body may (code body (by simp [Branches.parts])) exits)
    intro value admitted
    exact pure (Bodies.hereditary_admit.body block admitted)
  | .orElse condition body block rest, may, code, exits => by
    apply andThen (evaluateIn furnished id condition may (code condition (by simp [Branches.parts]))
      fun exit here => exits exit (by simp [Branches.exits, here]))
    intro truth _
    apply ite
    · apply andThen (evaluateIn furnished id body may (code body (by simp [Branches.parts]))
        fun exit here => exits exit (by simp [Branches.exits, here]))
      intro value admitted
      exact pure (Bodies.hereditary_admit.body block admitted)
    · exact evaluateBranches furnished id rest may
        (fun part member => code part (by simp [Branches.parts, member]))
        fun exit here => exits exit (by simp [Branches.exits, here])

end

end Meets

/-! ## Programs -/

/-- The room for a number of activations comes with a way to evaluate what lies in them. -/
theorem furnished_inside (policy : Policy host) (left : Nat) :
    Furnished policy left (Chronicle.inside host left) := by
  induction left with
  | zero => exact .full
  | succ left ih =>
    apply Furnished.inside
    intro expr id may code exits
    rw [Chronicle.evaluate_eq]
    exact Meets.evaluateIn ih id expr may code exits

theorem ready_evaluate (policy : Policy host) (left : Nat) :
    Ready policy left (Chronicle.evaluate host left) := by
  intro expr id may code exits
  rw [Chronicle.evaluate_eq]
  exact Meets.evaluateIn (furnished_inside policy left) id expr may code exits

/-- The policy that admits everything. -/
def Policy.lenient (host : Host) : Policy host where
  toBodies := Bodies.all
  code _ := True
  fault _ := True
  fault_of_not_stray _ _ := trivial
  code_of_mem_parts _ _ := trivial
  routine_of_code _ := trivial
  members_of_code _ := trivial
  code_of_routine _ := trivial
  code_of_members _ := trivial
  fault_of_routine _ _ _ := trivial
  fault_of_members _ _ := trivial
  routine_of_script _ _ := trivial

/-! ## Courses -/

section

variable (host : Host) (machine : Machine)

/-- Whatever a call does is a course of events, in which the code of the call has no context of its
own. -/
theorem course_callValue (callee : Value) (arguments : List Value) (span : Span)
    (caller : ContextId) :
    let told := Chronicle.callValue host
      (Chronicle.inside host (host.config.maxCallDepth - machine.depth)) callee arguments span
      caller machine
    Course host (fun _ => True) none machine told.log (Outcome.machine told.ending) := by
  have meets : Meets (Policy.lenient host) (host.config.maxCallDepth - machine.depth) none
      (fun _ => False) Bodies.all.Admit (Chronicle.callValue host _ callee arguments span caller) :=
    Meets.callValue (furnished_inside _ _) (Bodies.admit_all callee)
      (fun argument _ => Bodies.admit_all argument) span caller
  exact (meets rfl (Bodies.admitMachine_all machine)).course

/-- Making an instance is a course of events as well, without a context of its own. -/
theorem course_instantiate (name : String) (span : Span) (id : ContextId) :
    let told := Chronicle.evaluate host (host.config.maxCallDepth - machine.depth)
      (.instantiate name span) id machine
    Course host (fun _ => True) none machine told.log (Outcome.machine told.ending) := by
  have meets : Meets (Policy.lenient host) (host.config.maxCallDepth - machine.depth) none
      (fun _ => False) Bodies.all.Admit
      (Chronicle.evaluate host (host.config.maxCallDepth - machine.depth) (.instantiate name span)
        id) := by
    rw [Chronicle.evaluate_eq, Chronicle.evaluateIn]
    exact Meets.makeInstance (furnished_inside _ _) name span id
  exact (meets rfl (Bodies.admitMachine_all machine)).course

/-- Whatever an expression does is a course of events in its context. -/
theorem course_evaluate (expr : Located) (id : ContextId) :
    let told := Chronicle.evaluate host (host.config.maxCallDepth - machine.depth) expr id machine
    Course host (fun _ => True) (some id) machine told.log (Outcome.machine told.ending) := by
  have meets := ready_evaluate (Policy.lenient host) (host.config.maxCallDepth - machine.depth)
    expr id (fun _ => True) trivial fun _ _ => trivial
  exact (meets rfl (Bodies.admitMachine_all machine)).course

/-- Whatever a program does is a course of events in the context that it is run in. -/
theorem course_runProgram (globals id : ContextId) (name text : String) :
    let told := Chronicle.runProgram host ⟨machine, globals⟩ id name text
    Course host (fun _ => True) (some id) machine told.log told.ending.2.machine := by
  have ready := ready_evaluate (Policy.lenient host) (host.config.maxCallDepth - machine.depth)
  exact (Meets.runText ready name text id (fun _ _ => trivial) rfl
    (Bodies.admitMachine_all machine)).1

end

end Quill
