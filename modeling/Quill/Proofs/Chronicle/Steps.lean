import Quill.Eval.Expr
import Quill.Proofs.Store.Tables

/-!
# Steps that change no table

Most steps of an evaluation leave the tables of all contexts alone, and the number of open
activations as well. If such a step fails, then with a fault that is about its operands, and the
bodies in its result are some that it has found in the state.
-/

namespace Quill

/-- The second state is the first one but for what has nothing to do with tables and activations. -/
structure Kept (bodies : Bodies) (machine after : Machine) : Prop where
  /-- The contexts are the same. -/
  store : after.store = machine.store
  /-- As many activations are open. -/
  depth : after.depth = machine.depth
  /-- What the running script exports is admitted. -/
  exported : ∀ value, after.exported = some value → bodies.Admit value

/-- How a step may end that changes no table. -/
inductive Keeps {Result : Type} (bodies : Bodies) (post : Result → Prop) (machine : Machine) :
    Outcome Result → Prop where
  /-- It has a result. -/
  | ok {result : Result} {after : Machine} (kept : Kept bodies machine after)
      (results : post result) : Keeps bodies post machine (.ok result after)
  /-- It has failed. -/
  | failed {failure : Failure} {after : Machine} (kept : Kept bodies machine after)
      (ordinary : failure.fault.Ordinary) :
      Keeps bodies post machine (.error (.failed failure) after)

/-- A step that changes no table, in every state with admitted bodies. -/
def Still {Result : Type} (bodies : Bodies) (post : Result → Prop) (step : Eval Result) : Prop :=
  ∀ ⦃machine⦄, bodies.AdmitMachine machine → Keeps bodies post machine (step machine)

variable {Result Other : Type} {bodies : Bodies} {post : Result → Prop}

namespace Bodies.AdmitMachine

variable {machine after : Machine}

theorem kept (admitted : bodies.AdmitMachine machine) : Kept bodies machine machine :=
  ⟨rfl, rfl, admitted.exported⟩

theorem of_kept (admitted : bodies.AdmitMachine machine) (kept : Kept bodies machine after) :
    bodies.AdmitMachine after :=
  ⟨kept.store ▸ admitted.store, kept.exported⟩

end Bodies.AdmitMachine

theorem Kept.trans {machine between after : Machine} (first : Kept bodies machine between)
    (second : Kept bodies between after) : Kept bodies machine after :=
  ⟨second.store.trans first.store, second.depth.trans first.depth, second.exported⟩

namespace Still

theorem pure {result : Result} (results : post result) : Still bodies post (Pure.pure result) := by
  intro machine admitted
  exact .ok admitted.kept results

theorem bind {middle : Result → Prop} {post : Other → Prop} {first : Eval Result}
    {next : Result → Eval Other} (firsts : Still bodies middle first)
    (nexts : ∀ result, middle result → Still bodies post (next result)) :
    Still bodies post (first >>= next) := by
  intro machine admitted
  have began := firsts admitted
  change Keeps bodies post machine (EStateM.bind first next machine)
  unfold EStateM.bind
  revert began
  generalize first machine = outcome
  intro began
  cases began with
  | failed kept ordinary => exact .failed kept ordinary
  | @ok result between kept results =>
    have ended := nexts result results (admitted.of_kept kept)
    dsimp only
    revert ended
    generalize next result between = outcome
    intro ended
    cases ended with
    | ok more results => exact .ok (kept.trans more) results
    | failed more ordinary => exact .failed (kept.trans more) ordinary

theorem raise (fault : Fault) (ordinary : fault.Ordinary) (span : Span) (id : ContextId) :
    Still bodies post (Eval.raise fault span id) := by
  intro machine admitted
  exact .failed admitted.kept ordinary

/-! ## Names -/

theorem lookup (id : ContextId) (name : String) :
    Still bodies (fun found => ∀ value, found = some value → bodies.Admit value)
      (Eval.lookup id name) := by
  intro machine admitted
  exact .ok admitted.kept fun value found => Store.All.lookup admitted.store found

theorem lookupLocal (id : ContextId) (name : String) :
    Still bodies (fun found => ∀ value, found = some value → bodies.Admit value)
      (Eval.lookupLocal id name) := by
  intro machine admitted
  exact .ok admitted.kept fun value found => Store.All.lookupLocal admitted.store found

theorem freshId : Still bodies (fun _ => True) Eval.freshId := by
  intro machine admitted
  exact .ok ⟨rfl, rfl, admitted.exported⟩ trivial

theorem readName (name : String) (span : Span) (id : ContextId) :
    Still bodies bodies.Admit (Eval.readName name span id) := by
  apply bind (lookup id name)
  intro found values
  cases found with
  | none => exact raise (.undefinedVariable name) trivial span id
  | some value => exact pure (values value rfl)

/-- What is found by a name as an instance is one. -/
theorem instanceNamed (name : String) (span : Span) (id : ContextId) :
    Still bodies (fun object => object.isInstance = true) (Eval.instanceNamed name span id) := by
  apply bind (lookup id name)
  intro found values
  cases found with
  | none => exact raise (.undefinedVariable name) trivial span id
  | some value =>
    cases value with
    | object object =>
      dsimp only
      by_cases made : object.isInstance = true
      · rw [if_pos made]
        exact pure made
      · rw [if_neg made]
        exact raise (.notAnInstance name) trivial span id
    | _ => exact raise (.notAnInstance name) trivial span id

theorem objectNamed (name : String) (span : Span) (id : ContextId) :
    Still bodies (fun object => bodies.members object.body) (Eval.objectNamed name span id) := by
  apply bind (lookup id name)
  intro found values
  cases found with
  | none => exact raise (.undefinedVariable name) trivial span id
  | some value =>
    cases value with
    | object object => exact pure (values _ rfl)
    | _ => exact raise (.notAnObject name) trivial span id

theorem readMember (object name : String) (span : Span) (id : ContextId) :
    Still bodies bodies.Admit (Eval.readMember object name span id) := by
  apply bind (instanceNamed object span id)
  intro source _
  apply bind (lookupLocal source.context name)
  intro found values
  cases found with
  | none => exact raise (.unknownMember object name) trivial span id
  | some value => exact pure (values value rfl)

theorem stepOf (value : Value) (start stop : Int64) (span : Span) (id : ContextId) :
    Still bodies (fun _ => True) (Eval.stepOf value start stop span id) := by
  cases value with
  | int step =>
    rw [Eval.stepOf]
    by_cases moves : (step ≠ 0 || stop.toInt ≤ start.toInt) = true
    · rw [if_pos moves]
      exact pure trivial
    · rw [if_neg moves]
      exact raise .loopStep trivial span id
  | _ => exact raise .loopStep trivial span id

/-! ## Built-in functions -/

variable (call : Invocation)

theorem failing (fault : Fault) (ordinary : fault.Ordinary) :
    Still bodies post (call.raise fault) := by
  intro machine admitted
  exact .failed admitted.kept ordinary

theorem exception (fault : Fault) : Still bodies bodies.Admit (call.exception fault) := by
  intro machine admitted
  exact .ok admitted.kept trivial

theorem get : Still bodies (fun _ => True) (MonadState.get : Eval Machine) := by
  intro machine admitted
  exact .ok admitted.kept trivial

theorem readLine : Still bodies (fun _ => True) call.readLine := by
  intro machine admitted
  unfold Invocation.readLine
  by_cases empty : machine.input.isEmpty = true
  · rw [if_pos empty]
    exact .ok admitted.kept trivial
  · rw [if_neg empty]
    dsimp only
    cases decodeUtf8? (Console.splitLine machine.input).1 with
    | some text => exact .ok ⟨rfl, rfl, admitted.exported⟩ trivial
    | none => exact .failed ⟨rfl, rfl, admitted.exported⟩ trivial

theorem writeLine (text : String) : Still bodies (fun _ => True) (call.writeLine text) := by
  intro machine admitted
  unfold Invocation.writeLine
  cases machine.output.print (text ++ "\n") with
  | ok output => exact .ok ⟨rfl, rfl, admitted.exported⟩ trivial
  | error reason => exact .failed admitted.kept trivial

theorem readInteger (lines : Nat) : Still bodies bodies.Admit (call.readInteger lines) := by
  apply call.readInteger_elim
  · intro value
    exact pure trivial
  · exact exception call
  · intro next nexts
    exact bind (readLine call) fun line _ => nexts line
  · intro text next more
    exact bind (writeLine call text) fun _ _ => more

/-- The path and the text of a script are those of a file that can be read. -/
theorem loadScript (host : Host) :
    Still bodies (fun loaded => ∀ path text, loaded = some (path, text) →
      host.disk.readText path = .ok text) (call.loadScript host) := by
  rw [Invocation.loadScript]
  cases call.argument "file" with
  | str file =>
    intro machine admitted
    dsimp only
    cases readable : host.disk.readText (Path.join host.config.baseDirectory file) with
    | ok text =>
      refine .ok ⟨rfl, rfl, admitted.exported⟩ ?_
      rintro path other ⟨⟩
      exact readable
    | error reason => exact .failed ⟨rfl, rfl, admitted.exported⟩ trivial
  | _ =>
    apply pure
    intro path text loaded
    cases loaded

theorem resultOf (path : String) {result : Except Error Value}
    (results : ∀ value, result = .ok value → bodies.Admit value) :
    Still bodies bodies.Admit (call.resultOf path result) := by
  cases result with
  | ok value => exact pure (results value rfl)
  | error error => exact failing call _ trivial

theorem leaveScript {saved : Option Value}
    (also : ∀ value, saved = some value → bodies.Admit value) :
    Still bodies (fun exported => ∀ value, exported = some value → bodies.Admit value)
      (Invocation.leaveScript saved) := by
  intro machine admitted
  exact .ok ⟨rfl, rfl, also⟩ admitted.exported

theorem length : Still bodies bodies.Admit call.length := by
  apply call.length_elim
  · intro size
    exact pure trivial
  · exact failing call _ trivial
  · exact exception call _

variable {call}

/-- Built-in functions that run no script change no table. -/
theorem run (arguments : ∀ parameter, bodies.Admit (call.argument parameter)) (host : Host)
    (evaluate : Evaluate) {builtin : Builtin}
    (noInclude : builtin ≠ .includeScript) (noRun : builtin ≠ .runScript) :
    Still bodies bodies.Admit (call.run host evaluate builtin) := by
  have plain := @Bodies.hereditary_admit bodies
  cases builtin with
  | print =>
    apply bind (writeLine call _)
    intro _ _
    exact pure trivial
  | input =>
    apply bind (readLine call)
    intro line _
    exact pure trivial
  | inputInt =>
    apply bind get
    intro machine _
    exact readInteger call _
  | append => exact plain.append_elim arguments (fun _ => pure) (exception call)
  | remove => exact plain.remove_elim arguments (fun _ => pure) (exception call)
  | extend => exact plain.extend_elim arguments (fun _ => pure) (exception call)
  | length => exact length call
  | exportValue =>
    intro machine admitted
    have value := arguments "value"
    refine .ok ⟨rfl, rfl, ?_⟩ value
    rintro _ ⟨⟩
    exact value
  | includeScript => exact absurd rfl noInclude
  | runScript => exact absurd rfl noRun
  | _ => exact pure trivial

end Still

end Quill
