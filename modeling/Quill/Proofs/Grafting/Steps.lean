import Quill.Proofs.Grafting.Basic
import Quill.Proofs.Isolation.Steps

/-!
# Steps behind other states

A step that is taken behind another state has the same outcome as without that state, behind it.
-/

namespace Quill

variable {Result Moved Other Last : Type}

namespace Machine

variable (old : Machine)

/-! ## Outermost contexts -/

theorem table_builtinTable (shift : Shift) (builtins : List Builtin) (serial : Nat)
    (table : Table) :
    shift.table (builtinTable builtins serial table) =
      builtinTable builtins (serial + shift.serials) (shift.table table) := by
  induction builtins generalizing serial table with
  | nil => rfl
  | cons builtin rest ih =>
    rw [builtinTable, builtinTable, ih, Nat.add_right_comm]
    exact congrArg _ (Table.mapped_define shift.value table builtin.name _ true)

/-- The table of an outermost context has the same names in it, with moved functions. -/
theorem table_globalTable (shift : Shift) (serial : Nat) :
    shift.table (globalTable serial) = globalTable (serial + shift.serials) := by
  rw [globalTable, table_builtinTable]
  rfl

/-- An outermost context that is added behind other contexts. -/
theorem addGlobals_graft (machine : Machine) :
    (old.graft machine).addGlobals =
      (machine.addGlobals.1 + old.store.size, old.graft machine.addGlobals.2) := by
  rw [addGlobals_eq, addGlobals_eq]
  have table := table_globalTable old.shift machine.serial
  have moved : old.shift.context (programContext (globalTable machine.serial)) =
      programContext (globalTable (machine.serial + old.serial)) :=
    congrArg programContext table
  have added := old.add_graftStore machine.store (programContext (globalTable machine.serial))
  rw [moved] at added
  refine Prod.ext (old.size_graftStore machine.store) ?_
  simp only [graft, Machine.mk.injEq, and_true]
  exact ⟨congrArg Prod.snd added, Nat.add_right_comm _ _ _⟩

end Machine

/-! ## Outcomes -/

/-- The outcome behind another state. -/
def Outcome.graft (old : Machine) (move : Result → Moved) : Outcome Result → Outcome Moved
  | .ok result after => .ok (move result) (old.graft after)
  | .error signal after => .error (old.shift.signal signal) (old.graft after)

/-- Behind the old state the second step does what the first one does without it. -/
def Moves (old : Machine) (move : Result → Moved) (step : Eval Result) (moved : Eval Moved) :
    Prop :=
  ∀ ⦃machine : Machine⦄, machine.store.Sealed 0 →
    moved (old.graft machine) = Outcome.graft old move (step machine)

namespace Moves

variable {old : Machine} {move : Result → Moved} {step : Eval Result} {moved : Eval Moved}

theorem pure (result : Result) : Moves old move (Pure.pure result) (Pure.pure (move result)) :=
  fun _ _ => rfl

theorem pure_of_eq {result : Result} {other : Moved} (same : move result = other) :
    Moves old move (Pure.pure result) (Pure.pure other) :=
  same ▸ pure result

theorem bind {later : Other → Last} {middle : Nat → Result → Prop} {next : Result → Eval Other}
    {movedNext : Moved → Eval Last} (confined : Confined 0 0 middle step)
    (moves : Moves old move step moved)
    (nexts : ∀ result, Moves old later (next result) (movedNext (move result))) :
    Moves old later (step >>= next) (moved >>= movedNext) := by
  intro machine sealed
  have stays := (confined sealed (Nat.zero_le _)).kept.sealed
  change EStateM.bind moved movedNext (old.graft machine) =
    Outcome.graft old later (EStateM.bind step next machine)
  unfold EStateM.bind
  rw [moves sealed]
  cases ended : step machine with
  | error signal after => rfl
  | ok result after =>
    rw [ended] at stays
    exact nexts result stays

theorem ite {condition : Prop} [Decidable condition] {otherStep : Eval Result}
    {otherMoved : Eval Moved} (yes : Moves old move step moved)
    (no : Moves old move otherStep otherMoved) :
    Moves old move (if condition then step else otherStep)
      (if condition then moved else otherMoved) := by
  split
  · exact yes
  · exact no

/-! ## Faults and signals -/

theorem raise (fault : Fault) (span : Span) (id : ContextId) :
    Moves old move (Eval.raise fault span id)
      (Eval.raise fault (old.shift.span span) (id + old.store.size)) := by
  intro machine sealed
  simp only [Eval.raise, Outcome.graft, Shift.signal, Shift.failure]
  rw [← old.traceback_graftStore sealed id span]
  rfl

theorem orRaise {result : Except Fault Result} {other : Except Fault Moved}
    (same : result.map move = other) (span : Span) (id : ContextId) :
    Moves old move (Eval.orRaise result span id)
      (Eval.orRaise other (old.shift.span span) (id + old.store.size)) := by
  subst same
  cases result with
  | ok value => exact pure value
  | error fault => exact raise fault span id

theorem throw (signal : Signal) :
    Moves old move (MonadExcept.throw signal) (MonadExcept.throw (old.shift.signal signal)) :=
  fun _ _ => rfl

/-- What a signal amounts to behind the old state. -/
theorem failureOf {store : Store} (sealed : store.Sealed 0) (signal : Signal) (boundary : Span)
    (id : ContextId) :
    Eval.failureOf (old.shift.signal signal) (old.shift.span boundary) (id + old.store.size)
        (old.graftStore store) =
      old.shift.failure (Eval.failureOf signal boundary id store) := by
  cases signal with
  | failed failure => rfl
  | _ => simp only [Eval.failureOf, Shift.failure, Shift.signal, old.traceback_graftStore sealed]

/-- A signal becomes the same failure behind the old state. -/
theorem failed {after : Machine} (sealed : after.store.Sealed 0) (signal : Signal)
    (boundary : Span) (id : ContextId) :
    EStateM.Result.error (.failed (Eval.failureOf (old.shift.signal signal)
          (old.shift.span boundary) (id + old.store.size) (old.graft after).store))
        (old.graft after) =
      Outcome.graft old move
        (.error (.failed (Eval.failureOf signal boundary id after.store)) after) :=
  congrArg (fun failure => EStateM.Result.error (Signal.failed failure) (old.graft after))
    (failureOf sealed signal boundary id)

/-! ## Names and contexts -/

theorem lookup (id : ContextId) (name : String) :
    Moves old (Option.map old.shift.value) (Eval.lookup id name)
      (Eval.lookup (id + old.store.size) name) := by
  intro machine sealed
  simp only [Eval.lookup, Outcome.graft]
  exact congrArg (EStateM.Result.ok · _) (old.lookup_graftStore sealed id name)

theorem lookupLocal (id : ContextId) (name : String) :
    Moves old (Option.map old.shift.value) (Eval.lookupLocal id name)
      (Eval.lookupLocal (id + old.store.size) name) := by
  intro machine sealed
  simp only [Eval.lookupLocal, Outcome.graft]
  exact congrArg (EStateM.Result.ok · _) (old.lookupLocal_graftStore machine.store id name)

theorem freshId : Moves old (· + old.serial) Eval.freshId Eval.freshId := by
  intro machine sealed
  simp only [Eval.freshId, Outcome.graft, Machine.graft, Nat.add_right_comm]

theorem addContext (context : Context) :
    Moves old (· + old.store.size) (Eval.addContext context)
      (Eval.addContext (old.shift.context context)) := by
  intro machine sealed
  have added := old.add_graftStore machine.store context
  simp only [Eval.addContext, Outcome.graft, Machine.graft]
  rw [added, old.size_graftStore]

theorem assign (target : ContextId) (name : String) (value : Value) (span : Span)
    (id : ContextId) :
    Moves old (fun _ => ()) (Eval.assign target name value span id)
      (Eval.assign (target + old.store.size) name (old.shift.value value) (old.shift.span span)
        (id + old.store.size)) := by
  intro machine sealed
  have protect := old.protects_graftStore machine.store target name
  have define := old.define_graftStore machine.store target name value true
  unfold Eval.assign
  change (if (old.graftStore machine.store).protects _ name then _ else _) = _
  rw [protect]
  cases machine.store.protects target name with
  | true => exact raise (.immutableBinding name) span id sealed
  | false =>
    simp only [Bool.false_eq_true, if_false, Outcome.graft, Machine.graft]
    rw [define]

theorem instanceNamed (name : String) (span : Span) (id : ContextId) :
    Moves old old.shift.object (Eval.instanceNamed name span id)
      (Eval.instanceNamed name (old.shift.span span) (id + old.store.size)) := by
  apply bind (Confined.lookup (Nat.zero_le id) name) (lookup id name)
  intro found
  match found with
  | none => exact raise _ span id
  | some (.object object) =>
    exact ite (pure object) (raise _ span id)
  | some .null | some (.int _) | some (.float _) | some (.str _) | some (.list _)
  | some (.function _) | some (.exception _) => exact raise _ span id

theorem objectNamed (name : String) (span : Span) (id : ContextId) :
    Moves old old.shift.object (Eval.objectNamed name span id)
      (Eval.objectNamed name (old.shift.span span) (id + old.store.size)) := by
  apply bind (Confined.lookup (Nat.zero_le id) name) (lookup id name)
  intro found
  match found with
  | none => exact raise _ span id
  | some (.object object) => exact pure object
  | some .null | some (.int _) | some (.float _) | some (.str _) | some (.list _)
  | some (.function _) | some (.exception _) => exact raise _ span id

theorem readName (name : String) (span : Span) (id : ContextId) :
    Moves old old.shift.value (Eval.readName name span id)
      (Eval.readName name (old.shift.span span) (id + old.store.size)) := by
  apply bind (Confined.lookup (Nat.zero_le id) name) (lookup id name)
  intro found
  cases found with
  | none => exact raise _ span id
  | some value => exact pure value

theorem readMember (object name : String) (span : Span) (id : ContextId) :
    Moves old old.shift.value (Eval.readMember object name span id)
      (Eval.readMember object name (old.shift.span span) (id + old.store.size)) := by
  apply bind (Confined.instanceNamed (Nat.zero_le id) object span) (instanceNamed object span id)
  intro source
  apply bind (Confined.lookupLocal (Nat.zero_le source.context) name)
    (lookupLocal source.context name)
  intro found
  cases found with
  | none => exact raise _ span id
  | some value => exact pure value

theorem stepOf (value : Value) (start stop : Int64) (span : Span) (id : ContextId) :
    Moves old (fun step => step) (Eval.stepOf value start stop span id)
      (Eval.stepOf (old.shift.value value) start stop (old.shift.span span)
        (id + old.store.size)) := by
  cases value with
  | int step =>
    exact ite (pure step) (raise _ span id)
  | _ => exact raise _ span id

end Moves

/-! ## Built-in functions -/

/-- The invocation behind an old state. -/
def Invocation.graft (old : Machine) (call : Invocation) : Invocation where
  name := call.name
  arguments := old.shift.table call.arguments
  span := old.shift.span call.span
  caller := call.caller + old.store.size

theorem Invocation.argument_graft (old : Machine) (call : Invocation) (parameter : String) :
    (call.graft old).argument parameter = old.shift.value (call.argument parameter) := by
  have found := Table.value?_mapped old.shift.value call.arguments parameter
  rw [argument, argument]
  change ((Table.mapped old.shift.value call.arguments).value? parameter).getD .null = _
  rw [found]
  cases call.arguments.value? parameter <;> rfl

namespace Moves

variable {old : Machine} {move : Result → Moved} (call : Invocation)

theorem failing (fault : Fault) :
    Moves old move (call.raise fault) ((call.graft old).raise fault) := by
  intro machine sealed
  have traceback := old.traceback_graftStore sealed call.caller call.span
  simp only [Invocation.raise, Invocation.failure, Outcome.graft, Shift.signal, Shift.failure]
  rw [← traceback]
  rfl

theorem exception (fault : Fault) :
    Moves old old.shift.value (call.exception fault) ((call.graft old).exception fault) := by
  intro machine sealed
  have traceback := old.traceback_graftStore sealed call.caller call.span
  simp only [Invocation.exception, Invocation.failure, Outcome.graft, Shift.value, Value.changed,
    Shift.change, Shift.failure]
  rw [← traceback]
  rfl

theorem refuse (parameter : String) (accepted : Accepted) :
    Moves old old.shift.value (call.refuse parameter accepted)
      ((call.graft old).refuse parameter accepted) := by
  rw [Invocation.refuse, Invocation.refuse, call.argument_graft old, Shift.value,
    Value.kind_changed]
  exact exception call _

theorem readLine : Moves old (fun line => line) call.readLine (call.graft old).readLine := by
  have fails : Moves old (fun line : Option String => line) (call.raise (.io .notUtf8))
      ((call.graft old).raise (.io .notUtf8)) := failing call _
  rintro ⟨store, serial, depth, exported, _ | ⟨byte, bytes⟩, output, requested⟩ sealed
  · rfl
  · simp only [Invocation.readLine, Machine.graft, List.isEmpty_cons, Bool.false_eq_true, if_false]
    cases decodeUtf8? (Console.splitLine (byte :: bytes)).1 with
    | some text => rfl
    | none =>
      let rest := (Console.splitLine (byte :: bytes)).2
      exact @fails ⟨store, serial, depth, exported, rest, output, requested⟩ sealed

theorem writeLine (text : String) :
    Moves old (fun _ => ()) (call.writeLine text) ((call.graft old).writeLine text) := by
  rintro ⟨store, serial, depth, exported, input, ⟨written, broken⟩, requested⟩ sealed
  rcases broken with _ | ⟨_ | room, reason⟩
  · simp only [Invocation.writeLine, Output.print, Outcome.graft, Machine.graft,
      String.append_assoc]
  · exact failing call _ sealed
  · simp only [Invocation.writeLine, Output.print, Outcome.graft, Machine.graft,
      String.append_assoc]

theorem readInteger (lines : Nat) :
    Moves old old.shift.value (call.readInteger lines) ((call.graft old).readInteger lines) := by
  induction lines with
  | zero => exact exception call _
  | succ lines ih =>
    apply bind (Confined.readLine call) (readLine call)
    intro line
    cases line with
    | none => exact exception call _
    | some line =>
      dsimp only
      cases Console.integer? line with
      | some value => exact pure _
      | none => exact bind (Confined.writeLine call _) (writeLine call _) fun _ => ih

/-! ### Lists -/

theorem append : Moves old old.shift.value call.append (call.graft old).append := by
  unfold Invocation.append
  rw [call.argument_graft old, call.argument_graft old]
  cases call.argument "list" with
  | list elements =>
    rw [Shift.value_list]
    apply pure_of_eq
    rw [Shift.value_list, List.map_append, List.map_singleton]
  | _ => exact refuse call _ _

theorem remove : Moves old old.shift.value call.remove (call.graft old).remove := by
  unfold Invocation.remove
  rw [call.argument_graft old, call.argument_graft old]
  cases call.argument "list" with
  | list elements =>
    rw [Shift.value_list]
    cases call.argument "index" with
    | int index =>
      rw [Shift.value_int]
      simp only [List.length_map]
      cases Value.listPlace index elements.length with
      | ok place =>
        apply pure_of_eq
        rw [Shift.value_list, List.eraseIdx_map]
      | error fault => exact exception call _
    | _ => exact refuse call _ _
  | _ => exact refuse call _ _

theorem extend : Moves old old.shift.value call.extend (call.graft old).extend := by
  unfold Invocation.extend
  rw [call.argument_graft old, call.argument_graft old]
  cases call.argument "listA" with
  | list first =>
    rw [Shift.value_list]
    cases call.argument "listB" with
    | list second =>
      rw [Shift.value_list]
      apply pure_of_eq
      rw [Shift.value_list, List.map_append]
    | _ => exact refuse call _ _
  | _ => exact refuse call _ _

theorem length : Moves old old.shift.value call.length (call.graft old).length := by
  unfold Invocation.length
  rw [call.argument_graft old]
  cases call.argument "value" with
  | list elements =>
    rw [Shift.value_list]
    simp only [List.length_map]
    cases Integer.ofInt? elements.length with
    | some value => exact pure _
    | none => exact failing call _
  | str text =>
    rw [Shift.value_str]
    dsimp only
    cases Integer.ofInt? text.length with
    | some value => exact pure _
    | none => exact failing call _
  | _ => exact refuse call _ _

/-! ### Scripts -/

theorem exportValue (host : Host) (evaluate moved : Evaluate) :
    Moves old old.shift.value (call.run host evaluate .exportValue)
      ((call.graft old).run host moved .exportValue) := by
  intro machine sealed
  simp only [Invocation.run, call.argument_graft old, Outcome.graft, Machine.graft, Option.map_some]

theorem loadScript (host : Host) :
    Moves old (fun script => script) (call.loadScript host) ((call.graft old).loadScript host) := by
  unfold Invocation.loadScript
  rw [call.argument_graft old]
  cases call.argument "file" with
  | str file =>
    rintro ⟨store, serial, depth, exported, input, output, requested⟩ sealed
    dsimp only [Shift.value, Value.changed]
    generalize Path.join host.config.baseDirectory file = path
    cases host.disk.readText path with
    | ok text => rfl
    | error reason =>
      have fails : Moves old (fun script : Option (String × String) => script)
          (call.raise (.scriptUnreadable path reason))
          ((call.graft old).raise (.scriptUnreadable path reason)) := failing call _
      exact @fails ⟨store, serial, depth, exported, input, output, path :: requested⟩ sealed
  | _ => exact pure none

theorem resultOf (path : String) (result : Except Error Value) :
    Moves old old.shift.value (call.resultOf path result)
      ((call.graft old).resultOf path (old.shift.result result)) := by
  cases result with
  | ok value => exact pure value
  | error error =>
    simp only [Invocation.resultOf, Shift.result, Shift.message_error]
    exact failing call _

theorem enterScript :
    Moves old (fun (saved, root) => (saved.map old.shift.value, root + old.store.size))
      Invocation.enterScript Invocation.enterScript := by
  intro machine sealed
  have added := old.addGlobals_graft { machine with exported := none }
  unfold Invocation.enterScript
  change (EStateM.Result.ok _ _ : Outcome (Option Value × ContextId)) = EStateM.Result.ok _ _
  exact congrArg (fun added : ContextId × Machine =>
    EStateM.Result.ok (machine.exported.map old.shift.value, added.1) added.2) added

theorem leaveScript (saved : Option Value) :
    Moves old (Option.map old.shift.value) (Invocation.leaveScript saved)
      (Invocation.leaveScript (saved.map old.shift.value)) :=
  fun _ _ => rfl

/-! ### All others -/

/-- The work of a built-in function that runs no script. -/
theorem run (host : Host) (evaluate moved : Evaluate) {builtin : Builtin}
    (noInclude : builtin ≠ .includeScript) (noRun : builtin ≠ .runScript) :
    Moves old old.shift.value (call.run host evaluate builtin)
      ((call.graft old).run host moved builtin) := by
  have kind : ((call.graft old).argument "value").kind = (call.argument "value").kind := by
    rw [call.argument_graft old, old.shift.kind_value]
  have shown : ((call.graft old).argument "value").display = (call.argument "value").display := by
    rw [call.argument_graft old, old.shift.display_value]
  cases builtin with
  | includeScript => exact absurd rfl noInclude
  | runScript => exact absurd rfl noRun
  | print =>
    rw [Invocation.run, Invocation.run, shown]
    exact bind (Confined.writeLine call _) (writeLine call _) fun _ => pure _
  | printRet | str =>
    rw [Invocation.run, Invocation.run, shown]
    exact pure _
  | input => exact bind (Confined.readLine call) (readLine call) fun _ => pure _
  | inputInt =>
    intro machine sealed
    exact readInteger call machine.input.length sealed
  | isNumber | isString | isList | isFunction =>
    rw [Invocation.run, Invocation.run, kind]
    exact pure _
  | append => exact append call
  | remove => exact remove call
  | extend => exact extend call
  | length => exact length call
  | time => exact pure _
  | exportValue => exact exportValue call host evaluate moved

end Moves

end Quill
