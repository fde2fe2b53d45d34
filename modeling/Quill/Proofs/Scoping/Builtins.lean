import Quill.Proofs.Scoping.Steps

/-!
# Built-in functions in two runs

What a built-in function gives back, prints and reads is up to its arguments and to the state. From
where it was called shows in the tracebacks of its failures, and otherwise in one thing alone: the
outermost context in which it includes a script.
-/

namespace Quill

/-- Two invocations of a built-in function in two runs of one call. -/
structure Invocation.Alike (callers : Callers) (call other : Invocation) : Prop where
  /-- The functions have the same name. -/
  name : call.name = other.name
  /-- The calls stand at the same place. -/
  span : call.span = other.span
  /-- The arguments differ in tracebacks alone. -/
  arguments : call.arguments.untraced = other.arguments.untraced
  /-- The runs have got to the contexts of the callers. -/
  caller : callers.Meet call.caller other.caller

namespace Invocation.Alike

variable {Result : Type} {callers : Callers} {alike : Result → Result → Prop}
  {call other : Invocation}

theorem argument (calls : Alike callers call other) (parameter : String) :
    Value.Alike (call.argument parameter) (other.argument parameter) :=
  Table.alike_of_untraced calls.arguments parameter

theorem raise (calls : Alike callers call other) (fault : Fault) :
    Agree callers alike (call.raise fault) (other.raise fault) := by
  intro machine last linked
  exact .error (.failed rfl calls.span) linked

theorem exception (calls : Alike callers call other) (fault : Fault) :
    Agree callers Value.Alike (call.exception fault) (other.exception fault) := by
  intro machine last linked
  have values : Value.Alike (.exception (call.failure fault machine.store))
      (.exception (other.failure fault last.store)) := by
    simp only [Value.Alike, Value.untraced, Invocation.failure, calls.span]
  exact .ok values linked

theorem refuse (calls : Alike callers call other) (parameter : String) (accepted : Accepted) :
    Agree callers Value.Alike (call.refuse parameter accepted)
      (other.refuse parameter accepted) := by
  rw [Invocation.refuse, Invocation.refuse, calls.name, (calls.argument parameter).kind_eq]
  exact calls.exception _

/-! ## Lists -/

theorem append (calls : Alike callers call other) :
    Agree callers Value.Alike call.append other.append := by
  rw [Invocation.append, Invocation.append]
  have lists := calls.argument "list"
  generalize call.argument "list" = list, other.argument "list" = list' at lists
  cases lists.paired with
  | list elements =>
    apply Agree.pure
    apply Value.AllAlike.list
    rw [Value.AllAlike, List.map_append, List.map_append, elements]
    exact congrArg _ (Value.AllAlike.cons (calls.argument "value") rfl)
  | _ => exact calls.refuse "list" .list

theorem remove (calls : Alike callers call other) :
    Agree callers Value.Alike call.remove other.remove := by
  rw [Invocation.remove, Invocation.remove]
  have lists := calls.argument "list"
  generalize call.argument "list" = list, other.argument "list" = list' at lists
  cases lists.paired with
  | list elements =>
    have indices := calls.argument "index"
    generalize call.argument "index" = index, other.argument "index" = index' at indices
    cases indices.paired with
    | int index =>
      dsimp only
      rw [elements.length_eq]
      cases Value.listPlace index _ with
      | error fault => exact calls.exception fault
      | ok place =>
        apply Agree.pure
        apply Value.AllAlike.list
        rw [Value.AllAlike, ← List.eraseIdx_map, ← List.eraseIdx_map, elements]
    | _ => exact calls.refuse "index" .int
  | _ => exact calls.refuse "list" .list

theorem extend (calls : Alike callers call other) :
    Agree callers Value.Alike call.extend other.extend := by
  rw [Invocation.extend, Invocation.extend]
  have firsts := calls.argument "listA"
  generalize call.argument "listA" = first, other.argument "listA" = first' at firsts
  cases firsts.paired with
  | list firstElements =>
    have seconds := calls.argument "listB"
    generalize call.argument "listB" = second, other.argument "listB" = second' at seconds
    cases seconds.paired with
    | list secondElements =>
      apply Agree.pure
      apply Value.AllAlike.list
      rw [Value.AllAlike, List.map_append, List.map_append, firstElements, secondElements]
    | _ => exact calls.refuse "listB" .list
  | _ => exact calls.refuse "listA" .list

theorem length (calls : Alike callers call other) :
    Agree callers Value.Alike call.length other.length := by
  rw [Invocation.length, Invocation.length]
  have values := calls.argument "value"
  generalize call.argument "value" = value, other.argument "value" = value' at values
  cases values.paired with
  | @list elements others both =>
    dsimp only
    rw [both.length_eq]
    cases Integer.ofInt? others.length with
    | some size => exact Agree.pure (Value.Alike.refl _)
    | none => exact calls.raise .integerOverflow
  | str text =>
    dsimp only
    cases Integer.ofInt? text.length with
    | some size => exact Agree.pure (Value.Alike.refl _)
    | none => exact calls.raise .integerOverflow
  | _ => exact calls.refuse "value" .listOrString

/-! ## Input and output -/

theorem readLine (calls : Alike callers call other) :
    Agree callers Eq call.readLine other.readLine := by
  intro machine last linked
  rw [Invocation.readLine, Invocation.readLine, linked.input_eq]
  by_cases empty : last.input.isEmpty = true
  · rw [if_pos empty, if_pos empty]
    exact .ok rfl linked
  · rw [if_neg empty, if_neg empty]
    have taken := linked.change
      (fun machine => { machine with input := (Console.splitLine last.input).2 })
      (fun _ => rfl) (fun _ => rfl)
    dsimp only
    cases decodeUtf8? (Console.splitLine last.input).1 with
    | some text => exact .ok rfl taken
    | none => exact calls.raise (.io .notUtf8) taken

theorem writeLine (calls : Alike callers call other) (text : String) :
    Agree callers Eq (call.writeLine text) (other.writeLine text) := by
  intro machine last linked
  rw [Invocation.writeLine, Invocation.writeLine, linked.output_eq]
  cases last.output.print (text ++ "\n") with
  | ok output =>
    have printed := linked.change (fun machine => { machine with output := output })
      (fun _ => rfl) (fun _ => rfl)
    exact .ok rfl printed
  | error reason => exact calls.raise (.io (.closed reason)) linked

theorem complain (calls : Alike callers call other) (line : String) :
    Agree callers Eq (call.complain line) (other.complain line) :=
  calls.writeLine _

/-! ## Work that runs no script -/

/-- Exporting a value changes what is exported. -/
theorem exportValue (calls : Alike callers call other) (host host' : Host)
    (evaluate evaluate' : Evaluate) :
    Agree callers Value.Alike (call.run host evaluate .exportValue)
      (other.run host' evaluate' .exportValue) := by
  intro machine last linked
  have values := calls.argument "value"
  have exported : ({ machine with exported := some (call.argument "value") } : Machine).outline =
      ({ last with exported := some (other.argument "value") } : Machine).outline :=
    congrArg₂ (fun (machine : Machine) value => { machine with exported := some value })
      linked.outline values
  exact .ok values (linked.of_store exported rfl rfl)

/-- The built-in functions that neither tell the time nor go on to other work agree. -/
theorem run_plain (calls : Alike callers call other) (host host' : Host)
    (evaluate evaluate' : Evaluate) {builtin : Builtin} (timeless : builtin ≠ .time)
    (integer : builtin ≠ .inputInt) (included : builtin ≠ .includeScript)
    (started : builtin ≠ .runScript) :
    Agree callers Value.Alike (call.run host evaluate builtin)
      (other.run host' evaluate' builtin) := by
  have values := calls.argument "value"
  cases builtin with
  | print =>
    simp only [Invocation.run, values.display_eq]
    apply Agree.bind (calls.writeLine _)
    intro _ _ _
    exact Agree.pure (Value.Alike.refl .null)
  | printRet | str =>
    simp only [Invocation.run, values.display_eq]
    exact Agree.pure (Value.Alike.refl _)
  | input =>
    apply Agree.bind calls.readLine
    rintro line _ rfl
    exact Agree.pure (Value.Alike.refl _)
  | isNumber | isString | isList | isFunction =>
    simp only [Invocation.run, values.kind_eq]
    exact Agree.pure (Value.Alike.refl _)
  | append => exact calls.append
  | remove => exact calls.remove
  | extend => exact calls.extend
  | length => exact calls.length
  | exportValue => exact calls.exportValue host host' evaluate evaluate'
  | time => exact absurd rfl timeless
  | inputInt => exact absurd rfl integer
  | includeScript => exact absurd rfl included
  | runScript => exact absurd rfl started

/-! ## Scripts -/

theorem loadScript (calls : Alike callers call other) {host host' : Host}
    (config : host.config = host'.config) (disk : host.disk = host'.disk) :
    Agree callers Eq (call.loadScript host) (other.loadScript host') := by
  rw [Invocation.loadScript, Invocation.loadScript, config, disk]
  have files := calls.argument "file"
  generalize call.argument "file" = file, other.argument "file" = file' at files
  cases files.paired with
  | str file =>
    intro machine last linked
    have asked := linked.change
      (fun machine => { machine with
        requested := Path.join host'.config.baseDirectory file :: machine.requested })
      (fun _ => rfl) (fun _ => rfl)
    dsimp only
    cases host'.disk.readText (Path.join host'.config.baseDirectory file) with
    | ok text => exact .ok rfl asked
    | error reason => exact calls.raise (.scriptUnreadable _ reason) asked
  | _ => exact Agree.pure rfl

/-- Two results of a script that differ in tracebacks alone. -/
inductive ScriptAlike : Except Error Value → Except Error Value → Prop where
  /-- The values are alike. -/
  | ok {value last : Value} (values : Value.Alike value last) : ScriptAlike (.ok value) (.ok last)
  /-- The errors have the same message, which shows no traceback. -/
  | error {error last : Error} (messages : error.message = last.message) :
    ScriptAlike (.error error) (.error last)

theorem resultOf (calls : Alike callers call other) (path : String)
    {result last : Except Error Value} (results : ScriptAlike result last) :
    Agree callers Value.Alike (call.resultOf path result) (other.resultOf path last) := by
  cases results with
  | ok values => exact Agree.pure values
  | error messages =>
    rw [Invocation.resultOf, Invocation.resultOf, messages]
    exact calls.raise _

/-- A script is included in the same context in both runs. -/
theorem rootOf (calls : Alike callers call other) :
    Agree callers Eq (fun machine => .ok (machine.store.rootOf call.caller) machine)
      (fun machine => .ok (machine.store.rootOf other.caller) machine) := by
  intro machine last linked
  exact .ok (linked.rootOf_eq calls.caller) linked

end Invocation.Alike

namespace Linked

variable {callers : Callers} {machine other : Machine}

theorem define_all (pairs : List (String × Value)) (id : ContextId) {store last : Store}
    (linked : Linked callers { machine with store := store } { other with store := last }) :
    Linked callers
      { machine with
        store := pairs.foldl (fun store (name, value) => store.define id name value false) store }
      { other with
        store := pairs.foldl (fun store (name, value) => store.define id name value false)
          last } := by
  induction pairs generalizing store last with
  | nil => exact linked
  | cons pair rest ih => exact ih (linked.define id pair.1 (Value.Alike.refl pair.2) false)

/-- A built-in function gets the same identity in both runs. -/
theorem bindBuiltin (linked : Linked callers machine other) (id : ContextId) (builtin : Builtin) :
    Linked callers (machine.bindBuiltin id builtin) (other.bindBuiltin id builtin) := by
  rw [Machine.bindBuiltin, Machine.bindBuiltin, linked.serial_eq]
  have bound := linked.define id builtin.name
    (Value.Alike.refl (.function (.builtin ⟨other.serial, builtin.name, builtin.parameters⟩))) true
  exact bound.change (fun machine => { machine with serial := other.serial + 1 })
    (fun _ => rfl) (fun _ => rfl)

theorem bindBuiltins (builtins : List Builtin) (linked : Linked callers machine other)
    (id : ContextId) :
    Linked callers (builtins.foldl (Machine.bindBuiltin id) machine)
      (builtins.foldl (Machine.bindBuiltin id) other) := by
  induction builtins generalizing machine other with
  | nil => exact linked
  | cons builtin rest ih => exact ih (linked.bindBuiltin id builtin)

/-- A new outermost context is the same in both runs. -/
theorem addGlobals (linked : Linked callers machine other) :
    machine.addGlobals.1 = other.addGlobals.1 ∧
      Linked callers machine.addGlobals.2 other.addGlobals.2 := by
  have added := linked.add rfl (enteredAlike_self callers ⟨Machine.programName, none, none, .empty⟩)
  have constants := define_all Machine.constants machine.store.size added
  have builtins := bindBuiltins Builtin.all constants machine.store.size
  constructor
  · exact linked.size_eq
  · rw [Machine.addGlobals, Machine.addGlobals]
    simp only [Store.root, Store.add] at builtins ⊢
    rw [← linked.size_eq]
    exact builtins

end Linked

namespace Agree

variable {callers : Callers}

/-- Both runs put back what had been exported, and begin the script in the same context. -/
theorem enterScript :
    Agree callers (fun result last => Value.Both result.1 last.1 ∧ result.2 = last.2)
      Invocation.enterScript Invocation.enterScript := by
  intro machine other linked
  have exported := congrArg Machine.exported linked.outline
  have forgotten := linked.change (fun machine => { machine with exported := none })
    (fun _ => rfl) (fun _ => rfl)
  obtain ⟨same, globals⟩ := forgotten.addGlobals
  exact .ok ⟨Value.both_of_map exported, same⟩ globals

theorem leaveScript {saved last : Option Value} (values : Value.Both saved last) :
    Agree callers Value.Both (Invocation.leaveScript saved) (Invocation.leaveScript last) := by
  intro machine other linked
  have exported := congrArg Machine.exported linked.outline
  have saves : saved.map Value.untraced = last.map Value.untraced := by
    cases values with
    | none => rfl
    | some values => exact congrArg some values
  have restored := congrArg₂ (fun (machine : Machine) value => { machine with exported := value })
    linked.outline saves
  exact .ok (Value.both_of_map exported) (linked.of_store restored rfl rfl)

end Agree

end Quill
