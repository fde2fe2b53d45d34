import Quill.Proofs.Builtins.Lists
import Quill.Proofs.Isolation.Globals
import Quill.Proofs.Values.Integers

/-!
# Arguments that a function cannot work with

A built-in function that cannot work with an argument gives this back as a value. It looks at its
arguments in the order of the parameters and stops at the first one that is of a wrong kind. What
does end a call without a value is a trouble outside of the program: with its input and output, or
with a script that it loads.
-/

namespace Quill

/-- Whether the fault lies with the input and output or with a script, and so outside of the program
itself. -/
def Fault.External : Fault → Prop
  | .io _ | .scriptUnreadable _ _ | .scriptFailed _ _ => True
  | _ => False

/-- Whether a value is of an accepted kind. -/
def Accepted.admits : Accepted → Value → Bool
  | .list, .list _ => true
  | .int, .int _ => true
  | .listOrString, .list _ | .listOrString, .str _ => true
  | .string, .str _ => true
  | _, _ => false

/-- Whether the elements or the characters of a value are few enough to be counted by an integer.
The value has a place in memory only if they are. -/
def Value.Countable : Value → Prop
  | .list elements => Integer.Fits elements.length
  | .str text => Integer.Fits text.length
  | _ => True

namespace Builtin

end Builtin

namespace Eval

variable {Result Other : Type}

/-- The step has a result, or it fails for a reason that lies outside of the program. -/
def Answers (step : Eval Result) : Prop :=
  ∀ machine, (∃ result after, step machine = .ok result after) ∨
    ∃ failure after, step machine = .error (.failed failure) after ∧ failure.fault.External

namespace Answers

theorem pure (result : Result) : Answers (pure result) :=
  fun machine => .inl ⟨result, machine, rfl⟩

theorem get : Answers (get : Eval Machine) :=
  fun machine => .inl ⟨machine, machine, rfl⟩

theorem exception (call : Invocation) (fault : Fault) : Answers (call.exception fault) :=
  fun machine => .inl ⟨_, machine, rfl⟩

theorem raise (call : Invocation) {fault : Fault} (external : fault.External) :
    Answers (call.raise fault : Eval Result) :=
  fun machine => .inr ⟨_, machine, rfl, external⟩

theorem bind {first : Eval Result} {next : Result → Eval Other} (answers : Answers first)
    (rest : ∀ result, Answers (next result)) : Answers (first >>= next) := by
  intro machine
  change (∃ result after, EStateM.bind first next machine = _) ∨
    ∃ failure after, EStateM.bind first next machine = _ ∧ _
  unfold EStateM.bind
  obtain ⟨result, after, done⟩ | ⟨failure, after, failed, external⟩ := answers machine
  · rw [done]
    exact rest result after
  · rw [failed]
    exact .inr ⟨failure, after, rfl, external⟩

/-! ## Lines -/

theorem readLine (call : Invocation) : Answers call.readLine := by
  intro machine
  unfold Invocation.readLine
  split
  · exact .inl ⟨_, _, rfl⟩
  · dsimp only
    split
    · exact .inl ⟨_, _, rfl⟩
    · exact .inr ⟨_, _, rfl, trivial⟩

theorem writeLine (call : Invocation) (text : String) : Answers (call.writeLine text) := by
  intro machine
  unfold Invocation.writeLine
  split
  · exact .inr ⟨_, _, rfl, trivial⟩
  · exact .inl ⟨_, _, rfl⟩

theorem readInteger (call : Invocation) (lines : Nat) : Answers (call.readInteger lines) := by
  apply call.readInteger_elim
  · exact fun _ => pure _
  · exact fun _ => exception call _
  · exact fun _ rest => (readLine call).bind rest
  · exact fun text _ rest => (writeLine call text).bind fun _ => rest

/-! ## Scripts -/

theorem loadScript (call : Invocation) (host : Host) : Answers (call.loadScript host) := by
  intro machine
  unfold Invocation.loadScript
  cases call.argument "file" with
  | str file =>
    dsimp only
    cases host.disk.readText (Path.join host.config.baseDirectory file) with
    | ok text => exact .inl ⟨_, _, rfl⟩
    | error reason => exact .inr ⟨_, _, rfl, trivial⟩
  | _ => exact .inl ⟨_, _, rfl⟩

theorem resultOf (call : Invocation) (path : String) (result : Except Error Value) :
    Answers (call.resultOf path result) := by
  cases result with
  | ok value => exact pure value
  | error error => exact raise call trivial

theorem runIn (root : ContextId) (evaluate : Evaluate) (path text : String) :
    Answers (Invocation.runIn root evaluate path text) :=
  fun _ => .inl ⟨_, _, rfl⟩

theorem includeScript (call : Invocation) (host : Host) (evaluate : Evaluate) :
    Answers (call.includeScript host evaluate) := by
  refine (loadScript call host).bind fun script => ?_
  cases script with
  | none => exact exception call _
  | some script =>
    obtain ⟨path, text⟩ := script
    refine get.bind fun machine => (runIn _ _ _ _).bind fun result => ?_
    exact (resultOf call path result).bind fun _ => pure _

theorem runScript (call : Invocation) (host : Host) (evaluate : Evaluate) :
    Answers (call.runScript host evaluate) := by
  refine (loadScript call host).bind fun script => ?_
  cases script with
  | none => exact exception call _
  | some script =>
    obtain ⟨path, text⟩ := script
    have enters : Answers Invocation.enterScript := fun _ => .inl ⟨_, _, rfl⟩
    have leaves (saved : Option Value) : Answers (Invocation.leaveScript saved) :=
      fun _ => .inl ⟨_, _, rfl⟩
    refine enters.bind fun ⟨saved, root⟩ => (runIn _ _ _ _).bind fun result => ?_
    exact (leaves saved).bind fun exported => (resultOf call path result).bind fun _ => pure _

/-! ## Lengths -/

theorem length {call : Invocation} (countable : (call.argument "value").Countable) :
    Answers call.length := by
  have counted (size : Nat) (few : Integer.Fits size) :
      ∃ value, Integer.ofInt? size = some value :=
    Option.ne_none_iff_exists'.mp fun none => Integer.ofInt?_eq_none_iff.mp none few
  unfold Invocation.length
  dsimp only
  split <;> rename_i found
  · rw [found] at countable
    obtain ⟨value, fits⟩ := counted _ countable
    rw [fits]
    exact pure _
  · rw [found] at countable
    obtain ⟨value, fits⟩ := counted _ countable
    rw [fits]
    exact pure _
  · exact exception call _

end Answers

theorem Answers.callValue {host : Host} {evaluate : Evaluate} {builtin : Builtin} {serial : Nat}
    {arguments : List Value} {span : Span} {caller : ContextId}
    (declared : arguments.length = builtin.parameters.length)
    (answers : Answers ((invocationOf (builtin.function serial) arguments span caller).run host
      evaluate builtin)) :
    Answers (Eval.callValue host (some evaluate) (.function (.builtin (builtin.function serial)))
      arguments span caller) := by
  intro machine
  rw [callValue_builtin host evaluate serial span caller declared]
  obtain ⟨result, after, done⟩ | ⟨failure, after, failed, external⟩ :=
    answers { machine with depth := machine.depth + 1 }
  · rw [done]
    exact .inl ⟨result, _, rfl⟩
  · rw [failed]
    exact .inr ⟨failure, _, rfl, external⟩

/-! ## Refused arguments -/

end Eval

/-! ## Built-in functions of a program -/

end Quill
