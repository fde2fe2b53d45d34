import Quill.Proofs.Builtins.Invocations
import Quill.Proofs.Isolation.Program

/-!
# Scripts on their own

A call of the built-in function that runs a script on its own takes nothing from its caller and
changes nothing that the caller has: whatever the arguments are, whether there is a script or not,
and however the script ends. If it ends well, the result is what it has exported last, also through
scripts that it has included.
-/

namespace Quill

namespace Transcript

variable {base : Nat} {before opened : Machine} {deeds : List Deed} {outcome : Outcome Value}

/-- A failure that nothing has been done for. -/
theorem isolated_failed (failure : Failure) (unrefused : ¬failure.fault.Refuses)
    (sealed : before.store.Sealed base) :
    Isolated base before [.stepped (some failure.fault) before] (.error (.failed failure) before)
    where
  kept := .refl sealed
  exported := rfl
  proper := Deed.allProper_stepped sealed fun _ same => Option.some.inj same ▸ unrefused
  ends := trivial

/-- What is isolated while an activation is open is isolated. -/
theorem Isolated.leave (isolated : Isolated base opened deeds outcome)
    (store : opened.store = before.store) (exported : opened.exported = before.exported) :
    Isolated base before deeds (Eval.leave outcome) := by
  obtain ⟨kept, same, proper, ends⟩ := isolated
  rw [Machine.Keeps, store] at kept
  rw [exported] at same
  cases outcome with
  | ok value after => exact ⟨kept, same, proper, ends⟩
  | error signal after => exact ⟨kept, same, proper, ends⟩

/-- The argument of a function with one parameter. -/
theorem argument_invocationOf (function : BuiltinFunction) {parameter : String}
    (only : function.parameters = [parameter]) (argument : Value) (span : Span)
    (caller : ContextId) :
    (Eval.invocationOf function [argument] span caller).argument parameter = argument := by
  simp [Invocation.argument, Eval.invocationOf, only, Table.ofArguments, Table.value?_define]

/-- The call of the function that runs a script on its own, with enough arguments and room. -/
theorem isolated_callBuiltin (host : Host) {transcribe : Transcribe}
    (lawful : Lawful base transcribe) (serial : Nat) (argument : Value) (span : Span)
    (caller : ContextId) {machine : Machine} (sealed : machine.store.Sealed base)
    (present : base ≤ machine.store.size) :
    let function := Builtin.runScript.function serial
    let told := callBuiltin host function [argument] span caller transcribe
    Isolated base machine (told.deeds machine) (told.step machine) ∧
      ∀ value after, told.step machine = .ok value after → ∃ deeds,
        told.deeds machine =
            [.invoked (Eval.invocationOf function [argument] span caller) .runScript deeds] ∧
          RunResult argument deeds value := by
  intro function told
  let call := Eval.invocationOf function [argument] span caller
  obtain ⟨isolated, results⟩ := isolated_runScript lawful host call sealed present
  rw [argument_invocationOf function rfl] at results
  exact ⟨⟨isolated.kept, isolated.exported, isolated.proper.invoked call .runScript,
    isolated.ends⟩, fun value after ended => ⟨_, rfl, results value after ended⟩⟩

/-- Every call of the function that runs a script on its own. -/
theorem isolated_callValue (host : Host) {inner : Option Transcribe} (inners : AllLawful base inner)
    (serial : Nat) (arguments : List Value) (span : Span) (caller : ContextId) {machine : Machine}
    (sealed : machine.store.Sealed base) (present : base ≤ machine.store.size) :
    let function := Builtin.runScript.function serial
    let told := callValue host inner (.function (.builtin function)) arguments span caller
    Isolated base machine (told.deeds machine) (told.step machine) ∧
      ∀ value after, told.step machine = .ok value after → ∃ argument deeds,
        arguments = [argument] ∧
          told.deeds machine =
            [.invoked (Eval.invocationOf function arguments span caller) .runScript deeds] ∧
          RunResult argument deeds value := by
  intro function told
  have unrefused := (Function.builtin function).unrefused_checkArity arguments.length
  cases arity : (Function.builtin function).checkArity arguments.length with
  | error fault =>
    rw [arity] at unrefused
    have fails : orRaise ((Function.builtin function).checkArity arguments.length) span caller =
        perform (Eval.raise fault span caller) := by
      rw [arity]
      rfl
    have deeds : told.deeds machine = [.stepped (some fault) machine] := by
      simp only [told, callValue, fails]
      exact deeds_bind_error _ rfl
    have steps : told.step machine =
        .error (.failed ⟨fault, span, machine.store.traceback caller span⟩) machine := by
      simp only [told, callValue, fails]
      exact step_bind_error _ rfl
    rw [deeds, steps]
    refine ⟨isolated_failed ⟨fault, span, _⟩ unrefused sealed, ?_⟩
    rintro value after ⟨⟩
  | ok _ =>
    have length := ((Function.builtin function).checkArity_eq_ok_iff _).mp arity
    obtain ⟨argument, rfl⟩ := List.length_eq_one_iff.mp length
    cases inner with
    | none =>
      refine ⟨isolated_failed _ not_false sealed, ?_⟩
      rintro value after ⟨⟩
    | some transcribe =>
      let opened := { machine with depth := machine.depth + 1 }
      have opens : opened.store.Sealed base := sealed
      obtain ⟨isolated, results⟩ := isolated_callBuiltin host (inners transcribe rfl) serial
        argument span caller opens present
      change Isolated base machine _ (Eval.leave _) ∧ ∀ value after, Eval.leave _ = _ → _
      refine ⟨isolated.leave rfl rfl, ?_⟩
      intro value after ended
      cases called : (callBuiltin host function [argument] span caller transcribe).step opened with
      | error signal between =>
        rw [called] at ended
        cases ended
      | ok result between =>
        rw [called] at ended
        cases ended
        obtain ⟨deeds, told, result⟩ := results value between called
        exact ⟨argument, deeds, rfl, told, result⟩

/-- A script that is run on its own does nothing to its caller. Whatever the state, the arguments
and the place of the call are, all contexts that were there before are as they were behind the call,
and the pending export is the same, also if the call fails. If it does not fail, the result is what
the script has exported last, also through scripts that it has included but not through others that
it has run on their own, or the null value. -/
theorem callValue_leaves_caller (host : Host) (room serial : Nat) (arguments : List Value)
    (span : Span) (caller : ContextId) (machine : Machine) :
    let function := Builtin.runScript.function serial
    let told := callValue host (inside host room) (.function (.builtin function)) arguments span
      caller
    let outcome := Eval.callValue host (Eval.inside host room) (.function (.builtin function))
      arguments span caller machine
    told.step machine = outcome ∧
      (∀ id < machine.store.size,
        (Outcome.left outcome).store.context? id = machine.store.context? id) ∧
      (Outcome.left outcome).exported = machine.exported ∧
      ∀ value after, outcome = .ok value after → ∃ argument deeds,
        arguments = [argument] ∧
          told.deeds machine =
            [.invoked (Eval.invocationOf function arguments span caller) .runScript deeds] ∧
          RunResult argument deeds value := by
  intro function told outcome
  have same : told.step machine = outcome := by
    have tells := tells_callValue host (inside host room) (.function (.builtin function)) arguments
      span caller
    rw [map_plain_inside] at tells
    exact congrFun tells machine
  obtain ⟨isolated, results⟩ := isolated_callValue host
    (allLawful_inside machine.store.size host room) serial arguments span caller
    machine.store.sealed_size (Nat.le_refl _)
  rw [same] at isolated results
  exact ⟨same, isolated.kept.older, isolated.exported, results⟩

/-- A script includes another one, which exports a value and runs a third one. The value of the
second script is the result, and the pending export of the caller is still there. -/
theorem callValue_leaves_caller_library :
    let scripts := fun path => if path = "./part" then "Export(2)\nRun(\"other\")"
      else if path = "./other" then "Export(3)" else "Export(1)\nInclude(\"part\")"
    let host : Host := ⟨{}, fun path => .ok (scripts path).toUTF8.toList, 0⟩
    let machine := { (Machine.initial []).2 with exported := some (.int 7) }
    let function := Builtin.runScript.function 16
    let span : Span := ⟨⟨0, "main", "Run(\"lib\")"⟩, ⟨0, 1, 1⟩, ⟨10, 1, 11⟩⟩
    let told := callValue host (inside host 9) (.function (.builtin function)) [.str "lib"] span 0
    ∃ after, told.step machine = .ok (.int 2) after ∧
      after.store.context? 0 = machine.store.context? 0 ∧ after.exported = some (.int 7) ∧
      ∃ deeds, told.deeds machine =
          [.invoked (Eval.invocationOf function [.str "lib"] span 0) .runScript deeds] ∧
        RunResult (.str "lib") deeds (.int 2) := by
  intro scripts host machine function span told
  obtain ⟨same, frame, exported, results⟩ :=
    callValue_leaves_caller host 9 16 [.str "lib"] span 0 machine
  have present : 0 < machine.store.size := by decide +kernel
  have two : (Outcome.result? (told.step machine)).bind Value.int? = some 2 := by decide +kernel
  obtain ⟨value, ended, number⟩ := Option.bind_eq_some_iff.mp two
  obtain ⟨after, ended⟩ := Outcome.exists_of_result? ended
  obtain rfl := Value.eq_int_of_int? number
  have outcome := same.symm.trans ended
  obtain ⟨argument, deeds, arguments, told, result⟩ := results _ _ outcome
  cases arguments
  rw [outcome] at frame exported
  exact ⟨after, ended, frame 0 present, exported, deeds, told, result⟩

end Transcript

end Quill
