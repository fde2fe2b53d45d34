import Quill.Session

/-!
# Transcripts

A transcript is a step of an evaluation together with an account of what is done in it. Whatever
gives a value to a name is told with the name and the context, also where it is refused, and the
call of a built-in function is told with its arguments and with all that is done on its behalf. The
deeds of a script are part of the call that has run the script, so they form a tree.

The evaluation itself is a field of the transcript and takes no notice of what is told. But no fault
that it ends with is kept back.
-/

namespace Quill

/-- What is tried when a name is to be given a value. -/
structure Attempt where
  /-- The context in whose table the name is to be bound. -/
  target : ContextId
  /-- The name. -/
  name : String
  /-- The value. -/
  value : Value

/-- Something that is done in an evaluation. -/
inductive Deed where
  /-- A name was to be given a value. It has got the value unless there is a fault. -/
  | tried (attempt : Attempt) (fault : Option Fault) (after : Machine)
  /-- Any other step was taken, which may have had a fault. -/
  | stepped (fault : Option Fault) (after : Machine)
  /-- A built-in function was called, and this was done in it. -/
  | invoked (call : Invocation) (builtin : Builtin) (inside : List Deed)

/-- The deed is one of the deeds, or is done in one of them. -/
inductive Deed.Among (deed : Deed) : List Deed → Prop where
  /-- It is one of them. -/
  | here {deeds : List Deed} (listed : deed ∈ deeds) : Among deed deeds
  /-- It is done in the call of a built-in function. -/
  | inside {deeds inside : List Deed} {call : Invocation} {builtin : Builtin}
      (listed : .invoked call builtin inside ∈ deeds) (among : Among deed inside) :
      Among deed deeds

namespace Deed

theorem among_append {deed : Deed} {first second : List Deed} :
    Among deed (first ++ second) ↔ Among deed first ∨ Among deed second := by
  constructor
  · rintro (listed | ⟨listed, among⟩)
    · exact (List.mem_append.mp listed).imp .here .here
    · exact (List.mem_append.mp listed).imp (fun here => .inside here among)
        fun here => .inside here among
  · rintro ((listed | ⟨listed, among⟩) | listed | ⟨listed, among⟩)
    · exact .here (List.mem_append_left _ listed)
    · exact .inside (List.mem_append_left _ listed) among
    · exact .here (List.mem_append_right _ listed)
    · exact .inside (List.mem_append_right _ listed) among

theorem not_among_nil {deed : Deed} : ¬Among deed [] := by
  rintro (listed | ⟨listed, -⟩)
  · cases listed
  · cases listed

theorem among_invoked {deed : Deed} {call : Invocation} {builtin : Builtin} {inside : List Deed} :
    Among deed [.invoked call builtin inside] ↔
      deed = .invoked call builtin inside ∨ Among deed inside := by
  constructor
  · rintro (listed | ⟨listed, among⟩)
    · exact .inl (List.mem_singleton.mp listed)
    · cases List.mem_singleton.mp listed
      exact .inr among
  · rintro (rfl | among)
    · exact .here (List.mem_singleton_self _)
    · exact .inside (List.mem_singleton_self _) among

end Deed

/-- The fault of a deed itself, apart from what is done in it. -/
def Deed.fault? : Deed → Option Fault
  | .tried _ fault _ => fault
  | .stepped fault _ => fault
  | .invoked _ _ _ => none

/-- One of the deeds, or of what is done in them, had the fault. -/
def Deed.Disclose (deeds : List Deed) (fault : Fault) : Prop :=
  ∃ deed, Among deed deeds ∧ deed.fault? = some fault

/-- The fault that a signal tells of. -/
def Signal.fault? : Signal → Option Fault
  | .failed failure => some failure.fault
  | _ => none

/-- The fault that an outcome ended with. -/
def Outcome.fault? {Result : Type} : Outcome Result → Option Fault
  | .ok _ _ => none
  | .error signal _ => signal.fault?

/-- The result of an outcome that has one. -/
def Outcome.result? {Result : Type} : Outcome Result → Option Result
  | .ok result _ => some result
  | .error _ _ => none

/-- An outcome with a result has ended well. -/
theorem Outcome.exists_of_result? {Result : Type} {outcome : Outcome Result} {result : Result}
    (ended : result? outcome = some result) : ∃ after, outcome = .ok result after := by
  cases outcome with
  | ok other after => exact ⟨after, congrArg (EStateM.Result.ok · after) (Option.some.inj ended)⟩
  | error signal after => cases ended

/-- The state that an outcome has left. -/
def Outcome.left {Result : Type} : Outcome Result → Machine
  | .ok _ machine => machine
  | .error _ machine => machine

/-- A step of an evaluation, and what is done in it from each state. -/
structure Transcript (Result : Type) where
  /-- The step. -/
  step : Eval Result
  /-- What is done, in the order of time. -/
  deeds : Machine → List Deed
  /-- A fault that the step ends with is the fault of one of the deeds. -/
  discloses : ∀ machine fault, Outcome.fault? (step machine) = some fault →
    Deed.Disclose (deeds machine) fault

/-- How the evaluation of expressions is transcribed. -/
abbrev Transcribe := Expr Span → ContextId → Transcript Value

/-- The evaluation of expressions without anything told about it. -/
def Transcribe.plain (transcribe : Transcribe) : Evaluate :=
  fun expr id => (transcribe expr id).step

namespace Deed

variable {fault : Fault} {first second : List Deed}

theorem Disclose.left (discloses : Disclose first fault) : Disclose (first ++ second) fault :=
  let ⟨deed, among, same⟩ := discloses
  ⟨deed, among_append.mpr (.inl among), same⟩

theorem Disclose.right (discloses : Disclose second fault) : Disclose (first ++ second) fault :=
  let ⟨deed, among, same⟩ := discloses
  ⟨deed, among_append.mpr (.inr among), same⟩

theorem disclose_singleton {deed : Deed} (same : deed.fault? = some fault) :
    Disclose [deed] fault :=
  ⟨deed, .here (List.mem_singleton_self _), same⟩

end Deed

namespace Transcript

variable {Result Other : Type}

/-- One transcript after the other. A signal of the first one ends both. -/
def andThen (first : Transcript Result) (next : Result → Transcript Other) : Transcript Other where
  step := first.step >>= fun result => (next result).step
  deeds machine :=
    match first.step machine with
    | .ok result after => first.deeds machine ++ (next result).deeds after
    | .error _ _ => first.deeds machine
  discloses machine fault ended := by
    change Outcome.fault? (EStateM.bind first.step _ machine) = some fault at ended
    rw [EStateM.bind] at ended
    have firsts := first.discloses machine fault
    cases began : first.step machine with
    | ok result after =>
      rw [began] at ended
      exact ((next result).discloses after fault ended).right
    | error signal after =>
      rw [began] at ended firsts
      exact firsts ended

instance : Monad Transcript where
  pure result :=
    { step := pure result
      deeds := fun _ => []
      discloses := by rintro machine fault ⟨⟩ }
  bind := andThen

/-- A single step. -/
def perform (step : Eval Result) : Transcript Result where
  step := step
  deeds machine := [.stepped (Outcome.fault? (step machine)) (Outcome.left (step machine))]
  discloses _ _ ended := Deed.disclose_singleton ended

/-- A step that tries to give a value to a name. -/
def attempt (attempt : Attempt) (step : Eval Result) : Transcript Result where
  step := step
  deeds machine :=
    [.tried attempt (Outcome.fault? (step machine)) (Outcome.left (step machine))]
  discloses _ _ ended := Deed.disclose_singleton ended

/-- What is done where something is looked at from outside: nothing, unless it becomes a fault
there. -/
def arising (fault : Option Fault) (view : Option Fault) (after : Machine) : List Deed :=
  match fault, view with
  | none, some fault => [.stepped (some fault) after]
  | _, _ => []

/-- A fault that is seen from outside is disclosed, if a fault that was there before is the same
one. -/
theorem disclose_arising {inner : List Deed} {fault : Option Fault}
    (inners : ∀ other, fault = some other → Deed.Disclose inner other) {view : Option Fault}
    (same : ∀ other seen, fault = some other → view = some seen → other = seen) {seen : Fault}
    (sees : view = some seen) (after : Machine) :
    Deed.Disclose (inner ++ arising fault view after) seen := by
  subst sees
  cases fault with
  | none => exact (Deed.disclose_singleton rfl).right
  | some other => exact same other seen rfl rfl ▸ (inners other rfl).left

/-- How an outcome is looked at from outside. No fault becomes another one. -/
structure View (Result Other : Type) where
  /-- What is seen. -/
  see : Outcome Result → Outcome Other
  /-- A fault that was there before is seen as itself, if it is seen. -/
  same : ∀ outcome fault seen, Outcome.fault? outcome = some fault →
    Outcome.fault? (see outcome) = some seen → fault = seen

/-- A transcript whose outcome is looked at from outside. -/
def regard (view : View Result Other) (inner : Transcript Result) : Transcript Other where
  step machine := view.see (inner.step machine)
  deeds machine :=
    let outcome := inner.step machine
    inner.deeds machine ++ arising (Outcome.fault? outcome) (Outcome.fault? (view.see outcome))
      (Outcome.left (view.see outcome))
  discloses machine _ ended :=
    disclose_arising (inner.discloses machine) (view.same (inner.step machine)) ended _

/-- What is done while an activation is open. -/
def during (inner : Transcript Result) : Transcript Result where
  step machine := Eval.leave (inner.step { machine with depth := machine.depth + 1 })
  deeds machine := inner.deeds { machine with depth := machine.depth + 1 }
  discloses machine fault ended := by
    apply inner.discloses
    cases called : inner.step { machine with depth := machine.depth + 1 } with
    | ok result after =>
      rw [called] at ended
      cases ended
    | error signal after =>
      rw [called] at ended
      exact ended

/-- What is done in the call of a built-in function. -/
def invoking (call : Invocation) (builtin : Builtin) (inner : Transcript Result) :
    Transcript Result where
  step := inner.step
  deeds machine := [.invoked call builtin (inner.deeds machine)]
  discloses machine fault ended :=
    let ⟨deed, among, same⟩ := inner.discloses machine fault ended
    ⟨deed, Deed.among_invoked.mpr (.inr among), same⟩

end Transcript

end Quill
