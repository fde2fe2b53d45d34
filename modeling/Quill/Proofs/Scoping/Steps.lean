import Quill.Eval.Expr
import Quill.Proofs.Scoping.Linked

/-!
# Steps of two runs

A step of an evaluation agrees with another one if the two, taken in linked states, both have alike
results or both end with alike signals, and leave linked states behind. Sequences of steps that
agree agree. The steps here are all those that evaluation is made of, but for those that lead to
another activation.
-/

namespace Quill

/-- Outcomes that two runs of a call have arrived at. -/
inductive Corresponds {Result : Type} (callers : Callers) (alike : Result → Result → Prop) :
    Outcome Result → Outcome Result → Prop where
  /-- Both have a result. -/
  | ok {result last : Result} {machine other : Machine} (results : alike result last)
      (linked : Linked callers machine other) : Corresponds callers alike (.ok result machine)
        (.ok last other)
  /-- Both end with a signal. -/
  | error {signal last : Signal} {machine other : Machine}
      (signals : signal.Alike last) (linked : Linked callers machine other) :
      Corresponds callers alike (.error signal machine) (.error last other)

/-- Steps that lead from linked states to corresponding outcomes. -/
def Agree {Result : Type} (callers : Callers) (alike : Result → Result → Prop)
    (step other : Eval Result) : Prop :=
  ∀ ⦃machine last⦄, Linked callers machine last →
    Corresponds callers alike (step machine) (other last)

namespace Agree

open Linked (EnteredAlike)

variable {Result Other : Type} {callers : Callers} {alike : Result → Result → Prop}
  {alike' : Other → Other → Prop}

theorem pure {result last : Result} (results : alike result last) :
    Agree callers alike (Pure.pure result) (Pure.pure last) := by
  intro machine other linked
  exact .ok results linked

theorem bind {first first' : Eval Result} {next next' : Result → Eval Other}
    (firsts : Agree callers alike first first')
    (nexts : ∀ result last, alike result last → Agree callers alike' (next result) (next' last)) :
    Agree callers alike' (first >>= next) (first' >>= next') := by
  intro machine other linked
  have corresponds := firsts linked
  change Corresponds callers alike' (EStateM.bind first next machine)
    (EStateM.bind first' next' other)
  unfold EStateM.bind
  revert corresponds
  generalize first machine = outcome, first' other = outcome'
  intro corresponds
  cases corresponds with
  | ok results linked => exact nexts _ _ results linked
  | error signals linked => exact .error signals linked

/-- Two failures with the same fault at the same place differ in tracebacks alone. -/
theorem raise (fault : Fault) (span : Span) (id place : ContextId) :
    Agree callers alike (Eval.raise fault span id) (Eval.raise fault span place) := by
  intro machine other linked
  exact .error (.failed rfl rfl) linked

theorem orRaise {result last : Except Fault Value}
    (results : result.map Value.untraced = last.map Value.untraced) (span : Span)
    (id place : ContextId) :
    Agree callers Value.Alike (Eval.orRaise result span id) (Eval.orRaise last span place) := by
  cases result with
  | ok value =>
    cases last with
    | ok other => exact pure (Except.ok.inj results)
    | error fault => cases results
  | error fault =>
    cases last with
    | ok other => cases results
    | error other =>
      obtain rfl := Except.error.inj results
      exact raise fault span id place

/-- A loop takes steps of the same size, or the same failure. -/
theorem stepOf {value last : Value} (values : Value.Alike value last) (start stop : Int64)
    (span : Span) (id : ContextId) :
    Agree callers Eq (Eval.stepOf value start stop span id)
      (Eval.stepOf last start stop span id) := by
  cases values.paired with
  | int step =>
    rw [Eval.stepOf]
    by_cases moves : (step ≠ 0 || stop.toInt ≤ start.toInt) = true
    · rw [if_pos moves]
      exact pure rfl
    · rw [if_neg moves]
      exact raise .loopStep span id id
  | _ => exact raise .loopStep span id id

theorem throw {signal last : Signal} (signals : signal.Alike last) :
    Agree callers alike (MonadExcept.throw signal) (MonadExcept.throw last) := by
  intro machine other linked
  exact .error signals linked

/-! ## Names -/

theorem lookup (id : ContextId) (name : String) :
    Agree callers Value.Both (Eval.lookup id name) (Eval.lookup id name) := by
  intro machine other linked
  exact .ok (Value.both_of_map (linked.lookup_eq id name)) linked

theorem lookupLocal (id : ContextId) (name : String) :
    Agree callers Value.Both (Eval.lookupLocal id name) (Eval.lookupLocal id name) := by
  intro machine other linked
  exact .ok (Value.both_of_map (linked.lookupLocal_eq id name)) linked

theorem assign (target : ContextId) (name : String) {value last : Value}
    (values : Value.Alike value last) (span : Span) (id : ContextId) :
    Agree callers Eq (Eval.assign target name value span id)
      (Eval.assign target name last span id) := by
  intro machine other linked
  rw [Eval.assign, Eval.assign, linked.protects_eq]
  by_cases keeps : other.store.protects target name = true
  · rw [if_pos keeps, if_pos keeps]
    exact raise (.immutableBinding name) span id id linked
  · rw [if_neg keeps, if_neg keeps]
    exact .ok rfl (linked.define target name values true)

theorem freshId : Agree callers Eq Eval.freshId Eval.freshId := by
  intro machine other linked
  have grown := linked.change (fun machine => { machine with serial := machine.serial + 1 })
    (fun _ => rfl) (fun _ => rfl)
  exact .ok linked.serial_eq grown

/-- The contexts that are added have the same number. -/
theorem addContext {context last : Context} (outline : context.outline = last.outline)
    (entered : EnteredAlike callers context last) :
    Agree callers Eq (Eval.addContext context) (Eval.addContext last) := by
  intro machine other linked
  exact .ok linked.size_eq (linked.add outline entered)

theorem readName (name : String) (span : Span) (id : ContextId) :
    Agree callers Value.Alike (Eval.readName name span id) (Eval.readName name span id) := by
  apply bind (lookup id name)
  intro result last results
  cases results with
  | none => exact raise (.undefinedVariable name) span id id
  | some values => exact pure values

/-- A name stands for the same object in both runs. -/
theorem instanceNamed (name : String) (span : Span) (id : ContextId) :
    Agree callers Eq (Eval.instanceNamed name span id) (Eval.instanceNamed name span id) := by
  apply bind (lookup id name)
  intro result last results
  cases results with
  | none => exact raise (.undefinedVariable name) span id id
  | some values =>
    cases values.paired with
    | object object =>
      dsimp only
      by_cases made : object.isInstance = true
      · rw [if_pos made]
        exact pure rfl
      · rw [if_neg made]
        exact raise (.notAnInstance name) span id id
    | _ => exact raise (.notAnInstance name) span id id

theorem objectNamed (name : String) (span : Span) (id : ContextId) :
    Agree callers Eq (Eval.objectNamed name span id) (Eval.objectNamed name span id) := by
  apply bind (lookup id name)
  intro result last results
  cases results with
  | none => exact raise (.undefinedVariable name) span id id
  | some values =>
    cases values.paired with
    | object object => exact pure rfl
    | _ => exact raise (.notAnObject name) span id id

theorem readMember (object name : String) (span : Span) (id : ContextId) :
    Agree callers Value.Alike (Eval.readMember object name span id)
      (Eval.readMember object name span id) := by
  apply bind (instanceNamed object span id)
  rintro source _ rfl
  apply bind (lookupLocal source.context name)
  intro result last results
  cases results with
  | none => exact raise (.unknownMember object name) span id id
  | some values => exact pure values

/-! ## Definitions -/

theorem define (name : Option String) (parameters : List String) (body : Located) (valued : Bool)
    (span : Span) (id : ContextId) :
    Agree callers Value.Alike (Eval.define name parameters body valued span id)
      (Eval.define name parameters body valued span id) := by
  apply bind freshId
  rintro serial _ rfl
  cases name with
  | none => exact pure (Value.Alike.refl _)
  | some bound =>
    apply bind (assign id bound (Value.Alike.refl _) span id)
    intro _ _ _
    exact pure (Value.Alike.refl _)

theorem defineTemplate (name : String) (body : Located) (span : Span) (id : ContextId) :
    Agree callers Value.Alike (Eval.defineTemplate name body span id)
      (Eval.defineTemplate name body span id) := by
  apply bind freshId
  rintro serial _ rfl
  apply bind (assign id name (Value.Alike.refl _) span id)
  intro _ _ _
  exact pure (Value.Alike.refl _)

end Agree

end Quill
