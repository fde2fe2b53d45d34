import Quill.Proofs.Chronicle.Program

/-!
# What chronicles tell of evaluation

A chronicle ends as evaluation does. The statements here say somewhat more, so that they also speak
of evaluation in other surroundings: with higher limits, or at another time. A chronicle in one host
agrees with evaluation in another one as long as nothing happens in which the two hosts differ. All
that a program can notice of a limit is the fault that it raises, and of the clock the answer of one
built-in function.
-/

namespace Quill.Chronicle

open Quill.Eval (raise)

variable {Result Other : Type} {holds : Happening → Prop}

/-- Whatever state it is begun in, the evaluation ends as the chronicle does if only such things
happen in the chronicle as are admitted. -/
def Agrees (holds : Happening → Prop) (told : Chronicle Result) (plain : Eval Result) : Prop :=
  ∀ machine, (∀ moment ∈ (told machine).log, holds moment.happening) →
    plain machine = (told machine).ending

theorem agrees_pure (result : Result) : Agrees holds (pure result) (pure result) :=
  fun _ _ => rfl

theorem agrees_record (success : Happening) (step : Eval Result) :
    Agrees holds (record success step) step :=
  fun _ _ => rfl

theorem agrees_perform (step : Eval Result) : Agrees holds (perform step) step :=
  agrees_record .stepped step

/-- A fault that is not admitted agrees with everything. -/
theorem agrees_raise_of_not {fault : Fault} (never : ¬holds (.noted (.raised fault)))
    (span : Span) (id : ContextId) (plain : Eval Result) :
    Agrees holds (perform (raise fault span id)) plain := by
  intro machine admitted
  have raised := admitted _ (List.mem_singleton.mpr rfl)
  exact absurd raised never

theorem agrees_andThen {first : Chronicle Result} {plain : Eval Result}
    {next : Result → Chronicle Other} {plainNext : Result → Eval Other}
    (firsts : Agrees holds first plain) (nexts : ∀ result, Agrees holds (next result)
      (plainNext result)) : Agrees holds (first >>= next) (plain >>= plainNext) := by
  intro machine admitted
  have same := firsts machine
  change EStateM.bind plain plainNext machine = _
  unfold EStateM.bind
  cases ended : first machine with
  | mk ending log =>
    rw [ended] at same
    cases ending with
    | error signal after =>
      rw [andThen_error next ended] at admitted ⊢
      rw [same admitted]
    | ok result after =>
      rw [andThen_ok next ended] at admitted ⊢
      obtain ⟨earlier, later⟩ := List.forall_mem_append.mp admitted
      rw [same earlier]
      exact nexts result after later

theorem agrees_ite {condition : Prop} [Decidable condition] {told other : Chronicle Result}
    {plain plainOther : Eval Result} (yes : Agrees holds told plain)
    (no : Agrees holds other plainOther) :
    Agrees holds (if condition then told else other) (if condition then plain else plainOther) := by
  by_cases truth : condition
  · rw [if_pos truth, if_pos truth]
    exact yes
  · rw [if_neg truth, if_neg truth]
    exact no

/-- What is noted has no part in the outcome. It may be assumed that it is admitted. -/
theorem agrees_note {happening : Happening} {told : Chronicle Result} {plain : Eval Result}
    (agrees : holds happening → Agrees holds told plain) :
    Agrees holds (note happening >>= fun _ => told) plain := by
  intro machine admitted
  rw [andThen_ok _ rfl] at admitted ⊢
  obtain ⟨noted, later⟩ := List.forall_mem_append.mp admitted
  exact agrees (noted _ (List.mem_singleton.mpr rfl)) machine later

theorem agrees_regard {view : Outcome Result → Outcome Other}
    (arising : Outcome Result → List Event) {told : Chronicle Result} {plain : Eval Result}
    (agrees : Agrees holds told plain) :
    Agrees holds (regard view arising told) (fun machine => view (plain machine)) := by
  intro machine admitted
  obtain ⟨inner, _⟩ := List.forall_mem_append.mp admitted
  exact congrArg view (agrees machine inner)

theorem agrees_during {told : Chronicle Result} {plain : Eval Result}
    (agrees : Agrees holds told plain) :
    Agrees holds (during told)
      (fun machine => Eval.leave (plain { machine with depth := machine.depth + 1 })) := by
  intro machine admitted
  obtain ⟨_, inner⟩ := List.forall_mem_cons.mp (List.forall_mem_append.mp admitted).1
  exact congrArg Eval.leave (agrees _ inner)

/-- Where something happens is another question than what happens. -/
theorem agrees_within (root : ContextId) {told : Chronicle Result} {plain : Eval Result}
    (agrees : Agrees holds told plain) : Agrees holds (within root told) plain := by
  intro machine admitted
  apply agrees machine
  intro moment member
  have placed := admitted (moment.within root) (List.mem_map_of_mem member)
  exact placed

/-! ## Steps -/

theorem agrees_orRaise (result : Except Fault Result) (span : Span) (id : ContextId) :
    Agrees holds (orRaise result span id) (Eval.orRaise result span id) := by
  cases result with
  | ok value => exact agrees_pure value
  | error fault => exact agrees_perform (raise fault span id)

theorem agrees_assign (target : ContextId) (name : String) (value : Value) (manner : Manner)
    (span : Span) (id : ContextId) :
    Agrees holds (assign target name value manner span id)
      (Eval.assign target name value span id) :=
  agrees_record _ _

theorem agrees_define (name : Option String) (parameters : List String) (body : Located)
    (valued : Bool) (span : Span) (id : ContextId) :
    Agrees holds (define name parameters body valued span id)
      (Eval.define name parameters body valued span id) := by
  apply agrees_andThen (agrees_perform _)
  intro serial
  cases name with
  | none => exact agrees_pure _
  | some bound =>
    apply agrees_andThen (agrees_assign id bound _ .direct span id)
    intro _
    exact agrees_pure _

theorem agrees_defineTemplate (name : String) (body : Located) (span : Span) (id : ContextId) :
    Agrees holds (defineTemplate name body span id) (Eval.defineTemplate name body span id) := by
  apply agrees_andThen (agrees_perform _)
  intro serial
  apply agrees_andThen (agrees_assign id name _ .direct span id)
  intro _
  exact agrees_pure _

/-! ## Loops -/

theorem agrees_round {body : Chronicle Value} {plain : Eval Value}
    (agrees : Agrees holds body plain) : Agrees holds (round body) (Loop.round plain) :=
  agrees_regard _ agrees

/-- Where one loop may take `rounds` more rounds, the other one may take as many, or more if it is
not admitted that the first one has taken too many. -/
def Allows (holds : Happening → Prop) (tooLong : Chronicle Result) (rounds others : Nat) : Prop :=
  others = rounds ∨ rounds ≤ others ∧ ∀ plain, Agrees holds tooLong plain

/-- A round that the first loop may take is one that the other loop may take as well. -/
theorem Allows.exists_succ {tooLong : Chronicle Result} {rounds others : Nat}
    (allows : Allows holds tooLong (rounds + 1) others) :
    ∃ left, others = left + 1 ∧ Allows holds tooLong rounds left := by
  obtain rfl | ⟨more, never⟩ := allows
  · exact ⟨rounds, rfl, Or.inl rfl⟩
  · obtain ⟨left, rfl⟩ := Nat.exists_eq_add_of_le' more
    exact ⟨left + rounds, rfl, Or.inr ⟨Nat.le_add_left rounds left, never⟩⟩

/-- Where the first loop may take no more rounds, the other one need not agree if it may. -/
theorem Allows.zero_cases {tooLong : Chronicle Result} {others : Nat}
    (allows : Allows holds tooLong 0 others) :
    others = 0 ∨ ∃ left, others = left + 1 ∧ ∀ plain, Agrees holds tooLong plain := by
  obtain rfl | ⟨_, never⟩ := allows
  · exact Or.inl rfl
  · cases others with
    | zero => exact Or.inl rfl
    | succ left => exact Or.inr ⟨left, rfl, never⟩

theorem agrees_repeatWhile {condition body : Chronicle Value}
    {plainCondition plainBody : Eval Value} {tooLong : Chronicle (List Value)}
    {plainTooLong : Eval (List Value)} (conditions : Agrees holds condition plainCondition)
    (bodies : Agrees holds body plainBody) (ends : Agrees holds tooLong plainTooLong) (keep : Bool)
    {rounds others : Nat} (allows : Allows holds tooLong rounds others) (values : List Value) :
    Agrees holds (repeatWhile condition body keep tooLong rounds values)
      (Loop.repeatWhile plainCondition plainBody keep plainTooLong others values) := by
  induction rounds generalizing others values with
  | zero =>
    obtain rfl | ⟨left, rfl, never⟩ := allows.zero_cases
    · exact agrees_andThen conditions fun truth => agrees_ite ends (agrees_pure values)
    · exact agrees_andThen conditions fun truth => agrees_ite (never _) (agrees_pure values)
  | succ rounds ih =>
    obtain ⟨left, rfl, fewer⟩ := allows.exists_succ
    apply agrees_andThen conditions
    intro truth
    apply agrees_ite _ (agrees_pure values)
    apply agrees_andThen (agrees_round bodies)
    intro ended
    cases ended with
    | left => exact agrees_pure values
    | value result => exact ih fewer _
    | skipped => exact ih fewer _

theorem agrees_count {body : Int64 → Chronicle Value} {plainBody : Int64 → Eval Value}
    {tooLong : Chronicle (List Value)} {plainTooLong : Eval (List Value)}
    (bodies : ∀ counter, Agrees holds (body counter) (plainBody counter))
    (ends : Agrees holds tooLong plainTooLong) (keep : Bool) (stop step : Int64)
    {rounds others : Nat} (allows : Allows holds tooLong rounds others) (counter : Int64)
    (values : List Value) :
    Agrees holds (count body keep tooLong stop step rounds counter values)
      (Loop.count plainBody keep plainTooLong stop step others counter values) := by
  induction rounds generalizing others counter values with
  | zero =>
    obtain rfl | ⟨left, rfl, never⟩ := allows.zero_cases
    · exact agrees_ite ends (agrees_pure values)
    · exact agrees_ite (never _) (agrees_pure values)
  | succ rounds ih =>
    obtain ⟨left, rfl, fewer⟩ := allows.exists_succ
    apply agrees_ite _ (agrees_pure values)
    apply agrees_andThen (agrees_round (bodies counter))
    intro ended
    cases Integer.add? counter step with
    | none => cases ended <;> exact agrees_pure _
    | some next =>
      cases ended with
      | left => exact agrees_pure values
      | value result => exact ih fewer next _
      | skipped => exact ih fewer next _

end Quill.Chronicle
