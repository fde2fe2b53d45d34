import Quill.Proofs.Execution.Program
import Quill.Proofs.Scoping.Builtins

/-!
# One execution follows another one

An execution is followed by another one if that one, begun in a linked state, arrives at a
corresponding outcome whenever the first one finishes. Only quiet executions are spoken of, in which
nothing happens that could tell the runs apart: nobody asks for the time, and nobody compares
exceptions for equality. What follows may have more fuel and another clock.
-/

namespace Quill

/-- An event is quiet if it neither tells the time nor depends on tracebacks. -/
def Event.Quiet : Event → Prop
  | .applied op left right => Value.Discreet op left right
  | .invoked builtin => builtin ≠ .time
  | .raised _ => True

instance (event : Event) : Decidable event.Quiet := by
  cases event with
  | applied op left right =>
    exact inferInstanceAs (Decidable (op = .equal ∨ op = .notEqual →
      left.hasException = false ∧ right.hasException = false))
  | invoked builtin => exact inferInstanceAs (Decidable (builtin ≠ .time))
  | raised _ => exact inferInstanceAs (Decidable True)

/-- Events that are quiet one by one. -/
def Quiet (events : List Event) : Prop :=
  ∀ event ∈ events, event.Quiet

instance (events : List Event) : Decidable (Quiet events) :=
  inferInstanceAs (Decidable (∀ event ∈ events, event.Quiet))

theorem quiet_append {earlier later : List Event} (quiet : Quiet (earlier ++ later)) :
    Quiet earlier ∧ Quiet later :=
  List.forall_mem_append.mp quiet

/-- Whenever the first execution finishes quietly, so does the second one, from any linked state,
and the outcomes correspond. -/
def Follows {Result : Type} (callers : Callers) (alike : Result → Result → Prop)
    (work other : Execution Result) : Prop :=
  ∀ ⦃machine last outcome events⦄, Linked callers machine last →
    work machine = some (outcome, events) → Quiet events →
    ∃ ended later, other last = some (ended, later) ∧ Corresponds callers alike outcome ended

namespace Execution

variable {Result Other : Type} {callers : Callers} {alike : Result → Result → Prop}
  {alike' : Other → Other → Prop}

theorem follows_pure {result last : Result} (results : alike result last) :
    Follows callers alike (pure result) (pure last) := by
  intro machine other outcome events linked finished _
  rw [pure_apply] at finished
  obtain ⟨rfl, rfl⟩ := Prod.mk.inj (Option.some.inj finished)
  exact ⟨_, _, pure_apply last other, .ok results linked⟩

theorem follows_cutOff (other : Execution Result) : Follows callers alike cutOff other := by
  intro machine last outcome events _ finished
  cases finished

theorem follows_perform {step other : Eval Result} (agree : Agree callers alike step other) :
    Follows callers alike (perform step) (perform other) := by
  intro machine last outcome events linked finished _
  rw [perform_apply] at finished
  obtain ⟨rfl, rfl⟩ := Prod.mk.inj (Option.some.inj finished)
  exact ⟨_, _, perform_apply other last, agree linked⟩

theorem follows_andThen {first first' : Execution Result} {next next' : Result → Execution Other}
    (firsts : Follows callers alike first first')
    (nexts : ∀ result last, alike result last →
      Follows callers alike' (next result) (next' last)) :
    Follows callers alike' (first >>= next) (first' >>= next') := by
  intro machine last outcome events linked finished quiet
  obtain ⟨signal, after, ended, rfl⟩ | ⟨result, after, earlier, later, ended, continued, rfl⟩ :=
    andThen_eq_some finished
  · obtain ⟨outcome, events', ended', corresponds⟩ := firsts linked ended quiet
    cases corresponds with
    | error signals linked => exact ⟨_, _, andThen_error next' ended', .error signals linked⟩
  · obtain ⟨quietEarlier, quietLater⟩ := quiet_append quiet
    obtain ⟨outcome', events', ended', corresponds⟩ := firsts linked ended quietEarlier
    cases corresponds with
    | ok results linked =>
      obtain ⟨outcome'', events'', continued', corresponds⟩ :=
        nexts _ _ results linked continued quietLater
      exact ⟨_, _, andThen_ok ended' continued', corresponds⟩

/-- What comes after a quiet event has to follow only because the event is quiet. -/
theorem follows_note {event : Event} (other : Event) {work work' : Execution Result}
    (works : event.Quiet → Follows callers alike work work') :
    Follows callers alike (note event >>= fun _ => work) (note other >>= fun _ => work') := by
  intro machine last outcome events linked finished quiet
  obtain ⟨signal, after, ended, -⟩ | ⟨_, after, earlier, later, ended, continued, rfl⟩ :=
    andThen_eq_some finished
  · cases ended
  · obtain ⟨quietEarlier, quietLater⟩ := quiet_append quiet
    cases ended
    have eventQuiet : event.Quiet := quietEarlier event (List.mem_singleton.mpr rfl)
    obtain ⟨outcome', events', continued', corresponds⟩ :=
      works eventQuiet linked continued quietLater
    exact ⟨_, _, andThen_ok rfl continued', corresponds⟩

/-- Looking at outcomes in the same way from outside. -/
theorem follows_regard {view view' : Outcome Result → Outcome Other}
    (arising arising' : Outcome Result → List Event) {inner inner' : Execution Result}
    (views : ∀ outcome ended, Corresponds callers alike outcome ended →
      Corresponds callers alike' (view outcome) (view' ended))
    (inners : Follows callers alike inner inner') :
    Follows callers alike' (regard view arising inner) (regard view' arising' inner') := by
  intro machine last outcome events linked finished quiet
  rw [regard_apply] at finished
  obtain ⟨⟨outcome', earlier⟩, ended, same⟩ := Option.map_eq_some_iff.mp finished
  obtain ⟨rfl, rfl⟩ := Prod.mk.inj same
  obtain ⟨ended', later, finished', corresponds⟩ := inners linked ended (quiet_append quiet).1
  refine ⟨view' ended', later ++ arising' ended', ?_, views _ _ corresponds⟩
  rw [regard_apply, finished']
  rfl

/-! ## Loops -/

/-- Two rounds of a loop that differ in tracebacks alone. -/
inductive RoundAlike : Loop.Round → Loop.Round → Prop where
  | value {value last : Value} (values : Value.Alike value last) :
      RoundAlike (.value value) (.value last)
  | skipped : RoundAlike .skipped .skipped
  | left : RoundAlike .left .left

theorem RoundAlike.collect {round last : Loop.Round} (rounds : RoundAlike round last) (keep : Bool)
    {values others : List Value} (before : Value.AllAlike values others) :
    Value.AllAlike (Loop.collect keep values round) (Loop.collect keep others last) := by
  cases rounds with
  | value results =>
    cases keep with
    | true => exact Value.AllAlike.cons results before
    | false => exact before
  | skipped => exact before
  | left => exact before

theorem corresponds_roundOf {outcome ended : Outcome Value}
    (corresponds : Corresponds callers Value.Alike outcome ended) :
    Corresponds callers RoundAlike (Loop.roundOf outcome) (Loop.roundOf ended) := by
  cases corresponds with
  | ok results linked => exact .ok (.value results) linked
  | error signals linked =>
    cases signals with
    | failed faults spans => exact .error (.failed faults spans) linked
    | returned values => exact .error (.returned values) linked
    | broke span => exact .ok .left linked
    | continued span => exact .ok .skipped linked

theorem follows_round {body body' : Execution Value}
    (bodies : Follows callers Value.Alike body body') :
    Follows callers RoundAlike (round body) (round body') :=
  follows_regard _ _ (fun _ _ => corresponds_roundOf) bodies

/-- The second loop may take as many rounds as the first one, or more. -/
theorem follows_repeatWhile {condition condition' body body' : Execution Value}
    {tooLong tooLong' : Execution (List Value)}
    (conditions : Follows callers Value.Alike condition condition')
    (bodies : Follows callers Value.Alike body body')
    (ends : Follows callers Value.AllAlike tooLong tooLong') (keep : Bool) (limit : Nat)
    {fuel fuel' : Nat} (more : fuel ≤ fuel') (rounds : Nat) {values others : List Value}
    (before : Value.AllAlike values others) :
    Follows callers Value.AllAlike
      (repeatWhile condition body keep tooLong limit fuel rounds values)
      (repeatWhile condition' body' keep tooLong' limit fuel' rounds others) := by
  induction fuel generalizing fuel' rounds values others with
  | zero => exact follows_cutOff _
  | succ fuel ih =>
    obtain ⟨extra, rfl⟩ := Nat.exists_eq_add_of_lt more
    rw [repeatWhile, repeatWhile, whileRound, whileRound]
    apply follows_andThen conditions
    intro truth last truths
    rw [truths.isTrue_eq]
    by_cases holds : last.isTrue = true
    · rw [if_pos holds, if_pos holds]
      by_cases beyond : limit < rounds + 1
      · rw [if_pos beyond, if_pos beyond]
        exact ends
      · rw [if_neg beyond, if_neg beyond]
        apply follows_andThen (follows_round bodies)
        intro result last results
        cases results with
        | left => exact follows_pure before
        | value results =>
          exact ih (Nat.le_of_succ_le_succ more) _ ((RoundAlike.value results).collect keep before)
        | skipped =>
          exact ih (Nat.le_of_succ_le_succ more) _ (RoundAlike.skipped.collect keep before)
    · rw [if_neg holds, if_neg holds]
      exact follows_pure before

theorem follows_count {body body' : Int64 → Execution Value}
    {tooLong tooLong' : Execution (List Value)}
    (bodies : ∀ counter, Follows callers Value.Alike (body counter) (body' counter))
    (ends : Follows callers Value.AllAlike tooLong tooLong') (keep : Bool) (limit : Nat)
    (stop step : Int64) {fuel fuel' : Nat} (more : fuel ≤ fuel') (rounds : Nat) (counter : Int64)
    {values others : List Value} (before : Value.AllAlike values others) :
    Follows callers Value.AllAlike
      (count body keep tooLong limit stop step fuel rounds counter values)
      (count body' keep tooLong' limit stop step fuel' rounds counter others) := by
  induction fuel generalizing fuel' rounds counter values others with
  | zero => exact follows_cutOff _
  | succ fuel ih =>
    obtain ⟨extra, rfl⟩ := Nat.exists_eq_add_of_lt more
    have fewer := Nat.le_of_succ_le_succ more
    rw [count, count, countRound, countRound]
    by_cases before' : Loop.before counter stop step = true
    · rw [if_pos before', if_pos before']
      by_cases beyond : limit < rounds + 1
      · rw [if_pos beyond, if_pos beyond]
        exact ends
      · rw [if_neg beyond, if_neg beyond]
        apply follows_andThen (follows_round (bodies counter))
        intro result last results
        have collects := results.collect keep before
        cases Integer.add? counter step with
        | none =>
          cases results with
          | left => exact follows_pure before
          | value values => exact follows_pure collects
          | skipped => exact follows_pure collects
        | some next =>
          cases results with
          | left => exact follows_pure before
          | value values => exact ih fewer _ _ collects
          | skipped => exact ih fewer _ _ collects
    · rw [if_neg before', if_neg before']
      exact follows_pure before

end Execution

end Quill
