import Quill.Proofs.Transcript.Basic
import Quill.Session
import Mathlib.Algebra.Order.Ring.Int
import Mathlib.Tactic.Positivity
import Mathlib.Tactic.Ring

/-!
# Loops that count

A loop that counts visits the values `first`, `first + step`, `first + 2 * step` and so on, which
are exact integers here, as long as they lie strictly before the end in the direction of the step.
`Counting.total` is the number of these values, and `Counting.Visits` tells the rounds of the loop
one by one: what assigns the counter, when the body runs, and what ends the loop. It knows neither
the arithmetic of the machine nor what an earlier round has left in the counter.

Main statement: the loops of the language do what `Counting.Visits` says, for all bounds and steps,
and the only addition that does not fit is one behind the last value.
-/

namespace Quill.Loop

open Quill.Eval (assign evaluateIn raise)

/-- A loop that counts, once its bounds and its step are known. -/
structure Counting where
  /-- The name of the counter. -/
  counter : String
  /-- The value that the counter begins with. -/
  first : Int64
  /-- The value that the counter does not reach. -/
  stop : Int64
  /-- What the counter moves by. -/
  step : Int64
  /-- What is run in each round. -/
  body : Eval Value
  /-- Whether the body is a block. -/
  block : Bool
  /-- The largest number of rounds. -/
  limit : Nat
  /-- The place of the loop. -/
  span : Span
  /-- The context that the loop is evaluated in. -/
  id : ContextId

namespace Counting

variable (loop : Counting)

/-- The exact value that belongs to a round, the first of which has the number zero. -/
def place (round : Nat) : Int :=
  loop.first.toInt + round * loop.step.toInt

/-- The counter of a round. -/
def counterAt (round : Nat) : Int64 :=
  Int64.ofInt (loop.place round)

/-- A value lies strictly before the end of the loop in the direction of its step. With a step of
zero there is no direction. -/
def Precedes (value : Int) : Prop :=
  (0 < loop.step.toInt ∧ value < loop.stop.toInt) ∨
    (loop.step.toInt < 0 ∧ loop.stop.toInt < value)

/-- How many values the loop has to visit. -/
def total : Nat :=
  if 0 < loop.step.toInt then
    ((loop.stop.toInt - loop.first.toInt + loop.step.toInt - 1) / loop.step.toInt).toNat
  else if loop.step.toInt < 0 then
    ((loop.first.toInt - loop.stop.toInt + -loop.step.toInt - 1) / -loop.step.toInt).toNat
  else
    0

/-- A loop can count in its step: it moves, or there is nothing to count. -/
def Moves : Prop :=
  loop.step.toInt ≠ 0 ∨ loop.stop.toInt ≤ loop.first.toInt

/-- The state in which the body of a round is run. -/
def bound (round : Nat) (machine : Machine) : Machine :=
  { machine with
    store := machine.store.define loop.id loop.counter (.int (loop.counterAt round)) true }

/-- A fault at the place of the loop. -/
def fails (fault : Fault) (machine : Machine) : Outcome Value :=
  .error (.failed ⟨fault, loop.span, machine.store.traceback loop.id loop.span⟩) machine

/-- The value of a loop that is left with the values of its rounds, in order. -/
def gives (values : List Value) (machine : Machine) : Outcome Value :=
  .ok (if loop.block then .null else .list values) machine

/-- What comes of a loop from a round on, in a state and with the values of the earlier rounds. A
round that has neither a value nor a signal for the next round is the last one. -/
inductive Visits : (round : Nat) → List Value → Machine → Outcome Value → Prop
  /-- All values were visited. -/
  | finished {round : Nat} (values : List Value) (machine : Machine)
      (ended : round = loop.total) : Visits round values machine (loop.gives values machine)
  /-- One more round than allowed would begin. -/
  | tooMany {round : Nat} (values : List Value) (machine : Machine) (more : round < loop.total)
      (exhausted : round = loop.limit) :
      Visits round values machine (loop.fails (.loopLimit loop.limit) machine)
  /-- The counter cannot be assigned. -/
  | rejected {round : Nat} (values : List Value) (machine : Machine)
      (more : round < loop.total) (allowed : round < loop.limit)
      (immutable : machine.store.protects loop.id loop.counter = true) :
      Visits round values machine (loop.fails (.immutableBinding loop.counter) machine)
  /-- The body has a value. -/
  | value {round : Nat} {values : List Value} {machine after : Machine} {value : Value}
      {outcome : Outcome Value} (more : round < loop.total) (allowed : round < loop.limit)
      (mutable : machine.store.protects loop.id loop.counter = false)
      (ran : loop.body (loop.bound round machine) = .ok value after)
      (rest : Visits (round + 1) (values ++ [value]) after outcome) :
      Visits round values machine outcome
  /-- The body goes on to the next round. -/
  | continued {round : Nat} {values : List Value} {machine after : Machine} {span : Span}
      {outcome : Outcome Value} (more : round < loop.total) (allowed : round < loop.limit)
      (mutable : machine.store.protects loop.id loop.counter = false)
      (ran : loop.body (loop.bound round machine) = .error (.continued span) after)
      (rest : Visits (round + 1) values after outcome) :
      Visits round values machine outcome
  /-- The body leaves the loop. -/
  | broke {round : Nat} {values : List Value} {machine after : Machine} {span : Span}
      (more : round < loop.total) (allowed : round < loop.limit)
      (mutable : machine.store.protects loop.id loop.counter = false)
      (ran : loop.body (loop.bound round machine) = .error (.broke span) after) :
      Visits round values machine (loop.gives values after)
  /-- The body fails. -/
  | failed {round : Nat} {values : List Value} {machine after : Machine} {failure : Failure}
      (more : round < loop.total) (allowed : round < loop.limit)
      (mutable : machine.store.protects loop.id loop.counter = false)
      (ran : loop.body (loop.bound round machine) = .error (.failed failure) after) :
      Visits round values machine (.error (.failed failure) after)
  /-- The body returns from the function around it. -/
  | returned {round : Nat} {values : List Value} {machine after : Machine} {value : Value}
      (more : round < loop.total) (allowed : round < loop.limit)
      (mutable : machine.store.protects loop.id loop.counter = false)
      (ran : loop.body (loop.bound round machine) = .error (.returned value) after) :
      Visits round values machine (.error (.returned value) after)

/-! ## The values of a loop -/

theorem place_succ (round : Nat) : loop.place (round + 1) = loop.place round + loop.step.toInt := by
  simp only [place, Nat.cast_add, Nat.cast_one]
  ring

/-- A step up: the rounds before the end are those up to a rounded quotient. -/
theorem lt_total_up (distance : Int) {step : Int} (up : 0 < step) (round : Nat) :
    round < ((distance + step - 1) / step).toNat ↔ (round : Int) * step < distance := by
  have quotient : (round : Int) + 1 ≤ (distance + step - 1) / step ↔
      ((round : Int) + 1) * step ≤ distance + step - 1 := Int.le_ediv_iff_mul_le up
  have expanded : ((round : Int) + 1) * step = round * step + step := by ring
  omega

/-- The value of a round precedes the end exactly if the round is counted. -/
theorem precedes_place_iff (round : Nat) :
    loop.Precedes (loop.place round) ↔ round < loop.total := by
  unfold Precedes place total
  rcases lt_trichotomy loop.step.toInt 0 with down | still | up
  · have steps := lt_total_up (loop.first.toInt - loop.stop.toInt)
      (Int.neg_pos_of_neg down) round
    rw [if_neg (not_lt_of_gt down), if_pos down, steps, mul_neg]
    omega
  · simp [still]
  · have steps := lt_total_up (loop.stop.toInt - loop.first.toInt) up round
    rw [if_pos up, steps]
    omega

/-- The number of values is right: a round is counted exactly if its value and those of all rounds
before it precede the end. -/
theorem lt_total_iff (round : Nat) :
    round < loop.total ↔ ∀ earlier ≤ round, loop.Precedes (loop.place earlier) := by
  constructor
  · intro counted earlier before
    exact (loop.precedes_place_iff earlier).mpr (Nat.lt_of_le_of_lt before counted)
  · intro precede
    exact (loop.precedes_place_iff round).mp (precede round (Nat.le_refl round))

/-- The counter of a counted round has the exact value: it lies between two integers of the
machine. -/
theorem toInt_counterAt {round : Nat} (counted : round < loop.total) :
    (loop.counterAt round).toInt = loop.place round := by
  have least := loop.first.le_toInt
  have most := loop.first.toInt_lt
  have lower := loop.stop.le_toInt
  have upper := loop.stop.toInt_lt
  have between : -2 ^ 63 ≤ loop.place round ∧ loop.place round < 2 ^ 63 := by
    rcases (loop.precedes_place_iff round).mpr counted with ⟨up, below⟩ | ⟨down, above⟩
    · have moved : 0 ≤ (round : Int) * loop.step.toInt := by positivity
      have same : loop.place round = loop.first.toInt + round * loop.step.toInt := rfl
      omega
    · have moved : (round : Int) * loop.step.toInt ≤ 0 :=
        Int.mul_nonpos_of_nonneg_of_nonpos (Int.natCast_nonneg round) (Int.le_of_lt down)
      have same : loop.place round = loop.first.toInt + round * loop.step.toInt := rfl
      omega
  exact Int64.toInt_ofInt_of_le between.1 between.2

theorem eq_counterAt {round : Nat} {counter : Int64} (exact : counter.toInt = loop.place round) :
    counter = loop.counterAt round := by
  rw [counterAt, ← exact, Int64.ofInt_toInt]

/-- The counter of a round is moved to the exact value of the next one. -/
theorem toInt_of_add? {round : Nat} {counter next : Int64}
    (exact : counter.toInt = loop.place round)
    (moved : Integer.add? counter loop.step = some next) :
    next.toInt = loop.place (round + 1) := by
  rw [Integer.ofInt?_eq_some_iff.mp moved, exact, place_succ]

/-- If a counter cannot be moved, no value is left. -/
theorem total_le_of_add? {round : Nat} {counter : Int64} (exact : counter.toInt = loop.place round)
    (stuck : Integer.add? counter loop.step = none) : loop.total ≤ round + 1 := by
  by_contra more
  have next := loop.toInt_counterAt (Nat.lt_of_not_le more)
  rw [place_succ, ← exact] at next
  rw [Integer.add?, Integer.ofInt?_eq_some_iff.mpr next] at stuck
  cases stuck

/-- The test that the loop makes tells whether a value is left. -/
theorem before_iff {round : Nat} {counter : Int64} (moves : loop.Moves)
    (exact : counter.toInt = loop.place round) :
    before counter loop.stop loop.step = true ↔ round < loop.total := by
  rw [← precedes_place_iff, ← exact]
  unfold before Precedes
  rcases lt_trichotomy loop.step.toInt 0 with down | still | up
  · simp [down, not_le_of_gt down, not_lt_of_gt down]
  · have ended : loop.stop.toInt ≤ counter.toInt := by
      have nothing := moves.resolve_left (not_not_intro still)
      simpa [exact, place, still] using nothing
    simp [still, ended]
  · simp [up, up.le, not_lt_of_gt up]

/-! ## The rounds of a loop -/

/-- The values of the earlier rounds as the loop keeps them. -/
def kept (values : List Value) : List Value :=
  if loop.block then [] else values.reverse

/-- Runs what is left of the loop: at most a number of rounds, from a counter on. -/
def runFrom (rounds : Nat) (counter : Int64) (values : List Value) : Eval Value := do
  let round (value : Int64) : Eval Value := do
    assign loop.id loop.counter (.int value) loop.span loop.id
    loop.body
  let gathered ← count round (!loop.block) (raise (.loopLimit loop.limit) loop.span loop.id)
    loop.stop loop.step rounds counter values
  return result loop.block gathered

variable {loop} {rounds : Nat} {counter : Int64} {values : List Value} {machine : Machine}

@[simp] theorem result_kept : .ok (result loop.block (loop.kept values)) machine =
    loop.gives values machine := by
  unfold result kept gives
  cases loop.block <;> simp

@[simp] theorem collect_value (value : Value) :
    collect (!loop.block) (loop.kept values) (.value value) = loop.kept (values ++ [value]) := by
  unfold collect kept
  cases loop.block <;> simp

@[simp] theorem collect_skipped :
    collect (!loop.block) (loop.kept values) .skipped = loop.kept values := rfl

theorem runFrom_arrived (arrived : before counter loop.stop loop.step = false) :
    loop.runFrom rounds counter (loop.kept values) machine = loop.gives values machine := by
  cases rounds <;> simp [runFrom, count, arrived, bind, EStateM.bind, pure, EStateM.pure]

theorem runFrom_zero (more : before counter loop.stop loop.step = true) :
    loop.runFrom 0 counter values machine = loop.fails (.loopLimit loop.limit) machine := by
  simp [runFrom, count, more, bind, EStateM.bind, raise, fails]

theorem runFrom_rejected (more : before counter loop.stop loop.step = true)
    (immutable : machine.store.protects loop.id loop.counter = true) :
    loop.runFrom (rounds + 1) counter values machine =
      loop.fails (.immutableBinding loop.counter) machine := by
  simp [runFrom, count, more, bind, EStateM.bind, raise, fails, round, roundOf, assign, immutable]

/-- Goes on with the loop behind a round. -/
def advance (loop : Counting) (rounds : Nat) (counter : Int64) (values : List Value) :
    Eval Value :=
  match Integer.add? counter loop.step with
  | some next => loop.runFrom rounds next (loop.kept values)
  | none => loop.gives values

/-- What the loop makes of the body of one round. -/
theorem runFrom_body {round : Nat} (more : before counter loop.stop loop.step = true)
    (current : counter = loop.counterAt round)
    (mutable : machine.store.protects loop.id loop.counter = false) :
    loop.runFrom (rounds + 1) counter (loop.kept values) machine =
      match loop.body (loop.bound round machine) with
      | .ok value after => loop.advance rounds counter (values ++ [value]) after
      | .error (.continued _) after => loop.advance rounds counter values after
      | .error (.broke _) after => loop.gives values after
      | .error (.failed failure) after => .error (.failed failure) after
      | .error (.returned value) after => .error (.returned value) after := by
  have assigned : assign loop.id loop.counter (.int counter) loop.span loop.id machine =
      .ok () (loop.bound round machine) := by
    simp [assign, mutable, bound, current]
  simp only [runFrom, count, more, if_true, bind, EStateM.bind, Loop.round, assigned, advance]
  cases ran : loop.body (loop.bound round machine) with
  | ok value after =>
    cases Integer.add? counter loop.step <;> simp [roundOf, EStateM.bind, pure, EStateM.pure]
  | error signal after =>
    cases signal with
    | continued span =>
      cases Integer.add? counter loop.step <;> simp [roundOf, EStateM.bind, pure, EStateM.pure]
    | broke span => simp [roundOf, pure, EStateM.pure]
    | failed failure => simp [roundOf]
    | returned value => simp [roundOf]

/-- A round at which no value is left is the end of the loop. -/
theorem Visits.of_total_le {round : Nat} (reached : round ≤ loop.total)
    (ended : loop.total ≤ round) : loop.Visits round values machine (loop.gives values machine) :=
  .finished values machine (Nat.le_antisymm reached ended)

/-- The loop visits the values that it has to, whatever the rounds do. The induction is on the
rounds that are allowed; the counter has the exact value of the round at hand. -/
theorem visits_runFrom (moves : loop.Moves) {round : Nat} (left : round + rounds = loop.limit)
    (reached : round ≤ loop.total) (exact : counter.toInt = loop.place round) :
    loop.Visits round values machine
      (loop.runFrom rounds counter (loop.kept values) machine) := by
  induction rounds generalizing round counter values machine with
  | zero =>
    have decides := loop.before_iff moves exact
    cases test : before counter loop.stop loop.step with
    | true =>
      have more := decides.mp test
      rw [runFrom_zero test]
      exact .tooMany values machine more left
    | false =>
      rw [runFrom_arrived test]
      exact .of_total_le reached (Nat.le_of_not_lt fun more => by simp [decides.mpr more] at test)
  | succ rounds visits =>
    have decides := loop.before_iff moves exact
    cases test : before counter loop.stop loop.step with
    | false =>
      rw [runFrom_arrived test]
      exact .of_total_le reached (Nat.le_of_not_lt fun more => by simp [decides.mpr more] at test)
    | true =>
      have more := decides.mp test
      have allowed : round < loop.limit := by omega
      have onwards (values : List Value) (after : Machine) :
          loop.Visits (round + 1) values after (loop.advance rounds counter values after) := by
        unfold advance
        cases moved : Integer.add? counter loop.step with
        | some next => exact visits (by omega) more (loop.toInt_of_add? exact moved)
        | none => exact .of_total_le more (loop.total_le_of_add? exact moved)
      cases immutable : machine.store.protects loop.id loop.counter with
      | true =>
        rw [runFrom_rejected test immutable]
        exact .rejected values machine more allowed immutable
      | false =>
        rw [runFrom_body test (loop.eq_counterAt exact) immutable]
        cases ran : loop.body (loop.bound round machine) with
        | ok value after => exact .value more allowed immutable ran (onwards _ after)
        | error signal after =>
          cases signal with
          | continued span => exact .continued more allowed immutable ran (onwards _ after)
          | broke span => exact .broke more allowed immutable ran
          | failed failure => exact .failed more allowed immutable ran
          | returned value => exact .returned more allowed immutable ran

/-- What a loop does in a round is determined by the state. -/
theorem Visits.unique {round : Nat} {outcome other : Outcome Value}
    (visits : loop.Visits round values machine outcome)
    (others : loop.Visits round values machine other) : outcome = other := by
  -- The rounds and the state exclude all cases but one, and its body has one outcome.
  induction visits with
  | finished => cases others <;> first | rfl | omega
  | tooMany => cases others <;> first | rfl | omega
  | rejected => cases others <;> first | rfl | omega | simp_all
  | value _ _ _ _ _ same => cases others <;> first | omega | simp_all
  | continued _ _ _ _ _ same => cases others <;> first | omega | simp_all
  | broke => cases others <;> first | omega | simp_all
  | failed => cases others <;> first | omega | simp_all
  | returned => cases others <;> first | omega | simp_all

/-- A loop does what its visits are, and nothing else. -/
theorem runFrom_eq_iff (moves : loop.Moves) {outcome : Outcome Value} :
    loop.runFrom loop.limit loop.first [] machine = outcome ↔ loop.Visits 0 [] machine outcome := by
  have exact : loop.first.toInt = loop.place 0 := by simp [place]
  have none : loop.kept [] = [] := by simp [kept]
  have visits : loop.Visits 0 [] machine
      (loop.runFrom loop.limit loop.first (loop.kept []) machine) :=
    visits_runFrom moves (Nat.zero_add loop.limit) (Nat.zero_le loop.total) exact
  rw [none] at visits
  constructor
  · rintro rfl
    exact visits
  · exact visits.unique

end Counting

end Quill.Loop

namespace Quill.Eval

open Quill.Loop (Counting)

/-- How the step of a loop is found: it is one if none is written. -/
inductive Stepped (host : Host) (inner : Option Evaluate) (id : ContextId) :
    Option Located → Machine → Int64 → Machine → Prop
  | omitted (machine : Machine) : Stepped host inner id none machine 1 machine
  | written {expr : Located} {machine after : Machine} {step : Int64}
      (evaluates : evaluateIn host inner id expr machine = .ok (.int step) after) :
      Stepped host inner id (some expr) machine step after

variable {host : Host} {inner : Option Evaluate} {id : ContextId} {counter : String}
  {start stop body : Located} {step : Option Located} {block : Bool} {span : Span}
  {machine begun bounded ready : Machine} {first last stride : Int64}

/-- The loop that is left to run once the bounds and the step of a loop are known. -/
def counting (host : Host) (inner : Option Evaluate) (id : ContextId) (counter : String)
    (body : Located) (block : Bool) (span : Span) (first last stride : Int64) : Counting :=
  { counter := counter
    first := first
    stop := last
    step := stride
    body := evaluateIn host inner id body
    block := block
    limit := host.config.maxLoopIterations
    span := span
    id := id }

/-- Once its bounds and its step are known, a loop counts. -/
theorem evaluateIn_forLoop
    (starts : evaluateIn host inner id start machine = .ok (.int first) begun)
    (stops : evaluateIn host inner id stop begun = .ok (.int last) bounded)
    (stepped : Stepped host inner id step bounded stride ready)
    (moves : stride.toInt ≠ 0 ∨ last.toInt ≤ first.toInt) :
    evaluateIn host inner id (.forLoop counter start stop step body block span) machine =
      (counting host inner id counter body block span first last stride).runFrom
        host.config.maxLoopIterations first [] ready := by
  simp only [evaluateIn, bind, EStateM.bind, starts, stops]
  cases stepped with
  | omitted => rfl
  | written evaluates =>
    have moved : (stride ≠ 0 || last.toInt ≤ first.toInt) = true := by
      rcases moves with moving | nothing
      · have apart : stride ≠ 0 := fun still => moving (by rw [still]; rfl)
        simp [apart]
      · simp [nothing]
    simp only [EStateM.bind, evaluates, stepOf, moved, if_true]
    rfl

/-- A loop visits exactly the integers `first`, `first + step`, `first + 2 * step` and so on that
lie before its end together with all those before them. The counter has the exact value in each of
their rounds, the addition of the step never wraps, and it fails only if none of the later values
lies before the end. What the loop does is then told by its visits. -/
theorem forLoop_visits_progression (counter : String) (body : Located) (block : Bool) (span : Span)
    (starts : evaluateIn host inner id start machine = .ok (.int first) begun)
    (stops : evaluateIn host inner id stop begun = .ok (.int last) bounded)
    (stepped : Stepped host inner id step bounded stride ready)
    (moves : stride.toInt ≠ 0 ∨ last.toInt ≤ first.toInt) :
    let loop := counting host inner id counter body block span first last stride
    (∀ round, round < loop.total ↔
      ∀ earlier ≤ round, loop.Precedes (first.toInt + earlier * stride.toInt)) ∧
    (∀ round < loop.total,
      (loop.counterAt round).toInt = first.toInt + round * stride.toInt ∧
      (∀ next, Integer.add? (loop.counterAt round) stride = some next →
        next.toInt = first.toInt + (round + 1) * stride.toInt) ∧
      (Integer.add? (loop.counterAt round) stride = none →
        ∀ later > round, ¬ loop.Precedes (first.toInt + later * stride.toInt))) ∧
    ∀ outcome,
      evaluateIn host inner id (.forLoop counter start stop step body block span) machine =
        outcome ↔ loop.Visits 0 [] ready outcome := by
  intro loop
  refine ⟨loop.lt_total_iff, fun round counted => ?_, fun outcome => ?_⟩
  · have exact := loop.toInt_counterAt counted
    refine ⟨exact, fun next moved => ?_, fun stuck later behind precedes => ?_⟩
    · have same := loop.toInt_of_add? exact moved
      rw [same, Counting.place, Nat.cast_add, Nat.cast_one]
      rfl
    · have ended := loop.total_le_of_add? exact stuck
      have counted := (loop.precedes_place_iff later).mp precedes
      omega
  · have moves : loop.Moves := moves
    rw [evaluateIn_forLoop starts stops stepped moves]
    exact Counting.runFrom_eq_iff moves

/-- Close to the largest integer, with a body that assigns to the counter: the second step does not
fit, and the loop has visited two values. -/
theorem forLoop_visits_progression_largest :
    let host : Host := ⟨{}, FileTree.disk ⟨[]⟩, 0⟩
    let span : Span := ⟨⟨0, "", ""⟩, .start, .start⟩
    let first : Located := .literal (.int 9223372036854775800) span
    let last : Located := .literal (.int 9223372036854775807) span
    let step : Located := .literal (.int 5) span
    let body : Located := .list [.read "i" span, .assign "i" (.literal (.int 0) span) span] span
    let machine := (Session.start []).machine
    let loop := counting host none 0 "i" body false span 9223372036854775800 9223372036854775807 5
    evaluateIn host none 0 first machine = .ok (.int 9223372036854775800) machine ∧
    evaluateIn host none 0 last machine = .ok (.int 9223372036854775807) machine ∧
    Stepped host none 0 (some step) machine 5 machine ∧
    (5 : Int64).toInt ≠ 0 ∧ loop.total = 2 ∧
    Integer.add? (loop.counterAt 1) 5 = none ∧
    (∀ later > 1, ¬ loop.Precedes
      (Int64.toInt 9223372036854775800 + (later : Nat) * Int64.toInt 5)) ∧
    ∃ value after, loop.Visits 0 [] machine (.ok value after) ∧
      value.display = "[[9223372036854775800, 0], [9223372036854775805, 0]]" := by
  intro host span first last step body machine loop
  have starts : evaluateIn host none 0 first machine = .ok (.int 9223372036854775800) machine := rfl
  have stops : evaluateIn host none 0 last machine = .ok (.int 9223372036854775807) machine := rfl
  have stepped : Stepped host none 0 (some step) machine 5 machine := .written rfl
  have moves : (5 : Int64).toInt ≠ 0 := by decide
  have total : loop.total = 2 := by decide +kernel
  have stuck : Integer.add? (loop.counterAt 1) 5 = none := by decide +kernel
  obtain ⟨counted, exact, does⟩ :=
    forLoop_visits_progression "i" body false span starts stops stepped (.inl moves)
  refine ⟨starts, stops, stepped, moves, total, stuck, ?_, ?_⟩
  · exact (exact 1 (by decide +kernel)).2.2 stuck
  · have shown : (Outcome.result? (evaluateIn host none 0
        (.forLoop "i" first last (some step) body false span) machine)).map Value.display =
          some "[[9223372036854775800, 0], [9223372036854775805, 0]]" := by
      decide +kernel
    obtain ⟨value, ended, display⟩ := Option.map_eq_some_iff.mp shown
    obtain ⟨after, ended⟩ := Outcome.exists_of_result? ended
    exact ⟨value, after, (does _).mp ended, display⟩

end Quill.Eval
