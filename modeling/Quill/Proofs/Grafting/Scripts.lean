import Quill.Proofs.Chronicle.Evaluation
import Quill.Proofs.Grafting.Program
import Quill.Proofs.Isolation.Scripts

/-!
# Scripts do not depend on their callers

All that a script on its own can see of the state it is run from is what is left of the input,
whether the output works and how many activations are open. So the run of a script is the run from
a state with nothing else in it, done behind the state that it is really run from. From two states
that agree in these three things the same script prints the same, reads the same, and either has the
same value but for new numbers and identities, or fails with the same fault. Only a script that asks
for the time may notice when it is run.
-/

namespace Quill

namespace Machine

/-- A state with no more in it than a script on its own can see of the given one. -/
def bare (machine : Machine) : Machine :=
  ⟨.empty, 0, machine.depth, none, machine.input, ⟨"", machine.output.broken⟩, []⟩

/-- The state with everything behind it that a script on its own has made. The output of the script
comes behind the output so far, and what was exported before is still exported. -/
def extend (old made : Machine) : Machine :=
  { old.graft made with exported := old.exported }

variable (old : Machine)

theorem graftStore_empty : old.graftStore .empty = old.store := by
  rw [graftStore, Store.empty, Array.map_empty, Array.append_empty]

/-- A state is its bare state behind it. -/
theorem extend_bare (requested : List String) :
    old.extend { old.bare with requested := requested } =
      { old with requested := requested ++ old.requested } := by
  simp only [extend, graft, bare, graftStore_empty, Nat.zero_add, String.append_empty]

theorem sealed_bare : old.bare.Sealed 0 where
  store id context _ found := by cases found
  exported value found := by cases found

end Machine

/-- The faults that a call has because of the script that it runs, or because it has no room. -/
def Fault.OfRun : Fault → Prop
  | .recursionLimit _ | .scriptUnreadable _ _ | .scriptFailed _ _ => True
  | _ => False

/-- The second outcome is the first one behind the old state. In a failure only the fault matters,
since where it arose is a matter of the caller. -/
inductive Outcome.Extended (old : Machine) : Outcome Value → Outcome Value → Prop where
  /-- Both have a value. -/
  | returned {value : Value} {made : Machine} (within : value.Within 0 made.store.size) :
      Extended old (.ok value made) (.ok (old.shift.value value) (old.extend made))
  /-- Both fail. -/
  | failed {failure other : Failure} {made : Machine} (same : other.fault = failure.fault)
      (kind : failure.fault.OfRun) :
      Extended old (.error (.failed failure) made) (.error (.failed other) (old.extend made))

namespace Transcript

variable {old : Machine} {host : Host}

section

variable {transcribe : Transcribe} (lawful : Lawful 0 transcribe)
  (grafting : Grafting old transcribe transcribe.plain)

include lawful grafting

/-- A script that was loaded begins in a new outermost context, behind the old state or not. -/
theorem extended_runLoaded (bare call : Invocation) (requested : List String) (path text : String) :
    let begun := { old.bare with requested := requested }
    Outcome.Extended old ((runLoaded bare transcribe path text).step begun)
      ((runLoaded call transcribe path text).step (old.extend begun)) := by
  intro begun
  have sealed : begun.Sealed 0 := ⟨old.sealed_bare.store, old.sealed_bare.exported⟩
  obtain ⟨root, entered, enters, keeps, inside, forgotten⟩ :=
    enterScript_eq_ok sealed.store (Nat.zero_le _)
  have ready : entered.Sealed 0 := by
    refine ⟨keeps.sealed, ?_⟩
    rw [forgotten]
    rintro value ⟨⟩
  obtain ⟨obeyed, -⟩ := obeys_runIn lawful inside path text ready (Nat.le_refl _)
  obtain ⟨result, ended, runs⟩ : ∃ result ended,
      (runIn root transcribe path text).step entered = .ok result ended := ⟨_, _, rfl⟩
  -- The export of the caller is put away, so the script begins in a state that is a graft.
  have movedEnters : Invocation.enterScript (old.extend begun) =
      .ok (old.exported, root + old.store.size) (old.graft entered) := by
    have globals := old.addGlobals_graft begun
    cases enters
    exact congrArg (fun added : ContextId × Machine =>
      EStateM.Result.ok (old.exported, added.1) added.2) globals
  have movedRuns : (runIn (root + old.store.size) transcribe path text).step (old.graft entered) =
      .ok (old.shift.result result) (old.graft ended) := by
    have grafts := grafts_runIn lawful grafting inside path text ready (Nat.le_refl _)
    rw [runs] at grafts
    exact grafts
  rw [(runLoaded_eq bare path text enters runs).1,
    (runLoaded_eq call path text movedEnters movedRuns).1]
  rw [runs] at obeyed
  let made := { ended with exported := none }
  cases result with
  | error error =>
    have message := old.shift.message_error error
    exact .failed (congrArg (Fault.scriptFailed path) message) trivial
  | ok value =>
    have stays := (obeyed.sealed ready).exported
    change Outcome.Extended old (.ok (ended.exported.getD .null) made)
      (.ok ((ended.exported.map old.shift.value).getD .null) (old.extend made))
    cases found : ended.exported with
    | none => exact .returned (Value.hereditary_within 0 made.store.size).null
    | some value => exact .returned (stays value found)

/-- The script is loaded and run, or cannot be loaded, behind the old state or not. -/
theorem extended_runScript {bare call : Invocation} {file : String}
    (bareNamed : bare.argument "file" = .str file) (named : call.argument "file" = .str file) :
    Outcome.Extended old ((runScript bare host transcribe).step old.bare)
      ((runScript call host transcribe).step old) := by
  let path := Path.join host.config.baseDirectory file
  let begun := { old.bare with requested := [path] }
  have asked : old.extend begun = { old with requested := path :: old.requested } :=
    old.extend_bare [path]
  cases read : host.disk.readText path with
  | error reason =>
    have fails {call : Invocation} (named : call.argument "file" = .str file) (machine : Machine) :
        (runScript call host transcribe).step machine =
          call.raise (.scriptUnreadable path reason)
            { machine with requested := path :: machine.requested } := by
      apply step_bind_error
      change call.loadScript host machine = _
      rw [Invocation.loadScript, named]
      simp only [path] at read
      simp only [read]
      rfl
    rw [fails bareNamed, fails named, ← asked]
    exact .failed rfl trivial
  | ok text =>
    have loads {call : Invocation} (named : call.argument "file" = .str file) (machine : Machine) :
        (runScript call host transcribe).step machine =
          (runLoaded call transcribe path text).step
            { machine with requested := path :: machine.requested } := by
      refine @step_bind_ok _ _ _ _ machine _ (some (path, text)) ?_
      change call.loadScript host machine = _
      rw [Invocation.loadScript, named]
      simp only [path] at read
      simp only [read]
      rfl
    rw [loads bareNamed, loads named, ← asked]
    exact extended_runLoaded lawful grafting bare call [path] path text

end

/-- What is done while an activation is open comes behind what was there before. -/
theorem extended_leave {bare outcome : Outcome Value}
    (extended : Outcome.Extended { old with depth := old.depth + 1 } bare outcome) :
    Outcome.Extended old (Eval.leave bare) (Eval.leave outcome) := by
  cases extended with
  | @returned value made within =>
    exact @Outcome.Extended.returned old value { made with depth := made.depth - 1 } within
  | @failed failure other made same kind =>
    exact @Outcome.Extended.failed old failure other { made with depth := made.depth - 1 } same kind

/-- A script on its own does the same, whatever state it is run from, behind all that was in this
state. -/
theorem extended_callValue (old : Machine) (host : Host) (room : Nat) (file : String)
    (bareSerial serial : Nat) (bareSpan span : Span) (bareCaller caller : ContextId) :
    Outcome.Extended old
      ((callValue host (inside host room) (.function (.builtin (Builtin.runScript.function
        bareSerial))) [.str file] bareSpan bareCaller).step old.bare)
      ((callValue host (inside host room) (.function (.builtin (Builtin.runScript.function
        serial))) [.str file] span caller).step old) := by
  cases room with
  | zero =>
    let fault := Fault.recursionLimit host.config.maxCallDepth
    have same : old.extend old.bare = old := old.extend_bare []
    have fails (trace bareTrace : List Frame) :
        Outcome.Extended old (.error (.failed ⟨fault, bareSpan, bareTrace⟩) old.bare)
          (.error (.failed ⟨fault, span, trace⟩) (old.extend old.bare)) :=
      .failed rfl trivial
    rw [same] at fails
    exact fails _ _
  | succ room =>
    let opened := { old with depth := old.depth + 1 }
    let transcribe := evaluate host room
    have lawful : Lawful 0 transcribe := allLawful_inside 0 host (room + 1) _ rfl
    have grafting : Grafting opened transcribe transcribe.plain := by
      rw [plain_evaluate]
      cases grafting_inside opened host (room + 1) with
      | some grafts => exact grafts
    have named (serial : Nat) (span : Span) (caller : ContextId) :=
      argument_invocationOf (Builtin.runScript.function serial) rfl (.str file) span caller
    exact extended_leave (extended_runScript lawful grafting (named bareSerial bareSpan bareCaller)
      (named serial span caller))

end Transcript

/-! ## Two callers -/

/-- The call of the function that runs a script on its own. There is as much room for activations as
the state leaves of the limit. -/
def Machine.runScript (machine : Machine) (host : Host) (serial : Nat) (file : String) (span : Span)
    (caller : ContextId) : Outcome Value :=
  Eval.callValue host (Eval.inside host (host.config.maxCallDepth - machine.depth))
    (.function (.builtin (Builtin.runScript.function serial))) [.str file] span caller machine

/-- Two states agree in all that a script on its own can see of them. -/
structure Machine.Abreast (first second : Machine) : Prop where
  /-- The same input is left. -/
  input : second.input = first.input
  /-- The output works in both of them or fails in the same way. -/
  broken : second.output.broken = first.output.broken
  /-- The same number of activations is open. -/
  depth : second.depth = first.depth

/-- Two outcomes of a script on its own, from one state each. What the script has made is the same
in both of them, behind everything that was there before. -/
inductive Outcome.Parallel (first second : Machine) : Outcome Value → Outcome Value → Prop where
  /-- Both have the same value but for new numbers and identities. -/
  | returned {value : Value} {made : Machine} (within : value.Within 0 made.store.size) :
      Parallel first second (.ok (first.shift.value value) (first.extend made))
        (.ok (second.shift.value value) (second.extend made))
  /-- Both fail with the same fault. -/
  | failed {failure other : Failure} {made : Machine} (same : other.fault = failure.fault)
      (kind : failure.fault.OfRun) :
      Parallel first second (.error (.failed failure) (first.extend made))
        (.error (.failed other) (second.extend made))

namespace Outcome

variable {first second : Machine} {bare outcome other : Outcome Value}

/-- What is the same outcome behind two states is the same from one to the other. -/
theorem Extended.parallel (one : Extended first bare outcome) (two : Extended second bare other) :
    Parallel first second outcome other := by
  cases one with
  | returned within =>
    cases two with
    | returned _ => exact .returned within
  | failed same kind =>
    cases two with
    | failed also _ => exact .failed (also.trans same.symm) (same ▸ kind)

/-- The same text is printed. -/
theorem Parallel.written (parallel : Parallel first second outcome other) :
    ∃ printed, (left outcome).output.written = first.output.written ++ printed ∧
      (left other).output.written = second.output.written ++ printed := by
  cases parallel with
  | returned _ => exact ⟨_, rfl, rfl⟩
  | failed _ _ => exact ⟨_, rfl, rfl⟩

/-- The same input is left. -/
theorem Parallel.input (parallel : Parallel first second outcome other) :
    (left other).input = (left outcome).input := by
  cases parallel <;> rfl

end Outcome

/-- Whether it may happen at every time. -/
def Happening.timeless : Happening → Bool
  | .noted (.invoked .time) => false
  | _ => true

/-- Everything that happens when a script is run on its own. -/
def Machine.runLog (machine : Machine) (host : Host) (serial : Nat) (file : String) (span : Span)
    (caller : ContextId) : List Moment :=
  (Chronicle.callValue host (Chronicle.inside host (host.config.maxCallDepth - machine.depth))
    (.function (.builtin (Builtin.runScript.function serial))) [.str file] span caller machine).log

namespace Machine

/-- A script on its own that does not ask for the time does the same at all times. -/
theorem runScript_eq_of_timeless {host other : Host} (config : other.config = host.config)
    (disk : other.disk = host.disk) {machine : Machine} {serial : Nat} {file : String} {span : Span}
    {caller : ContextId}
    (timeless : ∀ moment ∈ machine.runLog host serial file span caller,
      moment.happening.timeless) :
    machine.runScript other serial file span caller =
      machine.runScript host serial file span caller := by
  have fits : Chronicle.Fits (·.timeless) host other :=
    { baseDirectory := by rw [config]
      disk := disk
      clock := fun asked => by cases asked
      rounds := .inl (by rw [config]) }
  have limit : other.config.maxCallDepth = host.config.maxCallDepth := by rw [config]
  let room := host.config.maxCallDepth - machine.depth
  let callee := Value.function (.builtin (Builtin.runScript.function serial))
  have rooms := Chronicle.rooms_inside fits (.inl ⟨rfl, limit⟩ : room = room ∧ _ ∨ _)
  have same := Chronicle.agrees_callValue fits rooms callee [.str file] span caller machine timeless
  rw [runScript, limit, same, Chronicle.ending_callValue]
  rfl

/-- The run of a script is the run from a bare state, behind the state that it is really run
from. -/
theorem extended_runScript (old : Machine) (host : Host) (file : String) (bareSerial serial : Nat)
    (bareSpan span : Span) (bareCaller caller : ContextId) :
    Outcome.Extended old (old.bare.runScript host bareSerial file bareSpan bareCaller)
      (old.runScript host serial file span caller) := by
  have extended := Transcript.extended_callValue old host
    (host.config.maxCallDepth - old.depth) file bareSerial serial bareSpan span bareCaller caller
  rw [Transcript.tells_callValue, Transcript.tells_callValue,
    Transcript.map_plain_inside] at extended
  exact extended

/-- A script on its own does not depend on its caller. From any two states with the same input, the
same output behaviour and the same number of open activations, whatever else is in them, and from
any places in them, a script that does not ask for the time prints the same and reads the same. It
has the same value but for the numbers and identities of what is new, or it fails in both with the
same fault: because there is no room, or the script cannot be read, or it has failed. -/
theorem runScript_parallel {host other : Host} (config : other.config = host.config)
    (disk : other.disk = host.disk) {first second : Machine} (abreast : first.Abreast second)
    (serial otherSerial : Nat) (file : String) (span otherSpan : Span)
    (caller otherCaller : ContextId)
    (timeless : ∀ moment ∈ first.runLog host serial file span caller,
      moment.happening.timeless) :
    let outcome := first.runScript host serial file span caller
    let otherOutcome := second.runScript other otherSerial file otherSpan otherCaller
    Outcome.Parallel first second outcome otherOutcome ∧
      (Outcome.left otherOutcome).input = (Outcome.left outcome).input ∧
      ∃ printed, (Outcome.left outcome).output.written = first.output.written ++ printed ∧
        (Outcome.left otherOutcome).output.written = second.output.written ++ printed := by
  intro outcome otherOutcome
  have bare : second.bare = first.bare := by
    rw [bare, bare, abreast.input, abreast.broken, abreast.depth]
  have same : first.runScript other serial file span caller = outcome :=
    runScript_eq_of_timeless config disk timeless
  have one := extended_runScript first other file serial serial span span caller caller
  have two := extended_runScript second other file serial otherSerial span otherSpan caller
    otherCaller
  rw [same] at one
  rw [bare] at two
  have parallel := one.parallel two
  exact ⟨parallel, parallel.input, parallel.written⟩

/-- A script prints what it reads and exports a function. It does so at another time as well, from
another outermost context of a state that has printed and exported something. -/
theorem runScript_parallel_function :
    let text := "Print(Input())\nfunc twice(x) -> 2 * x\nExport(twice)"
    let host : Host := ⟨{}, fun _ => .ok text.toUTF8.toList, 0⟩
    let other : Host := { host with clock := 1 }
    let first := (Machine.initial "a\nb".toUTF8.toList).2
    let second : Machine :=
      { first.addGlobals.2 with exported := some (.int 7), output := ⟨"before\n", none⟩ }
    let span : Span := ⟨⟨0, "main", "Run(\"lib\")"⟩, ⟨0, 1, 1⟩, ⟨10, 1, 11⟩⟩
    let outcome := first.runScript host 16 "lib" span 0
    let otherOutcome := second.runScript other 33 "lib" span 1
    (Outcome.fault? outcome).isNone = true ∧ Outcome.Parallel first second outcome otherOutcome ∧
      (Outcome.left otherOutcome).input = (Outcome.left outcome).input ∧
      ∃ printed, (Outcome.left outcome).output.written = first.output.written ++ printed ∧
        (Outcome.left otherOutcome).output.written = second.output.written ++ printed := by
  intro text host other first second span outcome otherOutcome
  have abreast : first.Abreast second := ⟨rfl, rfl, rfl⟩
  have timeless : ∀ moment ∈ first.runLog host 16 "lib" span 0, moment.happening.timeless := by
    decide +kernel
  exact ⟨by decide +kernel,
    @runScript_parallel host other rfl rfl first second abreast 16 33 "lib" span span 0 1 timeless⟩

end Machine

end Quill
