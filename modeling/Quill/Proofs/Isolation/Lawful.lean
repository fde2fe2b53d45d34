import Quill.Proofs.Isolation.Steps
import Quill.Proofs.Transcript.Plain

/-!
# Lawful transcripts

What is done in sealed contexts is lawful: the contexts stay sealed at every deed, and a name is
refused a value exactly where it is a constant in an outermost context. What is exported at the end
has been exported last on the way, or was there before.

The laws are kept by every way to put transcripts together, so that they need not be shown for
anything but the parts.
-/

namespace Quill

mutual

/-- What a deed exports on behalf of the script that it is a deed of. A script that is included
exports for the one that includes it, and a script that is run on its own for nobody else. -/
def Deed.export? : Deed → Option Value
  | .invoked call .exportValue _ => some (call.argument "value")
  | .invoked _ .includeScript inside => Deed.lastExport? inside
  | _ => none

/-- The value that was exported last, if any was. -/
def Deed.lastExport? : List Deed → Option Value
  | [] => none
  | deed :: rest => (Deed.lastExport? rest).or deed.export?

end

namespace Deed

@[simp] theorem lastExport?_nil : lastExport? [] = none := by
  rw [lastExport?]

@[simp] theorem lastExport?_cons (deed : Deed) (rest : List Deed) :
    lastExport? (deed :: rest) = (lastExport? rest).or deed.export? := by
  rw [lastExport?]

@[simp] theorem export?_stepped (fault : Option Fault) (after : Machine) :
    (stepped fault after).export? = none := by
  rw [export?]
  · rintro _ _ ⟨⟩
  · rintro _ _ ⟨⟩

@[simp] theorem export?_tried (attempt : Attempt) (fault : Option Fault) (after : Machine) :
    (tried attempt fault after).export? = none := by
  rw [export?]
  · rintro _ _ ⟨⟩
  · rintro _ _ ⟨⟩

@[simp] theorem export?_exportValue (call : Invocation) (inside : List Deed) :
    (invoked call .exportValue inside).export? = some (call.argument "value") := by
  rw [export?]

@[simp] theorem export?_includeScript (call : Invocation) (inside : List Deed) :
    (invoked call .includeScript inside).export? = lastExport? inside := by
  rw [export?]

/-- No other built-in function exports anything for its caller. -/
theorem export?_invoked {builtin : Builtin} (exports : builtin ≠ .exportValue)
    (includes : builtin ≠ .includeScript) (call : Invocation) (inside : List Deed) :
    (invoked call builtin inside).export? = none := by
  rw [export?]
  · rintro _ _ ⟨⟩
    exact exports rfl
  · rintro _ _ ⟨⟩
    exact includes rfl

theorem lastExport?_append (first second : List Deed) :
    lastExport? (first ++ second) = (lastExport? second).or (lastExport? first) := by
  induction first with
  | nil => simp
  | cons deed rest ih => rw [List.cons_append, lastExport?_cons, lastExport?_cons, ih,
      Option.or_assoc]

/-- The deed has left a store in which something holds. A binding was refused exactly if it was one
of a constant in an outermost context, and no other step had such a fault. -/
def Proper (holds : Store → Prop) : Deed → Prop
  | .tried attempt fault after =>
    holds after.store ∧ (fault = none ∨ fault = some (.immutableBinding attempt.name)) ∧
      (fault = some (.immutableBinding attempt.name) ↔
        after.store.Global attempt.target ∧ Machine.IsConstant attempt.name)
  | .stepped fault after =>
    holds after.store ∧ ∀ name, fault ≠ some (.immutableBinding name)
  | .invoked _ _ _ => True

theorem Proper.imp {holds also : Store → Prop} (implies : ∀ store, holds store → also store)
    {deed : Deed} (proper : deed.Proper holds) : deed.Proper also := by
  cases deed with
  | tried attempt fault after => exact ⟨implies _ proper.1, proper.2⟩
  | stepped fault after => exact ⟨implies _ proper.1, proper.2⟩
  | invoked call builtin inside => trivial

/-- All deeds are proper, and so is all that is done in them. -/
def AllProper (holds : Store → Prop) (deeds : List Deed) : Prop :=
  ∀ deed, Among deed deeds → deed.Proper holds

variable {holds : Store → Prop}

theorem allProper_nil : AllProper holds [] :=
  fun _ among => absurd among not_among_nil

theorem AllProper.append {first second : List Deed} (firsts : AllProper holds first)
    (seconds : AllProper holds second) : AllProper holds (first ++ second) :=
  fun deed among => (among_append.mp among).elim (firsts deed) (seconds deed)

theorem AllProper.invoked {inside : List Deed} (insides : AllProper holds inside)
    (call : Invocation) (builtin : Builtin) : AllProper holds [.invoked call builtin inside] := by
  intro deed among
  obtain rfl | inner := among_invoked.mp among
  · trivial
  · exact insides deed inner

theorem allProper_tried {attempt : Attempt} {fault : Option Fault} {after : Machine}
    (proper : (tried attempt fault after).Proper holds) :
    AllProper holds [.tried attempt fault after] := by
  rintro deed (listed | ⟨listed, -⟩)
  · exact List.mem_singleton.mp listed ▸ proper
  · cases List.mem_singleton.mp listed

theorem allProper_stepped {fault : Option Fault} {after : Machine} (held : holds after.store)
    (unrefused : ∀ other, fault = some other → ¬other.Refuses) :
    AllProper holds [.stepped fault after] := by
  rintro deed (listed | ⟨listed, -⟩)
  · obtain rfl := List.mem_singleton.mp listed
    exact ⟨held, fun name same => unrefused _ same trivial⟩
  · cases List.mem_singleton.mp listed

end Deed

namespace Transcript

variable {Result Other : Type}

/-! ## Sequences -/

section

variable {first : Transcript Result} (next : Result → Transcript Other) {machine after : Machine}

theorem step_bind_ok {result : Result} (ended : first.step machine = .ok result after) :
    (first >>= next).step machine = (next result).step after := by
  change EStateM.bind first.step _ machine = _
  rw [EStateM.bind, ended]

theorem deeds_bind_ok {result : Result} (ended : first.step machine = .ok result after) :
    (first >>= next).deeds machine = first.deeds machine ++ (next result).deeds after := by
  change (andThen first next).deeds machine = _
  simp only [andThen, ended]

theorem step_bind_error {signal : Signal} (ended : first.step machine = .error signal after) :
    (first >>= next).step machine = .error signal after := by
  change EStateM.bind first.step _ machine = _
  rw [EStateM.bind, ended]

theorem deeds_bind_error {signal : Signal} (ended : first.step machine = .error signal after) :
    (first >>= next).deeds machine = first.deeds machine := by
  change (andThen first next).deeds machine = _
  simp only [andThen, ended]

end

/-! ## The laws -/

/-- Deeds have led from one state to another one, and all of them were lawful. -/
structure Obeyed (base : Nat) (before : Machine) (deeds : List Deed) (after : Machine) : Prop where
  /-- Older contexts are left as they are. -/
  kept : before.Keeps base after
  /-- What is exported has been exported last. -/
  exported : after.exported = (Deed.lastExport? deeds).or before.exported
  /-- It does not lead to older contexts. -/
  exports : ∀ value, Deed.lastExport? deeds = some value → value.Within base after.store.size
  /-- Every deed is proper. -/
  proper : Deed.AllProper (Store.Sealed base) deeds

variable {base size : Nat} {before between after : Machine} {deeds more : List Deed}

theorem Obeyed.trans (first : Obeyed base before deeds between)
    (second : Obeyed base between more after) : Obeyed base before (deeds ++ more) after where
  kept := first.kept.trans second.kept
  exported := by rw [second.exported, first.exported, Deed.lastExport?_append, Option.or_assoc]
  exports value found := by
    rw [Deed.lastExport?_append, Option.or_eq_some_iff] at found
    obtain late | ⟨-, early⟩ := found
    · exact second.exports value late
    · exact (first.exports value early).mono second.kept.size
  proper := first.proper.append second.proper

theorem Obeyed.sealed (obeyed : Obeyed base before deeds after) (sealed : before.Sealed base) :
    after.Sealed base where
  store := obeyed.kept.sealed
  exported value found := by
    rw [obeyed.exported, Option.or_eq_some_iff] at found
    obtain late | ⟨-, early⟩ := found
    · exact obeyed.exports value late
    · exact (sealed.exported value early).mono obeyed.kept.size

theorem Obeyed.nothing (kept : before.Keeps base after) (same : after.exported = before.exported) :
    Obeyed base before [] after where
  kept := kept
  exported := by simp [same]
  exports value found := by simp at found
  proper := Deed.allProper_nil

/-- A step that is nothing else to be told of. -/
theorem Obeyed.stepped (kept : before.Keeps base after) (same : after.exported = before.exported)
    {fault : Option Fault} (unrefused : ∀ other, fault = some other → ¬other.Refuses) :
    Obeyed base before [.stepped fault after] after where
  kept := kept
  exported := by simp [same]
  exports value found := by simp at found
  proper := Deed.allProper_stepped kept.sealed unrefused

/-- From all sealed states with at least `size` contexts, what is done is lawful. -/
def Obeys (base size : Nat) (post : Nat → Result → Prop) (told : Transcript Result) : Prop :=
  ∀ ⦃machine : Machine⦄, machine.Sealed base → size ≤ machine.store.size →
    Obeyed base machine (told.deeds machine) (Outcome.left (told.step machine)) ∧
      Outcome.Ends base post (told.step machine)

variable {post : Nat → Result → Prop}

theorem obeys_pure {result : Result} (results : ∀ more, size ≤ more → post more result) :
    Obeys base size post (pure result) :=
  fun _ sealed enough => ⟨.nothing (.refl sealed.store) rfl, results _ enough⟩

theorem obeys_bind {post : Nat → Other → Prop} {middle : Nat → Result → Prop}
    {first : Transcript Result} {next : Result → Transcript Other}
    (firsts : Obeys base size middle first)
    (nexts : ∀ more, size ≤ more → ∀ result, middle more result →
      Obeys base more post (next result)) : Obeys base size post (first >>= next) := by
  intro machine sealed enough
  obtain ⟨obeyed, ends⟩ := firsts sealed enough
  cases ended : first.step machine with
  | error signal between =>
    rw [step_bind_error next ended, deeds_bind_error next ended]
    rw [ended] at obeyed ends
    exact ⟨obeyed, ends⟩
  | ok result between =>
    rw [step_bind_ok next ended, deeds_bind_ok next ended]
    rw [ended] at obeyed ends
    have grown := Nat.le_trans enough obeyed.kept.size
    obtain ⟨later, finally'⟩ := nexts _ grown result ends (obeyed.sealed sealed) (Nat.le_refl _)
    exact ⟨obeyed.trans later, finally'⟩

theorem obeys_ite {condition : Prop} [Decidable condition] {told other : Transcript Result}
    (yes : Obeys base size post told) (no : Obeys base size post other) :
    Obeys base size post (if condition then told else other) := by
  split
  · exact yes
  · exact no

theorem obeys_perform {step : Eval Result} (confined : Confined base size post step) :
    Obeys base size post (perform step) := by
  intro machine sealed enough
  have ended := confined sealed.store enough
  exact ⟨.stepped ended.kept ended.exported ended.unrefused, ended.ends⟩

theorem obeys_raise {fault : Fault} {span : Span} {id : ContextId} (unrefused : ¬fault.Refuses) :
    Obeys base size post (perform (Eval.raise fault span id)) :=
  obeys_perform (.raise unrefused)

theorem obeys_orRaise {result : Except Fault Result} (unrefused : Unrefused result)
    (results : ∀ value, result = .ok value → ∀ more, size ≤ more → post more value) (span : Span)
    (id : ContextId) : Obeys base size post (orRaise result span id) := by
  cases result with
  | ok value => exact obeys_pure (results value rfl)
  | error fault => exact obeys_raise unrefused

/-- Giving a value to a name fails if the name is a constant in an outermost context, and in no
other case. -/
theorem obeys_assign {target : ContextId} (since : base ≤ target) (name : String) {value : Value}
    (within : value.Within base size) (span : Span) (id : ContextId) :
    Obeys base size (fun _ _ => True) (assign target name value span id) := by
  intro machine sealed enough
  have protect : machine.store.protects target name = true ↔ _ :=
    sealed.store.canonical.protects_iff since
  unfold assign attempt
  dsimp only
  rw [Eval.assign]
  cases held : machine.store.protects target name with
  | true =>
    have proper : (Deed.tried ⟨target, name, value⟩ (some (.immutableBinding name)) machine).Proper
        (Store.Sealed base) :=
      ⟨sealed.store, .inr rfl, fun _ => protect.mp held, fun _ => rfl⟩
    refine ⟨⟨.refl sealed.store, ?_, ?_, Deed.allProper_tried proper⟩, trivial⟩
    · simp [Eval.raise, Outcome.left]
    · simp
  | false =>
    have free : ¬(machine.store.Global target ∧ Machine.IsConstant name) := fun both => by
      rw [protect.mpr both] at held
      cases held
    have kept := Store.Keeps.define sealed.store since held (within.mono enough)
    have stays : (machine.store.define target name value true).Global target →
        machine.store.Global target := by
      rintro ⟨context, found, outermost⟩
      rw [Store.define, Store.context?_updateTable, Option.map_eq_some_iff] at found
      obtain ⟨earlier, known, rfl⟩ := found
      rw [if_pos rfl] at outermost
      exact ⟨earlier, known, outermost⟩
    have proper : (Deed.tried ⟨target, name, value⟩ none
        { machine with store := machine.store.define target name value true }).Proper
          (Store.Sealed base) := by
      refine ⟨kept.sealed, .inl rfl, ?_, fun both => absurd ⟨stays both.1, both.2⟩ free⟩
      rintro ⟨⟩
    refine ⟨⟨kept, ?_, ?_, Deed.allProper_tried proper⟩, trivial⟩
    · simp [Outcome.left]
    · simp

/-- Looking at an outcome from outside is lawful, if no refusal arises there. -/
theorem obeys_regard {later : Nat → Other → Prop} {view : View Result Other}
    {told : Transcript Result} (obeys : Obeys base size post told)
    (stores : ∀ outcome, (Outcome.left (view.see outcome)).store = (Outcome.left outcome).store)
    (exports : ∀ outcome,
      (Outcome.left (view.see outcome)).exported = (Outcome.left outcome).exported)
    (ends : ∀ outcome, size ≤ (Outcome.left outcome).store.size → Outcome.Ends base post outcome →
      Outcome.Ends base later (view.see outcome))
    (unrefused : ∀ outcome fault, Outcome.fault? outcome = none →
      Outcome.fault? (view.see outcome) = some fault → ¬fault.Refuses) :
    Obeys base size later (regard view told) := by
  intro machine sealed enough
  obtain ⟨obeyed, ended⟩ := obeys sealed enough
  have grown := Nat.le_trans enough obeyed.kept.size
  refine ⟨?_, ends _ grown ended⟩
  change Obeyed base machine (told.deeds machine ++ _) (Outcome.left (view.see (told.step machine)))
  generalize told.step machine = outcome at *
  have kept : (Outcome.left outcome).Keeps base (Outcome.left (view.see outcome)) := by
    rw [Machine.Keeps, stores outcome]
    exact .refl obeyed.kept.sealed
  apply obeyed.trans
  unfold arising
  split
  · rename_i fault none some
    refine .stepped kept (exports outcome) ?_
    rintro other ⟨⟩
    exact unrefused outcome fault none some
  · exact .nothing kept (exports outcome)

theorem obeys_during {told : Transcript Result} (obeys : Obeys base size post told) :
    Obeys base size post (during told) := by
  intro machine sealed enough
  let opened := { machine with depth := machine.depth + 1 }
  have begun : opened.Sealed base := ⟨sealed.store, sealed.exported⟩
  obtain ⟨obeyed, ends⟩ := obeys begun enough
  change Obeyed base machine (told.deeds opened) (Outcome.left (Eval.leave (told.step opened))) ∧
    Outcome.Ends base post (Eval.leave (told.step opened))
  generalize told.step opened = outcome at *
  cases outcome with
  | ok result after =>
    exact ⟨⟨obeyed.kept, obeyed.exported, obeyed.exports, obeyed.proper⟩, ends⟩
  | error signal after =>
    exact ⟨⟨obeyed.kept, obeyed.exported, obeyed.exports, obeyed.proper⟩, ends⟩

/-! ## Loops -/

theorem obeys_round {body : Transcript Value} (obeys : Obeys base size (Inside base) body) :
    Obeys base size (fun more => Loop.Round.Has (Value.Within base more)) (round body) := by
  apply obeys_regard obeys
  · rintro (_ | ⟨_ | _ | _ | _, _⟩) <;> rfl
  · rintro (_ | ⟨_ | _ | _ | _, _⟩) <;> rfl
  · rintro (_ | ⟨_ | _ | _ | _, _⟩) _ ends
    · exact ends
    · trivial
    · exact ends
    · trivial
    · trivial
  · rintro (_ | ⟨_ | _ | _ | _, _⟩) fault none some <;> cases none <;> cases some

theorem allInside_mono {values : List Value} (all : ∀ value ∈ values, value.Within base size)
    {more : Nat} (grows : size ≤ more) : ∀ value ∈ values, value.Within base more :=
  fun value member => (all value member).mono grows

theorem obeys_repeatWhile {condition body : Transcript Value} {tooLong : Transcript (List Value)}
    (conditions : ∀ more, size ≤ more → Obeys base more (Inside base) condition)
    (bodies : ∀ more, size ≤ more → Obeys base more (Inside base) body)
    (ends : ∀ more, Obeys base more (AllInside base) tooLong) (keep : Bool) (rounds : Nat)
    {values : List Value} (earlier : ∀ value ∈ values, value.Within base size) :
    Obeys base size (AllInside base) (repeatWhile condition body keep tooLong rounds values) := by
  induction rounds generalizing size values with
  | zero =>
    apply obeys_bind (conditions size (Nat.le_refl _))
    intro more grown truth _
    exact obeys_ite (ends more) (obeys_pure fun _ grows =>
      allInside_mono earlier (Nat.le_trans grown grows))
  | succ rounds ih =>
    apply obeys_bind (conditions size (Nat.le_refl _))
    intro more grown truth _
    have before := allInside_mono earlier grown
    apply obeys_ite _ (obeys_pure fun _ => allInside_mono before)
    apply obeys_bind (obeys_round (bodies more grown))
    intro most also ended last
    have all := Loop.forall_mem_collect (allInside_mono before also) keep last
    have through := Nat.le_trans grown also
    cases ended with
    | left => exact obeys_pure fun _ grows => allInside_mono before (Nat.le_trans also grows)
    | value result =>
      exact ih (fun _ grows => conditions _ (Nat.le_trans through grows))
        (fun _ grows => bodies _ (Nat.le_trans through grows)) all
    | skipped =>
      exact ih (fun _ grows => conditions _ (Nat.le_trans through grows))
        (fun _ grows => bodies _ (Nat.le_trans through grows)) all

theorem obeys_count {body : Int64 → Transcript Value} {tooLong : Transcript (List Value)}
    (bodies : ∀ more, size ≤ more → ∀ counter, Obeys base more (Inside base) (body counter))
    (ends : ∀ more, Obeys base more (AllInside base) tooLong) (keep : Bool) (stop step : Int64)
    (rounds : Nat) (counter : Int64) {values : List Value}
    (earlier : ∀ value ∈ values, value.Within base size) :
    Obeys base size (AllInside base) (count body keep tooLong stop step rounds counter values) := by
  induction rounds generalizing size counter values with
  | zero => exact obeys_ite (ends size) (obeys_pure fun _ => allInside_mono earlier)
  | succ rounds ih =>
    apply obeys_ite _ (obeys_pure fun _ => allInside_mono earlier)
    apply obeys_bind (obeys_round (bodies size (Nat.le_refl _) counter))
    intro more grown ended last
    have before := allInside_mono earlier grown
    have all := Loop.forall_mem_collect before keep last
    have further (next : Int64) := ih (fun _ grows => bodies _ (Nat.le_trans grown grows)) next all
    cases Integer.add? counter step with
    | none =>
      cases ended with
      | left => exact obeys_pure fun _ => allInside_mono before
      | value result => exact obeys_pure fun _ => allInside_mono all
      | skipped => exact obeys_pure fun _ => allInside_mono all
    | some next =>
      cases ended with
      | left => exact obeys_pure fun _ => allInside_mono before
      | value result => exact further next
      | skipped => exact further next

end Transcript

end Quill
