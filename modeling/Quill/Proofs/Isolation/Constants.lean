import Quill.Proofs.Isolation.Program

/-!
# Constants

Programs cannot lose the constants and cannot make any more of them. Whatever programs have been run
in a session, each outermost context binds the constants to their values for good, and everything
else that is bound anywhere may be bound again. So a binding is refused in one case only, and always
in this case: if the name is that of a constant and the context is an outermost one.
-/

namespace Quill

/-- The sessions that there are if programs are run and nothing is bound or called from outside. -/
inductive Session.Programmed : Session → Prop where
  /-- A new session. -/
  | start (input : List UInt8) : Programmed (.start input)
  /-- A program has been run, however it ended. -/
  | run {session : Session} (host : Host) (name text : String) (programmed : Programmed session) :
      Programmed (session.run host name text).2
  /-- A program has been run in an outermost context of its own. -/
  | runFresh {session : Session} (host : Host) (name text : String)
      (programmed : Programmed session) : Programmed (session.runFresh host name text).2
  /-- An identity has been given away. -/
  | freshId {session : Session} (programmed : Programmed session) : Programmed session.freshId.2
  /-- The output has been made to fail or to work. -/
  | breakOutput {session : Session} (reason : Option String) (programmed : Programmed session) :
      Programmed (session.breakOutput reason)
  /-- The output has been taken. -/
  | takeOutput {session : Session} (programmed : Programmed session) :
      Programmed session.takeOutput.2

namespace Transcript

/-- The run of a program from a state in a context, with all that is done in it. -/
def program (host : Host) (machine : Machine) (id : ContextId) (name text : String) :
    Transcript (Except Error Value) :=
  runIn id (evaluate host (host.config.maxCallDepth - machine.depth)) name text

/-- The step of the transcript is the run. -/
theorem step_program (host : Host) (session : Session) (id : ContextId) (name text : String) :
    let ran := session.runIn host id name text
    (program host session.machine id name text).step session.machine =
      .ok ran.1 ran.2.machine := by
  rw [program, runIn, plain_evaluate]
  rfl

/-- Constants are constants throughout the run of a program that began in an outermost context. -/
structure Orderly (before : Machine) (id : ContextId) (deeds : List Deed)
    (result : Except Error Value) (after : Machine) : Prop where
  /-- The program was run in an outermost context. -/
  outermost : before.store.Global id
  /-- Outermost contexts stay what they are. -/
  stay : ∀ other, before.store.Global other → after.store.Global other
  /-- In the end the bindings are canonical everywhere. -/
  canonical : after.store.Canonical 0
  /-- So they were all the time, and the constants of outermost contexts were refused another value,
  but nothing else was refused one. -/
  proper : Deed.AllProper (Store.Canonical 0) deeds
  /-- The fault of the program is the one of something that was done in it. -/
  disclosed : ∀ failure, result = .error (.running failure) → Deed.Disclose deeds failure.fault

theorem orderly_program (host : Host) {session : Session} (sealed : session.machine.Sealed 0)
    {id : ContextId} (outermost : session.machine.store.Global id) (name text : String) :
    let ran := session.runIn host id name text
    Orderly session.machine id
        ((program host session.machine id name text).deeds session.machine) ran.1 ran.2.machine ∧
      ran.2.machine.Sealed 0 := by
  intro ran
  have lawful : Lawful 0 (evaluate host (host.config.maxCallDepth - session.machine.depth)) :=
    fun _ expr _ between => obeys_evaluate host _ expr between
  have ⟨_, found, _⟩ := outermost
  have known := Store.lt_size_of_context?_eq_some found
  obtain ⟨obeyed, -⟩ := obeys_runIn lawful ⟨Nat.zero_le id, known⟩ name text sealed (Nat.le_refl _)
  have step := step_program host session id name text
  rw [program] at step
  rw [step] at obeyed
  refine ⟨⟨outermost, fun other => obeyed.kept.global, obeyed.kept.sealed.canonical, ?_, ?_⟩,
    obeyed.sealed sealed⟩
  · exact fun deed among => (obeyed.proper deed among).imp fun _ => Store.Sealed.canonical
  · intro failure ended
    apply disclose_textDeeds
    rw [plain_evaluate]
    exact congrArg scriptFault ended

end Transcript

/-- A session whose contexts refer to nothing that does not exist. -/
structure Session.Sealed (session : Session) : Prop where
  /-- The contexts are sealed. -/
  machine : session.machine.Sealed 0
  /-- There is an outermost context for programs. -/
  outermost : session.machine.store.Global session.globals

namespace Machine

variable {machine : Machine}

/-- A new outermost context is one, and so are the older ones. -/
theorem Sealed.addGlobals (sealed : machine.Sealed 0) :
    machine.addGlobals.2.Sealed 0 ∧ machine.addGlobals.2.store.Global machine.addGlobals.1 ∧
      ∀ id, machine.store.Global id → machine.addGlobals.2.store.Global id := by
  obtain ⟨keeps, -⟩ := keeps_addGlobals sealed.store (Nat.zero_le _)
  refine ⟨⟨keeps.sealed, ?_⟩, ?_, fun _ => keeps.global⟩
  · intro value exported
    rw [exported_addGlobals] at exported
    exact (sealed.exported value exported).mono keeps.size
  · rw [addGlobals_eq]
    exact ⟨_, (Store.context?_add _ _ _).trans (if_pos rfl), rfl⟩

end Machine

theorem Session.Programmed.sealed {session : Session} (programmed : session.Programmed) :
    session.Sealed := by
  induction programmed with
  | start input =>
    have empty : (⟨.empty, 1, 0, none, input, ⟨"", none⟩, []⟩ : Machine).Sealed 0 := by
      refine ⟨Store.sealed_size .empty, ?_⟩
      rintro value ⟨⟩
    obtain ⟨sealed, outermost, -⟩ := empty.addGlobals
    exact ⟨sealed, outermost⟩
  | run host name text programmed ih =>
    obtain ⟨orderly, sealed⟩ := Transcript.orderly_program host ih.machine ih.outermost name text
    exact ⟨sealed, orderly.stay _ ih.outermost⟩
  | @runFresh session host name text programmed ih =>
    obtain ⟨fresh, outermost, stay⟩ := ih.machine.addGlobals
    let begun : Session := { session with machine := session.machine.addGlobals.2 }
    obtain ⟨orderly, sealed⟩ := @Transcript.orderly_program host begun fresh _ outermost name text
    exact ⟨sealed, orderly.stay _ (stay _ ih.outermost)⟩
  | freshId programmed ih => exact ⟨⟨ih.machine.store, ih.machine.exported⟩, ih.outermost⟩
  | breakOutput reason programmed ih =>
    exact ⟨⟨ih.machine.store, ih.machine.exported⟩, ih.outermost⟩
  | takeOutput programmed ih => exact ⟨⟨ih.machine.store, ih.machine.exported⟩, ih.outermost⟩

/-- In a session in which programs have been run, all outermost contexts bind the constants to their
values for good, and nothing else is bound for good. This stays so in all states of a further run,
in the outermost context of the session or in a new one. In such a run a name is refused a value
exactly if it is the name of a constant and is to be bound in an outermost context. -/
theorem constants_immutable {session : Session} (programmed : session.Programmed) :
    Machine.constants = [("null", .null), ("true", .int 1), ("false", .int 0)] ∧
      session.machine.store.Canonical 0 ∧ session.machine.store.Global session.globals ∧
      ∀ (host : Host) (name text : String),
        (let told := Transcript.program host session.machine session.globals name text
          let ran := session.run host name text
          told.step session.machine = .ok ran.1 ran.2.machine ∧
            Transcript.Orderly session.machine session.globals (told.deeds session.machine) ran.1
              ran.2.machine) ∧
          let (globals, begun) := session.machine.addGlobals
          let told := Transcript.program host begun globals name text
          let ran := session.runFresh host name text
          (∀ id, session.machine.store.Global id → begun.store.Global id) ∧
            told.step begun = .ok ran.1 ran.2.machine ∧
            Transcript.Orderly begun globals (told.deeds begun) ran.1 ran.2.machine := by
  obtain ⟨sealed, outermost⟩ := programmed.sealed
  refine ⟨rfl, sealed.store.canonical, outermost, fun host name text => ⟨?_, ?_⟩⟩
  · obtain ⟨orderly, -⟩ := Transcript.orderly_program host sealed outermost name text
    exact ⟨Transcript.step_program host session session.globals name text, orderly⟩
  · obtain ⟨fresh, new, stay⟩ := sealed.addGlobals
    let begun : Session := { session with machine := session.machine.addGlobals.2 }
    obtain ⟨orderly, -⟩ := @Transcript.orderly_program host begun fresh _ new name text
    exact ⟨stay, Transcript.step_program host begun session.machine.addGlobals.1 name text, orderly⟩

/-- A function that one program has defined shadows a constant by its parameter and assigns to it.
Another program calls the function, which goes well, and then tries to assign to a constant. -/
theorem constants_immutable_shadowed :
    let host : Host := ⟨{}, fun _ => .error .notFound, 0⟩
    let before := Session.start []
    let session := (before.run host "first" "func f(null)\n  null = 2\n  return null\nend").2
    let text := "f(1)\ntrue = 0"
    let told := Transcript.program host session.machine session.globals "main" text
    let ran := session.run host "main" text
    session.Programmed ∧
      Transcript.Orderly session.machine session.globals (told.deeds session.machine) ran.1
        ran.2.machine ∧
      Deed.Disclose (told.deeds session.machine) (.immutableBinding "true") := by
  intro host before session text told ran
  have programmed : session.Programmed := .run host "first" _ (.start [])
  obtain ⟨-, -, -, runs⟩ := constants_immutable programmed
  have orderly := (runs host "main" text).1.2
  have refused : Transcript.scriptFault ran.1 = some (.immutableBinding "true") := by
    decide +kernel
  obtain ⟨failure, ended, same⟩ := Transcript.exists_of_scriptFault refused
  exact ⟨programmed, orderly, same ▸ orderly.disclosed failure ended⟩

end Quill
