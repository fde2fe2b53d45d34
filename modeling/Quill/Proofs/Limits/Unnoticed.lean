import Quill.Proofs.Chronicle.Evaluation

/-!
# Limits that nobody notices

All that a program can notice of a limit is the fault for exceeding it. A run in which that fault
does not arise, not even where the program goes on to handle it as a value, is the same run under
every higher limit. The clock has no part in it either as long as nobody asks for the time.
-/

namespace Quill

/-- Whether it may happen under every limit and at every time. -/
def Happening.Unlimited : Happening → Prop
  | .noted (.raised (.recursionLimit _)) => False
  | .noted (.raised (.loopLimit _)) => False
  | .noted (.invoked .time) => False
  | _ => True

instance (happening : Happening) : Decidable happening.Unlimited := by
  unfold Happening.Unlimited
  split <;> infer_instance

namespace Chronicle

/-- Two hosts whose script files are the same fit if the second one has the higher limits. -/
theorem fits_of_unlimited {host other : Host}
    (directory : other.config.baseDirectory = host.config.baseDirectory)
    (disk : other.disk = host.disk)
    (rounds : host.config.maxLoopIterations ≤ other.config.maxLoopIterations) :
    Fits Happening.Unlimited host other where
  baseDirectory := directory
  disk := disk
  clock asked := absurd asked not_false
  rounds := Or.inr ⟨rounds, not_false⟩

/-- A run that exceeds no limit and does not ask for the time ends in the same way, and with the
same state of the session, under all higher limits and at all times. The session may be in any
state, also inside activations. -/
theorem runIn_eq_of_unlimited {host other : Host}
    (directory : other.config.baseDirectory = host.config.baseDirectory)
    (disk : other.disk = host.disk)
    (depth : host.config.maxCallDepth ≤ other.config.maxCallDepth)
    (rounds : host.config.maxLoopIterations ≤ other.config.maxLoopIterations)
    {session : Session} {id : ContextId} {name text : String}
    (unlimited : ∀ moment ∈ (runProgram host session id name text).log,
      moment.happening.Unlimited) :
    (runProgram host session id name text).ending = session.runIn host id name text ∧
      session.runIn other id name text = session.runIn host id name text := by
  have told := ending_runProgram host session id name text
  refine ⟨told, ?_⟩
  have fits := fits_of_unlimited directory disk rounds
  have room : host.config.maxCallDepth - session.machine.depth ≤
      other.config.maxCallDepth - session.machine.depth :=
    Nat.sub_le_sub_right depth session.machine.depth
  have rooms := rooms_inside fits (Or.inr ⟨room, not_false⟩)
  have same := agrees_runText (agrees_evaluate fits rooms) name text id session.machine unlimited
  rw [← told, Session.runIn, Session.evaluate, same]
  rfl

/-- A program that calls a function of its own in a loop, under limits that are just high enough for
it and under higher ones. -/
theorem runIn_eq_of_unlimited_loop :
    let text := "func f(n) -> if n then f(n - 1) else 0\nPrint(for i = 0 to 3 then f(i))"
    let host : Host := ⟨{ maxCallDepth := 3, maxLoopIterations := 3 }, FileTree.disk ⟨[]⟩, 0⟩
    let other : Host := ⟨{ maxCallDepth := 4, maxLoopIterations := 9 }, FileTree.disk ⟨[]⟩, 1⟩
    let session := Session.start []
    other.config.baseDirectory = host.config.baseDirectory ∧ other.disk = host.disk ∧
      host.config.maxCallDepth ≤ other.config.maxCallDepth ∧
      host.config.maxLoopIterations ≤ other.config.maxLoopIterations ∧
      (∀ moment ∈ (runProgram host session session.globals "main" text).log,
        moment.happening.Unlimited) ∧
      (runProgram host session session.globals "main" text).ending =
          session.runIn host session.globals "main" text ∧
        session.runIn other session.globals "main" text =
          session.runIn host session.globals "main" text := by
  intro text host other session
  have directory : other.config.baseDirectory = host.config.baseDirectory := rfl
  have disk : other.disk = host.disk := rfl
  have depth : host.config.maxCallDepth ≤ other.config.maxCallDepth := by decide
  have rounds : host.config.maxLoopIterations ≤ other.config.maxLoopIterations := by decide
  have unlimited : ∀ moment ∈ (runProgram host session session.globals "main" text).log,
      moment.happening.Unlimited := by decide +kernel
  exact ⟨directory, disk, depth, rounds, unlimited,
    runIn_eq_of_unlimited directory disk depth rounds unlimited⟩

end Chronicle

end Quill
