import Quill.Proofs.Builtins.Invocations
import Quill.Proofs.Builtins.Lines
import Quill.Proofs.Execution.Basic

/-!
# Reading the input

Two built-in functions read the input, and each call of either begins where the one before has
stopped. A call for a line reads one. A call for an integer reads lines up to one that holds an
integer and answers each line before it with a complaint. It stops earlier where the input ends,
where a line is no text or where its complaint cannot be printed. Whatever happens between two
calls, as long as it leaves the input alone, the lines of all calls together are the beginning of
the input.
-/

namespace Quill

namespace Console

/-- The functions that read the input. -/
inductive Reader where
  /-- Reads a line. -/
  | line
  /-- Reads lines until one of them holds an integer. -/
  | integer

/-- The built-in function itself. -/
def Reader.builtin : Reader → Builtin
  | line => .input
  | integer => .inputInt

/-- What is printed for a line that holds no integer, with what lies between its white space. -/
def complaint (inner : String) : String :=
  "'" ++ inner ++ "' must be an integer. Try again!\n"

/-- Some lines are printed, one behind the other. -/
structure Prints (before : Output) (lines : List String) (after : Output) : Prop where
  /-- They stand behind what was written before, and nothing else does. -/
  written : after.written = before.written ++ String.join lines
  /-- The output took all of them. -/
  room : ∀ closing, before.broken = some closing → lines.length ≤ closing.room
  /-- An output that is to close has only the rest of its room left. -/
  broken : after.broken = before.broken.map fun closing =>
    { closing with room := closing.room - lines.length }

/-- Lines that hold no integers are read from the front of the input, and each is complained about
in turn. -/
structure Skips (machine : Machine) (skipped : List (List UInt8)) (input : List UInt8)
    (output : Output) : Prop where
  /-- The lines are taken, and nothing else. -/
  taken : Takes machine.input skipped input
  /-- The lines are texts without a numeral for an integer between the white space, and there is
  one complaint about each. -/
  vain : ∃ inners, List.Forall₂ Reads skipped inners ∧
    (∀ inner ∈ inners, ∀ n : Int64, ¬Numeral inner.toList n.toInt) ∧
    Prints machine.output (inners.map complaint) output

/-- The lines that a call of a function reads from the input, and how the call ends. -/
inductive Reading (call : Invocation) (machine : Machine) :
    Reader → List (List UInt8) → Outcome Value → Prop where
  /-- A line is returned without the characters that end it. -/
  | line {line input : List UInt8} {text shown : String} (taken : Takes machine.input [line] input)
      (encodes : Encodes line text) (stripped : Stripped text shown) :
      Reading call machine .line [line] (.ok (.str shown) { machine with input := input })
  /-- There is an empty text at the end of the input. -/
  | noLine (ended : machine.input = []) :
      Reading call machine .line [] (.ok (.str "") machine)
  /-- A line that is no text is a failure. -/
  | noText {line input : List UInt8} (taken : Takes machine.input [line] input)
      (garbled : ∀ text, ¬Encodes line text) :
      Reading call machine .line [line]
        (.error (.failed (call.failure (.io .notUtf8) machine.store))
          { machine with input := input })
  /-- The first integer is returned. -/
  | integer {skipped : List (List UInt8)} {line middle input : List UInt8} {output : Output}
      {inner : String} {n : Int64} (skips : Skips machine skipped middle output)
      (taken : Takes middle [line] input) (reads : Reads line inner)
      (numeral : Numeral inner.toList n.toInt) :
      Reading call machine .integer (skipped ++ [line])
        (.ok (.int n) { machine with input := input, output := output })
  /-- If there is no integer, a failure is given back. -/
  | noInteger {skipped : List (List UInt8)} {output : Output}
      (skips : Skips machine skipped [] output) :
      Reading call machine .integer skipped
        (.ok (.exception (call.failure (.io .endOfInput) machine.store))
          { machine with input := [], output := output })
  /-- A line that is no text is a failure behind other lines, too. -/
  | garbled {skipped : List (List UInt8)} {line middle input : List UInt8} {output : Output}
      (skips : Skips machine skipped middle output) (taken : Takes middle [line] input)
      (garbled : ∀ text, ¬Encodes line text) :
      Reading call machine .integer (skipped ++ [line])
        (.error (.failed (call.failure (.io .notUtf8) machine.store))
          { machine with input := input, output := output })
  /-- So is a complaint that cannot be printed. -/
  | unprinted {skipped : List (List UInt8)} {line middle input : List UInt8} {output : Output}
      {inner reason : String} (skips : Skips machine skipped middle output)
      (taken : Takes middle [line] input) (reads : Reads line inner)
      (vain : ∀ n : Int64, ¬Numeral inner.toList n.toInt)
      (closed : output.broken = some ⟨0, reason⟩) :
      Reading call machine .integer (skipped ++ [line])
        (.error (.failed (call.failure (.io (.closed reason)) machine.store))
          { machine with input := input, output := output })

/-- A call of one of the functions, and what happens before it. -/
structure Request where
  /-- The function. -/
  reader : Reader
  /-- The identity of the function. -/
  serial : Nat
  /-- The place of the call. -/
  span : Span
  /-- The context of the call. -/
  caller : ContextId
  /-- What happens before the call. -/
  before : Machine → Machine
  /-- Nothing is read before the call. -/
  unread : ∀ machine, (before machine).input = machine.input

namespace Request

variable (request : Request)

/-- The invocation of the function. -/
def invocation : Invocation :=
  Eval.invocationOf (request.reader.builtin.function request.serial) [] request.span request.caller

/-- Calls the function as programs do. -/
def perform (host : Host) (evaluate : Evaluate) : Eval Value :=
  Eval.callValue host (some evaluate)
    (.function (.builtin (request.reader.builtin.function request.serial))) [] request.span
    request.caller

end Request

/-- Calls one after the other, with the lines that each of them reads and the state behind all of
them. Failures do not keep later calls from being made. -/
inductive Conversation (host : Host) (evaluate : Evaluate) :
    Machine → List Request → List (List (List UInt8)) → Machine → Prop where
  /-- Nothing is called. -/
  | done (machine : Machine) : Conversation host evaluate machine [] [] machine
  /-- A call goes before other ones. -/
  | call {machine last : Machine} {request : Request} {requests : List Request}
      {read : List (List UInt8)} {reads : List (List (List UInt8))}
      (reading : Reading request.invocation (request.before machine) request.reader read
        (request.perform host evaluate (request.before machine)))
      (more : Conversation host evaluate
        (Outcome.machine (request.perform host evaluate (request.before machine))) requests reads
        last) :
      Conversation host evaluate machine (request :: requests) (read :: reads) last

/-! ## Complaints -/

section

variable {output middle after : Output} {line : String} {lines : List String}

theorem prints_nil (output : Output) : Prints output [] output := by
  refine ⟨(String.append_empty ..).symm, fun _ _ => Nat.zero_le _, ?_⟩
  cases output.broken <;> rfl

theorem prints_cons (first : output.print line = .ok middle) (more : Prints middle lines after) :
    Prints output (line :: lines) after := by
  obtain ⟨written, room, broken⟩ := more
  obtain ⟨text, closing⟩ := output
  obtain _ | ⟨_ | space, reason⟩ := closing
  · cases first
    exact ⟨by rw [written, String.join_cons, String.append_assoc], nofun, broken⟩
  · cases first
  · cases first
    refine ⟨by rw [written, String.join_cons, String.append_assoc], ?_, ?_⟩
    · rintro _ ⟨⟩
      exact Nat.succ_le_succ (room _ rfl)
    · rw [broken]
      simp only [Option.map_some, List.length_cons, Nat.add_sub_add_right]

theorem print_eq_error {reason : String} (refused : output.print line = .error reason) :
    output.broken = some ⟨0, reason⟩ := by
  obtain ⟨text, _ | ⟨_ | space, other⟩⟩ := output
  · cases refused
  · cases refused
    rfl
  · cases refused

/-- To complain about a line is to print what belongs to it. -/
theorem complain_eq (call : Invocation) (line : String) (machine : Machine) :
    call.complain line machine =
      match machine.output.print (complaint (String.ofList (Text.trim line.toList))) with
      | .error reason => call.raise (.io (.closed reason)) machine
      | .ok output => .ok () { machine with output := output } := by
  unfold Invocation.complain Invocation.writeLine complaint
  rw [String.append_assoc]
  rfl

end

/-! ## Single calls -/

section

variable {call : Invocation} {machine : Machine} {line input : List UInt8}

theorem skips_nil (machine : Machine) : Skips machine [] machine.input machine.output :=
  ⟨.none _, [], .nil, nofun, prints_nil _⟩

/-- A line with its complaint goes before all others. -/
theorem Skips.cons {skipped : List (List UInt8)} {middle : List UInt8} {output after : Output}
    {inner : String} (taken : Takes machine.input [line] middle) (reads : Reads line inner)
    (vain : ∀ n : Int64, ¬Numeral inner.toList n.toInt)
    (printed : machine.output.print (complaint inner) = .ok output)
    (skips : Skips { machine with input := middle, output := output } skipped input after) :
    Skips machine (line :: skipped) input after := by
  obtain ⟨inners, texts, others, prints⟩ := skips.vain
  refine ⟨taken.append skips.taken, inner :: inners, .cons reads texts, ?_,
    prints_cons printed prints⟩
  rintro _ (_ | ⟨_, member⟩)
  · exact vain
  · exact others _ member

/-- So it does before whatever a call for an integer reads. -/
theorem Reading.skip {read : List (List UInt8)} {output : Output} {outcome : Outcome Value}
    {inner : String} (taken : Takes machine.input [line] input) (reads : Reads line inner)
    (vain : ∀ n : Int64, ¬Numeral inner.toList n.toInt)
    (printed : machine.output.print (complaint inner) = .ok output)
    (reading : Reading call { machine with input := input, output := output } .integer read
      outcome) :
    Reading call machine .integer (line :: read) outcome := by
  cases reading with
  | integer skips taken' reads' numeral =>
    exact .integer (.cons taken reads vain printed skips) taken' reads' numeral
  | noInteger skips => exact .noInteger (.cons taken reads vain printed skips)
  | garbled skips taken' garbled =>
    exact .garbled (.cons taken reads vain printed skips) taken' garbled
  | unprinted skips taken' reads' vain' closed =>
    exact .unprinted (.cons taken reads vain printed skips) taken' reads' vain' closed

/-- A reading takes the lines that it reads, and nothing else. -/
theorem Reading.takes {reader : Reader} {read : List (List UInt8)} {outcome : Outcome Value}
    (reading : Reading call machine reader read outcome) :
    Takes machine.input read (Outcome.machine outcome).input := by
  cases reading with
  | line taken | noText taken => exact taken
  | noLine ended => exact .none _
  | integer skips taken | garbled skips taken | unprinted skips taken =>
    exact skips.taken.append taken
  | noInteger skips => exact skips.taken

/-- The activation that a function runs in does not matter to what it reads. -/
theorem Reading.leave {reader : Reader} {read : List (List UInt8)} {outcome : Outcome Value}
    (reading : Reading call { machine with depth := machine.depth + 1 } reader read outcome) :
    Reading call machine reader read (Eval.leave outcome) := by
  cases reading with
  | line taken encodes stripped => exact .line taken encodes stripped
  | noLine ended => exact .noLine ended
  | noText taken garbled => exact .noText taken garbled
  | integer skips taken reads numeral =>
    exact .integer ⟨skips.taken, skips.vain⟩ taken reads numeral
  | noInteger skips => exact .noInteger ⟨skips.taken, skips.vain⟩
  | garbled skips taken garbled => exact .garbled ⟨skips.taken, skips.vain⟩ taken garbled
  | unprinted skips taken reads vain closed =>
    exact .unprinted ⟨skips.taken, skips.vain⟩ taken reads vain closed

variable (call machine)

/-- How the next line is read. -/
inductive NextLine : Outcome (Option String) → Prop where
  /-- There is none. -/
  | ended (ended : machine.input = []) : NextLine (.ok none machine)
  /-- It is a text, which is shown without the characters that end the line. -/
  | text {line input : List UInt8} {text shown : String} (taken : Takes machine.input [line] input)
      (encodes : Encodes line text) (stripped : Stripped text shown) :
      NextLine (.ok (some shown) { machine with input := input })
  /-- It is no text. -/
  | garbled {line input : List UInt8} (taken : Takes machine.input [line] input)
      (garbled : ∀ text, ¬Encodes line text) :
      NextLine (.error (.failed (call.failure (.io .notUtf8) machine.store))
        { machine with input := input })

theorem nextLine_readLine : NextLine call machine (call.readLine machine) := by
  unfold Invocation.readLine
  split
  · rename_i empty
    exact .ended (List.isEmpty_iff.mp empty)
  · rename_i more
    have taken := takes_splitLine (fun empty => more (List.isEmpty_iff.mpr empty))
    dsimp only
    split
    · rename_i text decoded
      exact .text taken (decodeUtf8?_eq_some_iff.mp decoded) (stripped_shown text)
    · rename_i garbled
      refine .garbled taken fun text encodes => ?_
      rw [decodeUtf8?_eq_some_iff.mpr encodes] at garbled
      cases garbled

/-- A call for a line reads the next one. -/
theorem reading_line (host : Host) (evaluate : Evaluate) :
    ∃ read, Reading call machine .line read (call.run host evaluate .input machine) := by
  have next := nextLine_readLine call machine
  change ∃ read, Reading call machine .line read
    (EStateM.bind call.readLine (fun line => pure (.str (line.getD ""))) machine)
  unfold EStateM.bind
  generalize call.readLine machine = outcome at next ⊢
  cases next with
  | ended ended => exact ⟨[], .noLine ended⟩
  | text taken encodes stripped => exact ⟨_, .line taken encodes stripped⟩
  | garbled taken garbled => exact ⟨_, .noText taken garbled⟩

variable {machine}

/-- Without any input, nothing is read. -/
theorem reading_ended (ended : machine.input = []) :
    Reading call machine .integer [] (call.exception (.io .endOfInput) machine) := by
  have skips := skips_nil machine
  rw [ended] at skips
  have reading : Reading call machine .integer [] _ := .noInteger skips
  rwa [← ended] at reading

/-- A call for an integer reads lines as long as it has to. There cannot be more of them than there
are bytes, so by induction on their number nothing else ends it. -/
theorem reading_integer (lines : Nat) (enough : machine.input.length ≤ lines) :
    ∃ read, Reading call machine .integer read (call.readInteger lines machine) := by
  induction lines generalizing machine with
  | zero => exact ⟨[], reading_ended call (List.eq_nil_of_length_eq_zero (Nat.le_zero.mp enough))⟩
  | succ lines ih =>
    have next := nextLine_readLine call machine
    change ∃ read, Reading call machine .integer read (EStateM.bind call.readLine _ machine)
    unfold EStateM.bind
    generalize call.readLine machine = outcome at next ⊢
    cases next with
    | ended ended => exact ⟨[], reading_ended call ended⟩
    | garbled taken garbled => exact ⟨_, .garbled (skips_nil machine) taken garbled⟩
    | @text line input text shown taken encodes stripped =>
      have cut := trimmed_trim shown
      have reads : Reads line _ := ⟨text, encodes, (trimmed_iff_of_stripped stripped).mp cut⟩
      dsimp only
      cases found : integer? shown with
      | some n =>
        have numeral := (integer?_eq_some_iff cut).mp found
        exact ⟨_, .integer (skips_nil machine) taken reads numeral⟩
      | none =>
        have vain (n : Int64) : ¬Numeral _ n.toInt := fun numeral => by
          rw [(integer?_eq_some_iff cut).mpr numeral] at found
          cases found
        change ∃ read, Reading call machine .integer read
          (EStateM.bind (call.complain shown) _ { machine with input := input })
        rw [EStateM.bind, complain_eq]
        cases printed : machine.output.print _ with
        | error reason =>
          exact ⟨_, .unprinted (skips_nil machine) taken reads vain (print_eq_error printed)⟩
        | ok output =>
          have fewer : input.length ≤ lines := Nat.le_of_lt_succ (taken.length_lt.trans_le enough)
          obtain ⟨read, reading⟩ := @ih { machine with input := input, output := output } fewer
          exact ⟨line :: read, .skip taken reads vain printed reading⟩

end

/-! ## Conversations -/

section

variable (host : Host) (evaluate : Evaluate)

/-- Every call is a reading. -/
theorem Request.exists_reading (request : Request) (machine : Machine) :
    ∃ read, Reading request.invocation machine request.reader read
      (request.perform host evaluate machine) := by
  have arity : ([] : List Value).length = request.reader.builtin.parameters.length := by
    cases request.reader <;> rfl
  have inside : ∃ read, Reading request.invocation { machine with depth := machine.depth + 1 }
      request.reader read (request.invocation.run host evaluate request.reader.builtin
        { machine with depth := machine.depth + 1 }) := by
    cases request.reader with
    | line => exact reading_line _ _ host evaluate
    | integer => exact reading_integer _ _ (Nat.le_refl _)
  obtain ⟨read, reading⟩ := inside
  rw [Request.perform, Eval.callValue_builtin host evaluate _ _ _ arity]
  exact ⟨read, reading.leave⟩

/-- The lines that the calls of a conversation read are taken from the input in their order. -/
theorem Conversation.takes {machine last : Machine} {requests : List Request}
    {reads : List (List (List UInt8))}
    (conversation : Conversation host evaluate machine requests reads last) :
    Takes machine.input reads.flatten last.input := by
  induction conversation with
  | done machine => exact .none _
  | @call machine last request requests read reads reading more ih =>
    have taken := reading.takes
    rw [request.unread] at taken
    exact taken.append ih

theorem exists_conversation (machine : Machine) (requests : List Request) :
    ∃ reads last, Conversation host evaluate machine requests reads last := by
  induction requests generalizing machine with
  | nil => exact ⟨[], machine, .done machine⟩
  | cons request requests ih =>
    obtain ⟨read, reading⟩ := request.exists_reading host evaluate (request.before machine)
    obtain ⟨reads, last, more⟩ := ih (Outcome.machine _)
    exact ⟨read :: reads, last, .call reading more⟩

/-- However calls for lines and for integers follow one another, each of them ends as it should, and
the lines that they read, in the order of the calls, are those at the beginning of the input. What
is left of the input is what stands behind these lines. -/
theorem reads_lines_in_order (machine : Machine) (requests : List Request) :
    ∃ reads last, Conversation host evaluate machine requests reads last ∧
      Takes machine.input reads.flatten last.input ∧
      machine.input = reads.flatten.flatten ++ last.input := by
  obtain ⟨reads, last, conversation⟩ := exists_conversation host evaluate machine requests
  have taken := conversation.takes
  exact ⟨reads, last, conversation, taken, taken.eq_append⟩

end

end Console

end Quill
