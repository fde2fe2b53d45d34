import Quill.Proofs.Instances.Reached

/-!
# Parameters

The body of a function begins in a context that is added for the call. There, a parameter has the
value of its argument, and of several parameters of one name the last one counts. Whatever is not a
parameter has the value that it has where the function was defined. Nothing is added for a call with
too many or too few arguments, which fails in the state that it was made in.
-/

namespace Quill

/-! ## Tables of arguments -/

namespace Table

variable {name : String} {parameters : List String} {arguments : List Value}

/-- Names that are not bound keep the values that they have. -/
theorem value?_foldl_of_notMem (free : name ∉ parameters) (table : Table) :
    ((parameters.zip arguments).foldl (fun table (name, value) => table.define name value true)
      table).value? name = table.value? name := by
  induction parameters generalizing arguments table with
  | nil => rfl
  | cons parameter rest ih =>
    obtain ⟨different, others⟩ := not_or.mp fun either => free (List.mem_cons.mpr either)
    cases arguments with
    | nil => rfl
    | cons argument more =>
      rw [List.zip_cons_cons, List.foldl_cons, ih others, value?_define, if_neg different]

theorem value?_ofArguments_of_notMem (free : name ∉ parameters) :
    (ofArguments parameters arguments).value? name = none :=
  value?_foldl_of_notMem free empty

/-- The last parameter of a name is bound to its argument, whatever was bound before. -/
theorem value?_foldl {index : Nat} {argument : Value} (parameter : parameters[index]? = some name)
    (given : arguments[index]? = some argument)
    (last : ∀ later, index < later → parameters[later]? ≠ some name) (table : Table) :
    ((parameters.zip arguments).foldl (fun table (name, value) => table.define name value true)
      table).value? name = some argument := by
  induction parameters generalizing arguments index table with
  | nil => cases parameter
  | cons first rest ih =>
    cases arguments with
    | nil => cases given
    | cons value more =>
      rw [List.zip_cons_cons, List.foldl_cons]
      cases index with
      | zero =>
        obtain rfl := Option.some.inj parameter
        obtain rfl := Option.some.inj given
        have free : first ∉ rest := fun member => by
          obtain ⟨later, found⟩ := List.getElem?_of_mem member
          exact last (later + 1) (Nat.succ_pos later) found
        rw [value?_foldl_of_notMem free, value?_define, if_pos rfl]
      | succ index =>
        exact ih parameter given
          (fun later after => last (later + 1) (Nat.succ_lt_succ after)) _

theorem value?_ofArguments {index : Nat} {argument : Value}
    (parameter : parameters[index]? = some name) (given : arguments[index]? = some argument)
    (last : ∀ later, index < later → parameters[later]? ≠ some name) :
    (ofArguments parameters arguments).value? name = some argument :=
  value?_foldl parameter given last empty

end Table

/-! ## Calls -/

/-- The state in which the body of a function begins that is called with some arguments. -/
def Machine.calling (machine : Machine) (function : UserFunction) (arguments : List Value)
    (span : Span) (caller : ContextId) : Machine :=
  { machine with
    depth := machine.depth + 1
    store := (machine.store.add
      { name := function.name
        entry := some ⟨caller, span⟩
        scope := some function.closure
        table := .ofArguments function.parameters arguments }).2 }

namespace Eval

variable {function : UserFunction} {arguments : List Value}

/-- With as many arguments as parameters, a call evaluates the body in the new context. -/
theorem callValue_user (same : arguments.length = function.parameters.length) (host : Host)
    (evaluate : Evaluate) (span : Span) (caller : ContextId) (machine : Machine) :
    callValue host (some evaluate) (.function (.user function)) arguments span caller machine =
      leave (resultOfBody function span machine.store.size
        (evaluate function.body machine.store.size
          (machine.calling function arguments span caller))) := by
  have arity : (Function.user function).checkArity arguments.length = .ok () :=
    (Function.checkArity_eq_ok_iff _ _).mpr same
  rw [callValue, arity]
  rfl

/-- With another number of arguments, a call fails where it is made. -/
theorem callValue_user_of_checkArity {fault : Fault}
    (wrong : (Function.user function).checkArity arguments.length = .error fault) (host : Host)
    (inner : Option Evaluate) (span : Span) (caller : ContextId) (machine : Machine) :
    callValue host inner (.function (.user function)) arguments span caller machine =
      .error (.failed ⟨fault, span, machine.store.traceback caller span⟩) machine := by
  rw [callValue, wrong]
  rfl

end Eval

/-- What a parameter is called has the value of its argument in the state in which the body begins,
unless a later parameter has the same name. -/
theorem Machine.lookup_calling_parameter {machine : Machine} {function : UserFunction}
    {arguments : List Value} {name : String} {index : Nat} {argument : Value}
    (parameter : function.parameters[index]? = some name)
    (given : arguments[index]? = some argument)
    (last : ∀ later, index < later → function.parameters[later]? ≠ some name) (span : Span)
    (caller : ContextId) :
    (machine.calling function arguments span caller).store.lookup machine.store.size name =
      some argument := by
  refine Store.lookup_of_lookupLocal ?_
  rw [Store.lookupLocal, calling, Store.table_add, if_pos rfl]
  exact Table.value?_ofArguments parameter given last

/-- Any other name has the value that it has where the function was defined. -/
theorem Machine.lookup_calling {machine : Machine} {function : UserFunction} {name : String}
    (ordered : machine.store.Ordered) (defined : function.closure < machine.store.size)
    (free : name ∉ function.parameters) (arguments : List Value) (span : Span)
    (caller : ContextId) :
    (machine.calling function arguments span caller).store.lookup machine.store.size name =
      machine.store.lookup function.closure name := by
  rw [calling, Store.lookup_add ordered rfl defined, Table.value?_ofArguments_of_notMem free,
    Option.none_or]

/-- Every parameter reads as its argument, if none behind it has the same name. When the body of a
function begins, in any state that there is and for any caller, all other names have the values that
they have where the function was defined. A call with another number of arguments than there are
parameters fails, tells by how many, and leaves everything as it was. -/
theorem parameters_read_as_arguments {past : List Instant} {machine : Machine}
    (reached : machine.Reached past) {function : UserFunction}
    (defined : function.closure < machine.store.size) (arguments : List Value) (host : Host)
    (span : Span) (caller : ContextId) :
    let own := machine.store.size
    let begun := machine.calling function arguments span caller
    let called (inner : Option Evaluate) :=
      Eval.callValue host inner (.function (.user function)) arguments span caller machine
    let refused (fault : Fault) : Outcome Value :=
      .error (.failed ⟨fault, span, machine.store.traceback caller span⟩) machine
    (arguments.length = function.parameters.length →
      (∀ evaluate, called (some evaluate) =
        Eval.leave (Eval.resultOfBody function span own (evaluate function.body own begun))) ∧
      (∀ (index : Nat) name argument, function.parameters[index]? = some name →
        arguments[index]? = some argument →
        (∀ later, index < later → function.parameters[later]? ≠ some name) →
          begun.store.lookup own name = some argument) ∧
      ∀ name, name ∉ function.parameters →
        begun.store.lookup own name = machine.store.lookup function.closure name) ∧
    (function.parameters.length < arguments.length → ∀ inner, called inner =
      refused (.tooManyArguments (arguments.length - function.parameters.length) function.name)) ∧
    (arguments.length < function.parameters.length → ∀ inner, called inner =
      refused
        (.tooFewArguments (function.parameters.length - arguments.length) function.name)) := by
  intro own begun called refused
  refine ⟨fun same => ⟨?_, ?_, ?_⟩, fun many inner => ?_, fun few inner => ?_⟩
  · exact fun evaluate => Eval.callValue_user same host evaluate span caller machine
  · exact fun index name argument parameter given last =>
      Machine.lookup_calling_parameter parameter given last span caller
  · exact fun name free =>
      Machine.lookup_calling reached.founded.fits.ordered defined free arguments span caller
  · refine Eval.callValue_user_of_checkArity ?_ host inner span caller machine
    exact if_pos many
  · refine Eval.callValue_user_of_checkArity ?_ host inner span caller machine
    exact (if_neg (Nat.not_lt_of_gt few)).trans (if_pos few)

/-- A function with a parameter that is called like a constant. There, the name has the value of the
argument, and other constants have their values. -/
theorem parameters_read_as_arguments_constant :
    let span : Span := ⟨⟨0, "main", "f(1, 2)"⟩, ⟨0, 1, 1⟩, ⟨7, 1, 8⟩⟩
    let function : UserFunction := ⟨21, "f", ["x", "true"], .read "true" span, 0, true⟩
    let machine := (Machine.initial []).2
    let begun := machine.calling function [.int 1, .int 2] span 0
    machine.Reached [] ∧ function.closure < machine.store.size ∧
      begun.store.lookup machine.store.size "x" = some (.int 1) ∧
      begun.store.lookup machine.store.size "true" = some (.int 2) ∧
      begun.store.lookup machine.store.size "false" = machine.store.lookup 0 "false" ∧
      ∀ host inner,
        Eval.callValue host inner (.function (.user function)) [.int 1] span 0 machine =
          .error (.failed ⟨.tooFewArguments 1 "f", span, machine.store.traceback 0 span⟩)
            machine := by
  intro span function machine begun
  have reached : machine.Reached [] := .start []
  have defined : function.closure < machine.store.size := by decide +kernel
  refine ⟨reached, defined, ?_⟩
  obtain ⟨-, bound, free⟩ := (parameters_read_as_arguments reached defined [.int 1, .int 2]
    ⟨{}, fun _ => .ok [], 0⟩ span 0).1 rfl
  refine ⟨bound 0 "x" (.int 1) rfl rfl ?_, bound 1 "true" (.int 2) rfl rfl ?_, ?_, ?_⟩
  · rintro (_ | _ | later) after <;> simp_all [function]
  · rintro (_ | _ | later) after <;> simp_all [function]
  · exact free "false" (by decide)
  · intro host inner
    exact (parameters_read_as_arguments reached defined [.int 1] host span 0).2.2 (by decide) inner

/-- Nothing keeps two parameters of a function from having the same name. Then the first one does
not read as its argument. -/
theorem parameters_read_as_arguments_twice :
    let host : Host := ⟨{}, fun _ => .ok [], 0⟩
    let span : Span := ⟨⟨0, "main", "f(1, 2)"⟩, ⟨0, 1, 1⟩, ⟨7, 1, 8⟩⟩
    let function : UserFunction := ⟨21, "f", ["x", "x"], .read "x" span, 0, true⟩
    let arguments : List Value := [.int 1, .int 2]
    let machine := (Machine.initial []).2
    let begun := machine.calling function arguments span 0
    let session := ((Session.start []).run host "main" "func f(x, x) -> x\nPrint(f(1, 2))").2
    machine.Reached [] ∧ function.closure < machine.store.size ∧
      arguments.length = function.parameters.length ∧
      ¬(∀ (index : Nat) name argument, function.parameters[index]? = some name →
        arguments[index]? = some argument →
          begun.store.lookup machine.store.size name = some argument) ∧
      session.machine.output.written = "2\n" := by
  intro host span function arguments machine begun session
  refine ⟨.start [], by decide +kernel, rfl, fun all => ?_, by decide +kernel⟩
  have first := all 0 "x" (.int 1) rfl rfl
  have found : (begun.store.lookup machine.store.size "x").bind Value.int? = some 2 := by
    decide +kernel
  rw [first] at found
  exact absurd found (by decide)

end Quill
