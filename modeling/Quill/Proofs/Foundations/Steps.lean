import Quill.Proofs.Execution.Regimes
import Quill.Proofs.Foundations.Walks

/-!
# States that refer to nothing missing

A state is grounded if the contexts exist that its values refer to, be they bound to names or
exported, and if all links lead to older contexts. Values in a grounded state may well refer to
contexts in circles: a function is bound in the context that it looks its names up in, and an
instance may have itself as a member. Only the links never do.

Binding a value keeps a state grounded if the value refers to contexts that are there, and so does
adding a context that is linked to such contexts. This makes it a regime that states are grounded.
-/

namespace Quill

/-- All contexts that the value refers to are among the first ones. -/
abbrev Value.Present (size : Nat) (value : Value) : Prop :=
  value.Within 0 size

/-- All contexts that values in a list refer to are among the first ones. -/
def Value.AllPresent (size : Nat) (values : List Value) : Prop :=
  ∀ value ∈ values, value.Present size

theorem Value.AllPresent.mono {size more : Nat} {values : List Value}
    (all : AllPresent size values) (grown : size ≤ more) : AllPresent more values :=
  fun value member => (all value member).mono grown

/-- All references in a state lead to contexts that are there, and all links to older ones. -/
structure Machine.Grounded (machine : Machine) : Prop where
  /-- The contexts exist that functions, templates and instances refer to which are bound to names,
  or elements of what is bound to names. -/
  store : machine.store.All (Value.Present machine.store.size)
  /-- The contexts exist that the value refers to which the running script exports. -/
  exported : ∀ value, machine.exported = some value → value.Present machine.store.size
  /-- Scope links and entry links lead to older contexts. -/
  links : machine.store.Descends

namespace Machine.Grounded

variable {machine : Machine}

theorem empty (input : List UInt8) (serial : Nat) :
    Machine.Grounded ⟨.empty, serial, 0, none, input, ⟨"", none⟩, []⟩ where
  store := Store.all_empty
  exported := by rintro value ⟨⟩
  links := Store.descends_empty

/-- What only differs in other things has the same references. -/
theorem congr (grounded : machine.Grounded) {after : Machine} (store : after.store = machine.store)
    (exported : ∀ value, after.exported = some value → value.Present machine.store.size) :
    after.Grounded := by
  refine ⟨?_, ?_, ?_⟩
  · rw [store]
    exact grounded.store
  · rw [store]
    exact exported
  · rw [store]
    exact grounded.links

theorem define (grounded : machine.Grounded) (target : ContextId) (name : String) {value : Value}
    (also : value.Present machine.store.size) (isMutable : Bool) :
    Machine.Grounded
      { machine with store := machine.store.define target name value isMutable } := by
  have same := Store.size_define machine.store target name value isMutable
  refine ⟨?_, ?_, grounded.links.define target name value isMutable⟩
  · rw [same]
    exact grounded.store.define target name also isMutable
  · rw [same]
    exact grounded.exported

theorem add (grounded : machine.Grounded) {context : Context}
    (table : context.table.All (Value.Present machine.store.size))
    (scope : ∀ outer, context.scope = some outer → outer < machine.store.size)
    (caller : ∀ entry, context.entry = some entry → entry.caller < machine.store.size) :
    Machine.Grounded { machine with store := (machine.store.add context).2 } := by
  have grown : machine.store.size ≤ (machine.store.add context).2.size := by
    rw [Store.size_add]
    exact Nat.le_succ _
  refine ⟨Store.All.add (fun id name value bound => ?_) fun name value bound => ?_, ?_, ?_⟩
  · exact (grounded.store id name value bound).mono grown
  · exact (table name value bound).mono grown
  · exact fun value exports => (grounded.exported value exports).mono grown
  · exact grounded.links.add scope caller

/-- An outermost context binds nothing that refers to any context. -/
theorem addGlobals (grounded : machine.Grounded) : machine.addGlobals.2.Grounded := by
  rw [Machine.addGlobals_eq]
  have laws := Machine.sealed_programContext 0 machine.store.size machine.serial machine.store.size
  refine (grounded.add laws.table ?_ ?_).congr rfl ?_
  · rintro outer ⟨⟩
  · rintro entry ⟨⟩
  · intro value exports
    refine (grounded.exported value exports).mono ?_
    exact Nat.le_trans (Nat.le_succ _) (Nat.le_of_eq (Store.size_add _ _).symm)

/-- From every context all walks come to an end. -/
theorem walksEnd (grounded : machine.Grounded) {id : ContextId}
    (present : id < machine.store.size) : machine.store.WalksEnd id :=
  grounded.links.walksEnd present

end Machine.Grounded

/-! ## Steps -/

/-- The regime of grounded states: values refer to contexts that are there. -/
def Regime.grounded : Regime where
  admits size value := value.Present size
  orders := Machine.Grounded
  mono within grown := within.mono grown
  hereditary := Value.hereditary_within 0
  exception _ failure := Value.within_exception failure
  bound grounded := grounded.store
  exported grounded := grounded.exported
  congr grounded store exported := grounded.congr store exported
  define grounded target name _ also := grounded.define target name also true
  addGlobals grounded := grounded.addGlobals

/-- A context may be added if its links lead to contexts that are there. -/
theorem Regime.upholds_addContext {size : Nat} {context : Context}
    (table : context.table.All (Value.Present size))
    (scope : ∀ outer, context.scope = some outer → outer < size)
    (caller : ∀ entry, context.entry = some entry → entry.caller < size) :
    grounded.Upholds size (fun more id => size ≤ id ∧ id < more) (Eval.addContext context) := by
  refine Upholds.addContext fun machine enough grounded => ?_
  refine Machine.Grounded.add grounded (fun name value bound => ?_) (fun outer link => ?_)
    fun entry link => ?_
  · exact (table name value bound).mono enough
  · exact Nat.lt_of_lt_of_le (scope outer link) enough
  · exact Nat.lt_of_lt_of_le (caller entry link) enough

end Quill
