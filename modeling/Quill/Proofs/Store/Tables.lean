import Quill.Proofs.Store.Scopes
import Quill.Proofs.Values.Bodies

/-!
# Tables of a store

Binding a name changes the table of one context, and adding a context changes no table that was
there before. So if all stored values have a property, they have it as long as only such values are
bound. An example of such a property is that all bodies in the value are admitted.
-/

namespace Quill

namespace Store

theorem lt_size_of_context?_eq_some {store : Store} {id : ContextId} {context : Context}
    (found : store.context? id = some context) : id < store.size := by
  obtain ⟨present, _⟩ := Array.getElem?_eq_some_iff.mp found
  exact present

theorem table_define (store : Store) (target id : ContextId) (name : String) (value : Value)
    (isMutable : Bool) :
    (store.define target name value isMutable).table id =
      if target = id ∧ id < store.size then (store.table id).define name value isMutable
      else store.table id := by
  rw [define, table, table, context?_updateTable]
  cases found : store.context? id with
  | none =>
    have beyond : ¬id < store.size := fun present => by
      rw [context?, getElem?_pos store.contexts id present] at found
      cases found
    rw [if_neg fun both => beyond both.2]
    rfl
  | some context =>
    have present := lt_size_of_context?_eq_some found
    by_cases same : target = id
    · rw [if_pos ⟨same, present⟩]
      simp [same]
    · rw [if_neg fun both => same both.1]
      simp [same]

theorem table_add (store : Store) (context : Context) (id : ContextId) :
    (store.add context).2.table id = if id = store.size then context.table else store.table id := by
  rw [table, context?_add]
  by_cases new : id = store.size
  · rw [if_pos new, if_pos new]
  · rw [if_neg new, if_neg new]
    rfl

/-- The second store is the first one with one more context, whatever is bound there. -/
structure Grows (store after : Store) : Prop where
  /-- There is one more context. -/
  size : after.size = store.size + 1
  /-- The tables of the others are the same. -/
  table : ∀ id < store.size, after.table id = store.table id
  /-- The others look up names where they did. -/
  scope : ∀ id < store.size, after.scope id = store.scope id

theorem grows_add (store : Store) (context : Context) : Grows store (store.add context).2 where
  size := size_add store context
  table id present := by rw [table_add, if_neg (Nat.ne_of_lt present)]
  scope id present := by rw [scope_add, if_neg (Nat.ne_of_lt present)]

/-- Names may be bound in the new context. -/
theorem Grows.define {store after : Store} (grows : Grows store after) (name : String)
    (value : Value) (isMutable : Bool) :
    Grows store (after.define store.size name value isMutable) where
  size := by rw [size_define, grows.size]
  table id present := by
    rw [table_define, if_neg fun both => Nat.ne_of_gt present both.1]
    exact grows.table id present
  scope id present := by rw [scope_define, grows.scope id present]

end Store

/-! ## Properties of stored values -/

/-- Whether all values that a table binds have a property. -/
def Table.All (holds : Value → Prop) (table : Table) : Prop :=
  ∀ name value, table.value? name = some value → holds value

/-- Whether all values that a store binds have a property. -/
def Store.All (holds : Value → Prop) (store : Store) : Prop :=
  ∀ id, (store.table id).All holds

variable {holds : Value → Prop}

namespace Table

theorem all_empty : Table.empty.All holds := by
  intro name value bound
  cases bound

theorem All.define {table : Table} (all : table.All holds) (name : String) {value : Value}
    (also : holds value) (isMutable : Bool) : (table.define name value isMutable).All holds := by
  intro other found bound
  rw [value?_define] at bound
  by_cases same : other = name
  · rw [if_pos same] at bound
    cases bound
    exact also
  · rw [if_neg same] at bound
    exact all other found bound

theorem all_ofArguments (parameters : List String) {arguments : List Value}
    (all : ∀ argument ∈ arguments, holds argument) :
    (ofArguments parameters arguments).All holds := by
  refine List.foldlRecOn (motive := All holds) _ _ all_empty ?_
  intro table before pair member
  exact before.define pair.1 (all pair.2 (List.of_mem_zip member).2) true

end Table

namespace Store

variable {store : Store} {id : ContextId} {name : String} {value : Value}

theorem all_empty : Store.empty.All holds := by
  intro id name value bound
  simp [Store.table, Store.empty, Store.context?, Table.value?] at bound

theorem All.define (all : store.All holds) (target : ContextId) (name : String) (also : holds value)
    (isMutable : Bool) : (store.define target name value isMutable).All holds := by
  intro id
  rw [table_define]
  split
  · exact (all id).define name also isMutable
  · exact all id

theorem All.add (all : store.All holds) {context : Context} (also : context.table.All holds) :
    (store.add context).2.All holds := by
  intro id
  rw [table_add]
  split
  · exact also
  · exact all id

theorem All.lookupLocal (all : store.All holds) (bound : store.lookupLocal id name = some value) :
    holds value :=
  all id name value bound

theorem All.lookup (all : store.All holds) (found : store.lookup id name = some value) :
    holds value := by
  have within (steps : Nat) (id : ContextId)
      (found : store.lookupWithin name steps id = some value) : holds value := by
    induction steps generalizing id with
    | zero => cases found
    | succ steps ih =>
      rw [lookupWithin] at found
      cases here : store.context? id with
      | none =>
        rw [here] at found
        cases found
      | some context =>
        have table : store.table id = context.table := by rw [Store.table, here]
        rw [here] at found
        dsimp only at found
        cases bound : context.table.value? name with
        | some own =>
          rw [bound] at found
          cases found
          exact all id name value (table ▸ bound)
        | none =>
          rw [bound] at found
          cases scope : context.scope with
          | none =>
            rw [scope] at found
            cases found
          | some outer =>
            rw [scope] at found
            exact ih outer found
  exact within (id + 1) id found

end Store

/-! ## Outermost contexts -/

/-- What holds of a state with a new outermost context, and is kept when anything is bound there
that programs find, holds once all of that is bound. -/
theorem Machine.addGlobals_elim (machine : Machine) (holds : Machine → Prop)
    (added : holds { machine with store := (machine.store.root programName).2 })
    (constant : ∀ (current : Machine), ∀ pair ∈ constants, holds current →
      holds { current with
        store := current.store.define machine.store.size pair.1 pair.2 false })
    (builtin : ∀ current builtin, holds current →
      holds (bindBuiltin machine.store.size current builtin)) : holds machine.addGlobals.2 := by
  let bind (store : Store) (pair : String × Value) : Store :=
    store.define machine.store.size pair.1 pair.2 false
  have bound := List.foldlRecOn (motive := fun store => holds { machine with store := store })
    constants bind added fun store before pair member => constant _ pair member before
  exact List.foldlRecOn Builtin.all (bindBuiltin machine.store.size) bound
    fun current before _ _ => builtin current _ before

namespace Machine

/-- Adding an outermost context adds one context. -/
theorem grows_addGlobals (machine : Machine) :
    Store.Grows machine.store machine.addGlobals.2.store := by
  refine machine.addGlobals_elim (fun current => Store.Grows machine.store current.store) ?_ ?_ ?_
  · exact Store.grows_add _ _
  · intro current pair _ grows
    exact grows.define pair.1 pair.2 false
  · intro current builtin grows
    exact grows.define builtin.name _ true

/-- What an outermost context binds are constants and built-in functions. -/
theorem all_addGlobals {machine : Machine} (constant : ∀ pair ∈ constants, holds pair.2)
    (builtin : ∀ function, holds (.function (.builtin function)))
    (all : machine.store.All holds) : machine.addGlobals.2.store.All holds := by
  refine machine.addGlobals_elim (fun current => current.store.All holds) ?_ ?_ ?_
  · exact all.add Table.all_empty
  · intro current pair member before
    exact before.define machine.store.size pair.1 (constant pair member) false
  · intro current added before
    exact before.define machine.store.size added.name (builtin _) true

theorem exported_addGlobals (machine : Machine) :
    machine.addGlobals.2.exported = machine.exported := by
  refine machine.addGlobals_elim (fun current => current.exported = machine.exported) rfl ?_ ?_
  · exact fun _ _ _ same => same
  · exact fun _ _ same => same

end Machine

namespace Bodies

variable {bodies : Bodies}

/-- Whether all bodies in a table are admitted. -/
def AdmitTable (bodies : Bodies) (table : Table) : Prop :=
  ∀ name value, table.value? name = some value → bodies.Admit value

/-- Whether all bodies in a store are admitted. -/
def AdmitStore (bodies : Bodies) (store : Store) : Prop :=
  ∀ id, bodies.AdmitTable (store.table id)

/-- Whether all bodies that an interpreter has stored are admitted. -/
structure AdmitMachine (bodies : Bodies) (machine : Machine) : Prop where
  /-- Those that are bound to names. -/
  store : bodies.AdmitStore machine.store
  /-- Those in the value that the running script exports. -/
  exported : ∀ value, machine.exported = some value → bodies.Admit value

theorem admitMachine_all (machine : Machine) : all.AdmitMachine machine where
  store _ _ value _ := admit_all value
  exported value _ := admit_all value

/-- Adding an outermost context adds one context, and it binds admitted values. -/
theorem AdmitMachine.addGlobals {machine : Machine} (admitted : bodies.AdmitMachine machine) :
    Store.Grows machine.store machine.addGlobals.2.store ∧
      bodies.AdmitMachine machine.addGlobals.2 := by
  have constants : ∀ pair ∈ Machine.constants, bodies.Admit pair.2 := by
    simp [Machine.constants, Value.ofBool, Admit]
  refine ⟨machine.grows_addGlobals, ?_, ?_⟩
  · exact Machine.all_addGlobals constants (fun _ => trivial) admitted.store
  · rw [machine.exported_addGlobals]
    exact admitted.exported

/-- A new interpreter has stored nothing but constants and built-in functions. -/
theorem admitMachine_initial (input : List UInt8) :
    bodies.AdmitMachine (Machine.initial input).2 := by
  have nothing : bodies.AdmitMachine ⟨.empty, 1, 0, none, input, ⟨"", none⟩, []⟩ := by
    refine ⟨Store.all_empty, ?_⟩
    rintro value ⟨⟩
  exact nothing.addGlobals.2

end Bodies

end Quill
