import Quill.Proofs.Isolation.Globals
import Quill.Proofs.Values.Operators

/-!
# Contexts that refer to no older ones

A store is sealed from a number onwards if nothing in the contexts from there on leads to a context
before: neither a link, nor a function whose names are looked up in it, nor an object whose members
it holds. All links lead to contexts with smaller numbers, and all that is referred to exists.

The contexts from that number onwards are also canonical. An outermost one binds the constants to
their values for good, and nothing else is bound for good anywhere. These laws do not get lost when
names are bound that are not protected, nor when contexts are added that keep to them.
-/

namespace Quill

/-! ## What values refer to -/

/-- The value refers to the context: as a function that looks up names there, as an object that was
defined or whose members live there, or in one of its elements. -/
inductive Value.Refers (id : ContextId) : Value → Prop where
  /-- A function was defined there. -/
  | closure {function : UserFunction} (same : function.closure = id) :
      Refers id (.function (.user function))
  /-- An object has its members there, or was defined there. -/
  | context {object : Object} (same : object.context = id) : Refers id (.object object)
  /-- An element of a list refers to it. -/
  | element {elements : List Value} {element : Value} (member : element ∈ elements)
      (refers : Refers id element) : Refers id (.list elements)

/-- The number of a context lies between two bounds. -/
def Between (base size : Nat) (id : ContextId) : Prop :=
  base ≤ id ∧ id < size

/-- All contexts that the value refers to lie between two bounds. -/
def Value.Within (base size : Nat) (value : Value) : Prop :=
  ∀ id, value.Refers id → Between base size id

variable {base size more : Nat} {id : ContextId}

theorem Between.mono (between : Between base size id) (grows : size ≤ more) :
    Between base more id :=
  ⟨between.1, Nat.lt_of_lt_of_le between.2 grows⟩

namespace Value

theorem Within.mono {value : Value} (within : value.Within base size) (grows : size ≤ more) :
    value.Within base more :=
  fun id refers => (within id refers).mono grows

theorem hereditary_within (base size : Nat) : Hereditary (Within base size) where
  list_iff elements := by
    constructor
    · intro all element member id refers
      exact all id (.element member refers)
    · rintro all id (_ | _ | ⟨member, refers⟩)
      exact all _ member id refers
  null := by rintro id ⟨⟩
  int _ := by rintro id ⟨⟩
  float _ := by rintro id ⟨⟩
  str _ := by rintro id ⟨⟩

theorem within_exception (failure : Failure) : (exception failure).Within base size := by
  rintro id ⟨⟩

theorem within_builtin (function : BuiltinFunction) :
    (Value.function (.builtin function)).Within base size := by
  rintro id ⟨⟩

theorem within_user {function : UserFunction} (closure : Between base size function.closure) :
    (Value.function (.user function)).Within base size := by
  intro id refers
  cases refers with
  | closure same => exact same ▸ closure

theorem within_object {object : Object} (context : Between base size object.context) :
    (Value.object object).Within base size := by
  intro id refers
  cases refers with
  | context same => exact same ▸ context

theorem Within.closure {function : UserFunction}
    (within : (Value.function (.user function)).Within base size) :
    Between base size function.closure :=
  within _ (.closure rfl)

theorem Within.context {object : Object} (within : (Value.object object).Within base size) :
    Between base size object.context :=
  within _ (.context rfl)

end Value

/-! ## Sealed stores -/

/-- The bindings of a context are canonical: the constants are bound to their values for good if it
is an outermost context, and nothing else is bound for good. -/
structure Context.Canonical (context : Context) : Prop where
  /-- In an outermost context the constants are immutable. -/
  constants : context.entry = none → ∀ pair ∈ Machine.constants,
    context.table.find? pair.1 = some ⟨pair.2, false⟩
  /-- Whatever is immutable is a constant in an outermost context. -/
  immutable : ∀ name binding, context.table.find? name = some binding →
    binding.isMutable = false → context.entry = none ∧ Machine.IsConstant name

/-- A context with the number `id` refers to nothing but contexts between two bounds, and its links
lead to contexts before it. -/
structure Context.Sealed (base size : Nat) (id : ContextId) (context : Context) : Prop where
  /-- It was entered from an earlier context. -/
  caller : ∀ entry, context.entry = some entry → Between base id entry.caller
  /-- Names are looked up in an earlier context. -/
  scope : ∀ outer, context.scope = some outer → Between base id outer
  /-- So do the values that are bound. -/
  table : context.table.All (Value.Within base size)
  /-- The bindings are canonical. -/
  canonical : context.Canonical

theorem Context.Sealed.mono {context : Context} (sealed : context.Sealed base size id)
    (grows : size ≤ more) : context.Sealed base more id where
  caller := sealed.caller
  scope := sealed.scope
  table name value bound := (sealed.table name value bound).mono grows
  canonical := sealed.canonical

namespace Store

/-- The context with the given number exists and is an outermost one. -/
def Global (store : Store) (id : ContextId) : Prop :=
  ∃ context, store.context? id = some context ∧ context.entry = none

/-- The bindings are canonical in all contexts from `base` onwards. -/
def Canonical (base : Nat) (store : Store) : Prop :=
  ∀ id context, base ≤ id → store.context? id = some context → context.Canonical

/-- The contexts from `base` onwards refer to none before, and are canonical. -/
def Sealed (base : Nat) (store : Store) : Prop :=
  ∀ id context, base ≤ id → store.context? id = some context → context.Sealed base store.size id

variable {store : Store} {context : Context} {name : String} {value : Value}

theorem Sealed.canonical (sealed : store.Sealed base) : store.Canonical base :=
  fun id context since found => (sealed id context since found).canonical

theorem table_eq (found : store.context? id = some context) : store.table id = context.table := by
  rw [table, found]

/-- There is nothing to be said of contexts that do not exist. -/
theorem sealed_size (store : Store) : store.Sealed store.size := by
  intro id context since found
  exact absurd (lt_size_of_context?_eq_some found) (Nat.not_lt_of_le since)

/-- The names of constants are protected in outermost contexts, and no other name anywhere. -/
theorem Canonical.protects_iff (canonical : store.Canonical base) (since : base ≤ id) :
    store.protects id name = true ↔ store.Global id ∧ Machine.IsConstant name := by
  rw [protects, Table.protects_iff]
  cases found : store.context? id with
  | none =>
    have empty : store.table id = .empty := by rw [table, found]
    simp [empty, Global, found]
  | some context =>
    have laws := canonical id context since found
    rw [table_eq found]
    constructor
    · rintro ⟨binding, bound, fixed⟩
      obtain ⟨outermost, constant⟩ := laws.immutable name binding bound fixed
      exact ⟨⟨context, found, outermost⟩, constant⟩
    · rintro ⟨⟨other, same, outermost⟩, ⟨value, member⟩⟩
      cases found.symm.trans same
      exact ⟨_, laws.constants outermost (name, value) member, rfl⟩

/-- A name that is not protected may be bound to any value that refers to no older contexts. -/
theorem Sealed.define (sealed : store.Sealed base) (free : store.protects id name = false)
    (within : value.Within base store.size) : (store.define id name value true).Sealed base := by
  intro other context since found
  rw [size_define]
  rw [Store.define, context?_updateTable] at found
  obtain ⟨before, known, rfl⟩ := Option.map_eq_some_iff.mp found
  have laws := sealed other before since known
  by_cases same : id = other
  · subst same
    rw [if_pos rfl]
    refine ⟨laws.caller, laws.scope, laws.table.define name within true, ?_, ?_⟩
    · intro outermost pair member
      have distinct : pair.1 ≠ name := by
        rintro rfl
        have fixed := (sealed.canonical.protects_iff since).mpr
          ⟨⟨before, known, outermost⟩, pair.2, member⟩
        rw [free] at fixed
        cases fixed
      rw [Table.find?_define, if_neg distinct]
      exact laws.canonical.constants outermost pair member
    · intro bound binding present fixed
      rw [Table.find?_define] at present
      split at present
      · cases present
        cases fixed
      · exact laws.canonical.immutable bound binding present fixed
  · rw [if_neg same]
    exact laws

/-- A context may be added that refers to no older contexts. -/
theorem Sealed.add (sealed : store.Sealed base)
    (laws : context.Sealed base (store.size + 1) store.size) :
    (store.add context).2.Sealed base := by
  intro other found since known
  rw [size_add]
  rw [context?_add] at known
  split at known
  · rename_i new
    cases known
    rw [new]
    exact laws
  · exact (sealed other found since known).mono (Nat.le_succ _)

theorem Sealed.lookupLocal (sealed : store.Sealed base) (since : base ≤ id)
    (bound : store.lookupLocal id name = some value) : value.Within base store.size := by
  rw [Store.lookupLocal] at bound
  cases found : store.context? id with
  | none =>
    rw [table, found] at bound
    cases bound
  | some context =>
    rw [table_eq found] at bound
    exact (sealed id context since found).table name value bound

theorem Sealed.lookup (sealed : store.Sealed base) (since : base ≤ id)
    (bound : store.lookup id name = some value) : value.Within base store.size := by
  have walk (steps : Nat) (id : ContextId) (since : base ≤ id)
      (bound : store.lookupWithin name steps id = some value) : value.Within base store.size := by
    induction steps generalizing id with
    | zero => cases bound
    | succ steps ih =>
      rw [lookupWithin] at bound
      cases found : store.context? id with
      | none =>
        rw [found] at bound
        cases bound
      | some context =>
        have laws := sealed id context since found
        rw [found] at bound
        dsimp only at bound
        cases own : context.table.value? name with
        | some here =>
          rw [own] at bound
          cases bound
          exact laws.table name value own
        | none =>
          rw [own] at bound
          cases link : context.scope with
          | none =>
            rw [link] at bound
            cases bound
          | some outer =>
            rw [link] at bound
            exact ih outer (laws.scope outer link).1 bound
  exact walk (id + 1) id since bound

/-- The outermost context around a context does not lie before the bound either. -/
theorem Sealed.rootOf (sealed : store.Sealed base) (between : Between base store.size id) :
    Between base store.size (store.rootOf id) := by
  induction id using Nat.strongRecOn with
  | ind id ih =>
    rw [rootOf_eq]
    cases link : store.entered id with
    | none => exact between
    | some entry =>
      obtain ⟨context, found, entered⟩ := Option.bind_eq_some_iff.mp link
      have older := (sealed id context between.1 found).caller entry entered
      dsimp only
      rw [if_pos older.2]
      exact ih entry.caller older.2 ⟨older.1, Nat.lt_trans older.2 between.2⟩

end Store

/-- A new outermost context refers to no other one. -/
theorem Machine.sealed_programContext (base size serial : Nat) (id : ContextId) :
    (programContext (globalTable serial)).Sealed base size id where
  caller entry link := by cases link
  scope outer link := by cases link
  table := by
    have plain := Value.hereditary_within base size
    have constant : ∀ pair ∈ constants, pair.2.Within base size := by
      simp [constants, plain.null, plain.ofBool]
    exact all_globalTable constant Value.within_builtin serial
  canonical :=
    { constants := fun _ _ member => find?_globalTable member serial
      immutable := fun _ _ found fixed => ⟨rfl, isConstant_of_immutable found fixed⟩ }

/-- A context that is entered, with a table that has nothing immutable in it. -/
theorem Context.canonical_of_entered {context : Context} {entry : Entry}
    (link : context.entry = some entry)
    (free : ∀ name binding, context.table.find? name = some binding → binding.isMutable = true) :
    context.Canonical where
  constants outermost := by
    rw [link] at outermost
    cases outermost
  immutable name binding bound fixed := by
    rw [free name binding bound] at fixed
    cases fixed

/-- Arguments are mutable. -/
theorem Table.isMutable_ofArguments (parameters : List String) (arguments : List Value)
    (name : String) (binding : Binding)
    (bound : (ofArguments parameters arguments).find? name = some binding) :
    binding.isMutable = true := by
  refine List.foldlRecOn (motive := fun table : Table => ∀ name binding,
    table.find? name = some binding → binding.isMutable = true) _ _ ?_ ?_ name binding bound
  · intro name binding bound
    cases bound
  · intro table before pair _ name binding bound
    rw [find?_define] at bound
    split at bound
    · cases bound
      rfl
    · exact before name binding bound

/-! ## Sealed states -/

/-- The store is sealed, and what the running script exports refers to no older contexts. -/
structure Machine.Sealed (base : Nat) (machine : Machine) : Prop where
  /-- The store is sealed. -/
  store : machine.store.Sealed base
  /-- So is the exported value. -/
  exported : ∀ value, machine.exported = some value → value.Within base machine.store.size

end Quill
