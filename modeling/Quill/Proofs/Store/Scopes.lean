import Quill.Proofs.Store.Entries

/-!
# Chains of scopes

Names that a context does not bind are looked up along its scope links. These links are independent
of the entry links, along which the outermost context around a context is found, and nothing keeps
the two chains from ending in different outermost contexts. They end in the same one for a context
that was not entered, for the context of an instance if they do so where the instance is made, and
for the context of a call if the function was defined under the outermost context of its caller.
-/

namespace Quill.Store

/-- The context that names are looked up in that a context does not bind, if there is one. -/
def scope (store : Store) (id : ContextId) : Option ContextId :=
  (store.context? id).bind (·.scope)

theorem scope_add (store : Store) (context : Context) (id : ContextId) :
    (store.add context).2.scope id =
      if id = store.size then context.scope else store.scope id := by
  rw [scope, context?_add]
  by_cases new : id = store.size
  · rw [if_pos new, if_pos new]
    rfl
  · rw [if_neg new, if_neg new]
    rfl

theorem scope_updateTable (store : Store) (id other : ContextId) (change : Table → Table) :
    (store.updateTable id change).scope other = store.scope other := by
  rw [scope, scope, context?_updateTable]
  cases store.context? other with
  | none => rfl
  | some context =>
    by_cases same : id = other
    · simp [same]
    · simp [same]

theorem scope_define (store : Store) (target id : ContextId) (name : String) (value : Value)
    (isMutable : Bool) : (store.define target name value isMutable).scope id = store.scope id :=
  scope_updateTable store target id _

/-- The scope links lead from a context to another one. The contexts in between are listed, and the
first of them is the one that the links lead from. -/
inductive LeadsTo (store : Store) : ContextId → List ContextId → ContextId → Prop where
  /-- No link has to be followed. -/
  | here (id : ContextId) : LeadsTo store id [] id
  /-- A link leads to an older context. -/
  | outwards {id outer root : ContextId} {passed : List ContextId}
      (link : store.scope id = some outer) (older : outer < id)
      (rest : LeadsTo store outer passed root) : LeadsTo store id (id :: passed) root

variable {store other : Store} {id root : ContextId} {passed : List ContextId} {name : String}
  {value : Value}

/-- A name that is bound where the links lead to is found, unless it is bound on the way. -/
theorem LeadsTo.lookup (leads : store.LeadsTo id passed root)
    (free : ∀ inner ∈ passed, store.lookupLocal inner name = none)
    (bound : store.lookupLocal root name = some value) : store.lookup id name = some value := by
  have walk (steps : Nat) (enough : id < steps) :
      store.lookupWithin name steps id = some value := by
    induction leads generalizing steps with
    | here id =>
      obtain ⟨steps, rfl⟩ := Nat.exists_eq_add_one_of_ne_zero (Nat.ne_zero_of_lt enough)
      rw [lookupLocal, table] at bound
      rw [lookupWithin]
      cases found : store.context? id with
      | none =>
        rw [found] at bound
        cases bound
      | some context =>
        rw [found] at bound
        dsimp only at bound ⊢
        rw [bound]
    | @outwards id outer _ _ link older rest walk =>
      obtain ⟨steps, rfl⟩ := Nat.exists_eq_add_one_of_ne_zero (Nat.ne_zero_of_lt enough)
      obtain ⟨here, later⟩ := List.forall_mem_cons.mp free
      obtain ⟨context, found, scope⟩ := Option.bind_eq_some_iff.mp link
      rw [lookupLocal, table, found] at here
      rw [lookupWithin, found]
      dsimp only at here ⊢
      rw [here, scope]
      exact walk later bound steps (Nat.lt_of_lt_of_le older (Nat.le_of_lt_succ enough))
  exact walk (id + 1) (Nat.lt_succ_self id)

/-- Links that stay what they are lead where they led. -/
theorem LeadsTo.congr {size : Nat} (leads : store.LeadsTo id passed root)
    (same : ∀ id < size, other.scope id = store.scope id) (below : id < size) :
    other.LeadsTo id passed root := by
  induction leads with
  | here id => exact .here id
  | outwards link older rest congr =>
    exact .outwards ((same _ below).trans link) older (congr (Nat.lt_trans older below))

/-! ## The two chains -/

/-- The scope links of a context lead to the outermost context around it. The contexts in between
are listed. -/
def AtHome (store : Store) (id : ContextId) (passed : List ContextId) : Prop :=
  store.LeadsTo id passed (store.rootOf id)

/-- An outermost context is its own. -/
theorem atHome_of_outermost (outermost : store.entered id = none) : store.AtHome id [] := by
  rw [AtHome, rootOf_eq, outermost]
  exact .here id

/-- A context that is entered from another one has both chains end in the same context, if the one
that its names are looked up in has its chain end in the outermost context around the other one. -/
theorem atHome_add {context : Context} {entry : Entry} {closure : ContextId}
    (entered : context.entry = some entry) (scope : context.scope = some closure)
    (caller : entry.caller < store.size) (present : closure < store.size)
    (leads : store.LeadsTo closure passed (store.rootOf entry.caller)) :
    (store.add context).2.AtHome store.size (store.size :: passed) := by
  have home := rootOf_add_size store context
  rw [entered] at home
  rw [AtHome, home]
  dsimp only
  rw [if_pos caller]
  have same : ∀ id < store.size, (store.add context).2.scope id = store.scope id :=
    fun id old => by rw [scope_add, if_neg (Nat.ne_of_lt old)]
  have link : (store.add context).2.scope store.size = some closure := by
    rw [scope_add, if_pos rfl, scope]
  exact .outwards link present (leads.congr same present)

/-- The context of an instance looks up names where the instance is made. -/
theorem AtHome.add {context : Context} {entry : Entry} (home : store.AtHome entry.caller passed)
    (entered : context.entry = some entry) (scope : context.scope = some entry.caller)
    (caller : entry.caller < store.size) :
    (store.add context).2.AtHome store.size (store.size :: passed) :=
  atHome_add entered scope caller caller home

end Quill.Store
