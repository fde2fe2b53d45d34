import Quill.Proofs.Store.Tables

/-!
# Looking up names along the scope links

Where all scope links lead to older contexts, a name has the value that the context itself binds it
to, or else the value that it has where the scope link leads. Binding a name anywhere changes what
is found by this name alone, and only from contexts whose links lead to the binding before any other
binding of the name.
-/

namespace Quill.Store

/-- All scope links lead to older contexts. -/
def Ordered (store : Store) : Prop :=
  ∀ id outer, store.scope id = some outer → outer < id

variable {store : Store} {id : ContextId} {name : String}

/-- A definition in one context changes what it binds the name to, and nothing in other contexts. -/
theorem lookupLocal_define_any (store : Store) (target id : ContextId) (name other : String)
    (value : Value) (isMutable : Bool) (present : target < store.size) :
    (store.define target name value isMutable).lookupLocal id other =
      if id = target ∧ other = name then some value else store.lookupLocal id other := by
  by_cases same : id = target
  · subst same
    rw [lookupLocal_define store id name other value isMutable present]
    simp
  · rw [lookupLocal, table_define, if_neg fun both => same both.1.symm,
      if_neg fun both => same both.1, lookupLocal]

theorem lookupWithin_succ (store : Store) (name : String) (steps : Nat) (id : ContextId) :
    store.lookupWithin name (steps + 1) id =
      (store.lookupLocal id name).or ((store.scope id).bind (store.lookupWithin name steps)) := by
  rw [lookupWithin, lookupLocal, table, scope]
  cases store.context? id with
  | none => rfl
  | some context =>
    dsimp only [Option.bind_some]
    cases context.table.value? name with
    | some value => rfl
    | none =>
      cases context.scope with
      | none => rfl
      | some outer => rfl

/-- Enough steps are as good as more of them. -/
theorem lookupWithin_eq (ordered : store.Ordered) {steps others : Nat} (enough : id < steps)
    (also : id < others) :
    store.lookupWithin name steps id = store.lookupWithin name others id := by
  induction steps generalizing others id with
  | zero => exact absurd enough (Nat.not_lt_zero id)
  | succ steps ih =>
    obtain ⟨others, rfl⟩ := Nat.exists_eq_add_one_of_ne_zero (Nat.ne_zero_of_lt also)
    rw [lookupWithin_succ, lookupWithin_succ]
    cases link : store.scope id with
    | none => rfl
    | some outer =>
      have older := ordered id outer link
      rw [Option.bind_some, Option.bind_some,
        ih (Nat.lt_of_lt_of_le older (Nat.le_of_lt_succ enough))
          (Nat.lt_of_lt_of_le older (Nat.le_of_lt_succ also))]

/-- What a context does not bind itself is looked up where its scope link leads. -/
theorem lookup_eq (ordered : store.Ordered) (id : ContextId) (name : String) :
    store.lookup id name =
      (store.lookupLocal id name).or ((store.scope id).bind (store.lookup · name)) := by
  rw [lookup, lookupWithin_succ]
  cases link : store.scope id with
  | none => rfl
  | some outer =>
    have older := ordered id outer link
    rw [Option.bind_some, Option.bind_some, lookup]
    rw [lookupWithin_eq ordered older (Nat.lt_succ_self outer)]

theorem ordered_empty : Store.empty.Ordered := by
  rintro id outer ⟨⟩

theorem Ordered.define (ordered : store.Ordered) (target : ContextId) (name : String)
    (value : Value) (isMutable : Bool) : (store.define target name value isMutable).Ordered := by
  intro id outer link
  rw [scope_define] at link
  exact ordered id outer link

theorem Ordered.add (ordered : store.Ordered) {context : Context}
    (older : ∀ outer, context.scope = some outer → outer < store.size) :
    (store.add context).2.Ordered := by
  intro id outer link
  rw [scope_add] at link
  split at link
  case isTrue new => exact new ▸ older outer link
  case isFalse => exact ordered id outer link

/-- A name is found alike in stores that have the same links and bind it alike, as far as the links
lead. -/
theorem lookup_congr {other : Store} {size : Nat} (ordered : store.Ordered) (also : other.Ordered)
    (locals : ∀ id < size, other.lookupLocal id name = store.lookupLocal id name)
    (scope : ∀ id < size, other.scope id = store.scope id) (below : id < size) :
    other.lookup id name = store.lookup id name := by
  induction id using Nat.strongRecOn with
  | ind id ih =>
    rw [lookup_eq ordered, lookup_eq also, locals id below, scope id below]
    cases link : store.scope id with
    | none => rfl
    | some outer =>
      have older := ordered id outer link
      rw [Option.bind_some, Option.bind_some, ih outer older (Nat.lt_trans older below)]

theorem Grows.lookup_eq {after : Store} (grows : Grows store after) (ordered : store.Ordered)
    (also : after.Ordered) (present : id < store.size) (name : String) :
    after.lookup id name = store.lookup id name := by
  refine lookup_congr ordered also (fun id old => ?_) grows.scope present
  rw [lookupLocal, grows.table id old, lookupLocal]

/-- In a new context, a name that it does not bind has the value that it has where the scope link
leads. -/
theorem lookup_add (ordered : store.Ordered) {context : Context} {outer : ContextId}
    (scope : context.scope = some outer) (present : outer < store.size) (name : String) :
    (store.add context).2.lookup store.size name =
      (context.table.value? name).or (store.lookup outer name) := by
  have also : (store.add context).2.Ordered := ordered.add fun _ same =>
    Option.some.inj (scope.symm.trans same) ▸ present
  rw [Store.lookup_eq also, lookupLocal, table_add, if_pos rfl, scope_add, if_pos rfl, scope,
    Option.bind_some, (grows_add store context).lookup_eq ordered also present]

end Quill.Store
