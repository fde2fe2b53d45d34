import Quill.Eval.Globals

/-!
# Looking up names

What a definition changes in a store: one name of one table. So a name that is bound in the
outermost context of a program keeps its value whatever else is bound there afterwards.
-/

namespace Quill

theorem Table.value?_define (table : Table) (name other : String) (value : Value)
    (isMutable : Bool) :
    (table.define name value isMutable).value? other =
      if other = name then some value else table.value? other := by
  rw [value?, find?_define]
  by_cases same : other = name
  · rw [if_pos same, if_pos same]
    rfl
  · rw [if_neg same, if_neg same]
    rfl

namespace Store

theorem context?_updateTable (store : Store) (id other : ContextId) (change : Table → Table) :
    (store.updateTable id change).context? other =
      (store.context? other).map fun context =>
        if id = other then { context with table := change context.table } else context := by
  simp only [updateTable, context?, Array.getElem?_modify]
  by_cases same : id = other
  · simp [same]
  · simp [same]

theorem table_updateTable (store : Store) (id : ContextId) (change : Table → Table)
    (present : id < store.size) :
    (store.updateTable id change).table id = change (store.table id) := by
  have found : store.context? id = some store.contexts[id] := Array.getElem?_eq_getElem present
  rw [table, table, context?_updateTable, found]
  simp

theorem size_updateTable (store : Store) (id : ContextId) (change : Table → Table) :
    (store.updateTable id change).size = store.size :=
  Array.size_modify

theorem size_define (store : Store) (id : ContextId) (name : String) (value : Value)
    (isMutable : Bool) : (store.define id name value isMutable).size = store.size :=
  size_updateTable store id _

theorem lookupLocal_define (store : Store) (id : ContextId) (name other : String) (value : Value)
    (isMutable : Bool) (present : id < store.size) :
    (store.define id name value isMutable).lookupLocal id other =
      if other = name then some value else store.lookupLocal id other := by
  rw [lookupLocal, define, table_updateTable store id _ present, Table.value?_define]
  rfl

/-- A name that a context binds itself is not looked up anywhere else. -/
theorem lookup_of_lookupLocal {store : Store} {id : ContextId} {name : String} {value : Value}
    (bound : store.lookupLocal id name = some value) : store.lookup id name = some value := by
  rw [lookupLocal, table] at bound
  rw [lookup, lookupWithin]
  cases found : store.context? id with
  | none =>
    rw [found] at bound
    cases bound
  | some context =>
    rw [found] at bound
    dsimp only at bound ⊢
    rw [bound]

end Store

namespace Machine

/-- No built-in function has the name of a constant. -/
theorem name_ne_null (builtin : Builtin) : builtin.name ≠ "null" := by
  cases builtin <;> decide

/-- Built-in functions leave the constants alone. -/
theorem null_foldl_bindBuiltin (id : ContextId) (builtins : List Builtin) (machine : Machine)
    (present : id < machine.store.size)
    (bound : machine.store.lookupLocal id "null" = some .null) :
    (builtins.foldl (bindBuiltin id) machine).store.lookupLocal id "null" = some .null := by
  induction builtins generalizing machine with
  | nil => exact bound
  | cons builtin builtins ih =>
    apply ih
    · rw [bindBuiltin, Store.size_define]
      exact present
    · rw [bindBuiltin, Store.lookupLocal_define _ _ _ _ _ _ present,
        if_neg (name_ne_null builtin).symm]
      exact bound

/-- A store with the constants of a program in one of its contexts. -/
def withConstants (id : ContextId) (store : Store) : Store :=
  constants.foldl (fun store (name, value) => store.define id name value false) store

theorem size_withConstants (id : ContextId) (store : Store) :
    (withConstants id store).size = store.size := by
  simp only [withConstants, constants, List.foldl_cons, List.foldl_nil, Store.size_define]

theorem null_withConstants (id : ContextId) (store : Store) (present : id < store.size) :
    (withConstants id store).lookupLocal id "null" = some .null := by
  simp only [withConstants, constants, List.foldl_cons, List.foldl_nil]
  rw [Store.lookupLocal_define, if_neg (by decide), Store.lookupLocal_define, if_neg (by decide),
    Store.lookupLocal_define, if_pos rfl]
  all_goals simpa only [Store.size_define] using present

/-- In a new outermost context the name of the null value is bound to it. -/
theorem lookup_null_addGlobals (machine : Machine) :
    machine.addGlobals.2.store.lookup machine.addGlobals.1 "null" = some .null := by
  have present : machine.store.size < (machine.store.root programName).2.size := by
    simp [Store.root, Store.add, Store.size]
  have bound := null_withConstants machine.store.size _ present
  apply Store.lookup_of_lookupLocal
  apply null_foldl_bindBuiltin machine.store.size
  · exact Nat.lt_of_lt_of_eq present (size_withConstants machine.store.size _).symm
  · exact bound

end Machine

end Quill
