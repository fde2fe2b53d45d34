import Quill.Proofs.Scoping.Untraced
import Quill.Proofs.Store.Entries

/-!
# The outline of a state

The outline of a state leaves out what tracebacks tell: the tracebacks in values, and from where
contexts were entered. Reading from a state and writing to it commute with taking its outline, so
two states with the same outline answer every question alike that is not about entries.
-/

namespace Quill

/-- The binding without the tracebacks in its value. -/
def Binding.untraced (binding : Binding) : Binding :=
  { binding with value := binding.value.untraced }

namespace Table

/-- The table without the tracebacks in its values. -/
def untraced (table : Table) : Table :=
  ⟨table.bindings.map fun (name, binding) => (name, binding.untraced)⟩

theorem value?_untraced (table : Table) (name : String) :
    table.untraced.value? name = (table.value? name).map Value.untraced :=
  value?_mapped Value.untraced table name

theorem protects_untraced (table : Table) (name : String) :
    table.untraced.protects name = table.protects name :=
  protects_mapped Value.untraced table name

theorem untraced_define (table : Table) (name : String) (value : Value) (isMutable : Bool) :
    (table.define name value isMutable).untraced =
      table.untraced.define name value.untraced isMutable :=
  mapped_define Value.untraced table name value isMutable

theorem untraced_ofArguments (parameters : List String) (arguments : List Value) :
    (ofArguments parameters arguments).untraced =
      ofArguments parameters (arguments.map Value.untraced) :=
  mapped_ofArguments Value.untraced parameters arguments

end Table

/-- The context without the tracebacks in its values and without the context it was entered from. -/
def Context.outline (context : Context) : Context :=
  { context with
    entry := context.entry.map fun entry => ⟨0, entry.span⟩
    table := context.table.untraced }

namespace Store

/-- The store of the outlines of the contexts. -/
def outline (store : Store) : Store :=
  ⟨store.contexts.map Context.outline⟩

theorem size_outline (store : Store) : store.outline.size = store.size :=
  Array.size_map

theorem context?_outline (store : Store) (id : ContextId) :
    store.outline.context? id = (store.context? id).map Context.outline :=
  Array.getElem?_map

theorem table_outline (store : Store) (id : ContextId) :
    store.outline.table id = (store.table id).untraced := by
  rw [table, table, context?_outline]
  cases store.context? id with
  | none => rfl
  | some context => rfl

theorem lookupLocal_outline (store : Store) (id : ContextId) (name : String) :
    store.outline.lookupLocal id name = (store.lookupLocal id name).map Value.untraced := by
  rw [lookupLocal, lookupLocal, table_outline, Table.value?_untraced]

theorem protects_outline (store : Store) (id : ContextId) (name : String) :
    store.outline.protects id name = store.protects id name := by
  rw [protects, protects, table_outline, Table.protects_untraced]

/-- Names are looked up along scope links alone. -/
theorem lookup_outline (store : Store) (id : ContextId) (name : String) :
    store.outline.lookup id name = (store.lookup id name).map Value.untraced := by
  have within (steps : Nat) (id : ContextId) :
      store.outline.lookupWithin name steps id =
        (store.lookupWithin name steps id).map Value.untraced := by
    induction steps generalizing id with
    | zero => rfl
    | succ steps ih =>
      rw [lookupWithin, lookupWithin, context?_outline]
      cases store.context? id with
      | none => rfl
      | some context =>
        simp only [Option.map_some, Context.outline, Table.value?_untraced]
        cases context.table.value? name with
        | some value => rfl
        | none =>
          cases context.scope with
          | none => rfl
          | some outer => exact ih outer
  exact within (id + 1) id

theorem outline_add (store : Store) (context : Context) :
    (store.add context).2.outline = (store.outline.add context.outline).2 :=
  congrArg Store.mk Array.map_push

theorem outline_define (store : Store) (id : ContextId) (name : String) (value : Value)
    (isMutable : Bool) : (store.define id name value isMutable).outline =
      store.outline.define id name value.untraced isMutable := by
  apply congrArg Store.mk
  apply Array.ext_getElem?
  intro place
  simp only [define, updateTable, outline, Array.getElem?_map, Array.getElem?_modify]
  by_cases same : id = place
  · simp only [if_pos same, Option.map_map]
    apply congrFun
    apply congrArg
    funext context
    simp only [Function.comp, Context.outline, Table.untraced_define]
  · simp only [if_neg same]

end Store

/-- The state without what tracebacks tell. -/
def Machine.outline (machine : Machine) : Machine :=
  { machine with
    store := machine.store.outline
    exported := machine.exported.map Value.untraced }

end Quill
