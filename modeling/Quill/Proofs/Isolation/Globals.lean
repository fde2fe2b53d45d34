import Quill.Proofs.Store.Tables

/-!
# The table of an outermost context

Everything that is bound in a new outermost context is bound in one table, which depends on nothing
but the next identity. So making such a context is adding it to the store at once. Among its
bindings those of the constants are immutable, and no others are.
-/

namespace Quill

namespace Store

/-- Binding a name in a context that was just added is the same as adding it with the binding. -/
theorem define_add (store : Store) (context : Context) (name : String) (value : Value)
    (isMutable : Bool) :
    (store.add context).2.define store.size name value isMutable =
      (store.add { context with table := context.table.define name value isMutable }).2 := by
  refine congrArg Store.mk (Array.ext_getElem? fun id => ?_)
  change ((store.contexts.push context).modify store.contexts.size _)[id]? =
    (store.contexts.push _)[id]?
  rw [Array.getElem?_modify, Array.getElem?_push, Array.getElem?_push]
  by_cases new : store.contexts.size = id
  · simp [new]
  · rw [if_neg new, if_neg (Ne.symm new), if_neg (Ne.symm new)]

end Store

namespace Machine

/-- Whether the name is that of a constant. -/
def IsConstant (name : String) : Prop :=
  ∃ value, (name, value) ∈ constants

/-- The table with the built-in functions, which have the identities from `serial` onwards. -/
def builtinTable : List Builtin → (serial : Nat) → Table → Table
  | [], _, table => table
  | builtin :: rest, serial, table =>
    let function := Function.builtin ⟨serial, builtin.name, builtin.parameters⟩
    builtinTable rest (serial + 1) (table.define builtin.name (.function function) true)

/-- The table with the constants. -/
def constantTable : Table :=
  constants.foldl (fun table (name, value) => table.define name value false) .empty

/-- The table of a new outermost context. -/
def globalTable (serial : Nat) : Table :=
  builtinTable Builtin.all serial constantTable

/-- An outermost context with a table. -/
def programContext (table : Table) : Context :=
  ⟨programName, none, none, table⟩

theorem foldl_define (store : Store) (pairs : List (String × Value)) (table : Table) :
    pairs.foldl (fun store' (name, value) => store'.define store.size name value false)
        (store.add (programContext table)).2 =
      (store.add (programContext
        (pairs.foldl (fun table (name, value) => table.define name value false) table))).2 := by
  induction pairs generalizing table with
  | nil => rfl
  | cons pair rest ih =>
    obtain ⟨name, value⟩ := pair
    rw [List.foldl_cons, List.foldl_cons]
    dsimp only
    rw [Store.define_add]
    exact ih _

theorem foldl_bindBuiltin (builtins : List Builtin) (machine : Machine) (store : Store)
    (table : Table) :
    builtins.foldl (bindBuiltin store.size)
        { machine with store := (store.add (programContext table)).2 } =
      { machine with
        store := (store.add (programContext (builtinTable builtins machine.serial table))).2
        serial := machine.serial + builtins.length } := by
  induction builtins generalizing machine table with
  | nil => rfl
  | cons builtin rest ih =>
    let function := Function.builtin ⟨machine.serial, builtin.name, builtin.parameters⟩
    have rests := ih { machine with serial := machine.serial + 1 }
      (table.define builtin.name (.function function) true)
    rw [List.foldl_cons, bindBuiltin]
    dsimp only
    rw [Store.define_add, List.length_cons, Nat.add_comm rest.length, ← Nat.add_assoc]
    exact rests

/-- A new outermost context is added to the store with all its bindings. -/
theorem addGlobals_eq (machine : Machine) :
    machine.addGlobals = (machine.store.size, { machine with
      store := (machine.store.add (programContext (globalTable machine.serial))).2
      serial := machine.serial + Builtin.all.length }) := by
  have bound := foldl_define machine.store constants .empty
  have added := foldl_bindBuiltin Builtin.all machine machine.store constantTable
  refine congrArg (Prod.mk machine.store.size) (Eq.trans ?_ added)
  rw [constantTable, ← bound]
  rfl

/-! ## What is bound in it -/

theorem find?_builtinTable {name : String} (builtins : List Builtin)
    (free : ∀ builtin ∈ builtins, builtin.name ≠ name) (serial : Nat) (table : Table) :
    (builtinTable builtins serial table).find? name = table.find? name := by
  induction builtins generalizing serial table with
  | nil => rfl
  | cons builtin rest ih =>
    rw [builtinTable, ih fun other member => free other (List.mem_cons_of_mem _ member),
      Table.find?_define, if_neg (free builtin List.mem_cons_self).symm]

/-- What is immutable besides built-in functions was so before. -/
theorem find?_of_immutable_builtinTable {name : String} {binding : Binding}
    (builtins : List Builtin) (serial : Nat) (table : Table)
    (found : (builtinTable builtins serial table).find? name = some binding)
    (fixed : binding.isMutable = false) : table.find? name = some binding := by
  induction builtins generalizing serial table with
  | nil => exact found
  | cons builtin rest ih =>
    have before := ih _ _ found
    rw [Table.find?_define] at before
    split at before
    · cases before
      cases fixed
    · exact before

theorem all_builtinTable {holds : Value → Prop}
    (builtin : ∀ function, holds (.function (.builtin function))) (builtins : List Builtin)
    (serial : Nat) {table : Table} (all : table.All holds) :
    (builtinTable builtins serial table).All holds := by
  induction builtins generalizing serial table with
  | nil => exact all
  | cons first rest ih => exact ih (serial + 1) (all.define first.name (builtin _) true)

/-- No built-in function has the name of a constant. -/
theorem not_isConstant_name (builtin : Builtin) : ¬IsConstant builtin.name := by
  rintro ⟨value, member⟩
  simp only [constants, List.mem_cons, Prod.mk.injEq, List.not_mem_nil, or_false] at member
  cases builtin <;> simp [Builtin.name] at member

theorem find?_constantTable (name : String) :
    constantTable.find? name =
      if name = "false" then some ⟨.ofBool false, false⟩
      else if name = "true" then some ⟨.ofBool true, false⟩
      else if name = "null" then some ⟨.null, false⟩ else none := by
  simp only [constantTable, constants, List.foldl_cons, List.foldl_nil, Table.find?_define,
    Table.find?_empty]

/-- An outermost context binds each constant to its value, immutably. -/
theorem find?_globalTable {pair : String × Value} (member : pair ∈ constants) (serial : Nat) :
    (globalTable serial).find? pair.1 = some ⟨pair.2, false⟩ := by
  have free : ∀ builtin ∈ Builtin.all, builtin.name ≠ pair.1 := by
    rintro builtin - same
    exact not_isConstant_name builtin ⟨pair.2, same ▸ member⟩
  rw [globalTable, find?_builtinTable _ free, find?_constantTable]
  simp only [constants, List.mem_cons, List.not_mem_nil, or_false] at member
  rcases member with rfl | rfl | rfl <;> rfl

/-- What an outermost context binds immutably are constants. -/
theorem isConstant_of_immutable {name : String} {binding : Binding} {serial : Nat}
    (found : (globalTable serial).find? name = some binding) (fixed : binding.isMutable = false) :
    IsConstant name := by
  have before := find?_of_immutable_builtinTable _ _ _ found fixed
  rw [find?_constantTable] at before
  simp only [IsConstant, constants, List.mem_cons, Prod.mk.injEq, List.not_mem_nil, or_false]
  grind

theorem all_globalTable {holds : Value → Prop} (constant : ∀ pair ∈ constants, holds pair.2)
    (builtin : ∀ function, holds (.function (.builtin function))) (serial : Nat) :
    (globalTable serial).All holds := by
  apply all_builtinTable builtin
  exact List.foldlRecOn (motive := Table.All holds) constants _ Table.all_empty
    fun table all pair member => all.define pair.1 (constant pair member) false

end Machine

end Quill
