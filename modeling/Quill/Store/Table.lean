import Quill.Value.Basic

/-!
# Tables of bindings

A table binds names to values. A binding may be immutable, which protects it from assignments,
while defining the name anew replaces it. The laws at the end say what a name means after it was
defined, and when it is protected.
-/

namespace Quill

/-- What a name is bound to. -/
structure Binding where
  /-- The value. -/
  value : Value
  /-- Whether an assignment may replace the value. -/
  isMutable : Bool

/-- Names with their bindings. -/
structure Table where
  /-- The bindings in the order in which the names were first bound. -/
  bindings : List (String × Binding)

namespace Table

/-- The table without any binding. -/
def empty : Table := ⟨[]⟩

/-- The binding of a name. -/
def find? (table : Table) (name : String) : Option Binding :=
  table.bindings.lookup name

/-- The value of a name. -/
def value? (table : Table) (name : String) : Option Value :=
  (table.find? name).map (·.value)

/-- Replaces the binding of a name where it stands, or adds one at the end. -/
def bind (name : String) (binding : Binding) : List (String × Binding) → List (String × Binding)
  | [] => [(name, binding)]
  | (other, old) :: rest =>
    if name = other then (other, binding) :: rest else (other, old) :: bind name binding rest

/-- Binds a name to a value, whatever it was bound to before. -/
def define (table : Table) (name : String) (value : Value) (isMutable : Bool) : Table :=
  ⟨bind name ⟨value, isMutable⟩ table.bindings⟩

/-- Whether the name has a binding that an assignment must not change. -/
def protects (table : Table) (name : String) : Bool :=
  match table.find? name with
  | some binding => !binding.isMutable
  | none => false

/-- The table that binds parameters to arguments. Of two parameters of the same name the later one
counts. -/
def ofArguments (parameters : List String) (arguments : List Value) : Table :=
  (parameters.zip arguments).foldl (fun table (name, value) => table.define name value true) empty

@[simp] theorem find?_empty (name : String) : empty.find? name = none := rfl

/-- A defined name has the new binding and every other name keeps its own. -/
theorem find?_define (table : Table) (name other : String) (value : Value) (isMutable : Bool) :
    (table.define name value isMutable).find? other =
      if other = name then some ⟨value, isMutable⟩ else table.find? other := by
  obtain ⟨bindings⟩ := table
  simp only [define, find?]
  induction bindings with
  | nil =>
    by_cases sameName : other = name
    · simp [bind, sameName]
    · simp [bind, List.lookup_cons, beq_eq_false_iff_ne.2 sameName, sameName]
  | cons entry rest ih =>
    obtain ⟨bound, old⟩ := entry
    by_cases here : name = bound
    · subst here
      by_cases sameName : other = name
      · simp [bind, sameName]
      · simp [bind, List.lookup_cons, beq_eq_false_iff_ne.2 sameName, sameName]
    · by_cases sameBound : other = bound
      · subst sameBound
        have different : ¬other = name := fun same => here same.symm
        simp [bind, here, different]
      · simp [bind, List.lookup_cons, here, beq_eq_false_iff_ne.2 sameBound, ih]

/-- A name is protected exactly if it has an immutable binding. -/
theorem protects_iff (table : Table) (name : String) :
    table.protects name = true ↔
      ∃ binding, table.find? name = some binding ∧ binding.isMutable = false := by
  unfold protects
  grind

end Table

end Quill
