import Quill.Proofs.Values.Operators

/-!
# Bodies in values

Functions and objects carry code: the body of the function, and the statements of the template. A
value may hold several of them in lists. Values of all other kinds carry none, so operators never
come up with a body that was not in one of their operands.
-/

namespace Quill

/-- What is admitted as code of functions and of templates. -/
structure Bodies where
  /-- Whether it is admitted as the body of a function, or as a program. -/
  routine : Expr Span → Prop
  /-- Whether it is admitted as the statements of a template. -/
  members : Expr Span → Prop

namespace Bodies

mutual

/-- Whether all bodies in a value are admitted. -/
def Admit (bodies : Bodies) : Value → Prop
  | .list elements => bodies.AdmitAll elements
  | .function (.user function) => bodies.routine function.body
  | .object object => bodies.members object.body
  | _ => True

/-- Whether all bodies in some values are admitted. -/
def AdmitAll (bodies : Bodies) : List Value → Prop
  | [] => True
  | element :: rest => bodies.Admit element ∧ bodies.AdmitAll rest

end

variable {bodies : Bodies}

theorem admitAll_iff (elements : List Value) :
    bodies.AdmitAll elements ↔ ∀ element ∈ elements, bodies.Admit element := by
  induction elements with
  | nil => simp [AdmitAll]
  | cons element rest ih => simp [AdmitAll, ih]

theorem admit_list (elements : List Value) :
    bodies.Admit (.list elements) ↔ ∀ element ∈ elements, bodies.Admit element := by
  rw [Admit, admitAll_iff]

/-- The bodies that admit everything. -/
def all : Bodies :=
  ⟨fun _ => True, fun _ => True⟩

mutual

theorem admit_all : (value : Value) → all.Admit value
  | .list elements => admitAll_all elements
  | .function (.user _) => trivial
  | .function (.builtin _) => trivial
  | .object _ => trivial
  | .null | .int _ | .float _ | .str _ | .exception _ => trivial

theorem admitAll_all : (elements : List Value) → all.AdmitAll elements
  | [] => trivial
  | element :: rest => ⟨admit_all element, admitAll_all rest⟩

end

/-! ## Operations -/

/-- Values without parts carry no bodies. -/
theorem hereditary_admit : Hereditary bodies.Admit where
  list_iff := admit_list
  null := trivial
  int _ := trivial
  float _ := trivial
  str _ := trivial

theorem sound_checkArity (function : Function) (count : Nat) :
    Sound (fun _ => True) (function.checkArity count) := by
  unfold Function.checkArity
  grind [Sound, Fault.Ordinary]

end Bodies

end Quill
