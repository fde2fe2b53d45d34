import Quill.Proofs.Store.Lookup

/-!
# Outermost contexts

The outermost context around a context is found along the entry links, from each context to the one
that it was entered from. How many steps are taken makes no difference as long as there are enough
of them. Adding a context or binding a name changes nothing about how older contexts were entered,
so their outermost contexts stay what they are.
-/

namespace Quill.Store

theorem context?_eq_none {store : Store} {id : ContextId} (beyond : store.size ≤ id) :
    store.context? id = none :=
  Array.getElem?_eq_none beyond

theorem entered_eq_none {store : Store} {id : ContextId} (beyond : store.size ≤ id) :
    store.entered id = none := by
  rw [entered, context?_eq_none beyond]
  rfl

theorem context?_add (store : Store) (context : Context) (id : ContextId) :
    (store.add context).2.context? id =
      if id = store.size then some context else store.context? id :=
  Array.getElem?_push

theorem size_add (store : Store) (context : Context) :
    (store.add context).2.size = store.size + 1 :=
  Array.size_push context

theorem entered_add (store : Store) (context : Context) (id : ContextId) :
    (store.add context).2.entered id =
      if id = store.size then context.entry else store.entered id := by
  rw [entered, context?_add]
  by_cases new : id = store.size
  · rw [if_pos new, if_pos new]
    rfl
  · rw [if_neg new, if_neg new]
    rfl

theorem entered_updateTable (store : Store) (id other : ContextId) (change : Table → Table) :
    (store.updateTable id change).entered other = store.entered other := by
  rw [entered, entered, context?_updateTable]
  cases store.context? other with
  | none => rfl
  | some context =>
    by_cases same : id = other
    · simp [same]
    · simp [same]

theorem rootWithin_succ (store : Store) (steps : Nat) (id : ContextId) :
    store.rootWithin (steps + 1) id =
      match store.entered id with
      | some entry => if entry.caller < id then store.rootWithin steps entry.caller else id
      | none => id := rfl

/-- Enough steps are as good as more of them. -/
theorem rootWithin_eq (store : Store) {steps others : Nat} {id : ContextId} (enough : id < steps)
    (also : id < others) : store.rootWithin steps id = store.rootWithin others id := by
  induction steps generalizing others id with
  | zero => exact absurd enough (Nat.not_lt_zero id)
  | succ steps ih =>
    cases others with
    | zero => exact absurd also (Nat.not_lt_zero id)
    | succ others =>
      rw [rootWithin_succ, rootWithin_succ]
      cases store.entered id with
      | none => rfl
      | some entry =>
        by_cases older : entry.caller < id
        · simp only [if_pos older]
          exact ih (Nat.lt_of_lt_of_le older (Nat.le_of_lt_succ enough))
            (Nat.lt_of_lt_of_le older (Nat.le_of_lt_succ also))
        · simp only [if_neg older]

/-- The outermost context around a context is the one around the context it was entered from. -/
theorem rootOf_eq (store : Store) (id : ContextId) :
    store.rootOf id =
      match store.entered id with
      | some entry => if entry.caller < id then store.rootOf entry.caller else id
      | none => id := by
  rw [rootOf, rootWithin_succ]
  cases store.entered id with
  | none => rfl
  | some entry =>
    by_cases older : entry.caller < id
    · simp only [if_pos older]
      exact rootWithin_eq store older (Nat.lt_succ_self _)
    · simp only [if_neg older]

/-- The outermost context around a context is not newer. -/
theorem rootOf_le (store : Store) (id : ContextId) : store.rootOf id ≤ id := by
  induction id using Nat.strongRecOn with
  | ind id ih =>
    rw [rootOf_eq]
    cases store.entered id with
    | none => exact Nat.le_refl id
    | some entry =>
      dsimp only
      split
      · rename_i older
        exact Nat.le_trans (ih entry.caller older) (Nat.le_of_lt older)
      · exact Nat.le_refl id

/-- Two stores whose contexts were entered in the same ways have the same outermost contexts. -/
theorem rootOf_congr {store other : Store} {bound : Nat}
    (same : ∀ id < bound, store.entered id = other.entered id) {id : ContextId}
    (below : id < bound) :
    store.rootOf id = other.rootOf id := by
  induction id using Nat.strongRecOn with
  | ind id ih =>
    rw [rootOf_eq, rootOf_eq, ← same id below]
    cases store.entered id with
    | none => rfl
    | some entry =>
      by_cases older : entry.caller < id
      · simp only [if_pos older]
        exact ih entry.caller older (Nat.lt_trans older below)
      · simp only [if_neg older]

/-- Adding a context leaves the outermost contexts of the older ones as they are. -/
theorem rootOf_add_of_ne (store : Store) (context : Context) {id : ContextId}
    (other : id ≠ store.size) : (store.add context).2.rootOf id = store.rootOf id := by
  by_cases below : id < store.size
  · apply rootOf_congr _ below
    intro inner inside
    rw [entered_add, if_neg (Nat.ne_of_lt inside)]
  · rw [rootOf_eq, rootOf_eq, entered_add, if_neg other, entered_eq_none (Nat.le_of_not_lt below)]

/-- The outermost context around a new context. -/
theorem rootOf_add_size (store : Store) (context : Context) :
    (store.add context).2.rootOf store.size =
      match context.entry with
      | some entry =>
        if entry.caller < store.size then store.rootOf entry.caller else store.size
      | none => store.size := by
  rw [rootOf_eq, entered_add, if_pos rfl]
  cases context.entry with
  | none => rfl
  | some entry =>
    by_cases older : entry.caller < store.size
    · simp only [if_pos older]
      exact rootOf_add_of_ne store context (Nat.ne_of_lt older)
    · simp only [if_neg older]

end Quill.Store
