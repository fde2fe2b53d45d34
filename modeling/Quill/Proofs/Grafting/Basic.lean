import Quill.Proofs.Grafting.Shift
import Quill.Proofs.Isolation.Sealed

/-!
# States behind other states

Two states can be put together: the contexts of one behind those of the other, with all identities
moved behind those that the other has taken, and the output behind the other output. The rest is
taken from the state that comes last. Reading from such a state and writing to it is reading from
the last part and writing to it, as long as that part refers to nothing but itself.
-/

namespace Quill

namespace Machine

variable (old : Machine)

/-- How far identities are moved to come behind those of the state. -/
def shift : Shift :=
  ⟨old.store.size, old.serial⟩

/-- The contexts of the state and others behind them. -/
def graftStore (store : Store) : Store :=
  ⟨old.store.contexts ++ store.contexts.map old.shift.context⟩

/-- The state and another one behind it. -/
def graft (machine : Machine) : Machine where
  store := old.graftStore machine.store
  serial := machine.serial + old.serial
  depth := machine.depth
  exported := machine.exported.map old.shift.value
  input := machine.input
  output := ⟨old.output.written ++ machine.output.written, machine.output.broken⟩
  requested := machine.requested ++ old.requested

/-! ## Contexts -/

theorem size_graftStore (store : Store) :
    (old.graftStore store).size = store.size + old.store.size := by
  rw [graftStore, Store.size, Array.size_append, Array.size_map, Nat.add_comm]
  rfl

theorem context?_graftStore (store : Store) (id : ContextId) :
    (old.graftStore store).context? (id + old.store.size) =
      (store.context? id).map old.shift.context := by
  have behind : ¬id + old.store.contexts.size < old.store.contexts.size :=
    Nat.not_lt_of_le (Nat.le_add_left _ _)
  rw [graftStore, Store.context?, Store.size, Array.getElem?_append, if_neg behind,
    Nat.add_sub_cancel, Array.getElem?_map]
  rfl

theorem context?_graftStore_of_lt (store : Store) {id : ContextId} (known : id < old.store.size) :
    (old.graftStore store).context? id = old.store.context? id := by
  rw [graftStore, Store.context?, Array.getElem?_append]
  exact if_pos known

theorem table_graftStore (store : Store) (id : ContextId) :
    (old.graftStore store).table (id + old.store.size) = old.shift.table (store.table id) := by
  rw [Store.table, Store.table, context?_graftStore]
  cases store.context? id <;> rfl

theorem lookupLocal_graftStore (store : Store) (id : ContextId) (name : String) :
    (old.graftStore store).lookupLocal (id + old.store.size) name =
      (store.lookupLocal id name).map old.shift.value := by
  rw [Store.lookupLocal, Store.lookupLocal, table_graftStore]
  exact Table.value?_mapped _ _ name

theorem protects_graftStore (store : Store) (id : ContextId) (name : String) :
    (old.graftStore store).protects (id + old.store.size) name = store.protects id name := by
  rw [Store.protects, Store.protects, table_graftStore]
  exact Table.protects_mapped _ _ name

theorem entered_graftStore (store : Store) (id : ContextId) :
    (old.graftStore store).entered (id + old.store.size) =
      (store.entered id).map old.shift.entry := by
  rw [Store.entered, Store.entered, context?_graftStore]
  cases store.context? id <;> rfl

theorem add_graftStore (store : Store) (context : Context) :
    (old.graftStore store).add (old.shift.context context) =
      (store.size + old.store.size, old.graftStore (store.add context).2) := by
  refine Prod.ext (old.size_graftStore store) (congrArg Store.mk ?_)
  change (old.store.contexts ++ _).push _ =
    old.store.contexts ++ (store.contexts.push context).map _
  rw [Array.map_push, Array.append_push]

theorem define_graftStore (store : Store) (id : ContextId) (name : String) (value : Value)
    (isMutable : Bool) :
    (old.graftStore store).define (id + old.store.size) name (old.shift.value value) isMutable =
      old.graftStore (store.define id name value isMutable) := by
  refine congrArg Store.mk (Array.ext_getElem? fun place => ?_)
  change ((old.graftStore store).define (id + old.store.size) name _ isMutable).context? place =
    (old.graftStore (store.define id name value isMutable)).context? place
  rw [Store.define, Store.context?_updateTable]
  by_cases known : place < old.store.size
  · have other : id + old.store.size ≠ place :=
      Nat.ne_of_gt (Nat.lt_of_lt_of_le known (Nat.le_add_left _ _))
    simp only [context?_graftStore_of_lt old _ known, if_neg other, Option.map_id']
  · obtain ⟨inner, rfl⟩ := Nat.exists_eq_add_of_le' (Nat.le_of_not_lt known)
    rw [context?_graftStore, context?_graftStore, Store.define, Store.context?_updateTable,
      Option.map_map, Option.map_map]
    apply congrFun (congrArg Option.map (funext fun context => ?_))
    simp only [Function.comp, Nat.add_right_cancel_iff]
    by_cases same : id = inner
    · simp only [if_pos same, Shift.context, Shift.table, Shift.value, Table.mapped_define]
    · simp only [if_neg same]

/-! ## Links -/

theorem lookup_graftStore {store : Store} (sealed : store.Sealed 0) (id : ContextId)
    (name : String) :
    (old.graftStore store).lookup (id + old.store.size) name =
      (store.lookup id name).map old.shift.value := by
  -- Links lead to smaller numbers, so both walks have steps enough to come to their ends.
  have walk (id steps others : Nat) (enough : id < steps) (also : id < others) :
      (old.graftStore store).lookupWithin name others (id + old.store.size) =
        (store.lookupWithin name steps id).map old.shift.value := by
    induction steps generalizing id others with
    | zero => exact absurd enough (Nat.not_lt_zero id)
    | succ steps ih =>
      cases others with
      | zero => exact absurd also (Nat.not_lt_zero id)
      | succ others =>
        rw [Store.lookupWithin, Store.lookupWithin, context?_graftStore]
        cases found : store.context? id with
        | none => rfl
        | some context =>
          simp only [Option.map_some, Shift.context, Shift.table, Table.value?_mapped]
          cases context.table.value? name with
          | some value => rfl
          | none =>
            cases link : context.scope with
            | none => rfl
            | some outer =>
              have older := ((sealed id context (Nat.zero_le id) found).scope outer link).2
              exact ih outer others (Nat.lt_of_lt_of_le older (Nat.le_of_lt_succ enough))
                (Nat.lt_of_lt_of_le older (Nat.le_of_lt_succ also))
  exact walk id _ _ (Nat.lt_succ_self _) (Nat.lt_succ_of_le (Nat.le_add_right _ _))

theorem traceback_graftStore {store : Store} (sealed : store.Sealed 0) (id : ContextId)
    (span : Span) :
    (old.graftStore store).traceback (id + old.store.size) (old.shift.span span) =
      store.traceback id span := by
  have walk (id steps others : Nat) (span : Span) (enough : id < steps) (also : id < others) :
      (old.graftStore store).framesWithin others (id + old.store.size) (old.shift.span span) =
        store.framesWithin steps id span := by
    induction steps generalizing id others span with
    | zero => exact absurd enough (Nat.not_lt_zero id)
    | succ steps ih =>
      cases others with
      | zero => exact absurd also (Nat.not_lt_zero id)
      | succ others =>
        rw [Store.framesWithin, Store.framesWithin, context?_graftStore]
        cases found : store.context? id with
        | none => rfl
        | some context =>
          cases link : context.entry with
          | none => simp [Shift.context, Shift.span, Shift.source, Span.line, link]
          | some entry =>
            have older := ((sealed id context (Nat.zero_le id) found).caller entry link).2
            have outer := ih entry.caller others entry.span
              (Nat.lt_of_lt_of_le older (Nat.le_of_lt_succ enough))
              (Nat.lt_of_lt_of_le older (Nat.le_of_lt_succ also))
            simp only [Option.map_some, Shift.context, link, Shift.entry]
            exact congrArg (List.cons _) outer
  exact congrArg List.reverse
    (walk id _ _ span (Nat.lt_succ_self _) (Nat.lt_succ_of_le (Nat.le_add_right _ _)))

theorem rootOf_graftStore (store : Store) (id : ContextId) :
    (old.graftStore store).rootOf (id + old.store.size) = store.rootOf id + old.store.size := by
  induction id using Nat.strongRecOn with
  | ind id ih =>
    rw [Store.rootOf_eq, Store.rootOf_eq store, entered_graftStore]
    cases store.entered id with
    | none => rfl
    | some entry =>
      have moved : entry.caller + old.store.size < id + old.store.size ↔ entry.caller < id :=
        Nat.add_lt_add_iff_right
      change (if entry.caller + old.store.size < id + old.store.size then _ else _) = _
      by_cases older : entry.caller < id
      · rw [if_pos (moved.mpr older)]
        exact (ih entry.caller older).trans (congrArg (· + old.store.size) (if_pos older).symm)
      · rw [if_neg (mt moved.mp older)]
        exact congrArg (· + old.store.size) (if_neg older).symm

end Machine

end Quill
