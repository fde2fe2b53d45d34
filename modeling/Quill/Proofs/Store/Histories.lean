import Quill.Proofs.Store.Chains

/-!
# Stores by their histories

What a store tells is determined by what was done to it before. A name has the value of the latest
write that succeeded, in the first table along the scope links that any write of the name succeeded
in. A definition always succeeds, and an assignment unless the latest definition of the name in that
table made it immutable. How contexts were entered has no part in this.

The reading of a history here knows nothing of tables and links. It is recursive on the history,
whose latest operation comes first.
-/

namespace Quill.Store

/-- What can be done to a store. -/
inductive Operation where
  /-- An outermost context is added. -/
  | root (name : String)
  /-- A context is added that is entered from another one. -/
  | nested (name : String) (caller : ContextId) (span : Span) (scope : Option ContextId)
  /-- A name is bound in a context, whatever it was bound to before. -/
  | define (id : ContextId) (name : String) (value : Value) (isMutable : Bool)
  /-- A name is given a value in a context. -/
  | assign (id : ContextId) (name : String) (value : Value)
  /-- A name is looked up in a context and along the scope links. -/
  | lookup (id : ContextId) (name : String)
  /-- A name is looked up in a context itself. -/
  | lookupLocal (id : ContextId) (name : String)

/-- What an operation tells. -/
inductive Answer where
  /-- The number of a new context. -/
  | added (id : ContextId)
  /-- That a name has been bound. -/
  | done
  /-- Why it has not. -/
  | refused (fault : Fault)
  /-- The value of a name. -/
  | found (value : Option Value)

/-- Does what an operation asks for. -/
def perform (store : Store) : Operation → Answer × Store
  | .root name => (.added (store.root name).1, (store.root name).2)
  | .nested name caller span scope =>
    (.added (store.nested name caller span scope).1, (store.nested name caller span scope).2)
  | .define id name value isMutable => (.done, store.define id name value isMutable)
  | .assign id name value =>
    match store.assign id name value with
    | .ok after => (.done, after)
    | .error fault => (.refused fault, store)
  | .lookup id name => (.found (store.lookup id name), store)
  | .lookupLocal id name => (.found (store.lookupLocal id name), store)

/-- The store after a history, whose latest operation comes first. -/
def after : List Operation → Store
  | [] => .empty
  | operation :: past => ((after past).perform operation).2

/-! ## Reading histories -/

namespace Operation

/-- The scope link of the context that the operation adds, if it adds one. -/
def link? : Operation → Option (Option ContextId)
  | .root _ => some none
  | .nested _ _ _ scope => some scope
  | _ => none

/-- The context, the name and the value of the write that the operation asks for, if it does. -/
def write? : Operation → Option (ContextId × String × Value)
  | .define id name value _ | .assign id name value => some (id, name, value)
  | _ => none

/-- Whether the contexts that the operation is about are among the first ones, of this number. Where
a new context is entered from makes no difference. -/
def Within (size : Nat) : Operation → Prop
  | .root _ => True
  | .nested _ _ _ scope => ∀ outer ∈ scope, outer < size
  | .define id _ _ _ | .assign id _ _ | .lookup id _ | .lookupLocal id _ => id < size

instance (operation : Operation) (size : Nat) : Decidable (operation.Within size) :=
  match operation with
  | .root _ => inferInstanceAs (Decidable True)
  | .nested _ _ _ scope => inferInstanceAs (Decidable (∀ outer ∈ scope, outer < size))
  | .define id _ _ _ | .assign id _ _ | .lookup id _ | .lookupLocal id _ =>
    inferInstanceAs (Decidable (id < size))

end Operation

namespace History

/-- How many contexts there are. -/
def size : List Operation → Nat
  | [] => 0
  | operation :: past => if operation.link?.isSome then size past + 1 else size past

/-- Every operation is about contexts that there were at the time. -/
def Sound : List Operation → Prop
  | [] => True
  | operation :: past => operation.Within (size past) ∧ Sound past

instance decidableSound : (past : List Operation) → Decidable (Sound past)
  | [] => inferInstanceAs (Decidable True)
  | operation :: past =>
    have := decidableSound past
    inferInstanceAs (Decidable (operation.Within (size past) ∧ Sound past))

/-- Two histories have the same operations, except that a context which one of them adds may have
another name in the other one, or may have been entered from elsewhere or not at all. -/
inductive Alike : List Operation → List Operation → Prop where
  /-- Nothing has been done. -/
  | nil : Alike [] []
  /-- The same is done. -/
  | same (operation : Operation) {past other : List Operation} (before : Alike past other) :
      Alike (operation :: past) (operation :: other)
  /-- Contexts are added with the same scope link. -/
  | adding {first second : Operation} {link : Option ContextId} {past other : List Operation}
      (one : first.link? = some link) (two : second.link? = some link) (before : Alike past other) :
      Alike (first :: past) (second :: other)

/-- The contexts that a name is looked up in, in this order. -/
def chain : List Operation → ContextId → List ContextId
  | [], _ => []
  | operation :: past, id =>
    match operation.link? with
    | some link => if id = size past then id :: link.elim [] (chain past) else chain past id
    | none => chain past id

/-- Whether the latest definition of the name in the context made it immutable. -/
def fixed : List Operation → ContextId → String → Bool
  | [], _, _ => false
  | .define id name _ isMutable :: past, target, sought =>
    if target = id ∧ sought = name then !isMutable else fixed past target sought
  | _ :: past, target, sought => fixed past target sought

/-- The value of the latest write to the name in the context that succeeded. -/
def written? : List Operation → ContextId → String → Option Value
  | [], _, _ => none
  | .define id name value _ :: past, target, sought =>
    if target = id ∧ sought = name then some value else written? past target sought
  | .assign id name value :: past, target, sought =>
    if (target = id ∧ sought = name) ∧ fixed past id name = false then some value
    else written? past target sought
  | _ :: past, target, sought => written? past target sought

/-- The value of the latest write in the first context of the chain with any. -/
def read (past : List Operation) (id : ContextId) (name : String) : Option Value :=
  (chain past id).findSome? fun target => written? past target name

/-- The chain of a context reaches another one before any other context in which the name was
written. -/
def Reaches (past : List Operation) (id target : ContextId) (name : String) : Prop :=
  ∃ passed rest, chain past id = passed ++ target :: rest ∧
    ∀ inner ∈ passed, written? past inner name = none

/-- What an operation has to tell. -/
def answer (past : List Operation) : Operation → Answer
  | .root _ | .nested _ _ _ _ => .added (size past)
  | .define _ _ _ _ => .done
  | .assign id name _ => if fixed past id name then .refused (.immutableBinding name) else .done
  | .lookup id name => .found (read past id name)
  | .lookupLocal id name => .found (written? past id name)

end History

/-! ## One operation -/

section Operations

variable {store : Store} {operation : Operation} {id : ContextId} {name : String}

theorem protects_define (store : Store) (target id : ContextId) (name other : String)
    (value : Value) (isMutable : Bool) (present : target < store.size) :
    (store.define target name value isMutable).protects id other =
      if id = target ∧ other = name then !isMutable else store.protects id other := by
  rw [protects, protects, table_define]
  by_cases same : id = target
  · subst same
    rw [if_pos ⟨rfl, present⟩, Table.protects, Table.find?_define]
    by_cases sought : other = name
    · rw [if_pos sought, if_pos ⟨rfl, sought⟩]
    · rw [if_neg sought, if_neg fun both => sought both.2]
      rfl
  · rw [if_neg fun both => same both.1.symm, if_neg fun both => same both.1]

/-- A new context binds nothing, like one that is not there. -/
theorem table_add_empty (store : Store) {context : Context} (nothing : context.table = .empty)
    (id : ContextId) : (store.add context).2.table id = store.table id := by
  rw [table_add]
  by_cases new : id = store.size
  · rw [if_pos new, nothing, table, context?_eq_none (Nat.le_of_eq new.symm)]
  · rw [if_neg new]

theorem perform_assign (store : Store) (id : ContextId) (name : String) (value : Value) :
    store.perform (.assign id name value) =
      if store.protects id name then (.refused (.immutableBinding name), store)
      else (.done, store.define id name value true) := by
  rw [perform, assign]
  cases store.protects id name with
  | true => rfl
  | false => rfl

theorem size_perform (store : Store) (operation : Operation) :
    (store.perform operation).2.size =
      if operation.link?.isSome then store.size + 1 else store.size := by
  cases operation with
  | root name => exact size_add store _
  | nested name caller span scope => exact size_add store _
  | define id name value isMutable => exact size_define store id name value isMutable
  | assign id name value =>
    rw [perform_assign]
    split
    · rfl
    · exact size_define store id name value true
  | lookup id name => rfl
  | lookupLocal id name => rfl

theorem scope_perform (store : Store) (operation : Operation) (id : ContextId) :
    (store.perform operation).2.scope id =
      match operation.link? with
      | some link => if id = store.size then link else store.scope id
      | none => store.scope id := by
  cases operation with
  | root name => exact scope_add store _ id
  | nested name caller span scope => exact scope_add store _ id
  | define target name value isMutable => exact scope_define store target id name value isMutable
  | assign target name value =>
    rw [perform_assign]
    split
    · rfl
    · exact scope_define store target id name value true
  | lookup target name => rfl
  | lookupLocal target name => rfl

end Operations

/-! ## Histories -/

section Histories

variable {past other : List Operation} {operation : Operation} {id target : ContextId}
  {name : String}

theorem size_after (past : List Operation) : (after past).size = History.size past := by
  induction past with
  | nil => rfl
  | cons operation past ih => rw [after, size_perform, ih, History.size]

/-- All links lead to contexts that were there before. -/
theorem ordered_after (sound : History.Sound past) : (after past).Ordered := by
  induction past with
  | nil => exact ordered_empty
  | cons operation past ih =>
    obtain ⟨within, sound⟩ := sound
    have ordered := ih sound
    rw [after]
    cases operation with
    | root name => exact ordered.add fun _ none => nomatch none
    | nested name caller span scope =>
      rw [← size_after] at within
      exact ordered.add within
    | define target name value isMutable => exact ordered.define target name value isMutable
    | assign target name value =>
      rw [perform_assign]
      split
      · exact ordered
      · exact ordered.define target name value true
    | lookup _ _ | lookupLocal _ _ => exact ordered

theorem protects_after (sound : History.Sound past) (id : ContextId) (name : String) :
    (after past).protects id name = History.fixed past id name := by
  induction past with
  | nil => rfl
  | cons operation past ih =>
    obtain ⟨within, sound⟩ := sound
    have before := ih sound
    cases operation with
    | root _ | nested _ _ _ _ =>
      rw [History.fixed, ← before, protects, protects]
      · exact congrArg (Table.protects · name) (table_add_empty _ rfl id)
      · rintro _ _ _ _ ⟨⟩
    | define target sought value isMutable =>
      rw [History.fixed, ← before]
      exact protects_define _ target id sought name value isMutable
        ((size_after past).symm ▸ within)
    | assign target sought value =>
      rw [History.fixed, ← before, after, perform_assign]
      · split
        case isTrue => rfl
        case isFalse guarded =>
          rw [protects_define _ _ _ _ _ _ _ ((size_after past).symm ▸ within)]
          by_cases same : id = target ∧ name = sought
          · rw [if_pos same, same.1, same.2]
            exact (eq_false_of_ne_true guarded).symm
          · rw [if_neg same]
      · rintro _ _ _ _ ⟨⟩
    | lookup _ _ | lookupLocal _ _ =>
      rw [History.fixed, ← before]
      · rfl
      · rintro _ _ _ _ ⟨⟩

theorem lookupLocal_after (sound : History.Sound past) (id : ContextId) (name : String) :
    (after past).lookupLocal id name = History.written? past id name := by
  induction past with
  | nil => rfl
  | cons operation past ih =>
    obtain ⟨within, sound⟩ := sound
    have before := ih sound
    cases operation with
    | root _ | nested _ _ _ _ =>
      rw [History.written?, ← before, lookupLocal, lookupLocal]
      · exact congrArg (Table.value? · name) (table_add_empty _ rfl id)
      · rintro _ _ _ _ ⟨⟩
      · rintro _ _ _ ⟨⟩
    | define target sought value isMutable =>
      rw [History.written?, ← before]
      exact lookupLocal_define_any _ target id sought name value isMutable
        ((size_after past).symm ▸ within)
    | assign target sought value =>
      rw [History.written?, ← before, ← protects_after sound, after, perform_assign]
      split
      case isTrue guarded =>
        rw [if_neg fun both => Bool.false_ne_true (both.2.symm.trans guarded)]
      case isFalse guarded =>
        rw [lookupLocal_define_any _ _ _ _ _ _ _ ((size_after past).symm ▸ within)]
        simp only [eq_false_of_ne_true guarded, and_true]
    | lookup _ _ | lookupLocal _ _ =>
      rw [History.written?, ← before]
      · rfl
      · rintro _ _ _ _ ⟨⟩
      · rintro _ _ _ ⟨⟩

/-- What is done later changes no chain of an earlier context. -/
theorem chain_cons (operation : Operation) (old : id ≠ History.size past) :
    History.chain (operation :: past) id = History.chain past id := by
  rw [History.chain]
  cases operation.link? with
  | none => rfl
  | some link => exact if_neg old

/-- The chain of a context goes on with the chain that its link leads to. -/
theorem chain_eq (sound : History.Sound past) (present : id < History.size past) :
    History.chain past id = id :: ((after past).scope id).elim [] (History.chain past) := by
  induction past with
  | nil => exact absurd present (Nat.not_lt_zero id)
  | cons operation past ih =>
    have ordered := ordered_after sound
    have link := scope_perform (after past) operation id
    rw [← after, size_after] at link
    have bound : id ≤ History.size past := Nat.le_of_lt_succ <| Nat.lt_of_lt_of_le present <| by
      rw [History.size]
      split
      · exact Nat.le_refl _
      · exact Nat.le_succ _
    have outwards : ((after (operation :: past)).scope id).elim [] (History.chain past) =
        ((after (operation :: past)).scope id).elim [] (History.chain (operation :: past)) := by
      cases led : (after (operation :: past)).scope id with
      | none => rfl
      | some outer =>
        have older := ordered id outer led
        exact (chain_cons operation (Nat.ne_of_lt (Nat.lt_of_lt_of_le older bound))).symm
    rw [← outwards, link]
    rcases Nat.eq_or_lt_of_le bound with rfl | old
    · rw [History.chain]
      cases adds : operation.link? with
      | none =>
        rw [History.size, adds] at present
        exact absurd present (Nat.lt_irrefl _)
      | some scope =>
        dsimp only
        rw [if_pos rfl, if_pos rfl]
    · rw [chain_cons operation (Nat.ne_of_lt old), ih sound.2 old]
      cases operation.link? with
      | none => rfl
      | some scope =>
        dsimp only
        rw [if_neg (Nat.ne_of_lt old)]

/-- A name is found along the chain. -/
theorem lookup_after (sound : History.Sound past) (present : id < History.size past)
    (name : String) : (after past).lookup id name = History.read past id name := by
  induction id using Nat.strongRecOn with
  | ind id ih =>
    have ordered := ordered_after sound
    rw [lookup_eq ordered, lookupLocal_after sound, History.read, chain_eq sound present,
      List.findSome?_cons]
    cases History.written? past id name with
    | some value => rfl
    | none =>
      cases link : (after past).scope id with
      | none => rfl
      | some outer =>
        have older := ordered id outer link
        exact ih outer older (Nat.lt_trans older present)

/-- A write is read where the chain reaches it. -/
theorem findSome?_of_reached {before updated : ContextId → Option Value} {value : Value}
    {passed rest : List ContextId} (here : updated target = some value)
    (elsewhere : ∀ id, id ≠ target → updated id = before id)
    (free : ∀ inner ∈ passed, before inner = none) :
    (passed ++ target :: rest).findSome? updated = some value := by
  induction passed with
  | nil => rw [List.nil_append, List.findSome?_cons, here]
  | cons inner passed ih =>
    obtain ⟨first, free⟩ := List.forall_mem_cons.mp free
    rw [List.cons_append, List.findSome?_cons]
    by_cases same : inner = target
    · rw [same, here]
    · rw [elsewhere inner same, first]
      exact ih free

/-- A write that the chain does not reach is not read. -/
theorem findSome?_of_not_reached {before updated : ContextId → Option Value}
    (elsewhere : ∀ id, id ≠ target → updated id = before id) {chain : List ContextId}
    (hidden : ¬∃ passed rest, chain = passed ++ target :: rest ∧
      ∀ inner ∈ passed, before inner = none) :
    chain.findSome? updated = chain.findSome? before := by
  induction chain with
  | nil => rfl
  | cons inner chain ih =>
    rw [List.findSome?_cons, List.findSome?_cons]
    by_cases same : inner = target
    · exact absurd ⟨[], chain, congrArg (· :: chain) same, by simp⟩ hidden
    · rw [elsewhere inner same]
      cases bound : before inner with
      | some value => rfl
      | none =>
        refine ih fun ⟨passed, rest, split, free⟩ => hidden ⟨inner :: passed, rest, ?_, ?_⟩
        · rw [split, List.cons_append]
        · exact List.forall_mem_cons.mpr ⟨bound, free⟩

/-- What is written is the latest write, and no other name of any context is written. -/
theorem written?_cons {value : Value} (writes : operation.write? = some (target, name, value))
    (done : History.answer past operation = .done) (id : ContextId) (other : String) :
    History.written? (operation :: past) id other =
      if id = target ∧ other = name then some value else History.written? past id other := by
  cases operation with
  | define _ _ _ _ =>
    cases writes
    rw [History.written?]
  | assign _ _ _ =>
    cases writes
    rw [History.answer] at done
    split at done
    · cases done
    case isFalse free =>
      rw [History.written?]
      simp only [eq_false_of_ne_true free, and_true]
  | root _ | nested _ _ _ _ | lookup _ _ | lookupLocal _ _ => cases writes

/-- A write adds no context and changes no chain. -/
theorem chain_of_write (past : List Operation) {value : Value}
    (writes : operation.write? = some (target, name, value)) :
    History.size (operation :: past) = History.size past ∧
      History.chain (operation :: past) = History.chain past := by
  cases operation with
  | define _ _ _ _ | assign _ _ _ => exact ⟨rfl, funext fun _ => rfl⟩
  | root _ | nested _ _ _ _ | lookup _ _ | lookupLocal _ _ => cases writes

/-- After a write that succeeded, its name has the new value where the chain reaches it, and all
else has the value that it had. -/
theorem lookup_of_write (sound : History.Sound (operation :: past)) {value : Value}
    (writes : operation.write? = some (target, name, value))
    (done : History.answer past operation = .done) (present : id < History.size past)
    (other : String) :
    (other = name → History.Reaches past id target name →
      (after (operation :: past)).lookup id other = some value) ∧
    (¬(other = name ∧ History.Reaches past id target name) →
      (after (operation :: past)).lookup id other = (after past).lookup id other) := by
  obtain ⟨size, chain⟩ := chain_of_write past writes
  have update := written?_cons writes done
  rw [lookup_after sound.2 present, lookup_after sound (size.symm ▸ present), History.read,
    History.read, chain]
  constructor
  · rintro rfl ⟨passed, rest, split, free⟩
    rw [split]
    refine findSome?_of_reached ?_ (fun inner apart => ?_) free
    · rw [update, if_pos ⟨rfl, rfl⟩]
    · rw [update, if_neg fun both => apart both.1]
  · intro apart
    by_cases same : other = name
    · subst same
      refine findSome?_of_not_reached (fun inner apart => ?_) fun reached => apart ⟨rfl, reached⟩
      rw [update, if_neg fun both => apart both.1]
    · have kept : (History.written? (operation :: past) · other) =
          (History.written? past · other) := funext fun inner => by
        rw [update, if_neg fun both => same both.2]
      rw [kept]

theorem answer_eq (sound : History.Sound past) (within : operation.Within (History.size past)) :
    ((after past).perform operation).1 = History.answer past operation := by
  cases operation with
  | root _ | nested _ _ _ _ => exact congrArg Answer.added (size_after past)
  | define _ _ _ _ => rfl
  | assign id name value =>
    rw [perform_assign, protects_after sound, History.answer]
    split
    · rfl
    · rfl
  | lookup id name => exact congrArg Answer.found (lookup_after sound within name)
  | lookupLocal id name => exact congrArg Answer.found (lookupLocal_after sound id name)

theorem within_of_adds {size : Nat} {link : Option ContextId} (adds : operation.link? = some link) :
    operation.Within size ↔ ∀ outer, link = some outer → outer < size := by
  cases operation with
  | root name =>
    cases adds
    exact iff_of_true trivial fun _ none => nomatch none
  | nested name caller span scope =>
    cases adds
    exact Iff.rfl
  | define _ _ _ _ | assign _ _ _ | lookup _ _ | lookupLocal _ _ => cases adds

/-- Adding a context is no write. -/
theorem reads_of_adds {link : Option ContextId} (adds : operation.link? = some link) :
    History.fixed (operation :: past) = History.fixed past ∧
      History.written? (operation :: past) = History.written? past := by
  cases operation with
  | root _ | nested _ _ _ _ => exact ⟨rfl, rfl⟩
  | define _ _ _ _ | assign _ _ _ | lookup _ _ | lookupLocal _ _ => cases adds

/-- Histories that are alike read alike. -/
theorem reads_of_alike (alike : History.Alike past other) :
    History.size other = History.size past ∧ History.chain other = History.chain past ∧
      History.fixed other = History.fixed past ∧ History.written? other = History.written? past ∧
      (History.Sound past → History.Sound other) := by
  induction alike with
  | nil => exact ⟨rfl, rfl, rfl, rfl, id⟩
  | same operation before ih =>
    obtain ⟨size, chain, fixed, written, sound⟩ := ih
    refine ⟨?_, ?_, ?_, ?_, ?_⟩
    · rw [History.size, History.size, size]
    · funext id
      rw [History.chain, History.chain, size, chain]
    · funext id name
      cases operation <;> simp only [History.fixed, fixed]
    · funext id name
      cases operation <;> simp only [History.written?, written, fixed]
    · rintro ⟨within, before⟩
      exact ⟨size ▸ within, sound before⟩
  | adding one two before ih =>
    obtain ⟨size, chain, fixed, written, sound⟩ := ih
    obtain ⟨fixedOne, writtenOne⟩ := reads_of_adds one
    obtain ⟨fixedTwo, writtenTwo⟩ := reads_of_adds two
    refine ⟨?_, ?_, ?_, ?_, ?_⟩
    · rw [History.size, History.size, size, one, two]
    · funext id
      rw [History.chain, History.chain, size, chain, one, two]
    · rw [fixedOne, fixedTwo, fixed]
    · rw [writtenOne, writtenTwo, written]
    · rintro ⟨within, before⟩
      exact ⟨size ▸ (within_of_adds two).mpr ((within_of_adds one).mp within), sound before⟩

theorem answer_of_alike (alike : History.Alike past other) (operation : Operation) :
    History.answer other operation = History.answer past operation := by
  obtain ⟨size, chain, fixed, written, _⟩ := reads_of_alike alike
  cases operation <;> simp only [History.answer, History.read, size, chain, fixed, written]

end Histories

/-- Stores do what their histories say. In every history, each operation tells what it has to tell:
a name has the value of the latest write that succeeded, in the first context of the chain with any,
or just in the context itself, and an assignment is refused if and only if the latest definition of
the name there made it immutable, and then changes nothing. A write that succeeds is read under its
name from the contexts whose chain reaches it before any other context that binds the name, and
changes nothing else that is read. How contexts were entered makes no difference to any of this. -/
theorem answers_by_history {past : List Operation} (sound : History.Sound past) :
    (∀ operation : Operation, operation.Within (History.size past) →
      ((after past).perform operation).1 = History.answer past operation) ∧
    (∀ id name value, id < History.size past →
      (((after past).perform (.assign id name value)).1 = .refused (.immutableBinding name) ↔
        History.fixed past id name = true) ∧
      (History.fixed past id name = true →
        ((after past).perform (.assign id name value)).2 = after past)) ∧
    (∀ operation target name value, operation.write? = some (target, name, value) →
      operation.Within (History.size past) → ((after past).perform operation).1 = .done →
      ∀ id other, id < History.size past →
        (other = name → History.Reaches past id target name →
          ((after past).perform operation).2.lookup id other = some value) ∧
        (¬(other = name ∧ History.Reaches past id target name) →
          ((after past).perform operation).2.lookup id other = (after past).lookup id other)) ∧
    ∀ entered, History.Alike past entered → ∀ operation : Operation,
      operation.Within (History.size past) →
      ((after entered).perform operation).1 = ((after past).perform operation).1 := by
  refine ⟨fun _ => answer_eq sound, ?_, ?_, ?_⟩
  · intro id name value _
    rw [perform_assign, protects_after sound]
    split
    case isTrue fixed => exact ⟨iff_of_true rfl fixed, fun _ => rfl⟩
    case isFalse free =>
      exact ⟨iff_of_false (fun refused => nomatch refused) free, fun fixed => absurd fixed free⟩
  · intro operation target name value writes within done id other present
    rw [answer_eq sound within] at done
    exact lookup_of_write ⟨within, sound⟩ writes done present other
  · intro entered alike operation within
    obtain ⟨size, _, _, _, also⟩ := reads_of_alike alike
    rw [answer_eq sound within, answer_eq (also sound) (size.symm ▸ within),
      answer_of_alike alike]

/-- A call's context has a variable of its own in front of one that a later definition made
immutable. Changes of the outer one stay hidden from it, while it reads other names that are defined
there. -/
theorem answers_by_history_shadowing :
    let span : Span := ⟨⟨0, "main", "f()"⟩, ⟨0, 1, 1⟩, ⟨3, 1, 4⟩⟩
    let past : List Operation := [.assign 1 "x" (.int 3), .define 0 "x" (.int 2) false,
      .define 0 "x" (.int 1) true, .nested "f" 0 span (some 0), .root "<program>"]
    let elsewhere : List Operation := [.assign 1 "x" (.int 3), .define 0 "x" (.int 2) false,
      .define 0 "x" (.int 1) true, .nested "g" 1 span (some 0), .root "<program>"]
    History.Sound past ∧
      ((after past).perform (.lookup 1 "x")).1 = .found (some (.int 3)) ∧
      ((after past).perform (.assign 0 "x" (.int 4))).1 = .refused (.immutableBinding "x") ∧
      ((after past).perform (.define 0 "y" (.int 5) true)).2.lookup 1 "y" = some (.int 5) ∧
      ((after past).perform (.define 0 "x" (.int 5) true)).2.lookup 1 "x" = some (.int 3) ∧
      ((after elsewhere).perform (.lookup 1 "x")).1 = .found (some (.int 3)) := by
  intro span past elsewhere
  have sound : History.Sound past := by decide
  have alike : History.Alike past elsewhere :=
    .same _ (.same _ (.same _ (.adding rfl rfl (.same _ .nil))))
  obtain ⟨answers, assigns, writes, entered⟩ := answers_by_history sound
  have shadowed : ((after past).perform (.lookup 1 "x")).1 = .found (some (.int 3)) :=
    answers (.lookup 1 "x") (by decide)
  refine ⟨sound, shadowed, ?_, ?_, ?_, ?_⟩
  · exact ((assigns 0 "x" (.int 4) (by decide)).1).mpr rfl
  · refine (writes (.define 0 "y" (.int 5) true) 0 "y" (.int 5) rfl (by decide) rfl 1 "y"
      (by decide)).1 rfl ⟨[1], [], rfl, ?_⟩
    simp [past, History.written?]
  · refine ((writes (.define 0 "x" (.int 5) true) 0 "x" (.int 5) rfl (by decide) rfl 1 "x"
      (by decide)).2 ?_).trans (Answer.found.inj shadowed)
    rintro ⟨-, passed, rest, split, free⟩
    cases passed with
    | nil => exact absurd (List.cons.inj split).1 (by decide)
    | cons inner passed =>
      obtain ⟨rfl, -⟩ := List.cons.inj split
      exact nomatch free 1 List.mem_cons_self
  · exact (entered elsewhere alike (.lookup 1 "x") (by decide)).trans shadowed

end Quill.Store
