import Quill.Proofs.Isolation.Sealed
import Quill.Proofs.Store.Chains
import Quill.Proofs.Tracebacks.Standing

/-!
# Walks along links

Looking up a name, finding the outermost context and collecting a traceback are walks along links,
and each of them goes on until there is no further link. Described in this way, without a bound on
the number of steps, a walk need not come to an end: a link may lead to nowhere, or links may go
round in a circle. Where all links lead to older contexts neither is possible. From every context
that there is each of the three walks ends, and with what is found in a bounded number of steps.
-/

namespace Quill

namespace Store

/-- All links lead to older contexts. -/
structure Descends (store : Store) : Prop where
  /-- The scope links do. -/
  scopes : store.Ordered
  /-- The entry links do. -/
  entries : ∀ id entry, store.entered id = some entry → entry.caller < id

/-! ## Walks -/

/-- Looking up a name from a context on ends with a result, after some number of steps. -/
inductive Finds (store : Store) (name : String) : ContextId → Option Value → Prop where
  /-- The context binds the name itself. -/
  | bound {id : ContextId} {context : Context} {value : Value}
      (found : store.context? id = some context) (own : context.table.value? name = some value) :
      Finds store name id (some value)
  /-- The name is looked up where the scope link leads. -/
  | further {id outer : ContextId} {context : Context} {result : Option Value}
      (found : store.context? id = some context) (unbound : context.table.value? name = none)
      (link : context.scope = some outer) (rest : Finds store name outer result) :
      Finds store name id result
  /-- There is no scope link, and so the name has no value. -/
  | nowhere {id : ContextId} {context : Context} (found : store.context? id = some context)
      (unbound : context.table.value? name = none) (last : context.scope = none) :
      Finds store name id none

/-- The entry links from a context on end in an outermost context, which was not entered. -/
inductive Ascends (store : Store) : ContextId → ContextId → Prop where
  /-- The context was not entered itself. -/
  | outermost {id : ContextId} {context : Context} (found : store.context? id = some context)
      (first : context.entry = none) : Ascends store id id
  /-- The links go on where the context was entered from. -/
  | entered {id root : ContextId} {context : Context} {entry : Entry}
      (found : store.context? id = some context) (link : context.entry = some entry)
      (rest : Ascends store entry.caller root) : Ascends store id root

/-- Collecting the frames of a context that has got to a place ends with a traceback. -/
inductive Shows (store : Store) : ContextId → Span → List Frame → Prop where
  /-- The context was not entered, and its frame is the only one. -/
  | outermost {id : ContextId} {context : Context} (found : store.context? id = some context)
      (first : context.entry = none) (span : Span) :
      Shows store id span [Frame.at span context.name]
  /-- The frames of the context that it was entered from stand in front of its own. -/
  | entered {id : ContextId} {context : Context} {entry : Entry} {frames : List Frame}
      (found : store.context? id = some context) (link : context.entry = some entry)
      (rest : Shows store entry.caller entry.span frames) (span : Span) :
      Shows store id span (frames ++ [Frame.at span context.name])

/-- All walks from a context on come to an end, and with what is found in a bounded number of
steps. -/
structure WalksEnd (store : Store) (id : ContextId) : Prop where
  /-- Names are looked up. -/
  lookup : ∀ name, store.Finds name id (store.lookup id name)
  /-- The outermost context is found. -/
  root : store.Ascends id (store.rootOf id)
  /-- Tracebacks are collected. -/
  traceback : ∀ span, store.Shows id span (store.traceback id span)

variable {store : Store} {id : ContextId} {stack : CallStack}

/-- What the entry links end in is an outermost context. -/
theorem Ascends.global {root : ContextId} (ascends : store.Ascends id root) :
    store.Global root := by
  induction ascends with
  | outermost found first => exact ⟨_, found, first⟩
  | entered _ _ _ ih => exact ih

theorem exists_context?_of_lt (present : id < store.size) :
    ∃ context, store.context? id = some context :=
  ⟨_, Array.getElem?_eq_getElem present⟩

/-! ## Call stacks -/

theorem Stands.ascends (stands : store.Stands id stack) : store.Ascends id (store.rootOf id) := by
  induction stands with
  | @outermost id context found first =>
    have unentered : store.entered id = none := by
      rw [Store.entered, found]
      exact first
    rw [rootOf_eq, unentered]
    exact .outermost found first
  | @entered id caller context span stack found link older outer ih =>
    have linked : store.entered id = some ⟨caller, span⟩ := by
      rw [Store.entered, found]
      exact link
    rw [rootOf_eq, linked]
    simp only [if_pos older]
    exact .entered found link ih

theorem Stands.shows (stands : store.Stands id stack) (span : Span) :
    store.Shows id span (stack.traceback span) := by
  induction stands generalizing span with
  | outermost found first => exact .outermost found first span
  | @entered id caller context entered stack found link older outer ih =>
    rw [CallStack.traceback_push]
    exact .entered found link (ih entered) span

/-! ## Older and older contexts -/

namespace Descends

variable (descends : store.Descends)

include descends

/-- Every context is the innermost one of some call stack. -/
theorem stands (present : id < store.size) : ∃ stack, store.Stands id stack := by
  induction id using Nat.strongRecOn with
  | ind id ih =>
    obtain ⟨context, found⟩ := exists_context?_of_lt present
    cases link : context.entry with
    | none => exact ⟨_, .outermost found link⟩
    | some entry =>
      have linked : store.entered id = some entry := by
        rw [Store.entered, found]
        exact link
      have older := descends.entries id entry linked
      obtain ⟨stack, outer⟩ := ih entry.caller older (Nat.lt_trans older present)
      exact ⟨_, .entered found link older outer⟩

theorem finds (present : id < store.size) (name : String) :
    store.Finds name id (store.lookup id name) := by
  induction id using Nat.strongRecOn with
  | ind id ih =>
    obtain ⟨context, found⟩ := exists_context?_of_lt present
    have local_eq : store.lookupLocal id name = context.table.value? name := by
      rw [Store.lookupLocal, table_eq found]
    have scope_eq : store.scope id = context.scope := by
      rw [Store.scope, found]
      rfl
    rw [lookup_eq descends.scopes, local_eq, scope_eq]
    cases own : context.table.value? name with
    | some value => exact .bound found own
    | none =>
      rw [Option.none_or]
      cases link : context.scope with
      | none => exact .nowhere found own link
      | some outer =>
        have older := descends.scopes id outer (scope_eq.trans link)
        exact .further found own link (ih outer older (Nat.lt_trans older present))

/-- From every context all walks come to an end. -/
theorem walksEnd (present : id < store.size) : store.WalksEnd id := by
  obtain ⟨stack, stands⟩ := descends.stands present
  refine ⟨descends.finds present, stands.ascends, fun span => ?_⟩
  rw [traceback_eq stands]
  exact stands.shows span

/-! ## Growing stores -/

theorem define (target : ContextId) (name : String) (value : Value) (isMutable : Bool) :
    (store.define target name value isMutable).Descends where
  scopes := descends.scopes.define target name value isMutable
  entries id entry link := by
    rw [Store.define, entered_updateTable] at link
    exact descends.entries id entry link

theorem add {context : Context}
    (scope : ∀ outer, context.scope = some outer → outer < store.size)
    (caller : ∀ entry, context.entry = some entry → entry.caller < store.size) :
    (store.add context).2.Descends where
  scopes := descends.scopes.add scope
  entries id entry link := by
    rw [entered_add] at link
    split at link
    case isTrue new => exact new ▸ caller entry link
    case isFalse => exact descends.entries id entry link

end Descends

theorem descends_empty : Store.empty.Descends where
  scopes := ordered_empty
  entries := by rintro id entry ⟨⟩

end Store

end Quill
