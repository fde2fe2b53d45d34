import Quill.Proofs.Store.Tables
import Quill.Proofs.Tracebacks.Basic

/-!
# Call stacks and entry links

Tracebacks are read off the entry links of contexts, which evaluation writes once and never reads
for any other purpose. Here they are compared with call stacks: wherever the contexts of a call
stack are linked to one another as it says, the traceback of the innermost one is the traceback of
the call stack. Names may be bound and contexts may be added in between, for neither changes how the
older contexts were entered.
-/

namespace Quill

/-! ## Tracebacks of call stacks -/

/-- An activation adds one frame behind those of the call stack that has got to its expression. -/
theorem CallStack.traceback_push (stack : CallStack) (name : String) (entered span : Span) :
    (stack.push name entered).traceback span =
      stack.traceback entered ++ [Frame.at span name] := by
  rw [traceback, places_push, contexts_push, List.zipWith_append (by simp)]
  rfl

namespace Store

/-! ## What contexts are known by -/

/-- In the second store, the contexts of the first one have the names that they had and were entered
as they were. -/
def Retains (store after : Store) : Prop :=
  ∀ id context, store.context? id = some context →
    ∃ later, after.context? id = some later ∧ later.name = context.name ∧
      later.entry = context.entry

theorem Retains.refl (store : Store) : store.Retains store :=
  fun _ context found => ⟨context, found, rfl, rfl⟩

theorem Retains.trans {store between after : Store} (first : store.Retains between)
    (second : between.Retains after) : store.Retains after := by
  intro id context found
  obtain ⟨middle, foundThen, sameName, sameEntry⟩ := first id context found
  obtain ⟨later, foundLater, laterName, laterEntry⟩ := second id middle foundThen
  exact ⟨later, foundLater, laterName.trans sameName, laterEntry.trans sameEntry⟩

theorem retains_add (store : Store) (context : Context) : store.Retains (store.add context).2 := by
  intro id known found
  refine ⟨known, ?_, rfl, rfl⟩
  rw [context?_add, if_neg (Nat.ne_of_lt (lt_size_of_context?_eq_some found))]
  exact found

theorem retains_define (store : Store) (id : ContextId) (name : String) (value : Value)
    (isMutable : Bool) : store.Retains (store.define id name value isMutable) := by
  intro other context found
  rw [define, context?_updateTable, found]
  refine ⟨_, rfl, ?_⟩
  split
  · exact ⟨rfl, rfl⟩
  · exact ⟨rfl, rfl⟩

/-! ## Contexts with a call stack -/

/-- The context is the innermost one of the call stack, as far as the entry links tell. -/
inductive Stands (store : Store) : ContextId → CallStack → Prop where
  /-- It is an outermost context. -/
  | outermost {id : ContextId} {context : Context} (found : store.context? id = some context)
      (first : context.entry = none) : Stands store id (.outermost context.name)
  /-- It was entered from an older context. -/
  | entered {id caller : ContextId} {context : Context} {span : Span} {stack : CallStack}
      (found : store.context? id = some context) (link : context.entry = some ⟨caller, span⟩)
      (older : caller < id) (outer : Stands store caller stack) :
      Stands store id (stack.push context.name span)

variable {store after : Store} {id : ContextId} {stack : CallStack}

theorem Stands.retained (stands : store.Stands id stack) (retains : store.Retains after) :
    after.Stands id stack := by
  induction stands with
  | @outermost id context found first =>
    obtain ⟨later, foundLater, sameName, sameEntry⟩ := retains id context found
    rw [← sameName]
    exact .outermost foundLater (sameEntry.trans first)
  | @entered id caller context span stack found link older outer ih =>
    obtain ⟨later, foundLater, sameName, sameEntry⟩ := retains id context found
    rw [← sameName]
    exact .entered foundLater (sameEntry.trans link) older ih

theorem Stands.exists_context (stands : store.Stands id stack) :
    ∃ context, store.context? id = some context := by
  cases stands with
  | outermost found first => exact ⟨_, found⟩
  | entered found link older outer => exact ⟨_, found⟩

theorem Stands.lt_size (stands : store.Stands id stack) : id < store.size := by
  obtain ⟨context, found⟩ := stands.exists_context
  exact lt_size_of_context?_eq_some found

theorem reverse_framesWithin (stands : store.Stands id stack) {steps : Nat} (enough : id < steps)
    (span : Span) : (store.framesWithin steps id span).reverse = stack.traceback span := by
  induction stands generalizing steps span with
  | outermost found first =>
    cases steps with
    | zero => exact absurd enough (Nat.not_lt_zero _)
    | succ steps =>
      rw [framesWithin, found]
      simp only [first]
      rfl
  | @entered id caller context entered stack found link older outer ih =>
    cases steps with
    | zero => exact absurd enough (Nat.not_lt_zero id)
    | succ steps =>
      rw [framesWithin, found]
      simp only [link, List.reverse_cons]
      rw [ih (Nat.lt_of_lt_of_le older (Nat.le_of_lt_succ enough)), CallStack.traceback_push]
      rfl

/-- The traceback of a context is the one of its call stack. -/
theorem traceback_eq (stands : store.Stands id stack) (span : Span) :
    store.traceback id span = stack.traceback span :=
  reverse_framesWithin stands (Nat.lt_succ_self id) span

/-- An outermost context, with its name. -/
def Outermost (store : Store) (id : ContextId) (name : String) : Prop :=
  ∃ context, store.context? id = some context ∧ context.entry = none ∧ context.name = name

variable {name : String}

theorem Outermost.stands (outermost : store.Outermost id name) :
    store.Stands id (.outermost name) := by
  obtain ⟨context, found, first, rfl⟩ := outermost
  exact .outermost found first

theorem Outermost.retained (outermost : store.Outermost id name) (retains : store.Retains after) :
    after.Outermost id name := by
  obtain ⟨context, found, first, sameName⟩ := outermost
  obtain ⟨later, foundLater, laterName, laterEntry⟩ := retains id context found
  exact ⟨later, foundLater, laterEntry.trans first, laterName.trans sameName⟩

/-- The outermost context around a context is where its call stack begins. -/
theorem Stands.outermost_rootOf (stands : store.Stands id stack) :
    store.Outermost (store.rootOf id) stack.root := by
  induction stands with
  | @outermost id context found first =>
    have unentered : store.entered id = none := by
      rw [Store.entered, found]
      exact first
    rw [rootOf_eq, unentered]
    exact ⟨context, found, first, rfl⟩
  | @entered id caller context span stack found link older outer ih =>
    have linked : store.entered id = some ⟨caller, span⟩ := by
      rw [Store.entered, found]
      exact link
    rw [rootOf_eq, linked]
    simp only [if_pos older]
    exact ih

theorem outermost_root (store : Store) (name : String) :
    (store.root name).2.Outermost store.size name := by
  refine ⟨⟨name, none, none, .empty⟩, ?_, rfl, rfl⟩
  rw [root, context?_add, if_pos rfl]

/-- A new context stands on the call stack of the context that it is entered from. -/
theorem Stands.add (stands : store.Stands id stack) {context : Context} {span : Span}
    (link : context.entry = some ⟨id, span⟩) :
    (store.add context).2.Stands store.size (stack.push context.name span) := by
  have found : (store.add context).2.context? store.size = some context := by
    rw [context?_add, if_pos rfl]
  exact .entered found link stands.lt_size (stands.retained (retains_add store context))

end Store

namespace Machine

/-- A new outermost context is one, and all others are what they were. -/
theorem addGlobals_outermost (machine : Machine) :
    machine.store.Retains machine.addGlobals.2.store ∧
      machine.addGlobals.2.store.Outermost machine.addGlobals.1 programName := by
  change machine.store.Retains machine.addGlobals.2.store ∧
    machine.addGlobals.2.store.Outermost machine.store.size programName
  have kept {before after : Store} (retains : before.Retains after) :
      machine.store.Retains before ∧ before.Outermost machine.store.size programName →
        machine.store.Retains after ∧ after.Outermost machine.store.size programName :=
    fun ⟨earlier, outermost⟩ => ⟨earlier.trans retains, outermost.retained retains⟩
  refine machine.addGlobals_elim (fun current => machine.store.Retains current.store ∧
    current.store.Outermost machine.store.size programName) ?_ ?_ ?_
  · exact ⟨Store.retains_add _ _, Store.outermost_root _ programName⟩
  · intro current pair _
    exact kept (current.store.retains_define machine.store.size pair.1 pair.2 false)
  · intro current builtin
    exact kept (current.store.retains_define machine.store.size builtin.name _ true)

end Machine

end Quill
