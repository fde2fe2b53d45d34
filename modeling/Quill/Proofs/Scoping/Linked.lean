import Quill.Proofs.Scoping.Outline

/-!
# Two runs of one call

A call is made twice in the same state, from two contexts of one program. The states that the two
runs arrive at keep the same outline, and every context keeps the same outermost context around it.
They differ in the entries of contexts that the runs have added, and in what tracebacks tell.
-/

namespace Quill

/-- Two values that differ in tracebacks alone. -/
def Value.Alike (value other : Value) : Prop :=
  value.untraced = other.untraced

/-- Two lists of values that differ in tracebacks alone. -/
def Value.AllAlike (values others : List Value) : Prop :=
  values.map Value.untraced = others.map Value.untraced

namespace Value

variable {value other : Value} {values others : List Value}

theorem Alike.refl (value : Value) : Alike value value :=
  Eq.refl value.untraced

theorem AllAlike.nil : AllAlike [] [] :=
  Eq.refl []

theorem AllAlike.cons (first : Alike value other) (rest : AllAlike values others) :
    AllAlike (value :: values) (other :: others) := by
  rw [AllAlike, List.map_cons, List.map_cons, first, rest]

theorem AllAlike.length_eq (alike : AllAlike values others) : values.length = others.length := by
  have same := congrArg List.length alike
  rwa [List.length_map, List.length_map] at same

theorem AllAlike.list (alike : AllAlike values others) : Alike (list values) (list others) := by
  rw [Alike, untraced, untraced, untracedAll_eq_map, untracedAll_eq_map, alike]

theorem Alike.kind_eq (alike : Alike value other) : value.kind = other.kind := by
  rw [← kind_untraced value, alike, kind_untraced]

theorem Alike.isTrue_eq (alike : Alike value other) : value.isTrue = other.isTrue := by
  rw [← isTrue_untraced value, alike, isTrue_untraced]

theorem Alike.repr_eq (alike : Alike value other) : value.repr = other.repr := by
  rw [← repr_untraced value, alike, repr_untraced]

theorem Alike.display_eq (alike : Alike value other) : value.display = other.display := by
  rw [← display_untraced value, alike, display_untraced]

theorem Alike.hasException_eq (alike : Alike value other) :
    value.hasException = other.hasException := by
  rw [← hasException_untraced value, alike, hasException_untraced]

theorem unary_alike (op : UnaryOp) (operands : Alike value other) :
    (unary op value).map untraced = (unary op other).map untraced := by
  rw [map_unary_untraced, map_unary_untraced, operands]

/-- An operator that does not look into exceptions gives alike results for alike operands. -/
theorem binary_alike {op : BinaryOp} {left left' right right' : Value} (lefts : Alike left left')
    (rights : Alike right right') (discreet : Discreet op left right) :
    (binary op left right).map untraced = (binary op left' right').map untraced := by
  have discreet' : Discreet op left' right' := by
    rw [Discreet, ← lefts.hasException_eq, ← rights.hasException_eq]
    exact discreet
  rw [map_binary_untraced discreet, map_binary_untraced discreet', lefts, rights]

/-- Two values that differ in tracebacks alone, as programs see them: both are lists of such
values, or both are exceptions, or they are one and the same value. -/
inductive Paired : Value → Value → Prop where
  | list {values others : List Value} (alike : AllAlike values others) :
      Paired (list values) (list others)
  | exception (failure last : Failure) : Paired (exception failure) (exception last)
  | null : Paired null null
  | int (value : Int64) : Paired (int value) (int value)
  | float (value : Float) : Paired (float value) (float value)
  | str (value : String) : Paired (str value) (str value)
  | function (value : Function) : Paired (function value) (function value)
  | object (value : Object) : Paired (object value) (object value)

theorem Alike.paired (alike : Alike value other) : Paired value other := by
  cases value with
  | list values =>
    cases other with
    | list others =>
      have same := list.inj alike
      rw [untracedAll_eq_map, untracedAll_eq_map] at same
      exact .list same
    | _ => cases alike
  | exception failure =>
    cases other with
    | exception last => exact .exception failure last
    | _ => cases alike
  | _ =>
    cases other <;> cases alike
    constructor

/-- Two values that may be missing: both are, or both are there and alike. -/
inductive Both : Option Value → Option Value → Prop where
  /-- Both are missing. -/
  | none : Both none none
  /-- Both are there. -/
  | some {value other : Value} (values : Alike value other) : Both (some value) (some other)

theorem both_of_map {found last : Option Value}
    (same : found.map untraced = last.map untraced) : Both found last := by
  cases found with
  | none =>
    cases last with
    | none => exact .none
    | some other => cases same
  | some value =>
    cases last with
    | none => cases same
    | some other => exact .some (Option.some.inj same)

end Value

/-- Two signals that differ in tracebacks alone. -/
inductive Signal.Alike : Signal → Signal → Prop where
  | failed {failure last : Failure} (faults : failure.fault = last.fault)
      (spans : failure.span = last.span) : Alike (.failed failure) (.failed last)
  | returned {value last : Value} (values : Value.Alike value last) :
      Alike (.returned value) (.returned last)
  | broke (span : Span) : Alike (.broke span) (.broke span)
  | continued (span : Span) : Alike (.continued span) (.continued span)

/-- Two tables of arguments that differ in tracebacks alone give alike values to a parameter. -/
theorem Table.alike_of_untraced {table other : Table} (alike : table.untraced = other.untraced)
    (name : String) :
    Value.Alike ((table.value? name).getD .null) ((other.value? name).getD .null) := by
  have same : (table.value? name).map Value.untraced = (other.value? name).map Value.untraced := by
    rw [← value?_untraced, ← value?_untraced, alike]
  have both := Value.both_of_map same
  generalize table.value? name = found, other.value? name = last at both
  cases both with
  | none => exact Value.Alike.refl .null
  | some values => exact values

/-! ## Callers -/

/-- Two contexts that the same call is made from, when there are `base` contexts. -/
structure Callers where
  /-- The number of contexts before the calls. -/
  base : Nat
  /-- The caller in the first run. -/
  first : ContextId
  /-- The caller in the second run. -/
  second : ContextId
  /-- The first caller exists. -/
  first_lt : first < base
  /-- The second caller exists. -/
  second_lt : second < base

/-- The contexts that both runs have got to: the two callers, or one context that the call has come
to. -/
def Callers.Meet (callers : Callers) (id other : ContextId) : Prop :=
  (id = callers.first ∧ other = callers.second) ∨ id = other

theorem Callers.meet_self (callers : Callers) (id : ContextId) : callers.Meet id id :=
  Or.inr rfl

theorem Callers.Meet.lt_iff {callers : Callers} {id other size : Nat}
    (meet : callers.Meet id other) (grown : callers.base ≤ size) : id < size ↔ other < size := by
  obtain ⟨rfl, rfl⟩ | rfl := meet
  · have firstKnown : callers.first < size := Nat.lt_of_lt_of_le callers.first_lt grown
    have secondKnown : callers.second < size := Nat.lt_of_lt_of_le callers.second_lt grown
    exact iff_of_true firstKnown secondKnown
  · exact Iff.rfl

/-- States that two runs of a call have arrived at. -/
structure Linked (callers : Callers) (machine other : Machine) : Prop where
  /-- The states only differ in what tracebacks tell. -/
  outline : machine.outline = other.outline
  /-- The contexts from before the calls are entered as they were. -/
  older : ∀ id < callers.base, machine.store.entered id = other.store.entered id
  /-- The same context is the outermost one around a context. -/
  roots : ∀ id, machine.store.rootOf id = other.store.rootOf id
  /-- The two callers have the same outermost context around them. -/
  root : machine.store.rootOf callers.first = other.store.rootOf callers.second
  /-- No context has been removed. -/
  grown : callers.base ≤ machine.store.size

namespace Linked

variable {callers : Callers} {machine other : Machine}

theorem store (linked : Linked callers machine other) :
    machine.store.outline = other.store.outline :=
  congrArg Machine.store linked.outline

theorem size_eq (linked : Linked callers machine other) :
    machine.store.size = other.store.size := by
  rw [← Store.size_outline, linked.store, Store.size_outline]

theorem serial_eq (linked : Linked callers machine other) : machine.serial = other.serial := by
  have same := congrArg Machine.serial linked.outline
  exact same

theorem depth_eq (linked : Linked callers machine other) : machine.depth = other.depth := by
  have same := congrArg Machine.depth linked.outline
  exact same

theorem input_eq (linked : Linked callers machine other) : machine.input = other.input := by
  have same := congrArg Machine.input linked.outline
  exact same

theorem output_eq (linked : Linked callers machine other) : machine.output = other.output := by
  have same := congrArg Machine.output linked.outline
  exact same

theorem lookup_eq (linked : Linked callers machine other) (id : ContextId) (name : String) :
    (machine.store.lookup id name).map Value.untraced =
      (other.store.lookup id name).map Value.untraced := by
  rw [← Store.lookup_outline, ← Store.lookup_outline, linked.store]

theorem lookupLocal_eq (linked : Linked callers machine other) (id : ContextId) (name : String) :
    (machine.store.lookupLocal id name).map Value.untraced =
      (other.store.lookupLocal id name).map Value.untraced := by
  rw [← Store.lookupLocal_outline, ← Store.lookupLocal_outline, linked.store]

theorem protects_eq (linked : Linked callers machine other) (id : ContextId) (name : String) :
    machine.store.protects id name = other.store.protects id name := by
  rw [← Store.protects_outline machine.store, linked.store, Store.protects_outline]

/-- The outermost contexts around the contexts that the runs have got to are the same. -/
theorem rootOf_eq (linked : Linked callers machine other) {id place : ContextId}
    (meet : callers.Meet id place) : machine.store.rootOf id = other.store.rootOf place := by
  obtain ⟨rfl, rfl⟩ | rfl := meet
  · exact linked.root
  · exact linked.roots id

/-- Whatever keeps the entries of all contexts keeps states linked, as long as it does the same to
their outlines. -/
theorem of_entered (linked : Linked callers machine other) {after last : Machine}
    (outline : after.outline = last.outline)
    (first : ∀ id, after.store.entered id = machine.store.entered id)
    (second : ∀ id, last.store.entered id = other.store.entered id)
    (grown : machine.store.size ≤ after.store.size) : Linked callers after last where
  outline := outline
  older := by
    intro id known
    rw [first, second]
    exact linked.older id known
  roots := by
    intro id
    rw [Store.rootOf_congr (fun inner _ => first inner) (Nat.lt_succ_self id),
      Store.rootOf_congr (fun inner _ => second inner) (Nat.lt_succ_self id)]
    exact linked.roots id
  root := by
    rw [Store.rootOf_congr (fun inner _ => first inner) (Nat.lt_succ_self _),
      Store.rootOf_congr (fun inner _ => second inner) (Nat.lt_succ_self _)]
    exact linked.root
  grown := Nat.le_trans linked.grown grown

/-- What leaves the contexts alone keeps states linked. -/
theorem of_store (linked : Linked callers machine other) {after last : Machine}
    (outline : after.outline = last.outline) (first : after.store = machine.store)
    (second : last.store = other.store) : Linked callers after last := by
  apply linked.of_entered outline
  · intro id
    rw [first]
  · intro id
    rw [second]
  · exact Nat.le_of_eq (congrArg Store.size first.symm)

/-- The same change of both states, which has nothing to do with contexts and with tracebacks, keeps
them linked. -/
theorem change (linked : Linked callers machine other) (change : Machine → Machine)
    (outline : ∀ machine, (change machine).outline = change machine.outline)
    (store : ∀ machine, (change machine).store = machine.store) :
    Linked callers (change machine) (change other) := by
  apply linked.of_store
  · rw [outline, outline, linked.outline]
  · exact store machine
  · exact store other

/-- Binding a name to alike values keeps states linked. -/
theorem define (linked : Linked callers machine other) (id : ContextId) (name : String)
    {value last : Value} (alike : Value.Alike value last) (isMutable : Bool) :
    Linked callers { machine with store := machine.store.define id name value isMutable }
      { other with store := other.store.define id name last isMutable } := by
  have same : (machine.store.define id name value isMutable).outline =
      (other.store.define id name last isMutable).outline := by
    rw [Store.outline_define, Store.outline_define, linked.store, alike]
  apply linked.of_entered
  · exact congrArg₂ (fun rest store => { rest with store := store }) linked.outline same
  · exact fun inner => Store.entered_updateTable machine.store id inner _
  · exact fun inner => Store.entered_updateTable other.store id inner _
  · exact Nat.le_of_eq (Store.size_define machine.store id name value isMutable).symm

/-- The new contexts of two runs are entered from where the runs have got to. -/
def EnteredAlike (callers : Callers) (context last : Context) : Prop :=
  match context.entry, last.entry with
  | some entry, some same => callers.Meet entry.caller same.caller
  | none, none => True
  | _, _ => False

theorem enteredAlike_self (callers : Callers) (context : Context) :
    EnteredAlike callers context context := by
  rw [EnteredAlike]
  cases context.entry with
  | none => trivial
  | some entry => exact callers.meet_self entry.caller

theorem rootOf_add_eq (linked : Linked callers machine other) {context last : Context}
    (entered : EnteredAlike callers context last) (id : ContextId) :
    (machine.store.add context).2.rootOf id = (other.store.add last).2.rootOf id := by
  by_cases new : id = machine.store.size
  · rw [new, Store.rootOf_add_size, linked.size_eq, Store.rootOf_add_size]
    unfold EnteredAlike at entered
    cases found : context.entry with
    | none =>
      cases found' : last.entry with
      | none => rfl
      | some same =>
        rw [found, found'] at entered
        exact entered.elim
    | some entry =>
      cases found' : last.entry with
      | none =>
        rw [found, found'] at entered
        exact entered.elim
      | some same =>
        rw [found, found'] at entered
        have meet : callers.Meet entry.caller same.caller := entered
        have grown : callers.base ≤ other.store.size := linked.size_eq ▸ linked.grown
        dsimp only
        by_cases known : entry.caller < other.store.size
        · rw [if_pos known, if_pos ((meet.lt_iff grown).mp known), linked.rootOf_eq meet]
        · rw [if_neg known, if_neg (fun older => known ((meet.lt_iff grown).mpr older))]
  · rw [Store.rootOf_add_of_ne _ _ new, Store.rootOf_add_of_ne _ _ (linked.size_eq ▸ new)]
    exact linked.roots id

/-- Adding a context that is entered from where the runs have got to keeps states linked. -/
theorem add (linked : Linked callers machine other) {context last : Context}
    (outline : context.outline = last.outline) (entered : EnteredAlike callers context last) :
    Linked callers { machine with store := (machine.store.add context).2 }
      { other with store := (other.store.add last).2 } where
  outline := by
    have same : (machine.store.add context).2.outline = (other.store.add last).2.outline := by
      rw [Store.outline_add, Store.outline_add, linked.store, outline]
    exact congrArg₂ (fun rest store => { rest with store := store }) linked.outline same
  older := by
    intro id known
    have before : id < machine.store.size := Nat.lt_of_lt_of_le known linked.grown
    have before' : id < other.store.size := linked.size_eq ▸ before
    rw [Store.entered_add, Store.entered_add, if_neg (Nat.ne_of_lt before),
      if_neg (Nat.ne_of_lt before')]
    exact linked.older id known
  roots := linked.rootOf_add_eq entered
  root := by
    have first : callers.first < machine.store.size :=
      Nat.lt_of_lt_of_le callers.first_lt linked.grown
    have second : callers.second < other.store.size :=
      linked.size_eq ▸ Nat.lt_of_lt_of_le callers.second_lt linked.grown
    dsimp only
    rw [Store.rootOf_add_of_ne _ _ (Nat.ne_of_lt first),
      Store.rootOf_add_of_ne _ _ (Nat.ne_of_lt second)]
    exact linked.root
  grown := by
    dsimp only
    rw [Store.size_add]
    exact Nat.le_succ_of_le linked.grown

end Linked

end Quill
