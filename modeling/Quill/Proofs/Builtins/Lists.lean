import Quill.Eval.Expr
import Quill.Proofs.Builtins.Invocations

/-!
# Lists are indexed, shortened and joined in one way

A list has the same places for the operators and for the built-in functions. An index selects an
element if it counts the elements before it or, as a negative number, the elements from it to the
end; every other index is refused. The operators fail then, while the function gives the failure
back. Lists are joined in the same way too, and only the operator treats a list that is put behind
another one differently from other values.
-/

namespace Quill

namespace Value

/-- The index selects the element between some others of a list. -/
structure Selects (index : Int64) (elements before : List Value) (element : Value)
    (after : List Value) : Prop where
  /-- The list consists of the element and the others around it. -/
  split : elements = before ++ [element] ++ after
  /-- The index counts from the front or, if it is negative, from the end. -/
  counted : (before.length : Int) =
    if 0 ≤ index.toInt then index.toInt else elements.length + index.toInt

/-- The indices of a list are its places and the negative numbers down to the one of its length. -/
def Indexes (index : Int64) (length : Nat) : Prop :=
  -(length : Int) ≤ index.toInt ∧ index.toInt < length

variable {index : Int64} {elements before after : List Value} {element : Value}

theorem exists_selects (indexes : Indexes index elements.length) :
    ∃ before element after, Selects index elements before element after := by
  obtain ⟨low, high⟩ := indexes
  let front : Int := if 0 ≤ index.toInt then index.toInt else elements.length + index.toInt
  have inside : 0 ≤ front ∧ front < elements.length := by
    simp only [front]
    omega
  have place : front.toNat < elements.length := by omega
  refine ⟨elements.take front.toNat, elements[front.toNat], elements.drop (front.toNat + 1), ?_, ?_⟩
  · rw [List.append_assoc, List.singleton_append, ← List.drop_eq_getElem_cons place,
      List.take_append_drop]
  · rw [List.length_take, Nat.min_eq_left (Nat.le_of_lt place), Int.toNat_of_nonneg inside.1]

theorem Selects.length_lt (selects : Selects index elements before element after) :
    before.length < elements.length := by
  rw [selects.split, List.length_append, List.length_append, List.length_singleton]
  omega

/-- The last element of a list is selected by minus one. -/
theorem selects_minus_one (elements : List Value) (value : Value) :
    Selects (-1) (elements ++ [value]) elements value [] where
  split := (List.append_nil _).symm
  counted := by
    rw [show (-1 : Int64).toInt = -1 by rfl, List.length_append, List.length_singleton]
    omega

/-- It is also selected by the number of elements before it. -/
theorem selects_length (elements : List Value) (value : Value)
    (counted : index.toInt = elements.length) :
    Selects index (elements ++ [value]) elements value [] where
  split := (List.append_nil _).symm
  counted := by
    rw [counted, if_pos (Int.natCast_nonneg _)]

/-! ## Places -/

theorem listPlace_of_selects (selects : Selects index elements before element after) :
    listPlace index elements.length = .ok before.length := by
  have inside := selects.length_lt
  have counted := selects.counted
  have place : Integer.place? index elements.length = some before.length := by
    unfold Integer.place?
    grind
  rw [listPlace, place]

theorem listPlace_of_not_indexes {length : Nat} (outside : ¬Indexes index length) :
    listPlace index length = .error (.indexOutOfRange index length) := by
  have place : Integer.place? index length = none := by
    unfold Integer.place?
    unfold Indexes at outside
    grind
  rw [listPlace, place]

/-- No index leads out of a list. -/
theorem lt_of_listPlace {length place : Nat} (found : listPlace index length = .ok place) :
    place < length := by
  unfold listPlace Integer.place? at found
  grind

/-! ## Operators -/

theorem div_of_selects (selects : Selects index elements before element after) :
    binary .div (list elements) (int index) = .ok element := by
  change listPlace index elements.length >>= _ = _
  rw [listPlace_of_selects selects, selects.split, List.append_assoc]
  change Except.ok ((before ++ ([element] ++ after))[before.length]?.getD null) = _
  rw [List.getElem?_append_right (Nat.le_refl _), Nat.sub_self]
  rfl

theorem eraseIdx_of_selects (selects : Selects index elements before element after) :
    elements.eraseIdx before.length = before ++ after := by
  rw [selects.split, List.append_assoc, List.eraseIdx_append_of_length_le (Nat.le_refl _),
    Nat.sub_self]
  rfl

theorem sub_of_selects (selects : Selects index elements before element after) :
    binary .sub (list elements) (int index) = .ok (list (before ++ after)) := by
  change listPlace index elements.length >>= _ = _
  rw [listPlace_of_selects selects, ← eraseIdx_of_selects selects]
  rfl

theorem div_of_not_indexes (outside : ¬Indexes index elements.length) :
    binary .div (list elements) (int index) =
      .error (.indexOutOfRange index elements.length) := by
  change listPlace index elements.length >>= _ = _
  rw [listPlace_of_not_indexes outside]
  rfl

theorem sub_of_not_indexes (outside : ¬Indexes index elements.length) :
    binary .sub (list elements) (int index) =
      .error (.indexOutOfRange index elements.length) := by
  change listPlace index elements.length >>= _ = _
  rw [listPlace_of_not_indexes outside]
  rfl

/-- A value that is no list is put behind a list by adding it. -/
theorem add_of_ne_list {value : Value} (other : ∀ others, value ≠ list others) :
    binary .add (list elements) value = .ok (list (elements ++ [value])) := by
  cases value with
  | list others => exact absurd rfl (other others)
  | _ => rfl

end Value

/-! ## Built-in functions -/

namespace Invocation

variable {call : Invocation} {index : Int64} {elements : List Value}

theorem remove_of_place {place : Nat} (whole : call.argument "list" = .list elements)
    (counted : call.argument "index" = .int index)
    (found : Value.listPlace index elements.length = .ok place) :
    call.remove = pure (.list (elements.eraseIdx place)) := by
  simp only [remove, whole, counted, found]

theorem remove_of_fault {fault : Fault} (whole : call.argument "list" = .list elements)
    (counted : call.argument "index" = .int index)
    (refused : Value.listPlace index elements.length = .error fault) :
    call.remove = call.exception fault := by
  simp only [remove, whole, counted, refused]

end Invocation

namespace Eval

open Value (Selects Indexes)

variable {index : Int64} {elements before after : List Value} {element : Value} (host : Host)
  (evaluate : Evaluate) (serial : Nat) (span : Span) (caller : ContextId) (machine : Machine)

theorem callValue_remove_of_selects (selects : Selects index elements before element after) :
    callValue host (some evaluate) (.function (.builtin (Builtin.remove.function serial)))
      [.list elements, .int index] span caller machine = .ok (.list (before ++ after)) machine := by
  apply callValue_builtin_of_pure host evaluate serial span caller rfl
  rw [← Value.eraseIdx_of_selects selects]
  rw [Invocation.run]
  exact Invocation.remove_of_place rfl rfl (Value.listPlace_of_selects selects)

theorem callValue_remove_of_not_indexes (outside : ¬Indexes index elements.length) :
    let arguments := [.list elements, .int index]
    let call := invocationOf (Builtin.remove.function serial) arguments span caller
    callValue host (some evaluate) (.function (.builtin (Builtin.remove.function serial)))
        arguments span caller machine =
      .ok (.exception (call.failure (.indexOutOfRange index elements.length) machine.store))
        machine := by
  intro arguments call
  apply callValue_builtin_of_exception host evaluate serial span caller rfl
  rw [Invocation.run]
  exact Invocation.remove_of_fault rfl rfl (Value.listPlace_of_not_indexes outside)

theorem callValue_append (elements : List Value) (value : Value) :
    callValue host (some evaluate) (.function (.builtin (Builtin.append.function serial)))
      [.list elements, value] span caller machine = .ok (.list (elements ++ [value])) machine :=
  callValue_builtin_of_pure host evaluate serial span caller rfl rfl machine

theorem callValue_extend (elements others : List Value) :
    callValue host (some evaluate) (.function (.builtin (Builtin.extend.function serial)))
        [.list elements, .list others] span caller machine =
      .ok (.list (elements ++ others)) machine :=
  callValue_builtin_of_pure host evaluate serial span caller rfl rfl machine

end Eval

namespace Value

/-- Indexing a list, removing an element and the built-in functions on lists agree, wherever there
is room for their activations. An index of a list selects one element between some before it, as
many as the index counts, and some behind it: this element is what dividing the list by the index
gives, and the others are what is left when the index is subtracted or its element removed. All
other integers are refused. Lists are joined and values put behind them by functions and operators
alike, only that adding a list joins it. So the last element can be read and removed again. -/
theorem list_operations_agree (host : Host) (evaluate : Evaluate) (serial : Builtin → Nat)
    (span : Span) (caller : ContextId) (machine : Machine) (elements : List Value)
    (index : Int64) :
    let call (builtin : Builtin) (arguments : List Value) : Outcome Value :=
      Eval.callValue host (some evaluate)
        (.function (.builtin (builtin.function (serial builtin)))) arguments span caller machine
    let failure (builtin : Builtin) (arguments : List Value) (fault : Fault) : Failure :=
      (Eval.invocationOf (builtin.function (serial builtin)) arguments span caller).failure fault
        machine.store
    (Indexes index elements.length → ∃ before element after,
      Selects index elements before element after ∧
      binary .div (list elements) (int index) = .ok element ∧
      binary .sub (list elements) (int index) = .ok (list (before ++ after)) ∧
      call .remove [list elements, int index] = .ok (list (before ++ after)) machine) ∧
    (¬Indexes index elements.length →
      let fault : Fault := .indexOutOfRange index elements.length
      binary .div (list elements) (int index) = .error fault ∧
      binary .sub (list elements) (int index) = .error fault ∧
      call .remove [list elements, int index] =
        .ok (exception (failure .remove [list elements, int index] fault)) machine) ∧
    (∀ place, listPlace index elements.length = .ok place → place < elements.length) ∧
    (∀ others, binary .add (list elements) (list others) = .ok (list (elements ++ others)) ∧
      call .extend [list elements, list others] = .ok (list (elements ++ others)) machine) ∧
    ∀ value, let longer := list (elements ++ [value])
      call .append [list elements, value] = .ok longer machine ∧
      ((∀ others, value ≠ list others) → binary .add (list elements) value = .ok longer) ∧
      binary .div longer (int (-1)) = .ok value ∧
      ∀ last : Int64, last.toInt = elements.length →
        call .remove [longer, int last] = .ok (list elements) machine := by
  intro call failure
  refine ⟨fun indexes => ?_, fun outside => ?_, ?_, fun others => ?_, fun value => ?_⟩
  · obtain ⟨before, element, after, selects⟩ := exists_selects indexes
    exact ⟨before, element, after, selects, div_of_selects selects, sub_of_selects selects,
      Eval.callValue_remove_of_selects host evaluate _ span caller machine selects⟩
  · exact ⟨div_of_not_indexes outside, sub_of_not_indexes outside,
      Eval.callValue_remove_of_not_indexes host evaluate _ span caller machine outside⟩
  · exact fun place found => lt_of_listPlace found
  · exact ⟨rfl, Eval.callValue_extend host evaluate _ span caller machine elements others⟩
  · refine ⟨Eval.callValue_append host evaluate _ span caller machine elements value,
      add_of_ne_list, div_of_selects (selects_minus_one elements value), fun last counted => ?_⟩
    have selects := selects_length elements value counted
    have removed := Eval.callValue_remove_of_selects host evaluate (serial .remove) span caller
      machine selects
    rw [List.append_nil] at removed
    exact removed

/-- A list of two lists. Minus two selects the first of them, and the least integer selects nothing.
The list put behind itself is one more element, which the number of the others removes. -/
theorem list_operations_agree_nested :
    let host : Host := ⟨{}, fun _ => .ok [], 0⟩
    let span : Span := ⟨⟨0, "main", "Remove(l, i)"⟩, ⟨0, 1, 1⟩, ⟨12, 1, 13⟩⟩
    let machine := (Machine.initial []).2
    let remove : Value := .function (.builtin (Builtin.remove.function 13))
    let call := Eval.callValue host (some (Eval.evaluate host 0)) remove
    let elements := [list [int 1], list []]
    Indexes (-2) elements.length ∧
      binary .div (list elements) (int (-2)) = .ok (list [int 1]) ∧
      call [list elements, int (-2)] span 0 machine = .ok (list [list []]) machine ∧
      ¬Indexes Int64.minValue elements.length ∧
      binary .sub (list elements) (int Int64.minValue) =
        .error (.indexOutOfRange Int64.minValue 2) ∧
      listPlace (-1) elements.length = .ok 1 ∧ 1 < elements.length ∧
      (∀ others, null ≠ list others) ∧
      binary .add (list elements) null = .ok (list (elements ++ [null])) ∧
      (2 : Int64).toInt = elements.length ∧
      call [list (elements ++ [list elements]), int 2] span 0 machine =
        .ok (list elements) machine := by
  intro host span machine remove call elements
  have agree (index : Int64) := list_operations_agree host (Eval.evaluate host 0) (fun _ => 13) span
    0 machine elements index
  have first : Indexes (-2) elements.length := ⟨by decide, by decide⟩
  have least : ¬Indexes Int64.minValue elements.length := fun indexes =>
    absurd indexes.1 (by decide)
  have ends : listPlace (-1) elements.length = .ok 1 :=
    listPlace_of_selects (selects_minus_one [list [int 1]] (list []))
  obtain ⟨before, element, after, selects, divided, -, removed⟩ := (agree (-2)).1 first
  obtain ⟨-, subtracted, -⟩ := (agree Int64.minValue).2.1 least
  obtain rfl := List.length_eq_zero_iff.mp (Int.ofNat.inj selects.counted)
  have split := selects.split
  simp only [elements, List.nil_append, List.singleton_append, List.cons.injEq] at split
  obtain ⟨rfl, rfl⟩ := split
  obtain ⟨-, added, -⟩ := (agree (-2)).2.2.2.2 null
  obtain ⟨-, -, -, last⟩ := (agree (-2)).2.2.2.2 (list elements)
  exact ⟨first, divided, removed, least, subtracted, ends, (agree (-1)).2.2.1 1 ends, nofun,
    added nofun, by decide, last 2 (by decide)⟩

end Value

end Quill
