import Quill.Eval.Invocation
import Quill.Value.Arithmetic

/-!
# Built-in functions on lists

These functions leave their arguments as they are and return new lists. An argument that they
cannot work with is given back as an exception; the first such argument counts.
-/

namespace Quill.Invocation

/-- A list with a value behind its elements. -/
def append (call : Invocation) : Eval Value :=
  match call.argument "list" with
  | .list elements => pure (.list (elements ++ [call.argument "value"]))
  | _ => call.refuse "list" .list

/-- A list without the element that an index points at. -/
def remove (call : Invocation) : Eval Value :=
  match call.argument "list" with
  | .list elements =>
    match call.argument "index" with
    | .int index =>
      match Value.listPlace index elements.length with
      | .ok place => pure (.list (elements.eraseIdx place))
      | .error fault => call.exception fault
    | _ => call.refuse "index" .int
  | _ => call.refuse "list" .list

/-- The elements of one list and then those of another one. -/
def extend (call : Invocation) : Eval Value :=
  match call.argument "listA" with
  | .list first =>
    match call.argument "listB" with
    | .list second => pure (.list (first ++ second))
    | _ => call.refuse "listB" .list
  | _ => call.refuse "listA" .list

/-- The number of elements of a list or of characters of a string. -/
def length (call : Invocation) : Eval Value :=
  let counted (size : Nat) : Eval Value :=
    match Integer.ofInt? size with
    | some value => pure (.int value)
    | none => call.raise .integerOverflow
  match call.argument "value" with
  | .list elements => counted elements.length
  | .str text => counted text.length
  | _ => call.refuse "value" .listOrString

section

variable (call : Invocation) {holds : Eval Value → Prop}

/-- The ways in which a value may be put behind a list or not. -/
theorem append_elim
    (made : ∀ elements, call.argument "list" = .list elements →
      holds (pure (.list (elements ++ [call.argument "value"]))))
    (excepted : ∀ fault, holds (call.exception fault)) : holds call.append := by
  unfold append
  split
  · exact made _ (by assumption)
  · exact excepted _

/-- The ways in which an element may be removed or not. -/
theorem remove_elim
    (made : ∀ elements place, call.argument "list" = .list elements →
      holds (pure (.list (elements.eraseIdx place))))
    (excepted : ∀ fault, holds (call.exception fault)) : holds call.remove := by
  unfold remove
  split
  · split
    · split
      · exact made _ _ (by assumption)
      · exact excepted _
    · exact excepted _
  · exact excepted _

/-- The ways in which lists may be joined or not. -/
theorem extend_elim
    (made : ∀ first second, call.argument "listA" = .list first →
      call.argument "listB" = .list second → holds (pure (.list (first ++ second))))
    (excepted : ∀ fault, holds (call.exception fault)) : holds call.extend := by
  unfold extend
  split
  · split
    · exact made _ _ (by assumption) (by assumption)
    · exact excepted _
  · exact excepted _

/-- The ways in which a length may be found or not. -/
theorem length_elim
    (counted : ∀ size, holds (pure (.int size))) (tooLong : holds (call.raise .integerOverflow))
    (refused : holds (call.refuse "value" .listOrString)) : holds call.length := by
  unfold length
  dsimp only
  split
  · split
    · exact counted _
    · exact tooLong
  · split
    · exact counted _
    · exact tooLong
  · exact refused

end

end Quill.Invocation
