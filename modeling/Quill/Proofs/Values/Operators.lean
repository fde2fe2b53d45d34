import Quill.Eval.Lists
import Quill.Eval.Loop
import Quill.Proofs.Control.Exits
import Quill.Value.Comparison

/-!
# What operations make of values

Operators take values apart and put them together. What they come up with is a number, a text, or
made of the elements of their operands. So a property that a list has if its elements have it, and
that values without parts have anyway, is one of the result if it is one of the operands. In the
same way the value of a loop has it if the values of its rounds do, and a list that a built-in
function makes has it if the arguments do.
-/

namespace Quill

/-- An operation that fails has an ordinary fault, and its result is as it should be. -/
def Sound {Result : Type} (post : Result → Prop) : Except Fault Result → Prop
  | .ok result => post result
  | .error fault => fault.Ordinary

theorem Sound.bind {Result Other : Type} {middle : Result → Prop} {post : Other → Prop}
    {first : Except Fault Result} {next : Result → Except Fault Other} (firsts : Sound middle first)
    (nexts : ∀ result, middle result → Sound post (next result)) : Sound post (first >>= next) := by
  cases first with
  | ok result => exact nexts result firsts
  | error fault => exact firsts

/-- Lists have the property if their elements do, and values without parts have it. -/
structure Hereditary (holds : Value → Prop) : Prop where
  /-- A list has it exactly if all its elements do. -/
  list_iff : ∀ elements, holds (.list elements) ↔ ∀ element ∈ elements, holds element
  /-- The null value has it. -/
  null : holds .null
  /-- Integers have it. -/
  int : ∀ value, holds (.int value)
  /-- Floats have it. -/
  float : ∀ value, holds (.float value)
  /-- Strings have it. -/
  str : ∀ text, holds (.str text)

theorem sound_repetitions (count : Int64) (length : Nat) :
    Sound (fun _ => True) (Value.repetitions count length) := by
  unfold Value.repetitions
  grind [Sound, Fault.Ordinary]

theorem sound_listPlace (index : Int64) (length : Nat) :
    Sound (fun _ => True) (Value.listPlace index length) := by
  unfold Value.listPlace
  grind [Sound, Fault.Ordinary]

theorem mem_of_mem_repeat {elements : List Value} {element : Value} {times : Nat}
    (member : element ∈ times.repeat (elements ++ ·) []) : element ∈ elements := by
  induction times with
  | zero => cases member
  | succ times ih =>
    obtain here | earlier := List.mem_append.mp member
    · exact here
    · exact ih earlier

namespace Hereditary

variable {holds : Value → Prop} (hereditary : Hereditary holds)

include hereditary

theorem ofLiteral (literal : Literal) : holds (.ofLiteral literal) := by
  cases literal with
  | int value => exact hereditary.int value
  | float value => exact hereditary.float value
  | str text => exact hereditary.str text

theorem ofBool (truth : Bool) : holds (.ofBool truth) :=
  hereditary.int _

theorem sound_integerArithmetic (op : BinaryOp) (a b : Int64) :
    Sound holds (Value.integerArithmetic op a b) := by
  have ints := hereditary.int
  have floats := hereditary.float
  unfold Value.integerArithmetic
  grind [Sound, Fault.Ordinary]

theorem sound_floatArithmetic (op : BinaryOp) (a b : Float) :
    Sound holds (Value.floatArithmetic op a b) := by
  have floats := hereditary.float
  unfold Value.floatArithmetic
  grind [Sound, Fault.Ordinary]

theorem sound_stringArithmetic (op : BinaryOp) (text : String) (right : Value) :
    Sound holds (Value.stringArithmetic op text right) := by
  unfold Value.stringArithmetic
  split
  · exact hereditary.str _
  · apply (sound_repetitions _ _).bind
    intro times _
    exact hereditary.str _
  · trivial

theorem sound_listArithmetic (op : BinaryOp) {elements : List Value} {right : Value}
    (first : holds (.list elements)) (second : holds right) :
    Sound holds (Value.listArithmetic op elements right) := by
  rw [hereditary.list_iff] at first
  unfold Value.listArithmetic
  split
  · rw [hereditary.list_iff] at second
    exact (hereditary.list_iff _).mpr (List.forall_mem_append.mpr ⟨first, second⟩)
  · have last := List.forall_mem_singleton.mpr second
    exact (hereditary.list_iff _).mpr (List.forall_mem_append.mpr ⟨first, last⟩)
  · apply (sound_repetitions _ _).bind
    intro times _
    exact (hereditary.list_iff _).mpr fun element member =>
      first element (mem_of_mem_repeat member)
  · apply (sound_listPlace _ _).bind
    intro place _
    exact (hereditary.list_iff _).mpr fun element member =>
      first element (List.mem_of_mem_eraseIdx member)
  · apply (sound_listPlace _ _).bind
    intro place _
    change holds (elements[place]?.getD .null)
    cases found : elements[place]? with
    | none => exact hereditary.null
    | some element => exact first element (List.mem_of_getElem? found)
  · trivial

theorem sound_arithmetic {left right : Value} (op : BinaryOp) (first : holds left)
    (second : holds right) : Sound holds (left.arithmetic op right) := by
  unfold Value.arithmetic
  split
  · exact hereditary.sound_integerArithmetic op _ _
  · exact hereditary.sound_floatArithmetic op _ _
  · exact hereditary.sound_floatArithmetic op _ _
  · exact hereditary.sound_floatArithmetic op _ _
  · exact hereditary.sound_stringArithmetic op _ right
  · exact hereditary.sound_listArithmetic op first second
  · trivial

theorem sound_comparison (left : Value) (op : BinaryOp) (right : Value) :
    Sound holds (left.comparison op right) := by
  unfold Value.comparison
  split
  · split
    · exact hereditary.ofBool _
    · trivial
  · exact hereditary.ofBool _
  · split
    · exact hereditary.ofBool _
    · exact hereditary.ofBool _
    · trivial

theorem sound_connective (left : Value) (op : BinaryOp) (right : Value) :
    Sound holds (left.connective op right) := by
  unfold Value.connective
  split
  · exact hereditary.ofBool _
  · exact hereditary.ofBool _
  · trivial

theorem sound_unary (op : UnaryOp) {operand : Value} (admitted : holds operand) :
    Sound holds (Value.unary op operand) := by
  cases op with
  | plus => exact admitted
  | negate => exact hereditary.sound_arithmetic .mul admitted (hereditary.int _)
  | not => exact hereditary.ofBool _

theorem sound_binary {left right : Value} (op : BinaryOp) (first : holds left)
    (second : holds right) : Sound holds (Value.binary op left right) := by
  unfold Value.binary
  split
  · exact hereditary.sound_connective left op right
  · split
    · exact hereditary.sound_comparison left op right
    · exact hereditary.sound_arithmetic op first second

/-! ## Built-in functions on lists -/

section

variable {call : Invocation} (arguments : ∀ parameter, holds (call.argument parameter))
  {goal : Eval Value → Prop} (made : ∀ value, holds value → goal (pure value))
  (excepted : ∀ fault, goal (call.exception fault))

include arguments made excepted

/-- What is put behind a list is an argument as well. -/
theorem append_elim : goal call.append := by
  refine call.append_elim (fun elements isList => made _ ?_) excepted
  have first := isList ▸ arguments "list"
  have last := List.forall_mem_singleton.mpr (arguments "value")
  rw [hereditary.list_iff] at first ⊢
  exact List.forall_mem_append.mpr ⟨first, last⟩

/-- No element is new that is left when one is removed. -/
theorem remove_elim : goal call.remove := by
  refine call.remove_elim (fun elements place isList => made _ ?_) excepted
  have first := isList ▸ arguments "list"
  rw [hereditary.list_iff] at first ⊢
  exact fun element member => first element (List.mem_of_mem_eraseIdx member)

/-- The elements of both lists are elements of arguments. -/
theorem extend_elim : goal call.extend := by
  refine call.extend_elim (fun first second isList alsoList => made _ ?_) excepted
  have firsts := isList ▸ arguments "listA"
  have seconds := alsoList ▸ arguments "listB"
  rw [hereditary.list_iff] at firsts seconds ⊢
  exact List.forall_mem_append.mpr ⟨firsts, seconds⟩

end

/-! ## Bodies -/

/-- The value of a body has the property, also if the body is a block that has none. -/
theorem body {value : Value} (block : Bool) (also : holds value) :
    holds (if block then .null else value) := by
  cases block with
  | true => exact hereditary.null
  | false => exact also

theorem loop (block : Bool) {values : List Value} (all : ∀ value ∈ values, holds value) :
    holds (Loop.result block values) := by
  cases block with
  | true => exact hereditary.null
  | false =>
    exact (hereditary.list_iff _).mpr fun value member => all value (List.mem_reverse.mp member)

end Hereditary

/-- The value of a round has the property, if the round has one. -/
def Loop.Round.Has (holds : Value → Prop) : Loop.Round → Prop
  | .value result => holds result
  | _ => True

theorem Loop.forall_mem_collect {holds : Value → Prop} {values : List Value}
    (earlier : ∀ value ∈ values, holds value) (keep : Bool) {ended : Loop.Round}
    (last : ended.Has holds) : ∀ value ∈ Loop.collect keep values ended, holds value := by
  cases ended with
  | value result =>
    cases keep with
    | true => exact List.forall_mem_cons.mpr ⟨last, earlier⟩
    | false => exact earlier
  | skipped => exact earlier
  | left => exact earlier

end Quill
