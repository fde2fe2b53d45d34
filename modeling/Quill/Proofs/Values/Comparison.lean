import Mathlib.Data.List.Basic
import Mathlib.Data.String.Basic
import Quill.Value.Comparison

/-!
# Comparisons without floats are coherent

As long as no float is involved, every two values are equal or unequal by their structure, and this
is an equivalence. Two integers and two strings also have an order, in which exactly one of them
precedes the other one unless they are equal; the four operators that ask for it tell the same order
from different sides, and refuse all other pairs. Floats are left out because a float that is no
number is not even equal to itself.
-/

namespace Quill.Value

/-- The value has no float in it. -/
inductive FloatFree : Value → Prop where
  | null : FloatFree null
  | int (value : Int64) : FloatFree (int value)
  | str (text : String) : FloatFree (str text)
  | list {elements : List Value} (all : ∀ element ∈ elements, FloatFree element) :
      FloatFree (list elements)
  | function (function : Function) : FloatFree (.function function)
  | object (object : Object) : FloatFree (.object object)
  | exception (failure : Failure) : FloatFree (exception failure)

/-- Two values have the same structure: lists have it element by element, and functions and objects
only with themselves. -/
inductive Matches : Value → Value → Prop where
  | null : Matches null null
  | int (value : Int64) : Matches (int value) (int value)
  | str (text : String) : Matches (str text) (str text)
  | list {as bs : List Value} (length : as.length = bs.length)
      (each : ∀ (i : Nat) a b, as[i]? = some a → bs[i]? = some b → Matches a b) :
      Matches (list as) (list bs)
  | function {f g : Function} (same : f.id = g.id) : Matches (.function f) (.function g)
  | object {o p : Object} (same : o.id = p.id) : Matches (.object o) (.object p)
  | exception (failure : Failure) : Matches (exception failure) (exception failure)

/-- Two values that have an order. -/
inductive Orderable : Value → Value → Prop where
  | ints (a b : Int64) : Orderable (int a) (int b)
  | strs (a b : String) : Orderable (str a) (str b)

/-- The order of integers, and that of strings by the numbers of their characters, of which the
first different ones decide. -/
inductive Precedes : Value → Value → Prop where
  | int {a b : Int64} (less : a.toInt < b.toInt) : Precedes (int a) (int b)
  | str {a b : String}
      (less : List.Lex (· < ·) (a.toList.map Char.toNat) (b.toList.map Char.toNat)) :
      Precedes (str a) (str b)

/-- The operator tells whether something is the case. -/
def Tells (op : BinaryOp) (a b : Value) (fact : Prop) : Prop :=
  ∃ truth : Bool, binary op a b = .ok (ofBool truth) ∧ (truth = true ↔ fact)

/-- The operator says that it is so. -/
def Affirms (op : BinaryOp) (a b : Value) : Prop :=
  binary op a b = .ok (ofBool true)

/-! ## Structure -/

variable {a b c : Value}

theorem Matches.refl (free : FloatFree a) : Matches a a := by
  induction free with
  | null => exact .null
  | int value => exact .int value
  | str text => exact .str text
  | list all ih =>
    refine .list rfl fun i a b first second => ?_
    obtain rfl := Option.some.inj (first.symm.trans second)
    exact ih a (List.mem_of_getElem? first)
  | function function => exact .function rfl
  | object object => exact .object rfl
  | exception failure => exact .exception failure

theorem Matches.symm (same : Matches a b) : Matches b a := by
  induction same with
  | null => exact .null
  | int value => exact .int value
  | str text => exact .str text
  | list length each ih => exact .list length.symm fun i b a second first => ih i a b first second
  | function same => exact .function same.symm
  | object same => exact .object same.symm
  | exception failure => exact .exception failure

theorem Matches.trans (first : Matches a b) (second : Matches b c) : Matches a c := by
  induction first generalizing c with
  | list length each ih =>
    rename_i as bs
    cases second with
    | list length' each' =>
      refine .list (length.trans length') fun i a c here there => ?_
      obtain ⟨inside, -⟩ := List.getElem?_eq_some_iff.mp here
      have within : i < bs.length := length ▸ inside
      have between : bs[i]? = some bs[i] := List.getElem?_eq_getElem within
      exact ih i a _ here between (each' i _ c between there)
  | function same =>
    cases second with
    | function same' => exact .function (same.trans same')
  | object same =>
    cases second with
    | object same' => exact .object (same.trans same')
  | _ => exact second

/-- Lists match if they begin with matching elements and go on with matching lists. -/
theorem matches_cons_iff {as bs : List Value} :
    Matches (list (a :: as)) (list (b :: bs)) ↔ Matches a b ∧ Matches (list as) (list bs) := by
  constructor
  · intro same
    cases same with
    | list length each =>
      exact ⟨each 0 a b rfl rfl,
        .list (Nat.succ.inj length) fun i a b here there => each (i + 1) a b here there⟩
  · rintro ⟨same, rest⟩
    cases rest with
    | list length each =>
      refine .list (congrArg Nat.succ length) fun i first second here there => ?_
      cases i with
      | zero =>
        obtain rfl := Option.some.inj here
        obtain rfl := Option.some.inj there
        exact same
      | succ i => exact each i first second here there

/-- Comparing lists is comparing their elements. -/
theorem sameAll_iff {as : List Value}
    (elements : ∀ a ∈ as, ∀ b, a.same b = true ↔ Matches a b) (bs : List Value) :
    sameAll as bs = true ↔ Matches (list as) (list bs) := by
  induction as generalizing bs with
  | nil =>
    cases bs with
    | nil => exact iff_of_true rfl (.list rfl fun _ _ _ here => nomatch here)
    | cons b bs => exact iff_of_false nofun fun same => by cases same; contradiction
  | cons a as ih =>
    obtain ⟨first, others⟩ := List.forall_mem_cons.mp elements
    cases bs with
    | nil => exact iff_of_false nofun fun same => by cases same; contradiction
    | cons b bs => rw [sameAll, Bool.and_eq_true, first b, ih others, matches_cons_iff]

/-- Values are compared by their structure. -/
theorem same_iff (free : FloatFree a) (b : Value) : a.same b = true ↔ Matches a b := by
  induction free generalizing b with
  | list all ih =>
    cases b with
    | list bs => exact sameAll_iff ih bs
    | _ => exact iff_of_false nofun nofun
  | null =>
    cases b with
    | null => exact iff_of_true rfl .null
    | _ => exact iff_of_false nofun nofun
  | int value =>
    cases b with
    | int other =>
      refine decide_eq_true_iff.trans ⟨fun same => same ▸ .int value, fun same => ?_⟩
      cases same
      rfl
    | _ => exact iff_of_false nofun nofun
  | str text =>
    cases b with
    | str other =>
      refine decide_eq_true_iff.trans ⟨fun same => same ▸ .str text, fun same => ?_⟩
      cases same
      rfl
    | _ => exact iff_of_false nofun nofun
  | function f =>
    cases b with
    | function g =>
      refine decide_eq_true_iff.trans ⟨.function, fun same => ?_⟩
      cases same with
      | function same => exact same
    | _ => exact iff_of_false nofun nofun
  | object o =>
    cases b with
    | object p =>
      refine decide_eq_true_iff.trans ⟨.object, fun same => ?_⟩
      cases same with
      | object same => exact same
    | _ => exact iff_of_false nofun nofun
  | exception failure =>
    cases b with
    | exception other =>
      refine decide_eq_true_iff.trans ⟨fun same => same ▸ .exception failure, fun same => ?_⟩
      cases same
      rfl
    | _ => exact iff_of_false nofun nofun

/-! ## Order -/

theorem lt_iff_map_toNat (as bs : List Char) :
    as < bs ↔ List.Lex (· < ·) (as.map Char.toNat) (bs.map Char.toNat) := by
  change as < bs ↔ as.map Char.toNat < bs.map Char.toNat
  induction as generalizing bs with
  | nil =>
    cases bs with
    | nil => exact iff_of_false (List.not_lt_nil _) (List.not_lt_nil _)
    | cons b bs => exact iff_of_true (List.nil_lt_cons _ _) (List.nil_lt_cons _ _)
  | cons a as ih =>
    cases bs with
    | nil => exact iff_of_false (List.not_lt_nil _) (List.not_lt_nil _)
    | cons b bs =>
      have first : a < b ↔ a.toNat < b.toNat := Iff.rfl
      have same : a = b ↔ a.toNat = b.toNat := Char.toNat_inj.symm
      rw [List.map_cons, List.map_cons, List.cons_lt_cons_iff, List.cons_lt_cons_iff, ih, first,
        same]

/-- Strings are ordered by the numbers of their characters. -/
theorem precedes_str_iff (a b : String) : Precedes (str a) (str b) ↔ a < b := by
  rw [String.lt_iff_toList_lt, lt_iff_map_toNat]
  constructor
  · intro first
    cases first with
    | str less => exact less
  · exact .str

theorem precedes_int_iff (a b : Int64) : Precedes (int a) (int b) ↔ a.toInt < b.toInt := by
  constructor
  · intro first
    cases first with
    | int less => exact less
  · exact .int

/-- How two values compare that have an order. -/
theorem exists_order (orderable : Orderable a b) : ∃ ordering,
    order a b = some (some ordering) ∧ (ordering = .lt ↔ Precedes a b) ∧
      (ordering = .gt ↔ Precedes b a) ∧ (ordering = .eq ↔ Matches a b) := by
  cases orderable with
  | ints a b =>
    refine ⟨compare a.toInt b.toInt, rfl, ?_, ?_, ?_⟩
    · rw [compare_lt_iff_lt, precedes_int_iff]
    · rw [compare_gt_iff_gt, precedes_int_iff]
    · rw [compare_eq_iff_eq, Int64.toInt_inj, ← same_iff (.int a)]
      exact decide_eq_true_iff.symm
  | strs a b =>
    refine ⟨compare a b, rfl, ?_, ?_, ?_⟩
    · rw [compare_lt_iff_lt, precedes_str_iff]
    · rw [compare_gt_iff_gt, precedes_str_iff]
    · rw [compare_eq_iff_eq, ← same_iff (.str a)]
      exact decide_eq_true_iff.symm

/-- All other values without floats have no order. -/
theorem order_of_not_orderable (first : FloatFree a) (second : FloatFree b)
    (unordered : ¬Orderable a b) : order a b = none := by
  cases first with
  | int value =>
    cases second with
    | int other => exact absurd (.ints value other) unordered
    | _ => rfl
  | str text =>
    cases second with
    | str other => exact absurd (.strs text other) unordered
    | _ => rfl
  | _ => rfl

theorem Precedes.irrefl : ¬Precedes a a := by
  intro before
  cases before with
  | int less => exact lt_irrefl _ less
  | str less => exact lt_irrefl _ ((precedes_str_iff _ _).mp (.str less))

theorem Precedes.trans (first : Precedes a b) (second : Precedes b c) : Precedes a c := by
  cases first with
  | int less =>
    cases second with
    | int more => exact .int (lt_trans less more)
  | str less =>
    cases second with
    | str more =>
      have first := (precedes_str_iff _ _).mp (.str less)
      have second := (precedes_str_iff _ _).mp (.str more)
      exact (precedes_str_iff _ _).mpr (lt_trans first second)

/-- Of two values with an order one precedes the other, unless they are equal. -/
theorem Orderable.trichotomy (orderable : Orderable a b) :
    Precedes a b ∨ Matches a b ∨ Precedes b a := by
  obtain ⟨ordering, -, less, greater, equal⟩ := exists_order orderable
  cases ordering with
  | lt => exact .inl (less.mp rfl)
  | eq => exact .inr (.inl (equal.mp rfl))
  | gt => exact .inr (.inr (greater.mp rfl))

theorem Precedes.orderable (before : Precedes a b) : Orderable a b := by
  cases before with
  | int less => exact .ints _ _
  | str less => exact .strs _ _

/-- Values of the same structure as one that has an order are this one. -/
theorem Orderable.eq_of_matches (orderable : Orderable a c) (same : Matches a b) : a = b := by
  cases orderable with
  | ints =>
    cases same
    rfl
  | strs =>
    cases same
    rfl

theorem Orderable.symm (orderable : Orderable a b) : Orderable b a := by
  cases orderable with
  | ints a b => exact .ints b a
  | strs a b => exact .strs b a

/-- Values of the same structure precede the same values, and the same ones precede them. -/
theorem Matches.precedes_iff (same : Matches a b) : Precedes a c ↔ Precedes b c := by
  constructor
  · intro before
    obtain rfl := before.orderable.eq_of_matches same
    exact before
  · intro before
    obtain rfl := before.orderable.eq_of_matches same.symm
    exact before

theorem Matches.preceded_iff (same : Matches a b) : Precedes c a ↔ Precedes c b := by
  constructor
  · intro before
    obtain rfl := before.orderable.symm.eq_of_matches same
    exact before
  · intro before
    obtain rfl := before.orderable.symm.eq_of_matches same.symm
    exact before

/-! ## Operators -/

theorem binary_of_isComparison {op : BinaryOp} (compares : op.isComparison = true) :
    binary op a b = a.comparison op b := by
  cases op <;> first | rfl | cases compares

/-- A comparison of values with an order tells what holds for it. -/
theorem tells_of_holds {op : BinaryOp} {ordering : Ordering} {truth : Bool} {fact : Prop}
    (ordered : order a b = some (some ordering)) (decided : holds op ordering = some truth)
    (told : truth = true ↔ fact) : Tells op a b fact := by
  refine ⟨truth, ?_, told⟩
  have compares : op.isComparison = true := by
    cases op <;> first | rfl | cases decided
  simp only [binary_of_isComparison compares, comparison, ordered, decided]

/-- What the operators tell about values with an order. -/
theorem tells_of_orderable (orderable : Orderable a b) :
    Tells .equal a b (Matches a b) ∧ Tells .notEqual a b (¬Matches a b) ∧
      Tells .less a b (Precedes a b) ∧ Tells .greater a b (Precedes b a) ∧
      Tells .lessEqual a b (¬Precedes b a) ∧ Tells .greaterEqual a b (¬Precedes a b) := by
  obtain ⟨ordering, ordered, less, greater, equal⟩ := exists_order orderable
  refine ⟨?_, ?_, ?_, ?_, ?_, ?_⟩
  · exact tells_of_holds ordered rfl (decide_eq_true_iff.trans equal)
  · exact tells_of_holds ordered rfl (decide_eq_true_iff.trans (not_congr equal))
  · exact tells_of_holds ordered rfl (decide_eq_true_iff.trans less)
  · exact tells_of_holds ordered rfl (decide_eq_true_iff.trans greater)
  · exact tells_of_holds ordered rfl (decide_eq_true_iff.trans (not_congr greater))
  · exact tells_of_holds ordered rfl (decide_eq_true_iff.trans (not_congr less))

/-- Whether two values are equal is told of all of them. -/
theorem tells_equal (first : FloatFree a) (second : FloatFree b) :
    Tells .equal a b (Matches a b) ∧ Tells .notEqual a b (¬Matches a b) := by
  by_cases orderable : Orderable a b
  · obtain ⟨equal, unequal, -⟩ := tells_of_orderable orderable
    exact ⟨equal, unequal⟩
  · have unordered := order_of_not_orderable first second orderable
    have same := same_iff first b
    constructor
    · refine ⟨a.same b, ?_, same⟩
      rw [@binary_of_isComparison a b .equal rfl, comparison, unordered]
    · refine ⟨!a.same b, ?_, ?_⟩
      · rw [@binary_of_isComparison a b .notEqual rfl, comparison, unordered]
      · rw [Bool.not_eq_true', ← Bool.not_eq_true, same]

/-- The operators that ask for an order. -/
def AsksOrder (op : BinaryOp) : Prop :=
  op = .less ∨ op = .greater ∨ op = .lessEqual ∨ op = .greaterEqual

/-- They are not defined on values without one. -/
theorem binary_of_not_orderable (first : FloatFree a) (second : FloatFree b)
    (unordered : ¬Orderable a b) {op : BinaryOp} (asks : AsksOrder op) :
    binary op a b = .error (.illegalOperation a.kind op b.kind) := by
  have compares : op.isComparison = true := by
    rcases asks with rfl | rfl | rfl | rfl <;> rfl
  have none := order_of_not_orderable first second unordered
  rw [binary_of_isComparison compares]
  rcases asks with rfl | rfl | rfl | rfl <;> simp only [comparison, none]

theorem Tells.congr {op : BinaryOp} {fact other : Prop} (tells : Tells op a b fact)
    (same : fact ↔ other) : Tells op a b other := by
  obtain ⟨truth, told, means⟩ := tells
  exact ⟨truth, told, means.trans same⟩

theorem Tells.affirms_iff {op : BinaryOp} {fact : Prop} (tells : Tells op a b fact) :
    Affirms op a b ↔ fact := by
  obtain ⟨truth, told, same⟩ := tells
  rw [Affirms, told, ← same]
  cases truth with
  | true => exact iff_of_true rfl rfl
  | false =>
    exact iff_of_false (fun same => absurd (int.inj (Except.ok.inj same)) (by decide)) nofun

/-- Just the values with an order have a result for the operators that ask for it. -/
theorem exists_eq_ok_iff (first : FloatFree a) (second : FloatFree b) {op : BinaryOp}
    (asks : AsksOrder op) : (∃ value, binary op a b = .ok value) ↔ Orderable a b := by
  constructor
  · rintro ⟨value, told⟩
    by_contra unordered
    cases told.symm.trans (binary_of_not_orderable first second unordered asks)
  · intro orderable
    obtain ⟨-, -, ⟨_, less, -⟩, ⟨_, greater, -⟩, ⟨_, lessEqual, -⟩, _, greaterEqual, -⟩ :=
      tells_of_orderable orderable
    rcases asks with rfl | rfl | rfl | rfl
    · exact ⟨_, less⟩
    · exact ⟨_, greater⟩
    · exact ⟨_, lessEqual⟩
    · exact ⟨_, greaterEqual⟩

/-- Less is what precedes. -/
theorem affirms_less_iff (first : FloatFree a) (second : FloatFree b) :
    Affirms .less a b ↔ Precedes a b := by
  constructor
  · intro less
    have orderable := (exists_eq_ok_iff first second (.inl rfl)).mp ⟨_, less⟩
    exact (tells_of_orderable orderable).2.2.1.affirms_iff.mp less
  · exact fun before => (tells_of_orderable before.orderable).2.2.1.affirms_iff.mpr before

/-- The six comparisons of values without floats are coherent. Equality is told of all of them: it
is an equivalence, it is that of structure, and inequality is the opposite. An order is told of two
integers and of two strings, and refused for all other pairs. There the values that are less precede
the others, integers by their values and strings by the numbers of their characters; this is a
strict order in which exactly one of two values is less than the other one unless they are equal,
and equal values are less than the same ones. The other operators tell the same order: greater is
less from the other side, and either operator with equality is the opposite of less. -/
theorem comparisons_coherent (first : FloatFree a) (second : FloatFree b) (third : FloatFree c) :
    Tells .equal a b (Matches a b) ∧ Tells .notEqual a b (¬Affirms .equal a b) ∧
      (Affirms .equal a a ∧ (Affirms .equal a b → Affirms .equal b a) ∧
        (Affirms .equal a b → Affirms .equal b c → Affirms .equal a c)) ∧
      (∀ op, AsksOrder op → ((∃ value, binary op a b = .ok value) ↔ Orderable a b) ∧
        (¬Orderable a b → binary op a b = .error (.illegalOperation a.kind op b.kind))) ∧
      (Orderable a b → Tells .less a b (Precedes a b) ∧ Tells .greater a b (Affirms .less b a) ∧
        Tells .lessEqual a b (¬Affirms .less b a) ∧
        Tells .greaterEqual a b (¬Affirms .less a b)) ∧
      (¬Affirms .less a a ∧ (Affirms .less a b → Affirms .less b c → Affirms .less a c) ∧
        (Orderable a b → Affirms .less a b ∨ Affirms .equal a b ∨ Affirms .less b a) ∧
        (Affirms .less a b → ¬Affirms .equal a b ∧ ¬Affirms .less b a)) ∧
      (Affirms .equal a b → (Affirms .less a c ↔ Affirms .less b c) ∧
        (Affirms .less c a ↔ Affirms .less c b)) := by
  have same {x y : Value} (free : FloatFree x) (other : FloatFree y) :
      Affirms .equal x y ↔ Matches x y := (tells_equal free other).1.affirms_iff
  have less {x y : Value} (free : FloatFree x) (other : FloatFree y) :
      Affirms .less x y ↔ Precedes x y := affirms_less_iff free other
  rw [same first first, same first second, same second first, same second third,
    same first third, less first first, less first second, less second first, less second third,
    less first third, less third first, less third second]
  refine ⟨(tells_equal first second).1, (tells_equal first second).2,
    ⟨.refl first, .symm, .trans⟩, fun op asks => ?_,
    fun orderable => (tells_of_orderable orderable).2.2,
    ⟨Precedes.irrefl, .trans, Orderable.trichotomy, fun before => ⟨fun equal => ?_, ?_⟩⟩,
    fun equal => ⟨equal.precedes_iff, equal.preceded_iff⟩⟩
  · exact ⟨exists_eq_ok_iff first second asks,
      fun unordered => binary_of_not_orderable first second unordered asks⟩
  · exact Precedes.irrefl (equal.precedes_iff.mp before)
  · exact fun after => Precedes.irrefl (before.trans after)

/-- Characters are compared by their numbers, also beyond the first plane. A list of a string is
equal to a list of the same string, and a string is not less than the list. -/
theorem comparisons_coherent_planes :
    FloatFree (str "\uffff") ∧ FloatFree (str "😀") ∧ FloatFree (list [str "😀"]) ∧
      Orderable (str "\uffff") (str "😀") ∧ Affirms .less (str "\uffff") (str "😀") ∧
      Tells .greater (str "\uffff") (str "😀") (Affirms .less (str "😀") (str "\uffff")) ∧
      ¬Affirms .equal (str "\uffff") (str "😀") ∧
      Affirms .equal (list [str "😀"]) (list [str "😀"]) ∧
      AsksOrder .less ∧ ¬Orderable (str "😀") (list [str "😀"]) ∧
      binary .less (str "😀") (list [str "😀"]) = .error (.illegalOperation .str .less .list) := by
  have low : FloatFree (str "\uffff") := .str _
  have high : FloatFree (str "😀") := .str _
  have whole : FloatFree (list [str "😀"]) := .list (List.forall_mem_singleton.mpr high)
  have orderable : Orderable (str "\uffff") (str "😀") := .strs _ _
  have less : Affirms .less (str "\uffff") (str "😀") := rfl
  have unordered : ¬Orderable (str "😀") (list [str "😀"]) := nofun
  obtain ⟨-, -, -, -, told, ⟨-, -, -, different⟩, -⟩ := comparisons_coherent low high whole
  obtain ⟨-, -, -, refused, -⟩ := comparisons_coherent high whole low
  obtain ⟨-, -, ⟨equal, -⟩, -⟩ := comparisons_coherent whole high low
  exact ⟨low, high, whole, orderable, less, (told orderable).2.1, (different less).1, equal,
    .inl rfl, unordered, (refused .less (.inl rfl)).2 unordered⟩

end Quill.Value
