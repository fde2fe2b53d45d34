import Quill.Proofs.Values.Integers

/-!
# Repetitions are exact or refused

Multiplying a string or a list by an integer gives as many copies of it, one behind the other, or a
fault if the integer is negative or the copies would be too long together. How long they are is
decided by a product that may be far too large for a word of the machine. So the decision is also
made in words, where a product that is no word counts as too large, and comes out the same. As long
as copies are not too long, those for a sum are those for its first part with those for its second
part behind them.
-/

namespace Quill.Value

/-- The length that limits repetitions: the bytes of a string or the elements of a list. No other
value can be repeated. -/
def extent? : Value → Option Nat
  | str text => some text.utf8ByteSize
  | list elements => some elements.length
  | _ => none

/-- A number of copies of a string or a list, one behind the other. -/
def copies (times : Nat) : Value → Value
  | str text => str (String.join (List.replicate times text))
  | list elements => list (List.replicate times elements).flatten
  | other => other

/-! ## Copies -/

theorem repeat_str (text : String) (times : Nat) :
    times.repeat (· ++ text) "" = String.join (List.replicate times text) := by
  induction times with
  | zero => rfl
  | succ times ih =>
    rw [Nat.repeat, ih, List.replicate_succ', String.join_append, String.join_cons,
      String.join_nil, String.append_empty]

theorem repeat_list (elements : List Value) (times : Nat) :
    times.repeat (elements ++ ·) [] = (List.replicate times elements).flatten := by
  induction times with
  | zero => rfl
  | succ times ih => rw [Nat.repeat, ih, List.replicate_succ, List.flatten_cons]

/-- Every copy is as long as the original. -/
theorem extent?_copies {x : Value} {length : Nat} (repeatable : x.extent? = some length)
    (times : Nat) : (x.copies times).extent? = some (times * length) := by
  cases x with
  | str text =>
    cases repeatable
    change some (String.join (List.replicate times text)).utf8ByteSize = _
    induction times with
    | zero => rw [Nat.zero_mul]; rfl
    | succ times ih =>
      rw [List.replicate_succ, String.join_cons, String.utf8ByteSize_append, Option.some.inj ih,
        Nat.succ_mul, Nat.add_comm]
  | list elements =>
    cases repeatable
    simp [copies, extent?]
  | _ => cases repeatable

/-- Copies of nothing are nothing, however many they are. -/
theorem copies_of_extent?_zero {x : Value} (empty : x.extent? = some 0) (times : Nat) :
    x.copies times = x.copies 0 := by
  have none := extent?_copies empty times
  cases x with
  | str text =>
    exact congrArg str (String.utf8ByteSize_eq_zero_iff.mp (Option.some.inj none))
  | list elements =>
    exact congrArg list (List.length_eq_zero_iff.mp (Option.some.inj none))
  | _ => cases empty

/-- Copies behind copies are copies. -/
theorem add_copies {x : Value} {length : Nat} (repeatable : x.extent? = some length)
    (first second : Nat) :
    binary .add (x.copies first) (x.copies second) = .ok (x.copies (first + second)) := by
  cases x with
  | str text =>
    simp only [copies, ← List.replicate_append_replicate, String.join_append]
    rfl
  | list elements =>
    simp only [copies, ← List.replicate_append_replicate, List.flatten_append]
    rfl
  | _ => cases repeatable

/-! ## How often something is repeated -/

theorem toNat?_of_nonneg {count : Int64} (natural : 0 ≤ count.toInt) :
    Integer.toNat? count = some count.toInt.toNat :=
  if_pos natural

theorem toNat?_of_neg {count : Int64} (negative : count.toInt < 0) :
    Integer.toNat? count = none :=
  if_neg (Int.not_le.mpr negative)

/-- What is repeated does not become too long. -/
theorem mul_le_of_repetitions {count : Int64} {length times : Nat}
    (found : repetitions count length = .ok times) : times * length ≤ maxRepetitionLength := by
  unfold repetitions at found
  grind

/-- The product of two words, if it is a word. -/
def wordProduct? (a b : UInt64) : Option UInt64 :=
  if a.toNat * b.toNat < UInt64.size then some (a * b) else none

theorem wordProduct?_eq_some {a b product : UInt64} (found : wordProduct? a b = some product) :
    product.toNat = a.toNat * b.toNat := by
  unfold wordProduct? at found
  split at found
  · rename_i small
    rw [← Option.some.inj found, UInt64.toNat_mul, Nat.mod_eq_of_lt small]
  · cases found

theorem wordProduct?_eq_none {a b : UInt64} (missing : wordProduct? a b = none) :
    UInt64.size ≤ a.toNat * b.toNat := by
  unfold wordProduct? at missing
  split at missing
  · cases missing
  · omega

/-- How often something is repeated, found with words alone. -/
def repetitionsInWords (count : Int64) (length : UInt64) : Except Fault UInt64 :=
  if count < 0 then .error (.negativeRepetition count)
  else if length = 0 then .ok 0
  else
    match wordProduct? count.toUInt64 length with
    | some total =>
      if total ≤ 16777216 then .ok count.toUInt64 else .error (.repetitionTooLarge count)
    | none => .error (.repetitionTooLarge count)

theorem toNat_toUInt64 {count : Int64} (natural : 0 ≤ count.toInt) :
    count.toUInt64.toNat = count.toInt.toNat := by
  have bits : count.toInt = count.toBitVec.toInt := rfl
  have word : count.toUInt64.toNat = count.toBitVec.toNat := rfl
  have small := count.toBitVec.isLt
  rw [bits, BitVec.toInt_eq_toNat_cond] at natural ⊢
  split at natural
  · rename_i low
    rw [if_pos low, word]
    rfl
  · omega

/-- Words are enough to find out how often something is repeated. -/
theorem repetitionsInWords_eq (count : Int64) (length : UInt64) :
    (repetitionsInWords count length).map UInt64.toNat = repetitions count length.toNat := by
  have sign : count < 0 ↔ count.toInt < 0 := Int64.lt_iff_toInt_lt
  have empty : length = 0 ↔ length.toNat = 0 := UInt64.toNat_inj.symm
  unfold repetitionsInWords repetitions
  by_cases negative : count.toInt < 0
  · rw [if_pos (sign.mpr negative), toNat?_of_neg negative]
    rfl
  rw [if_neg (mt sign.mp negative), toNat?_of_nonneg (Int.not_lt.mp negative)]
  dsimp only
  by_cases none : length = 0
  · rw [if_pos none, if_pos (empty.mp none)]
    rfl
  rw [if_neg none, if_neg (mt empty.mpr none)]
  have word := toNat_toUInt64 (Int.not_lt.mp negative)
  cases taken : wordProduct? count.toUInt64 length with
  | some total =>
    have exact := wordProduct?_eq_some taken
    have limit : total ≤ 16777216 ↔ total.toNat ≤ maxRepetitionLength := UInt64.le_iff_toNat_le
    dsimp only
    rw [word] at exact
    by_cases small : total ≤ 16777216
    · rw [if_pos small, if_pos (exact ▸ limit.mp small)]
      exact congrArg Except.ok word
    · rw [if_neg small, if_neg (exact ▸ mt limit.mpr small)]
      rfl
  | none =>
    have large := wordProduct?_eq_none taken
    rw [word] at large
    have exceeds : ¬count.toInt.toNat * length.toNat ≤ maxRepetitionLength :=
      Nat.not_le.mpr (Nat.lt_of_lt_of_le (by decide) large)
    rw [if_neg exceeds]
    rfl

/-! ## Multiplication -/

/-- The outcome of repeating something of the given length is the copies, or a fault for one of two
reasons: the count is negative, or the copies would be too long. -/
structure Repeated (count : Int64) (length : Nat) (copied : Value)
    (outcome : Except Fault Value) : Prop where
  /-- There is a result exactly if there is neither reason, and then it is the copies. -/
  ok_iff : ∀ value, outcome = .ok value ↔
    value = copied ∧ 0 ≤ count.toInt ∧ count.toInt * length ≤ 2 ^ 24
  /-- There is a fault exactly if there is a reason, and it tells which one. -/
  error_iff : ∀ fault, outcome = .error fault ↔
    fault = .negativeRepetition count ∧ count.toInt < 0 ∨
      fault = .repetitionTooLarge count ∧ 0 ≤ count.toInt ∧ 0 < length ∧
        2 ^ 24 < count.toInt * length

/-- Multiplication makes as many copies as the count allows. -/
theorem mul_eq {x : Value} {length : Nat} (repeatable : x.extent? = some length)
    (count : Int64) :
    binary .mul x (int count) = (repetitions count length).map (x.copies ·) := by
  cases x with
  | str text =>
    cases repeatable
    change (repetitions count text.utf8ByteSize >>= fun times =>
      .ok (str (times.repeat (· ++ text) ""))) = _
    simp only [repeat_str]
    rfl
  | list elements =>
    cases repeatable
    change (repetitions count elements.length >>= fun times =>
      .ok (list (times.repeat (elements ++ ·) []))) = _
    simp only [repeat_list]
    rfl
  | _ => cases repeatable

theorem mul_of_neg {x : Value} {length : Nat} (repeatable : x.extent? = some length)
    {count : Int64} (negative : count.toInt < 0) :
    binary .mul x (int count) = .error (.negativeRepetition count) := by
  rw [mul_eq repeatable, repetitions, toNat?_of_neg negative]
  rfl

/-- The count is replaced if there is nothing to repeat, but then all copies are the same. -/
theorem mul_of_le {x : Value} {length : Nat} (repeatable : x.extent? = some length)
    {count : Int64} (natural : 0 ≤ count.toInt) (short : count.toInt * length ≤ 2 ^ 24) :
    binary .mul x (int count) = .ok (x.copies count.toInt.toNat) := by
  rw [mul_eq repeatable, repetitions, toNat?_of_nonneg natural]
  dsimp only
  by_cases empty : length = 0
  · subst empty
    rw [if_pos rfl, copies_of_extent?_zero repeatable count.toInt.toNat]
    rfl
  · have limit : count.toInt.toNat * length ≤ maxRepetitionLength := by
      rw [← Int.toNat_of_nonneg natural] at short
      exact_mod_cast short
    rw [if_neg empty, if_pos limit]
    rfl

theorem mul_of_lt {x : Value} {length : Nat} (repeatable : x.extent? = some length)
    {count : Int64} (natural : 0 ≤ count.toInt) (long : 2 ^ 24 < count.toInt * length) :
    binary .mul x (int count) = .error (.repetitionTooLarge count) := by
  have some : length ≠ 0 := by
    rintro rfl
    simp at long
  have exceeds : ¬count.toInt.toNat * length ≤ maxRepetitionLength := by
    rw [← Int.toNat_of_nonneg natural] at long
    exact Nat.not_le.mpr (by exact_mod_cast long)
  rw [mul_eq repeatable, repetitions, toNat?_of_nonneg natural]
  dsimp only
  rw [if_neg some, if_neg exceeds]
  rfl

theorem repeated_mul {x : Value} {length : Nat} (repeatable : x.extent? = some length)
    (count : Int64) :
    Repeated count length (x.copies count.toInt.toNat) (binary .mul x (int count)) := by
  rcases lt_or_ge count.toInt 0 with negative | natural
  · rw [mul_of_neg repeatable negative]
    constructor <;> grind
  rcases lt_or_ge (2 ^ 24) (count.toInt * length) with long | short
  · have some : 0 < length := by
      rcases Nat.eq_zero_or_pos length with rfl | some
      · simp at long
      · exact some
    rw [mul_of_lt repeatable natural long]
    constructor <;> grind
  · rw [mul_of_le repeatable natural short]
    constructor <;> grind

/-- A sum that is an integer is exact. -/
theorem toInt_of_add {m n sum : Int64} (added : binary .add (int m) (int n) = .ok (int sum)) :
    sum.toInt = m.toInt + n.toInt := by
  obtain ⟨found, same, exact⟩ := ((exact_ofInt? (m.toInt + n.toInt)).ok_iff _).mp added
  rw [int.inj same, exact]

/-- Repetitions for a sum of counts are those for the first count with those for the second one
behind them. -/
theorem mul_add_eq {x : Value} {length : Nat} (repeatable : x.extent? = some length)
    {m n sum : Int64} (first : 0 ≤ m.toInt) (second : 0 ≤ n.toInt)
    (added : binary .add (int m) (int n) = .ok (int sum)) {whole : Value}
    (repeated : binary .mul x (int sum) = .ok whole) :
    ∃ front back, binary .mul x (int m) = .ok front ∧ binary .mul x (int n) = .ok back ∧
      binary .add front back = .ok whole := by
  obtain ⟨rfl, -, short⟩ := ((repeated_mul repeatable sum).ok_iff whole).mp repeated
  have exact := toInt_of_add added
  rw [exact, add_mul] at short
  have firstPart : 0 ≤ m.toInt * length := mul_nonneg first (Int.natCast_nonneg _)
  have secondPart : 0 ≤ n.toInt * length := mul_nonneg second (Int.natCast_nonneg _)
  refine ⟨_, _, mul_of_le repeatable first (by omega), mul_of_le repeatable second (by omega), ?_⟩
  rw [add_copies repeatable, exact, Int.toNat_add first second]

/-- A string or a list is repeated exactly as often as the integer says, or the repetition is
refused: because the integer is negative, or because there is something to repeat and it would
become longer than the limit. The copies have the length of all of them, which is nothing for an
empty string or list, and the limit bounds every length that is computed on the way: deciding in
words gives the same. Whatever is not too long for a sum of natural numbers is what it is for the
first number with what it is for the second one behind it. -/
theorem repetition_exact {x : Value} {length : Nat} (repeatable : x.extent? = some length)
    (n : Int64) :
    Repeated n length (x.copies n.toInt.toNat) (binary .mul x (int n)) ∧
      (x.copies n.toInt.toNat).extent? = some (n.toInt.toNat * length) ∧
      (∀ times, repetitions n length = .ok times → times * length ≤ 2 ^ 24) ∧
      (∀ word : UInt64, word.toNat = length →
        (repetitionsInWords n word).map UInt64.toNat = repetitions n length) ∧
      ∀ m sum whole, 0 ≤ m.toInt → 0 ≤ n.toInt → binary .add (int m) (int n) = .ok (int sum) →
        binary .mul x (int sum) = .ok whole →
          ∃ front back, binary .mul x (int m) = .ok front ∧ binary .mul x (int n) = .ok back ∧
            binary .add front back = .ok whole := by
  refine ⟨repeated_mul repeatable n, extent?_copies repeatable _,
    fun times found => mul_le_of_repetitions found, fun word same => ?_, ?_⟩
  · rw [← same]
    exact repetitionsInWords_eq n word
  · exact fun m sum whole first second added repeated =>
      mul_add_eq repeatable first second added repeated

/-- Three copies of a string with a character of two bytes, as one copy and two more. -/
theorem repetition_exact_text :
    (str "aé").extent? = some 3 ∧
      binary .mul (str "aé") (int 3) = .ok (str "aéaéaé") ∧
      repetitions 3 3 = .ok 3 ∧ 3 * 3 ≤ 2 ^ 24 ∧
      (3 : UInt64).toNat = 3 ∧
      (repetitionsInWords 3 3).map UInt64.toNat = repetitions 3 3 ∧
      0 ≤ (1 : Int64).toInt ∧ 0 ≤ (2 : Int64).toInt ∧
      binary .add (int 1) (int 2) = .ok (int 3) ∧
      ∃ front back, binary .mul (str "aé") (int 1) = .ok front ∧
        binary .mul (str "aé") (int 2) = .ok back ∧
        binary .add front back = .ok (str "aéaéaé") := by
  have repeatable : (str "aé").extent? = some 3 := by decide
  obtain ⟨repeated, -, short, words, sum⟩ := repetition_exact repeatable 3
  obtain ⟨-, -, -, -, split⟩ := repetition_exact repeatable 2
  have three : binary .mul (str "aé") (int 3) = .ok (str "aéaéaé") :=
    (repeated.ok_iff _).mpr ⟨by rfl, by decide, by decide⟩
  have added : binary .add (int 1) (int 2) = .ok (int 3) := rfl
  exact ⟨repeatable, three, by decide, short 3 (by decide), by decide, words 3 (by decide),
    by decide, by decide, added, split 1 3 _ (by decide) (by decide) added three⟩

end Quill.Value
