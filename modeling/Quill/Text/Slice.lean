/-!
# Slices of a text by byte offsets

A program text is stored as UTF-8, and offsets into it count bytes. A slice exists only between
two character boundaries, so the functions here walk over whole characters and answer `none` when
an offset falls inside a character or beyond the end.
-/

namespace Quill.Text

/-- The number of bytes of the characters in UTF-8. -/
def byteLength : List Char → Nat
  | [] => 0
  | c :: text => c.utf8Size + byteLength text

@[simp] theorem byteLength_nil : byteLength [] = 0 := rfl

@[simp] theorem byteLength_cons (c : Char) (text : List Char) :
    byteLength (c :: text) = c.utf8Size + byteLength text := rfl

@[simp] theorem byteLength_append (first second : List Char) :
    byteLength (first ++ second) = byteLength first + byteLength second := by
  induction first with
  | nil => simp
  | cons c first ih => simp [ih, Nat.add_assoc]

/-- Cuts a text after exactly the given number of bytes, if that is a character boundary. -/
def cut? : Nat → List Char → Option (List Char × List Char)
  | 0, text => some ([], text)
  | _ + 1, [] => none
  | bytes + 1, c :: text =>
    if c.utf8Size ≤ bytes + 1 then
      (cut? (bytes + 1 - c.utf8Size) text).map fun (before, after) => (c :: before, after)
    else
      none

/-- A cut loses nothing, and the part before it has the requested number of bytes. -/
theorem append_eq_of_cut? {bytes : Nat} {text before after : List Char}
    (done : cut? bytes text = some (before, after)) :
    before ++ after = text ∧ byteLength before = bytes := by
  fun_induction cut? bytes text generalizing before after with
  | case1 text => simp_all
  | case2 => simp at done
  | case3 bytes c text fits ih =>
    obtain ⟨⟨first, second⟩, cutRest, same⟩ := Option.map_eq_some_iff.1 done
    obtain ⟨rfl, rfl⟩ := Prod.mk.inj same
    obtain ⟨joined, size⟩ := ih cutRest
    exact ⟨by simp [joined], by simp [size]; omega⟩
  | case4 => simp at done

/-- Cutting after the bytes of a leading part gives that part back. -/
theorem cut?_byteLength (before after : List Char) :
    cut? (byteLength before) (before ++ after) = some (before, after) := by
  induction before with
  | nil => simp [cut?]
  | cons c before ih =>
    have positive := c.utf8Size_pos
    obtain ⟨n, size⟩ : ∃ n, byteLength (c :: before) = n + 1 :=
      ⟨byteLength (c :: before) - 1, by simp; omega⟩
    have rest : n + 1 - c.utf8Size = byteLength before := by simp at size; omega
    rw [size, List.cons_append, cut?, if_pos (by simp at size; omega), rest, ih]
    rfl

/-- The characters from byte `start` up to byte `stop`. -/
def slice? (text : List Char) (start stop : Nat) : Option (List Char) :=
  if start ≤ stop then do
    let (_, after) ← cut? start text
    let (inside, _) ← cut? (stop - start) after
    some inside
  else
    none

end Quill.Text
