import Quill.Proofs.Syntax.Prefixes
import Quill.Proofs.Syntax.Respanning

/-!
# Programs without their places

What a parser reads depends on the kinds of the tokens alone, apart from the spans in it. This is
seen by giving all tokens the same span: tokens of the same kinds become equal, and so do the
programs that are read from them.
-/

namespace Quill.Grammar

open Quill.Token Quill.Parser

namespace Respanning

/-- Gives the same span to everything. -/
def erasing : Respanning :=
  ⟨fun _ => SyntaxError.nowhere, fun _ _ => rfl⟩

/-- Erasing spans changes nothing else. -/
theorem bare_erasing (expr : Located) : (erasing.expr expr).bare = expr.bare :=
  Expr.mapNotes_mapNotes _ _ expr

theorem bare_eq_of_erasing {expr other : Located} (same : erasing.expr expr = erasing.expr other) :
    expr.bare = other.bare := by
  rw [← bare_erasing expr, same, bare_erasing]

theorem map_erasing {tokens others : List Token} (same : kindsOf tokens = kindsOf others) :
    tokens.map erasing.token = others.map erasing.token := by
  have erased (tokens : List Token) : tokens.map erasing.token =
      (kindsOf tokens).map fun kind => ⟨kind, SyntaxError.nowhere⟩ := by
    rw [kindsOf, List.map_map]
    rfl
  rw [erased, erased, same]

theorem parse_map (move : Respanning) {tokens : List Token} {root : Located}
    (parsed : parse tokens = .ok root) : parse (tokens.map move.token) = .ok (move.expr root) := by
  obtain ⟨last, rest, reads⟩ := parse_eq_ok_iff.mp parsed
  exact parse_eq_ok (move.reads_phrase reads)

end Respanning

/-- Whether tokens are a program depends on their kinds alone. -/
theorem exists_ok_of_kindsOf {tokens others : List Token} {root : Located}
    (same : kindsOf others = kindsOf tokens) (parsed : parse tokens = .ok root) :
    ∃ again, parse others = .ok again := by
  obtain ⟨span, rest, reads⟩ := parse_eq_ok_iff.mp parsed
  have read : program tokens.length tokens = .ok (root, ⟨.endOfInput, span⟩ :: rest) :=
    bind_ok (reads.found tokens.length (Nat.le_refl _)) (bind_ok (peek_cons _ _) rfl)
  obtain ⟨taken, rfl, -, decided⟩ :=
    (decides_program tokens.length others.length).ok (Nat.le_refl _) read
  rw [kindsOf, kindsOf, List.map_append, List.map_cons] at same
  obtain ⟨front, back, rfl, sameFront, sameBack⟩ := of_kindsOf_append same
  obtain ⟨last, back, rfl, -⟩ := of_kindsOf_cons sameBack
  obtain ⟨again, -, accepted⟩ :=
    decided front ⟨.endOfInput, last⟩ back sameFront rfl (Nat.le_refl _)
  refine ⟨again, ?_⟩
  change Prod.fst <$> program _ _ = _
  rw [accepted]
  rfl

/-- Tokens of the same kinds are the same program, apart from its spans. -/
theorem exists_parse_of_kindsOf {tokens others : List Token} {root : Located}
    (same : kindsOf others = kindsOf tokens) (parsed : parse tokens = .ok root) :
    ∃ again, parse others = .ok again ∧ again.bare = root.bare := by
  obtain ⟨again, accepted⟩ := exists_ok_of_kindsOf same parsed
  have erased := Respanning.erasing.parse_map accepted
  rw [Respanning.map_erasing same, Respanning.erasing.parse_map parsed] at erased
  exact ⟨again, accepted, (Respanning.bare_eq_of_erasing (Except.ok.inj erased)).symm⟩

end Quill.Grammar
