import Quill.Proofs.Store.Lookup
import Quill.Proofs.Syntax.Soundness
import Quill.Proofs.Values.Writing
import Quill.Session

/-!
# Running written values

Null, integers, strings and lists of them are written so that a program with such a text and nothing
else has the value back as its only result. So no two of these values are written alike.
-/

namespace Quill.Value

open Quill.Token Quill.Grammar

/-- The text of a written value is read as a program of one statement. -/
theorem read_repr {value : Value} {expr : Expr Unit} (writes : Writes value expr) (id : Nat)
    (name : String) :
    ∃ root : Located,
      Eval.read ⟨id, name, value.repr⟩ = .ok root ∧ root.bare = .list [expr] () := by
  have follows : Follows [] := by
    intro c found
    cases found
  have scans := writes.spelled [] [] follows scans_nil
  rw [List.append_nil, List.append_nil] at scans
  obtain ⟨tokens, scanned, same⟩ := scan_of_scans scans id name
  obtain ⟨front, last, rfl, frontSame, lastSame⟩ := of_kindsOf_append same
  obtain ⟨endSpan, ending, rfl, endingSame⟩ := of_kindsOf_cons lastSame
  obtain rfl := of_kindsOf_nil endingSame
  have prints : ∀ statement ∈ [expr], PrintsStatement statement := by
    intro statement member
    obtain rfl := List.mem_singleton.mp member
    exact writes.prints.statement
  obtain ⟨root, bare, reads⟩ := @reads_program _ prints front endSpan frontSame
  have parsed := parse_eq_ok_iff.mpr ⟨endSpan, [], reads⟩
  refine ⟨root, ?_, bare⟩
  simp only [Eval.read, scanned, parsed]

/-- Wherever the null value has its name, running a written value gives a list of this value. -/
theorem runText_repr {value : Value} (data : IsData value) (host : Host) (room : Nat)
    (name : String) (id : ContextId) (machine : Machine)
    (bound : machine.store.lookup id "null" = some .null) :
    (Eval.runText (Eval.evaluate host room) name value.repr id machine).1 =
      .ok (.list [value]) := by
  obtain ⟨expr, writes⟩ := exists_writes data
  obtain ⟨root, read, bare⟩ := read_repr writes machine.serial name
  have means := means_list (.cons writes .nil) root bare host (Eval.inside host room) id
    { machine with serial := machine.serial + 1 } bound
  simp only [Eval.runText, read, Eval.evaluate_eq, means]
  rfl

/-- The same in a new outermost context. -/
theorem runFresh_repr {value : Value} (data : IsData value) (session : Session) (host : Host)
    (name : String) : (session.runFresh host name value.repr).1 = .ok (.list [value]) :=
  runText_repr data host _ name _ _ (Machine.lookup_null_addGlobals session.machine)

/-- Different data is written differently. -/
theorem repr_injective {first second : Value} (firstData : IsData first)
    (secondData : IsData second) (same : first.repr = second.repr) : first = second := by
  let host : Host := ⟨{}, fun _ => .error .notFound, 0⟩
  have firstRun := runFresh_repr firstData (Session.start []) host ""
  have secondRun := runFresh_repr secondData (Session.start []) host ""
  rw [same, secondRun] at firstRun
  cases firstRun
  rfl

theorem display_eq_repr {value : Value} (other : ∀ text, value ≠ .str text) :
    value.display = value.repr := by
  cases value with
  | str text => exact absurd rfl (other text)
  | _ => rfl

/-- Writing data and running the text in a new outermost context gives the data back, as the only
result, and no two values are written alike. Both hold of the plain text too, where the value is not
a string as a whole. -/
theorem run_written {value : Value} (data : IsData value) :
    (∀ (session : Session) (host : Host) (name : String),
      (session.runFresh host name value.repr).1 = .ok (.list [value])) ∧
    (∀ other, IsData other → value.repr = other.repr → value = other) ∧
    ((∀ text, value ≠ .str text) →
      (∀ (session : Session) (host : Host) (name : String),
        (session.runFresh host name value.display).1 = .ok (.list [value])) ∧
      ∀ other, IsData other → (∀ text, other ≠ .str text) → value.display = other.display →
        value = other) := by
  refine ⟨runFresh_repr data, fun other => repr_injective data, ?_⟩
  intro notText
  rw [display_eq_repr notText]
  refine ⟨runFresh_repr data, ?_⟩
  intro other otherData otherText same
  rw [display_eq_repr otherText] at same
  exact repr_injective data otherData same

/-- A list of null, the smallest integer, a text with a quote in it and an empty list. -/
theorem run_written_list :
    let value : Value := .list [.null, .int Int64.minValue, .str "\"\n", .list []]
    IsData value ∧
      (∀ (session : Session) (host : Host) (name : String),
        (session.runFresh host name value.repr).1 = .ok (.list [value])) ∧
      (∀ other, IsData other → value.repr = other.repr → value = other) ∧
      ((∀ text, value ≠ .str text) →
        (∀ (session : Session) (host : Host) (name : String),
          (session.runFresh host name value.display).1 = .ok (.list [value])) ∧
        ∀ other, IsData other → (∀ text, other ≠ .str text) → value.display = other.display →
          value = other) := by
  intro value
  have data : IsData value := by
    apply IsData.list
    intro element member
    simp only [List.mem_cons, List.not_mem_nil, or_false] at member
    rcases member with rfl | rfl | rfl | rfl
    · exact .null
    · exact .int _
    · exact .str _
    · exact .list (by simp)
  exact ⟨data, run_written data⟩

end Quill.Value
