import Quill.Proofs.Syntax.Erasing
import Quill.Proofs.Syntax.ReturnCounts

/-!
# Returns without their values

The value of a `return` can be left out where the token behind it ends a statement: what remains is
the same program, apart from that value and from the places of things. It cannot be left out
anywhere else: what remains has one return without a value too few, if it is a program at all.
-/

namespace Quill

mutual

/-- The second expression is the first one without the value of one `return`, which has the note. -/
inductive Drops {Note : Type} (value : Expr Note) (note : Note) : Expr Note → Expr Note → Prop where
  | here : Drops value note (.returnWith (some value) note) (.returnWith none note)
  | returnWith {inner changed : Expr Note} {place : Note}
    (inside : Drops value note inner changed) :
    Drops value note (.returnWith (some inner) place) (.returnWith (some changed) place)
  | unary {op : UnaryOp} {operand changed : Expr Note} {place : Note}
    (inside : Drops value note operand changed) :
    Drops value note (.unary op operand place) (.unary op changed place)
  | left {op : BinaryOp} {left right changed : Expr Note} {place : Note}
    (inside : Drops value note left changed) :
    Drops value note (.binary op left right place) (.binary op changed right place)
  | right {op : BinaryOp} {left right changed : Expr Note} {place : Note}
    (inside : Drops value note right changed) :
    Drops value note (.binary op left right place) (.binary op left changed place)
  | list {elements changed : List (Expr Note)} {place : Note}
    (inside : DropsAmong value note elements changed) :
    Drops value note (.list elements place) (.list changed place)
  | choice {branches changed : Branches Note} {place : Note}
    (inside : BranchDrops value note branches changed) :
    Drops value note (.choice branches place) (.choice changed place)
  | start {counter : String} {start stop body changed : Expr Note} {step : Option (Expr Note)}
    {block : Bool} {place : Note} (inside : Drops value note start changed) :
    Drops value note (.forLoop counter start stop step body block place)
      (.forLoop counter changed stop step body block place)
  | stop {counter : String} {start stop body changed : Expr Note} {step : Option (Expr Note)}
    {block : Bool} {place : Note} (inside : Drops value note stop changed) :
    Drops value note (.forLoop counter start stop step body block place)
      (.forLoop counter start changed step body block place)
  | step {counter : String} {start stop step body changed : Expr Note} {block : Bool} {place : Note}
    (inside : Drops value note step changed) :
    Drops value note (.forLoop counter start stop (some step) body block place)
      (.forLoop counter start stop (some changed) body block place)
  | repeated {counter : String} {start stop body changed : Expr Note} {step : Option (Expr Note)}
    {block : Bool} {place : Note} (inside : Drops value note body changed) :
    Drops value note (.forLoop counter start stop step body block place)
      (.forLoop counter start stop step changed block place)
  | condition {condition body changed : Expr Note} {block : Bool} {place : Note}
    (inside : Drops value note condition changed) :
    Drops value note (.whileLoop condition body block place) (.whileLoop changed body block place)
  | body {condition body changed : Expr Note} {block : Bool} {place : Note}
    (inside : Drops value note body changed) :
    Drops value note (.whileLoop condition body block place)
      (.whileLoop condition changed block place)
  | assign {name : String} {assigned changed : Expr Note} {place : Note}
    (inside : Drops value note assigned changed) :
    Drops value note (.assign name assigned place) (.assign name changed place)
  | assignMember {object name : String} {assigned changed : Expr Note} {place : Note}
    (inside : Drops value note assigned changed) :
    Drops value note (.assignMember object name assigned place)
      (.assignMember object name changed place)
  | function {name : Option String} {parameters : List String} {body changed : Expr Note}
    {valued : Bool} {place : Note} (inside : Drops value note body changed) :
    Drops value note (.function name parameters body valued place)
      (.function name parameters changed valued place)
  | callee {callee changed : Expr Note} {arguments : List (Expr Note)} {place : Note}
    (inside : Drops value note callee changed) :
    Drops value note (.call callee arguments place) (.call changed arguments place)
  | arguments {callee : Expr Note} {arguments changed : List (Expr Note)} {place : Note}
    (inside : DropsAmong value note arguments changed) :
    Drops value note (.call callee arguments place) (.call callee changed place)
  | template {name : String} {body changed : Expr Note} {place : Note}
    (inside : Drops value note body changed) :
    Drops value note (.template name body place) (.template name changed place)

/-- The value of one `return` is dropped in one of the expressions. -/
inductive DropsAmong {Note : Type} (value : Expr Note) (note : Note) :
    List (Expr Note) → List (Expr Note) → Prop where
  | head {element changed : Expr Note} {rest : List (Expr Note)}
    (inside : Drops value note element changed) :
    DropsAmong value note (element :: rest) (changed :: rest)
  | tail {element : Expr Note} {rest changed : List (Expr Note)}
    (inside : DropsAmong value note rest changed) :
    DropsAmong value note (element :: rest) (element :: changed)

/-- The value of one `return` is dropped in one of the alternatives. -/
inductive BranchDrops {Note : Type} (value : Expr Note) (note : Note) :
    Branches Note → Branches Note → Prop where
  | otherwise {body changed : Expr Note} {block : Bool} (inside : Drops value note body changed) :
    BranchDrops value note (.otherwise body block) (.otherwise changed block)
  | condition {condition body changed : Expr Note} {block : Bool} {rest : Branches Note}
    (inside : Drops value note condition changed) :
    BranchDrops value note (.orElse condition body block rest) (.orElse changed body block rest)
  | body {condition body changed : Expr Note} {block : Bool} {rest : Branches Note}
    (inside : Drops value note body changed) :
    BranchDrops value note (.orElse condition body block rest)
      (.orElse condition changed block rest)
  | rest {condition body : Expr Note} {block : Bool} {rest changed : Branches Note}
    (inside : BranchDrops value note rest changed) :
    BranchDrops value note (.orElse condition body block rest)
      (.orElse condition body block changed)

end

/-- What contains the `return` stays where it is. -/
theorem Drops.note_eq {Note : Type} {value expr changed : Expr Note} {note : Note}
    (dropped : Drops value note expr changed) : changed.note = expr.note := by
  cases dropped <;> rfl

section
variable {Note : Type} {value : Expr Note} {note : Note}

mutual

/-- A value is dropped together with the returns in it, and leaves a return without a value. -/
theorem Drops.bareReturns_eq : {expr changed : Expr Note} → Drops value note expr changed →
    changed.bareReturns + value.bareReturns = expr.bareReturns + 1
  | _, _, .here => Nat.add_comm 1 _
  | _, _, .returnWith inside | _, _, .unary inside | _, _, .assign inside
  | _, _, .assignMember inside | _, _, .function inside | _, _, .template inside =>
    (Drops.bareReturns_eq inside :)
  | _, _, .list inside => (DropsAmong.bareReturns_eq inside :)
  | _, _, .choice inside => (BranchDrops.bareReturns_eq inside :)
  | _, _, .left inside | _, _, .right inside | _, _, .condition inside | _, _, .body inside
  | _, _, .callee inside => by
    have counted := Drops.bareReturns_eq inside
    simp only [Expr.bareReturns]
    omega
  | _, _, .arguments inside => by
    have counted := DropsAmong.bareReturns_eq inside
    simp only [Expr.bareReturns]
    omega
  | .forLoop _ _ _ step _ _ _, _, .start inside | .forLoop _ _ _ step _ _ _, _, .stop inside
  | .forLoop _ _ _ step _ _ _, _, .repeated inside => by
    have counted := Drops.bareReturns_eq inside
    cases step <;>
    · simp only [Expr.bareReturns]
      omega
  | _, _, .step inside => by
    have counted := Drops.bareReturns_eq inside
    simp only [Expr.bareReturns]
    omega

theorem DropsAmong.bareReturns_eq : {elements changed : List (Expr Note)} →
    DropsAmong value note elements changed →
      Expr.allBareReturns changed + value.bareReturns = Expr.allBareReturns elements + 1
  | _, _, .head inside => by
    have counted := Drops.bareReturns_eq inside
    simp only [Expr.allBareReturns]
    omega
  | _, _, .tail inside => by
    have counted := DropsAmong.bareReturns_eq inside
    simp only [Expr.allBareReturns]
    omega

theorem BranchDrops.bareReturns_eq : {branches changed : Branches Note} →
    BranchDrops value note branches changed →
      changed.bareReturns + value.bareReturns = branches.bareReturns + 1
  | _, _, .otherwise inside => (Drops.bareReturns_eq inside :)
  | _, _, .condition inside | _, _, .body inside => by
    have counted := Drops.bareReturns_eq inside
    simp only [Branches.bareReturns]
    omega
  | _, _, .rest inside => by
    have counted := BranchDrops.bareReturns_eq inside
    simp only [Branches.bareReturns]
    omega

end
end
namespace Grammar

open Quill.Token Quill.Parser

/-! ## The tokens of the value -/

/-- The same tokens come first in both, up to a `return`. -/
def UpToReturn (before new : List Token) : Prop :=
  ∃ front span back newBack, before = front ++ ⟨.keyword .returnWord, span⟩ :: back ∧
    new = front ++ ⟨.keyword .returnWord, span⟩ :: newBack

namespace UpToReturn

variable {before new : List Token}

theorem sameNext (same : UpToReturn before new) : SameNext before new := by
  obtain ⟨front, span, back, newBack, rfl, rfl⟩ := same
  exact (sameNext_cons _ back newBack).append front

theorem ahead_eq {wanted : Kind → Bool} (same : UpToReturn before new) :
    ahead wanted new = ahead wanted before :=
  same.sameNext.ahead

theorem targetAhead_eq (same : UpToReturn before new) : targetAhead new = targetAhead before := by
  obtain ⟨front, span, back, newBack, rfl, rfl⟩ := same
  cases front with
  | nil => rfl
  | cons first front =>
    obtain ⟨kind, place⟩ := first
    cases kind with
    | identifier name =>
      rw [List.cons_append, List.cons_append, targetAhead_name, targetAhead_name]
      exact ((sameNext_cons _ back newBack).append front).ahead
    | _ => rfl

theorem dropWhile_ne_nil (same : UpToReturn before new) :
    new.dropWhile (·.kind.isSeparator) ≠ [] := by
  obtain ⟨front, span, back, newBack, rfl, rfl⟩ := same
  intro none
  have separates := List.dropWhile_eq_nil_iff.mp none ⟨.keyword .returnWord, span⟩ (by simp)
  cases separates

end UpToReturn

variable {value : Located} {note : Span} {before middle after : List Token}

/-- The value stands behind a `return` that has the span together with it. Without the value, and
if the token behind it ends a statement, the tokens are as the property says. -/
def Site (value : Located) (note : Span) (before after : List Token) (P : List Token → Prop) :
    Prop :=
  ∃ front span taken behind, before = front ++ ⟨.keyword .returnWord, span⟩ :: (taken ++ behind) ∧
    Reads (.expression value) (taken ++ behind) behind ∧ note = span.through value.note ∧
    after <:+ behind ∧
    (ahead endsStatement behind = true → P (front ++ ⟨.keyword .returnWord, span⟩ :: behind))

/-- The phrase can be read from the first tokens, and leaves the second ones, if all spans are
ignored. -/
abbrev ReadsErased (phrase : Phrase) (before after : List Token) : Prop :=
  Reads (Respanning.erasing.phrase phrase) (before.map Respanning.erasing.token)
    (after.map Respanning.erasing.token)

theorem Reads.erased {phrase : Phrase} (reads : Reads phrase before after) :
    ReadsErased phrase before after :=
  Respanning.erasing.reads_phrase reads

namespace Site

variable {P Q : List Token → Prop}

theorem mono (site : Site value note before after P)
    (keeps : ∀ new, UpToReturn before new → P new → Q new) : Site value note before after Q := by
  obtain ⟨front, span, taken, behind, rfl, reads, place, later, changed⟩ := site
  exact ⟨front, span, taken, behind, rfl, reads, place, later, fun ends =>
    keeps _ ⟨front, span, _, _, rfl, rfl⟩ (changed ends)⟩

/-- More tokens can stand behind the phrase that the value is part of. -/
theorem widen (site : Site value note before middle P) (later : after <:+ middle) :
    Site value note before after P := by
  obtain ⟨front, span, taken, behind, rfl, reads, place, behindLater, changed⟩ := site
  exact ⟨front, span, taken, behind, rfl, reads, place, later.trans behindLater, changed⟩

theorem past {token : Token} (site : Site value note before (token :: middle) P)
    (later : after <:+ middle) : Site value note before after P :=
  site.widen (later.trans (List.suffix_cons token middle))

/-- More tokens can stand in front. -/
theorem front (site : Site value note before after P) (taken : List Token) :
    Site value note (taken ++ before) after fun new =>
      ∃ rest, new = taken ++ rest ∧ P rest := by
  obtain ⟨front, span, inner, behind, rfl, reads, place, later, changed⟩ := site
  exact ⟨taken ++ front, span, inner, behind, by simp, reads, place, later, fun ends =>
    ⟨_, by simp, changed ends⟩⟩

/-- A phrase in front is read as before. -/
theorem behind {phrase : Phrase} (site : Site value note middle after P)
    (reads : Reads phrase before middle) :
    Site value note before after fun new =>
      ∃ newMiddle, P newMiddle ∧ ReadsErased phrase new newMiddle := by
  obtain ⟨taken, rfl, -, again⟩ := reads.isLocal
  have marked : Site value note middle after fun new => UpToReturn middle new ∧ P new :=
    site.mono fun new same changed => ⟨same, changed⟩
  refine (marked.front taken).mono ?_
  rintro _ - ⟨rest, rfl, same, changed⟩
  exact ⟨rest, changed, (again rest (.inl same.sameNext)).erased⟩

/-- Separators are skipped as before. -/
theorem skip (site : Site value note (before.dropWhile (·.kind.isSeparator)) after P) :
    Site value note before after fun new => P (new.dropWhile (·.kind.isSeparator)) := by
  have split : before.takeWhile (·.kind.isSeparator) ++ before.dropWhile (·.kind.isSeparator) =
      before := List.takeWhile_append_dropWhile
  have marked : Site value note (before.dropWhile (·.kind.isSeparator)) after fun new =>
      ahead (·.isSeparator) new = false ∧ P new :=
    site.mono fun new same changed => ⟨same.ahead_eq.trans (not_ahead_dropWhile before), changed⟩
  rw [← split]
  refine (marked.front _).mono ?_
  rintro _ - ⟨rest, rfl, absent, changed⟩
  rw [dropWhile_takeWhile_append absent]
  exact changed

end Site

/-- Every way to drop a value in the expression is one to leave out tokens. -/
def SitesOf (value : Located) (note : Span) (before after : List Token) (make : Located → Phrase)
    (expr : Located) : Prop :=
  ∀ changed, Drops value note expr changed →
    Site value note before after fun new => ReadsErased (make changed) new after

/-- Every way to drop a value in the expressions is one to leave out tokens. -/
def SitesAmong (value : Located) (note : Span) (before after : List Token)
    (make : List Located → Phrase) (elements : List Located) : Prop :=
  ∀ changed, DropsAmong value note elements changed →
    Site value note before after fun new => ReadsErased (make changed) new after

/-- Every way to drop a value in what the phrase was read as is one to leave out tokens. Where it
has been read before the phrase begins, it is dropped there, and no tokens are left out here. -/
def Phrase.Sites (value : Located) (note : Span) (before after : List Token) : Phrase → Prop
  | .expression expr => SitesOf value note before after .expression expr
  | .chain level expr => SitesOf value note before after (.chain level) expr
  | .chainFrom level left expr => ∀ changed, Drops value note expr changed →
    (∃ other, Drops value note left other ∧
      ReadsErased (.chainFrom level other changed) before after) ∨
    Site value note before after fun new => ReadsErased (.chainFrom level left changed) new after
  | .comparison expr => SitesOf value note before after .comparison expr
  | .power expr => SitesOf value note before after .power expr
  | .unary expr => SitesOf value note before after .unary expr
  | .call expr => SitesOf value note before after .call expr
  | .calls callee expr => ∀ changed, Drops value note expr changed →
    (∃ other, Drops value note callee other ∧ ReadsErased (.calls other changed) before after) ∨
    Site value note before after fun new => ReadsErased (.calls callee changed) new after
  | .atom expr => SitesOf value note before after .atom expr
  | .named name span expr => SitesOf value note before after (.named name span) expr
  | .enumeration closing elements last =>
    SitesAmong value note before after (.enumeration closing · last) elements
  | .items closing elements last =>
    SitesAmong value note before after (.items closing · last) elements
  | .statement expr => SitesOf value note before after .statement expr
  | .statementList closing elements =>
    SitesAmong value note before after (.statementList closing) elements
  | .statements closing expr => SitesOf value note before after (.statements closing) expr
  | .body closing expr block => SitesOf value note before after (.body closing · block) expr
  | .step (some expr) => SitesOf value note before after (fun step => .step (some step)) expr
  | .branches alternatives stop => ∀ changed, BranchDrops value note alternatives changed →
    Site value note before after fun new => ReadsErased (.branches changed stop) new after
  | .functionName _ | .parameters .. | .names .. | .ending .. | .step none => True

theorem sites_operand {level : Level} {expr : Located} :
    (Phrase.operand level expr).Sites value note before after ↔
      SitesOf value note before after (Phrase.operand level) expr := by
  cases level <;> rfl

/-- A construct ends where it did if its body stays in its place. -/
theorem Reads.ending_of_note {body changed : Located} {block : Bool} {stop : Span}
    (reads : Reads (.ending body block stop) before after) (same : changed.note = body.note) :
    Reads (.ending changed block stop) before after := by
  cases reads with
  | endOfBlock => exact .endOfBlock
  | endOfLine =>
    rw [← same]
    exact .endOfLine

open Respanning (ahead_map targetAhead_map dropWhile_map phrase_operand)

theorem Reads.sites {phrase : Phrase} (reads : Reads phrase before after) :
    phrase.Sites value note before after := by
  induction reads with
  | declaration _ ih =>
    intro changed dropped
    cases dropped with
    | assign inside =>
      refine ((ih _ inside).front [_, _, _]).mono ?_
      rintro _ - ⟨rest, rfl, assigned⟩
      rw [← inside.note_eq]
      simp only [ReadsErased, Respanning.phrase, Expr.mapNotes, ← Respanning.through_span,
        Respanning.span_note]
      exact .declaration assigned
  | assignment _ ih =>
    intro changed dropped
    cases dropped with
    | assign inside =>
      refine ((ih _ inside).front [_, _]).mono ?_
      rintro _ - ⟨rest, rfl, assigned⟩
      rw [← inside.note_eq]
      simp only [ReadsErased, Respanning.phrase, Expr.mapNotes, ← Respanning.through_span,
        Respanning.span_note]
      exact .assignment assigned
  | connection noWord noTarget _ ih =>
    intro changed dropped
    refine (ih _ dropped).mono fun new same connected => ?_
    exact .connection ((ahead_map _ _).trans (same.ahead_eq.trans noWord))
      ((targetAhead_map _ _).trans (same.targetAhead_eq.trans noTarget)) connected
  | chain start more ihStart ihMore =>
    intro changed dropped
    obtain ⟨other, inside, continued⟩ | site := ihMore _ dropped
    · refine ((sites_operand.mp ihStart _ inside).widen more.suffix).mono fun new _ started => ?_
      exact .chain (phrase_operand .. ▸ started) continued
    · refine (site.behind start).mono ?_
      rintro _ - ⟨newMiddle, continued, started⟩
      exact .chain (phrase_operand .. ▸ started) continued
  | chainEnd noOperator =>
    exact fun changed dropped =>
      .inl ⟨changed, dropped, .chainEnd ((ahead_map _ _).trans noOperator)⟩
  | chainMore operator admitted operand more ihOperand ihMore =>
    intro changed dropped
    obtain ⟨other, inside, continued⟩ | site := ihMore _ dropped
    · cases inside with
      | left inside =>
        rw [← inside.note_eq] at continued
        simp only [ReadsErased, Respanning.phrase, Expr.mapNotes, ← Respanning.through_span,
          Respanning.span_note] at continued
        exact .inl ⟨_, inside,
          .chainMore operator admitted (phrase_operand .. ▸ operand.erased) continued⟩
      | right inside =>
        refine .inr ((((sites_operand.mp ihOperand _ inside).widen more.suffix).front [_]).mono ?_)
        rintro _ - ⟨rest, rfl, operated⟩
        rw [← inside.note_eq] at continued
        simp only [ReadsErased, Respanning.phrase, Expr.mapNotes, ← Respanning.through_span,
          Respanning.span_note] at continued
        exact .chainMore operator admitted (phrase_operand .. ▸ operated) continued
    · refine .inr (((site.behind operand).front [_]).mono ?_)
      rintro _ - ⟨rest, rfl, newMiddle, continued, operated⟩
      simp only [ReadsErased, Respanning.phrase, Expr.mapNotes, ← Respanning.through_span,
        Respanning.span_note] at continued
      exact .chainMore operator admitted (phrase_operand .. ▸ operated) continued
  | negation _ ih =>
    intro changed dropped
    cases dropped with
    | unary inside =>
      refine ((ih _ inside).front [_]).mono ?_
      rintro _ - ⟨rest, rfl, negated⟩
      rw [← inside.note_eq]
      simp only [ReadsErased, Respanning.phrase, Expr.mapNotes, ← Respanning.through_span,
        Respanning.span_note]
      exact .negation negated
  | comparison noWord _ ih =>
    intro changed dropped
    refine (ih _ dropped).mono fun new same compared => ?_
    exact .comparison ((ahead_map _ _).trans (same.ahead_eq.trans noWord)) compared
  | base _ noExponent ih =>
    exact fun changed dropped => (ih _ dropped).mono fun new _ start =>
      .base start ((ahead_map _ _).trans noExponent)
  | power start raised ihStart ihRaised =>
    intro changed dropped
    cases dropped with
    | left inside =>
      refine ((ihStart _ inside).past raised.suffix).mono ?_
      intro new _ started
      rw [← inside.note_eq]
      simp only [ReadsErased, Respanning.phrase, Expr.mapNotes, ← Respanning.through_span,
        Respanning.span_note]
      exact .power started raised.erased
    | right inside =>
      refine ((((ihRaised _ inside).front [_]).behind start)).mono ?_
      rintro _ - ⟨_, ⟨rest, rfl, again⟩, started⟩
      rw [← inside.note_eq]
      simp only [ReadsErased, Respanning.phrase, Expr.mapNotes, ← Respanning.through_span,
        Respanning.span_note]
      exact .power started again
  | plus _ ih =>
    intro changed dropped
    cases dropped with
    | unary inside =>
      refine ((ih _ inside).front [_]).mono ?_
      rintro _ - ⟨rest, rfl, signed⟩
      rw [← inside.note_eq]
      simp only [ReadsErased, Respanning.phrase, Expr.mapNotes, ← Respanning.through_span,
        Respanning.span_note]
      exact .plus signed
  | minus noLargest _ ih =>
    intro changed dropped
    cases dropped with
    | unary inside =>
      have marked := (ih _ inside).mono (Q := fun new => _ ∧ _) fun new same signed =>
        ⟨same.ahead_eq.trans noLargest, signed⟩
      refine (marked.front [_]).mono ?_
      rintro _ - ⟨rest, rfl, absent, signed⟩
      rw [← inside.note_eq]
      simp only [ReadsErased, Respanning.phrase, Expr.mapNotes, ← Respanning.through_span,
        Respanning.span_note]
      exact .minus ((ahead_map _ _).trans absent) signed
  | unsigned noPlus noMinus _ ih =>
    intro changed dropped
    refine (ih _ dropped).mono fun new same called => ?_
    exact .unsigned ((ahead_map _ _).trans (same.ahead_eq.trans noPlus))
      ((ahead_map _ _).trans (same.ahead_eq.trans noMinus)) called
  | call start more ihStart ihMore =>
    intro changed dropped
    obtain ⟨other, inside, continued⟩ | site := ihMore _ dropped
    · exact ((ihStart _ inside).widen more.suffix).mono fun new _ started => .call started continued
    · refine (site.behind start).mono ?_
      rintro _ - ⟨newMiddle, continued, started⟩
      exact .call started continued
  | callsEnd noList =>
    exact fun changed dropped => .inl ⟨changed, dropped, .callsEnd ((ahead_map _ _).trans noList)⟩
  | callsMore passed more ihPassed ihMore =>
    intro changed dropped
    obtain ⟨other, inside, continued⟩ | site := ihMore _ dropped
    · cases inside with
      | callee inside =>
        rw [← inside.note_eq] at continued
        simp only [ReadsErased, Respanning.phrase, Expr.mapNotes, ← Respanning.through_span,
          Respanning.span_note, Expr.mapAllNotes_eq_map] at continued
        exact .inl ⟨_, inside, .callsMore passed.erased continued⟩
      | arguments inside =>
        refine .inr ((((ihPassed _ inside).widen more.suffix).front [_]).mono ?_)
        rintro _ - ⟨rest, rfl, again⟩
        simp only [ReadsErased, Respanning.phrase, Expr.mapNotes, ← Respanning.through_span,
          Respanning.span_note, Expr.mapAllNotes_eq_map] at continued
        exact .callsMore again continued
    · refine .inr (((site.behind passed).front [_]).mono ?_)
      rintro _ - ⟨rest, rfl, newMiddle, continued, again⟩
      simp only [ReadsErased, Respanning.phrase, Expr.mapNotes, ← Respanning.through_span,
        Respanning.span_note, Expr.mapAllNotes_eq_map] at continued
      exact .callsMore again continued
  | named _ ih =>
    intro changed dropped
    refine ((ih _ dropped).front [_]).mono ?_
    rintro _ - ⟨rest, rfl, continued⟩
    exact .named continued
  | memberAssignment _ ih =>
    intro changed dropped
    cases dropped with
    | assignMember inside =>
      refine ((ih _ inside).front [_, _, _]).mono ?_
      rintro _ - ⟨rest, rfl, assigned⟩
      rw [← inside.note_eq]
      simp only [ReadsErased, Respanning.phrase, Expr.mapNotes, ← Respanning.through_span,
        Respanning.span_note]
      exact .memberAssignment assigned
  | parens _ ih =>
    intro changed dropped
    refine (((ih _ dropped).past (List.suffix_refl _)).front [_]).mono ?_
    rintro _ - ⟨rest, rfl, inner⟩
    exact .parens inner
  | list _ ih =>
    intro changed dropped
    cases dropped with
    | list inside =>
      refine ((ih _ inside).front [_]).mono ?_
      rintro _ - ⟨rest, rfl, listed⟩
      simp only [ReadsErased, Respanning.phrase, Expr.mapNotes, ← Respanning.through_span,
        Expr.mapAllNotes_eq_map]
      exact .list listed
  | choice _ ih =>
    intro changed dropped
    cases dropped with
    | choice inside =>
      refine ((ih _ inside).front [_]).mono ?_
      rintro _ - ⟨rest, rfl, chosen⟩
      simp only [ReadsErased, Respanning.phrase, Expr.mapNotes, ← Respanning.through_span]
      exact .choice chosen
  | forLoop started stopped stepped repeated ended ihStart ihStop ihStep ihBody =>
    have behindBody := ended.suffix
    have behindStep := behindBody.trans repeated.suffix
    have behindStop := behindStep.trans stepped.suffix_behind
    have behindStart := behindStop.trans stopped.suffix
    intro changed dropped
    cases dropped with
    | start inside =>
      refine ((ihStart _ inside).past behindStart |>.front [_, _, _]).mono ?_
      rintro _ - ⟨rest, rfl, again⟩
      simp only [ReadsErased, Respanning.phrase, Expr.mapNotes_forLoop, ← Respanning.through_span]
      exact .forLoop again stopped.erased stepped.erased repeated.erased ended.erased
    | stop inside =>
      refine ((ihStop _ inside).widen behindStop |>.front [_] |>.behind started
        |>.front [_, _, _]).mono ?_
      rintro _ - ⟨_, rfl, _, ⟨rest, rfl, again⟩, starts⟩
      simp only [ReadsErased, Respanning.phrase, Expr.mapNotes_forLoop, ← Respanning.through_span]
      exact .forLoop starts again stepped.erased repeated.erased ended.erased
    | step inside =>
      refine ((ihStep _ inside).past behindStep |>.behind stopped |>.front [_] |>.behind started
        |>.front [_, _, _]).mono ?_
      rintro _ - ⟨_, rfl, _, ⟨_, rfl, _, again, stops⟩, starts⟩
      simp only [ReadsErased, Respanning.phrase, Expr.mapNotes_forLoop, ← Respanning.through_span]
      exact .forLoop starts stops again repeated.erased ended.erased
    | repeated inside =>
      refine ((ihBody _ inside).widen behindBody |>.front [_] |>.behind stepped |>.behind stopped
        |>.front [_] |>.behind started |>.front [_, _, _]).mono ?_
      rintro _ - ⟨_, rfl, _, ⟨_, rfl, _, ⟨_, ⟨_, rfl, again⟩, steps⟩, stops⟩, starts⟩
      simp only [ReadsErased, Respanning.phrase, Expr.mapNotes_forLoop, ← Respanning.through_span]
      exact .forLoop starts stops steps again (ended.ending_of_note inside.note_eq).erased
  | stepSome _ ih =>
    intro changed inside
    refine ((ih _ inside).front [_]).mono ?_
    rintro _ - ⟨rest, rfl, again⟩
    exact .stepSome again
  | whileLoop conditional repeated ended ihCondition ihBody =>
    have behindCondition := ended.suffix.trans repeated.suffix
    intro changed dropped
    cases dropped with
    | condition inside =>
      refine ((ihCondition _ inside).past behindCondition |>.front [_]).mono ?_
      rintro _ - ⟨rest, rfl, again⟩
      simp only [ReadsErased, Respanning.phrase, Expr.mapNotes, ← Respanning.through_span]
      exact .whileLoop again repeated.erased ended.erased
    | body inside =>
      refine ((ihBody _ inside).widen ended.suffix |>.front [_] |>.behind conditional
        |>.front [_]).mono ?_
      rintro _ - ⟨_, rfl, _, ⟨rest, rfl, again⟩, conditions⟩
      simp only [ReadsErased, Respanning.phrase, Expr.mapNotes, ← Respanning.through_span]
      exact .whileLoop conditions again (ended.ending_of_note inside.note_eq).erased
  | functionOf called passed _ _ _ ih =>
    intro changed dropped
    cases dropped with
    | function inside =>
      refine ((ih _ inside).front [_] |>.behind passed |>.front [_] |>.behind called
        |>.front [_]).mono ?_
      rintro _ - ⟨_, rfl, _, ⟨_, rfl, _, ⟨rest, rfl, again⟩, passes⟩, calls⟩
      rw [← inside.note_eq]
      simp only [ReadsErased, Respanning.phrase, Expr.mapNotes, ← Respanning.through_span,
        Respanning.span_note]
      exact .functionOf calls passes again
  | functionBlock called passed newLine _ _ _ ih =>
    intro changed dropped
    cases dropped with
    | function inside =>
      have marked := ((ih _ inside).past (List.suffix_refl _)).mono (Q := fun new => _ ∧ _)
        fun new same again => ⟨same.ahead_eq.trans newLine, again⟩
      refine (marked.behind passed |>.front [_] |>.behind called |>.front [_]).mono ?_
      rintro _ - ⟨_, rfl, _, ⟨_, rfl, rest, ⟨newLines, again⟩, passes⟩, calls⟩
      simp only [ReadsErased, Respanning.phrase, Expr.mapNotes, ← Respanning.through_span]
      exact .functionBlock calls passes ((ahead_map _ _).trans newLines) again
  | template newLine _ ih =>
    intro changed dropped
    cases dropped with
    | template inside =>
      have marked := ((ih _ inside).past (List.suffix_refl _)).mono (Q := fun new => _ ∧ _)
        fun new same again => ⟨same.ahead_eq.trans newLine, again⟩
      refine (marked.front [_, _]).mono ?_
      rintro _ - ⟨rest, rfl, newLines, again⟩
      simp only [ReadsErased, Respanning.phrase, Expr.mapNotes, ← Respanning.through_span]
      exact .template ((ahead_map _ _).trans newLines) again
  | elements noClosing _ ih =>
    intro changed dropped
    exact (ih _ dropped).mono fun new same again =>
      .elements ((ahead_map _ _).trans (same.ahead_eq.trans noClosing)) again
  | lastItem other _ ih =>
    intro changed dropped
    cases dropped with
    | head inside =>
      exact ((ih _ inside).past (List.suffix_refl _)).mono fun new _ again =>
        .lastItem other again
    | tail inside => cases inside
  | moreItems item more ihItem ihMore =>
    intro changed dropped
    cases dropped with
    | head inside =>
      exact ((ihItem _ inside).past more.suffix).mono
        fun new _ again => .moreItems again more.erased
    | tail inside =>
      refine (((ihMore _ inside).front [_]).behind item).mono ?_
      rintro _ - ⟨_, ⟨rest, rfl, again⟩, first⟩
      exact .moreItems first again
  | @returnSome wordSpan inner rest after hasValue returned ih =>
    intro changed dropped
    cases dropped with
    | here =>
      obtain ⟨taken, rfl, -⟩ := returned.isLocal
      exact ⟨[], wordSpan, taken, after, rfl, returned, rfl, List.suffix_refl _, fun ends =>
        .returnNone ((ahead_map _ _).trans ends)⟩
    | returnWith inside =>
      have marked := (ih _ inside).mono (Q := fun new => _ ∧ _) fun new same again =>
        ⟨same.ahead_eq.trans hasValue, again⟩
      refine (marked.front [_]).mono ?_
      rintro _ - ⟨rest, rfl, present, again⟩
      rw [← inside.note_eq]
      simp only [ReadsErased, Respanning.phrase, Expr.mapNotes, ← Respanning.through_span,
        Respanning.span_note]
      exact .returnSome ((ahead_map _ _).trans present) again
  | statement noJump _ ih =>
    intro changed dropped
    exact (ih _ dropped).mono fun new same again =>
      .statement ((ahead_map _ _).trans (same.ahead_eq.trans noJump)) again
  | lastStatement opened _ noSeparator ih =>
    intro changed dropped
    cases dropped with
    | head inside =>
      exact (ih _ inside).mono fun new same again =>
        .lastStatement ((ahead_map _ _).trans (same.ahead_eq.trans opened)) again
          ((ahead_map _ _).trans noSeparator)
    | tail inside => cases inside
  | moreStatements opened first separated more ihFirst ihMore =>
    intro changed dropped
    cases dropped with
    | head inside =>
      refine ((ihFirst _ inside).widen (more.suffix.trans (List.dropWhile_suffix _))).mono ?_
      intro new same again
      exact .moreStatements ((ahead_map _ _).trans (same.ahead_eq.trans opened)) again
        ((ahead_map _ _).trans separated) (dropWhile_map _ _ ▸ more.erased)
    | tail inside =>
      have marked := (ihMore _ inside).skip.mono (Q := fun new => _ ∧ _) fun new same again =>
        ⟨same.ahead_eq.trans separated, again⟩
      refine (marked.behind first).mono ?_
      rintro _ same ⟨_, ⟨separates, again⟩, stated⟩
      exact .moreStatements ((ahead_map _ _).trans (same.ahead_eq.trans opened)) stated
        ((ahead_map _ _).trans separates) (dropWhile_map _ _ ▸ again)
  | @statements closing elements next before rest after skipped _ ih =>
    intro changed dropped
    cases dropped with
    | @list _ others _ inside =>
      rw [← skipped] at ih
      refine (ih _ inside).skip.mono fun new same listed => ?_
      obtain ⟨first, remaining, shape⟩ := List.exists_cons_of_ne_nil same.dropWhile_ne_nil
      rw [shape] at listed
      have place : Respanning.erasing.span (spanOf elements next.span) = _ :=
        (Respanning.erasing.spanOf_map others first.span).symm
      simp only [ReadsErased, Respanning.phrase, Expr.mapNotes, Expr.mapAllNotes_eq_map, place]
      exact .statements ((dropWhile_map _ _).trans (congrArg _ shape)) listed
  | block newLine _ ih =>
    intro changed dropped
    exact (ih _ dropped).mono fun new same again =>
      .block ((ahead_map _ _).trans (same.ahead_eq.trans newLine)) again
  | single sameLine _ ih =>
    intro changed dropped
    exact (ih _ dropped).mono fun new same again =>
      .single ((ahead_map _ _).trans (same.ahead_eq.trans sameLine)) again
  | elif conditional chosen more ihCondition ihBody ihMore =>
    intro changed dropped
    have behindBody := more.suffix
    have behindCondition := behindBody.trans chosen.suffix_behind
    cases dropped with
    | condition inside =>
      exact ((ihCondition _ inside).past behindCondition).mono fun new _ again =>
        .elif again chosen.erased more.erased
    | body inside =>
      refine ((ihBody _ inside).past behindBody |>.front [_] |>.behind conditional).mono ?_
      rintro _ - ⟨_, ⟨rest, rfl, again⟩, conditions⟩
      exact .elif conditions again more.erased
    | rest inside =>
      refine ((ihMore _ inside).front [_] |>.behind chosen |>.front [_]
        |>.behind conditional).mono ?_
      rintro _ - ⟨_, ⟨_, rfl, _, ⟨rest, rfl, again⟩, chooses⟩, conditions⟩
      exact .elif conditions chooses again
  | otherwise conditional chosen alternative ended ihCondition ihBody ihOther =>
    intro changed dropped
    have behindOther := ended.suffix
    have behindBody := behindOther.trans alternative.suffix
    have behindCondition := behindBody.trans chosen.suffix_behind
    cases dropped with
    | condition inside =>
      exact ((ihCondition _ inside).past behindCondition).mono fun new _ again =>
        .otherwise again chosen.erased alternative.erased ended.erased
    | body inside =>
      refine ((ihBody _ inside).past behindBody |>.front [_] |>.behind conditional).mono ?_
      rintro _ - ⟨_, ⟨rest, rfl, again⟩, conditions⟩
      exact .otherwise conditions again alternative.erased ended.erased
    | rest inside =>
      cases inside with
      | otherwise inside =>
        refine ((ihOther _ inside).widen behindOther |>.front [_] |>.behind chosen |>.front [_]
          |>.behind conditional).mono ?_
        rintro _ - ⟨_, ⟨_, rfl, _, ⟨rest, rfl, again⟩, chooses⟩, conditions⟩
        exact .otherwise conditions chooses again (ended.ending_of_note inside.note_eq).erased
  | lastBranch conditional chosen present noElif noElse ended ihCondition ihBody =>
    intro changed dropped
    have behindCondition := ended.suffix.trans chosen.suffix
    cases dropped with
    | condition inside =>
      exact ((ihCondition _ inside).past behindCondition).mono fun new _ again =>
        .lastBranch again chosen.erased (by simpa using present) ((ahead_map _ _).trans noElif)
          ((ahead_map _ _).trans noElse) ended.erased
    | body inside =>
      refine ((ihBody _ inside).widen ended.suffix |>.front [_] |>.behind conditional).mono ?_
      rintro _ - ⟨_, ⟨rest, rfl, again⟩, conditions⟩
      exact .lastBranch conditions again (by simpa using present) ((ahead_map _ _).trans noElif)
        ((ahead_map _ _).trans noElse) (ended.ending_of_note inside.note_eq).erased
    | rest inside => cases inside
  | smallest | int | float | str | «variable» | member | instantiate | returnNone | continueLoop
  | breakLoop | noElements | noStatements =>
    intro changed dropped
    cases dropped
  | stepNone | noName | name | noParameters | parameters | lastName | moreNames | endOfBlock
  | endOfLine => trivial

/-! ## Programs -/

/-- Without its value, a `return` counts only where the token behind ends a statement. -/
theorem bareReturns_drop (front : List Token) (span : Span) {taken behind : List Token}
    (valued : Reads (.expression value) (taken ++ behind) behind) :
    bareReturns (front ++ ⟨.keyword .returnWord, span⟩ :: (taken ++ behind)) +
        (if ahead endsStatement behind then 1 else 0) =
      bareReturns (front ++ ⟨.keyword .returnWord, span⟩ :: behind) + value.bareReturns := by
  have goesOn : ahead endsStatement (taken ++ behind) = false := (statement_of_expression valued).2
  have counted := valued.bareReturns_eq
  simp only [Phrase.bareReturnsTaken, Phrase.bareReturns] at counted
  rw [bareReturns_append front _ (taken ++ behind), bareReturns_append front _ behind]
  simp only [bareReturns_cons, goesOn, Kind.isKeyword, decide_true, Bool.true_and,
    Bool.false_eq_true, if_false]
  omega

/-- If a program without the value of a `return` has a `return` without a value instead, the token
behind the value ends a statement. -/
theorem endsStatement_of_bare {front taken behind rest : List Token} {span last : Span}
    {root changed again : Located}
    (reads : Reads (.statements (fun _ => false) root)
      (front ++ ⟨.keyword .returnWord, span⟩ :: (taken ++ behind)) (⟨.endOfInput, last⟩ :: rest))
    (valued : Reads (.expression value) (taken ++ behind) behind)
    (later : ⟨.endOfInput, last⟩ :: rest <:+ behind) (dropped : Drops value note root changed)
    (reparsed : parse (front ++ ⟨.keyword .returnWord, span⟩ :: behind) = .ok again)
    (same : again.bare = changed.bare) : ahead endsStatement behind = true := by
  obtain ⟨final, others, rereads⟩ := parse_eq_ok_iff.mp reparsed
  have counts := reads.bareReturns_eq
  have dropCount := bareReturns_drop front span valued
  have changes := dropped.bareReturns_eq
  rw [← Expr.bareReturns_eq_of_bare same] at changes
  obtain ⟨more, rfl⟩ := later
  have unended : ends (front ++ ⟨.keyword .returnWord, span⟩ :: more) = 0 := by
    have kept := reads.ends_eq
    simp only [ends_append, ends_cons] at kept ⊢
    omega
  rw [← List.cons_append, ← List.append_assoc] at rereads
  obtain ⟨rfl, rfl, -⟩ := rereads.up_to_end unended
  have recounts := rereads.bareReturns_eq
  rw [List.append_assoc, List.cons_append] at recounts
  simp only [Phrase.bareReturnsTaken, Phrase.bareReturns] at counts recounts
  cases ends : ahead endsStatement (more ++ ⟨.endOfInput, final⟩ :: others) with
  | true => rfl
  | false =>
    rw [ends, if_neg Bool.false_ne_true] at dropCount
    omega

/-- The value of a `return` stands behind its word. The tokens without the value are the same
program without it, apart from the places of things, if and only if the token behind it ends a
statement. -/
theorem parse_drop_value {tokens : List Token} {root changed : Located}
    (parsed : parse tokens = .ok root) (dropped : Drops value note root changed) :
    ∃ front span taken behind,
      tokens = front ++ ⟨.keyword .returnWord, span⟩ :: (taken ++ behind) ∧
      Reads (.expression value) (taken ++ behind) behind ∧ note = span.through value.note ∧
      ((∃ again, parse (front ++ ⟨.keyword .returnWord, span⟩ :: behind) = .ok again ∧
        again.bare = changed.bare) ↔ ahead endsStatement behind = true) := by
  obtain ⟨last, rest, reads⟩ := parse_eq_ok_iff.mp parsed
  obtain ⟨front, span, taken, behind, rfl, valued, place, later, again⟩ := reads.sites _ dropped
  refine ⟨front, span, taken, behind, rfl, valued, place, ?_, fun ends => ?_⟩
  · rintro ⟨other, accepted, bare⟩
    exact endsStatement_of_bare reads valued later dropped accepted bare
  · have same : kindsOf (front ++ ⟨.keyword .returnWord, span⟩ :: behind) =
        kindsOf ((front ++ ⟨.keyword .returnWord, span⟩ :: behind).map
          Respanning.erasing.token) := by
      rw [kindsOf, kindsOf, List.map_map]
      rfl
    obtain ⟨other, accepted, bare⟩ := exists_parse_of_kindsOf same (parse_eq_ok (again ends))
    exact ⟨other, accepted, bare.trans (Respanning.bare_erasing changed)⟩

open SyntaxError (nowhere)

/-- A choice whose only alternative is a `return`. -/
def choiceOf (value : Option Located) : Located :=
  .choice (.orElse (.read "x" nowhere) (.returnWith value nowhere) false
    .done) nowhere

/-- A program that is a loop with one statement in it. -/
def loopOf (statement : Located) : Located :=
  .list [.whileLoop (.read "go" nowhere) (.list [statement] nowhere) true
    nowhere] nowhere

/-- A value in parentheses in the body of a loop is left out together with them. -/
theorem parse_drop_value_loop : ∃ tokens root value changed note,
    kindsOf tokens = [.keyword .whileWord, .identifier "go", .keyword .thenWord, .newline,
      .keyword .ifWord, .identifier "x", .keyword .thenWord, .keyword .returnWord,
      .mark .openParen, .identifier "x", .mark .closeParen, .newline, .keyword .endWord,
      .endOfInput] ∧
    parse tokens = .ok root ∧ Drops value note root changed ∧
    ∃ front span taken behind,
      tokens = front ++ ⟨.keyword .returnWord, span⟩ :: (taken ++ behind) ∧
      Reads (.expression value) (taken ++ behind) behind ∧ note = span.through value.note ∧
      ((∃ again, parse (front ++ ⟨.keyword .returnWord, span⟩ :: behind) = .ok again ∧
        again.bare = changed.bare) ↔ ahead endsStatement behind = true) := by
  have parsed : parse ([.keyword .whileWord, .identifier "go", .keyword .thenWord, .newline,
      .keyword .ifWord, .identifier "x", .keyword .thenWord, .keyword .returnWord,
      .mark .openParen, .identifier "x", .mark .closeParen, .newline, .keyword .endWord,
      .endOfInput].map supplied) =
        .ok (loopOf (choiceOf (some (.read "x" nowhere)))) := rfl
  have dropped : Drops (.read "x" nowhere) nowhere
      (loopOf (choiceOf (some (.read "x" nowhere)))) (loopOf (choiceOf none)) :=
    .list (.head (.body (.list (.head (.choice (.body .here))))))
  exact ⟨_, _, _, _, _, rfl, parsed, dropped, parse_drop_value parsed dropped⟩

/-- In front of a closing parenthesis, a `return` cannot do without its value. -/
theorem parse_drop_value_parens : ∃ front span taken behind root value changed,
    kindsOf front = [.mark .openParen, .keyword .ifWord, .identifier "x", .keyword .thenWord] ∧
    kindsOf taken = [.identifier "x"] ∧ kindsOf behind = [.mark .closeParen, .endOfInput] ∧
    parse (front ++ ⟨.keyword .returnWord, span⟩ :: (taken ++ behind)) = .ok root ∧
    Drops value (span.through value.note) root changed ∧
    Reads (.expression value) (taken ++ behind) behind ∧
    parse (front ++ ⟨.keyword .returnWord, span⟩ :: behind) =
      .error ⟨.unexpected (.mark .closeParen), nowhere⟩ := by
  refine ⟨[.mark .openParen, .keyword .ifWord, .identifier "x", .keyword .thenWord].map supplied,
    nowhere, [supplied (.identifier "x")],
    [supplied (.mark .closeParen), supplied .endOfInput],
    .list [choiceOf (some (.read "x" nowhere))] nowhere,
    .read "x" nowhere, .list [choiceOf none] nowhere, rfl, rfl, rfl, rfl,
    .list (.head (.choice (.body .here))), reads_name (show pullAhead _ = 0 from rfl), rfl⟩

end Grammar

end Quill
