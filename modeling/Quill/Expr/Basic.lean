import Quill.Operator

/-!
# Expressions

The language has no statements apart from its expressions: loops, definitions and `return` are
expressions too, and each has a value or ends the evaluation around it. An expression carries a
note at every node. The notes of a parsed program are the spans that its nodes were read from;
replacing all of them by one value compares programs apart from where they were written.
-/

namespace Quill

/-- A constant that is written down as such. -/
inductive Literal where
  | int (value : Int64)
  | float (value : Float)
  | str (value : String)
deriving Repr

mutual

/-- An expression with a note at every node. -/
inductive Expr (Note : Type) where
  /-- A constant. -/
  | literal (value : Literal) (note : Note)
  /-- An operator in front of an operand. -/
  | unary (op : UnaryOp) (operand : Expr Note) (note : Note)
  /-- An operator between two operands. -/
  | binary (op : BinaryOp) (left right : Expr Note) (note : Note)
  /-- A list, or the statements of a program or of a block. -/
  | list (elements : List (Expr Note)) (note : Note)
  /-- Alternatives that are tried in order. -/
  | choice (branches : Branches Note) (note : Note)
  /-- Counts a variable from `start` to just before `stop`. -/
  | forLoop (counter : String) (start stop : Expr Note) (step : Option (Expr Note))
      (body : Expr Note) (block : Bool) (note : Note)
  /-- Repeats the body as long as the condition is true. -/
  | whileLoop (condition body : Expr Note) (block : Bool) (note : Note)
  /-- Reads a variable. -/
  | read (name : String) (note : Note)
  /-- Assigns to a variable. -/
  | assign (name : String) (value : Expr Note) (note : Note)
  /-- Reads a member of an object instance. -/
  | member (object name : String) (note : Note)
  /-- Assigns to a member of an object instance. -/
  | assignMember (object name : String) (value : Expr Note) (note : Note)
  /-- Defines a function. It returns the value of its body by itself if it is `valued`. -/
  | function (name : Option String) (parameters : List String) (body : Expr Note) (valued : Bool)
      (note : Note)
  /-- Calls a function. -/
  | call (callee : Expr Note) (arguments : List (Expr Note)) (note : Note)
  /-- Defines a template of objects. -/
  | template (name : String) (body : Expr Note) (note : Note)
  /-- Makes an instance of a template. -/
  | instantiate (name : String) (note : Note)
  /-- Ends the function around it. -/
  | returnWith (value : Option (Expr Note)) (note : Note)
  /-- Ends the loop around it. -/
  | breakLoop (note : Note)
  /-- Ends the current round of the loop around it. -/
  | continueLoop (note : Note)

/-- The alternatives of a choice. A body that is a `block` has no value of its own. -/
inductive Branches (Note : Type) where
  /-- No alternative is left. -/
  | done
  /-- The alternative without a condition. -/
  | otherwise (body : Expr Note) (block : Bool)
  /-- An alternative under a condition, and those that are tried after it. -/
  | orElse (condition body : Expr Note) (block : Bool) (rest : Branches Note)

end

namespace Expr

variable {Note : Type}

/-- The note of the outermost node. -/
def note : Expr Note → Note
  | literal _ note | unary _ _ note | binary _ _ _ note | list _ note | choice _ note
  | forLoop _ _ _ _ _ _ note | whileLoop _ _ _ note | read _ note | assign _ _ note
  | member _ _ note | assignMember _ _ _ note | function _ _ _ _ note | call _ _ note
  | template _ _ note | instantiate _ note | returnWith _ note | breakLoop note
  | continueLoop note => note

end Expr

mutual

/-- Changes every note of an expression and nothing else. -/
def Expr.mapNotes {Note Other : Type} (f : Note → Other) : Expr Note → Expr Other
  | .literal value note => .literal value (f note)
  | .unary op operand note => .unary op (operand.mapNotes f) (f note)
  | .binary op left right note => .binary op (left.mapNotes f) (right.mapNotes f) (f note)
  | .list elements note => .list (Expr.mapAllNotes f elements) (f note)
  | .choice branches note => .choice (branches.mapNotes f) (f note)
  | .forLoop name start stop none body block note =>
    .forLoop name (start.mapNotes f) (stop.mapNotes f) none (body.mapNotes f) block (f note)
  | .forLoop name start stop (some step) body block note =>
    .forLoop name (start.mapNotes f) (stop.mapNotes f) (some (step.mapNotes f)) (body.mapNotes f)
      block (f note)
  | .whileLoop condition body block note =>
    .whileLoop (condition.mapNotes f) (body.mapNotes f) block (f note)
  | .read name note => .read name (f note)
  | .assign name value note => .assign name (value.mapNotes f) (f note)
  | .member object name note => .member object name (f note)
  | .assignMember object name value note => .assignMember object name (value.mapNotes f) (f note)
  | .function name parameters body valued note =>
    .function name parameters (body.mapNotes f) valued (f note)
  | .call callee arguments note =>
    .call (callee.mapNotes f) (Expr.mapAllNotes f arguments) (f note)
  | .template name body note => .template name (body.mapNotes f) (f note)
  | .instantiate name note => .instantiate name (f note)
  | .returnWith none note => .returnWith none (f note)
  | .returnWith (some value) note => .returnWith (some (value.mapNotes f)) (f note)
  | .breakLoop note => .breakLoop (f note)
  | .continueLoop note => .continueLoop (f note)

/-- Changes every note of every expression of a list. -/
def Expr.mapAllNotes {Note Other : Type} (f : Note → Other) :
    List (Expr Note) → List (Expr Other)
  | [] => []
  | element :: rest => element.mapNotes f :: Expr.mapAllNotes f rest

/-- Changes every note of all alternatives. -/
def Branches.mapNotes {Note Other : Type} (f : Note → Other) : Branches Note → Branches Other
  | .done => .done
  | .otherwise body block => .otherwise (body.mapNotes f) block
  | .orElse condition body block rest =>
    .orElse (condition.mapNotes f) (body.mapNotes f) block (rest.mapNotes f)

end

namespace Expr

variable {Note : Type}

/-- The expression without any record of where it was written. -/
def bare (expr : Expr Note) : Expr Unit :=
  expr.mapNotes fun _ => ()

/-- The note of a changed expression is the changed note. -/
theorem note_mapNotes {Other : Type} (f : Note → Other) (expr : Expr Note) :
    (expr.mapNotes f).note = f expr.note := by
  unfold mapNotes
  split <;> rfl

/-- The elements of a list are changed one by one. -/
theorem mapAllNotes_eq_map {Other : Type} (f : Note → Other) (elements : List (Expr Note)) :
    mapAllNotes f elements = elements.map (·.mapNotes f) := by
  induction elements with
  | nil => rfl
  | cons element rest ih => simp [mapAllNotes, ih]

/-- A loop that counts may have a step or not. -/
theorem mapNotes_forLoop {Other : Type} (f : Note → Other) (counter : String)
    (start stop : Expr Note) (step : Option (Expr Note)) (body : Expr Note) (block : Bool)
    (note : Note) :
    (forLoop counter start stop step body block note).mapNotes f =
      .forLoop counter (start.mapNotes f) (stop.mapNotes f) (step.map (·.mapNotes f))
        (body.mapNotes f) block (f note) := by
  cases step <;> rfl

end Expr

end Quill
