import Quill.Expr.Basic
import Quill.Fault.Basic

/-!
# Where code may be left

A `break`, a `continue` and a `return` leave the code that they stand in. Loops take the first two
of them, but only where they stand in the body: the bounds, the step and the condition of a loop
lie outside of it. The bodies of nested functions and templates are code of their own, which is not
left together with the code around it.

Code is disciplined if everything that leaves it is taken in it: functions and programs take a
`return` and nothing else, and templates take nothing at all.
-/

namespace Quill

/-- A way to leave code that has not come to its end. -/
inductive Exit where
  /-- A `break`. -/
  | broke
  /-- A `continue`. -/
  | continued
  /-- A `return`. -/
  | returned
deriving DecidableEq

/-- What is wrong if code is left in a way that nothing takes. -/
def Exit.fault : Exit → Fault
  | .broke => .breakOutsideLoop
  | .continued => .continueOutsideLoop
  | .returned => .returnOutsideFunction

/-- Whether the fault is that code was left in a way that nothing takes. -/
def Fault.Stray : Fault → Prop
  | .breakOutsideLoop | .continueOutsideLoop | .returnOutsideFunction => True
  | _ => False

/-- Whether a step may have the fault that opens no activation and lies at the edge of no body. -/
def Fault.Ordinary : Fault → Prop
  | .breakOutsideLoop | .continueOutsideLoop | .returnOutsideFunction | .recursionLimit _ => False
  | _ => True

theorem Fault.Ordinary.not_stray {fault : Fault} (ordinary : fault.Ordinary) : ¬fault.Stray := by
  cases fault <;> first | exact not_false | exact ordinary.elim

variable {Note : Type}

mutual

/-- Whether the code of an expression has the exit, apart from nested bodies of functions and
templates, and not in a loop that takes it. -/
def Expr.exits (exit : Exit) : Expr Note → Bool
  | .literal _ _ => false
  | .unary _ operand _ => operand.exits exit
  | .binary _ left right _ => left.exits exit || right.exits exit
  | .list elements _ => Expr.anyExits exit elements
  | .choice branches _ => branches.exits exit
  | .forLoop _ start stop none body _ _ =>
    start.exits exit || stop.exits exit || exit = .returned && body.exits exit
  | .forLoop _ start stop (some step) body _ _ =>
    start.exits exit || stop.exits exit || step.exits exit || exit = .returned && body.exits exit
  | .whileLoop condition body _ _ =>
    condition.exits exit || exit = .returned && body.exits exit
  | .read _ _ => false
  | .assign _ value _ => value.exits exit
  | .member _ _ _ => false
  | .assignMember _ _ value _ => value.exits exit
  | .function _ _ _ _ _ => false
  | .call callee arguments _ => callee.exits exit || Expr.anyExits exit arguments
  | .template _ _ _ => false
  | .instantiate _ _ => false
  | .returnWith none _ => exit = .returned
  | .returnWith (some value) _ => value.exits exit || exit = .returned
  | .breakLoop _ => exit = .broke
  | .continueLoop _ => exit = .continued

/-- Whether the code of one of some expressions has the exit. -/
def Expr.anyExits (exit : Exit) : List (Expr Note) → Bool
  | [] => false
  | element :: rest => element.exits exit || Expr.anyExits exit rest

/-- Whether the code of one of the alternatives has the exit. -/
def Branches.exits (exit : Exit) : Branches Note → Bool
  | .done => false
  | .otherwise body _ => body.exits exit
  | .orElse condition body _ rest => condition.exits exit || body.exits exit || rest.exits exit

end

namespace Expr

/-- Whether a body can be that of a function, or a program: no `break` and no `continue` leaves
it. -/
def isRoutine (body : Expr Note) : Bool :=
  !body.exits .broke && !body.exits .continued

/-- Whether a body can be that of a template: nothing leaves it. -/
def isMembers (body : Expr Note) : Bool :=
  !body.exits .broke && !body.exits .continued && !body.exits .returned

end Expr

mutual

/-- Whether all bodies of functions and templates in an expression take what leaves them. -/
def Expr.disciplined : Expr Note → Bool
  | .literal _ _ => true
  | .unary _ operand _ => operand.disciplined
  | .binary _ left right _ => left.disciplined && right.disciplined
  | .list elements _ => Expr.allDisciplined elements
  | .choice branches _ => branches.disciplined
  | .forLoop _ start stop none body _ _ =>
    start.disciplined && stop.disciplined && body.disciplined
  | .forLoop _ start stop (some step) body _ _ =>
    start.disciplined && stop.disciplined && step.disciplined && body.disciplined
  | .whileLoop condition body _ _ => condition.disciplined && body.disciplined
  | .read _ _ => true
  | .assign _ value _ => value.disciplined
  | .member _ _ _ => true
  | .assignMember _ _ value _ => value.disciplined
  | .function _ _ body _ _ => body.isRoutine && body.disciplined
  | .call callee arguments _ => callee.disciplined && Expr.allDisciplined arguments
  | .template _ body _ => body.isMembers && body.disciplined
  | .instantiate _ _ => true
  | .returnWith none _ => true
  | .returnWith (some value) _ => value.disciplined
  | .breakLoop _ => true
  | .continueLoop _ => true

/-- Whether all bodies in some expressions take what leaves them. -/
def Expr.allDisciplined : List (Expr Note) → Bool
  | [] => true
  | element :: rest => element.disciplined && Expr.allDisciplined rest

/-- Whether all bodies in the alternatives take what leaves them. -/
def Branches.disciplined : Branches Note → Bool
  | .done => true
  | .otherwise body _ => body.disciplined
  | .orElse condition body _ rest =>
    condition.disciplined && body.disciplined && rest.disciplined

end

/-- The expressions that the alternatives are made of. -/
def Branches.parts : Branches Note → List (Expr Note)
  | .done => []
  | .otherwise body _ => [body]
  | .orElse condition body _ rest => condition :: body :: rest.parts

/-- The expressions that an expression is made of, apart from the bodies of functions and
templates. -/
def Expr.parts : Expr Note → List (Expr Note)
  | .unary _ operand _ => [operand]
  | .binary _ left right _ => [left, right]
  | .list elements _ => elements
  | .choice branches _ => branches.parts
  | .forLoop _ start stop step body _ _ => start :: stop :: body :: step.toList
  | .whileLoop condition body _ _ => [condition, body]
  | .assign _ value _ => [value]
  | .assignMember _ _ value _ => [value]
  | .call callee arguments _ => callee :: arguments
  | .returnWith value _ => value.toList
  | _ => []

theorem Expr.disciplined_of_mem {elements : List (Expr Note)} {element : Expr Note}
    (all : Expr.allDisciplined elements = true) (member : element ∈ elements) :
    element.disciplined = true := by
  induction member with
  | head rest => exact (Bool.and_eq_true_iff.mp all).1
  | tail other _ ih => exact ih (Bool.and_eq_true_iff.mp all).2

theorem Branches.disciplined_of_mem_parts {branches : Branches Note} {part : Expr Note}
    (all : branches.disciplined = true) (member : part ∈ branches.parts) :
    part.disciplined = true := by
  match branches with
  | .done => cases member
  | .otherwise body _ =>
    obtain rfl := List.mem_singleton.mp member
    exact all
  | .orElse condition body _ rest =>
    obtain ⟨front, behind⟩ := Bool.and_eq_true_iff.mp all
    obtain ⟨first, second⟩ := Bool.and_eq_true_iff.mp front
    obtain rfl | rfl | later : part = condition ∨ part = body ∨ part ∈ rest.parts := by
      simpa only [parts, List.mem_cons] using member
    · exact first
    · exact second
    · exact Branches.disciplined_of_mem_parts behind later

/-- The parts of disciplined code are disciplined. -/
theorem Expr.disciplined_of_mem_parts {expr part : Expr Note} (all : expr.disciplined = true)
    (member : part ∈ expr.parts) : part.disciplined = true := by
  cases expr with
  | list elements note => exact disciplined_of_mem all member
  | choice branches note => exact Branches.disciplined_of_mem_parts all member
  | call callee arguments note =>
    obtain ⟨first, rest⟩ := Bool.and_eq_true_iff.mp all
    obtain rfl | later := List.mem_cons.mp member
    · exact first
    · exact disciplined_of_mem rest later
  | forLoop counter start stop step body block note =>
    cases step <;> grind [disciplined, parts]
  | returnWith value note =>
    cases value <;> grind [disciplined, parts]
  | _ => grind [disciplined, parts]

end Quill
