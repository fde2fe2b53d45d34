import Quill.Store.Table
import Quill.Text.Diagnostic

/-!
# The store of contexts

Programs, function calls and objects are evaluated in contexts. A context has a table of its own
and two links to older contexts. The scope link says where names are looked up that the table does
not bind; the entry link says from where the context was entered, which is what tracebacks show.
The two are independent of each other: a function looks up its names where it was defined and is
entered from where it is called.

Contexts are numbered in the order of their creation and never removed, and links only lead to
contexts with smaller numbers. A walk along links therefore takes at most one step per number, and
the functions here walk that far.
-/

namespace Quill

/-- How a context was entered. -/
structure Entry where
  /-- The context that was active before. -/
  caller : ContextId
  /-- The call or the instantiation. -/
  span : Span

/-- A context. -/
structure Context where
  /-- The name in tracebacks. -/
  name : String
  /-- How the context was entered. The outermost context of a program was not. -/
  entry : Option Entry
  /-- The context that unbound names are looked up in. -/
  scope : Option ContextId
  /-- The bindings of the context itself. -/
  table : Table

/-- All contexts there are. -/
structure Store where
  /-- The contexts, each at the place of its number. -/
  contexts : Array Context

namespace Store

/-- The store without any context. -/
def empty : Store := ⟨#[]⟩

/-- The number that the next context will have. -/
def size (store : Store) : Nat :=
  store.contexts.size

/-- The context with the given number. -/
def context? (store : Store) (id : ContextId) : Option Context :=
  store.contexts[id]?

/-- Adds a context, and tells its number. -/
def add (store : Store) (context : Context) : ContextId × Store :=
  (store.size, ⟨store.contexts.push context⟩)

/-- Adds the outermost context of a program. -/
def root (store : Store) (name : String) : ContextId × Store :=
  store.add ⟨name, none, none, .empty⟩

/-- Adds a context that is entered from another one. -/
def nested (store : Store) (name : String) (caller : ContextId) (span : Span)
    (scope : Option ContextId) : ContextId × Store :=
  store.add ⟨name, some ⟨caller, span⟩, scope, .empty⟩

/-- The bindings of a context itself. -/
def table (store : Store) (id : ContextId) : Table :=
  match store.context? id with
  | some context => context.table
  | none => .empty

/-- Changes the bindings of a context. -/
def updateTable (store : Store) (id : ContextId) (change : Table → Table) : Store :=
  ⟨store.contexts.modify id fun context => { context with table := change context.table }⟩

/-- The value that a name has in a context itself. -/
def lookupLocal (store : Store) (id : ContextId) (name : String) : Option Value :=
  (store.table id).value? name

/-- The value of a name in the first context that binds it, starting at the given one and walking
a number of steps along the scope links. -/
def lookupWithin (store : Store) (name : String) : (steps : Nat) → ContextId → Option Value
  | 0, _ => none
  | steps + 1, id =>
    match store.context? id with
    | none => none
    | some context =>
      match context.table.value? name with
      | some value => some value
      | none =>
        match context.scope with
        | some outer => store.lookupWithin name steps outer
        | none => none

/-- The value of a name in a context. -/
def lookup (store : Store) (id : ContextId) (name : String) : Option Value :=
  store.lookupWithin name (id + 1) id

/-- Binds a name in a context, whatever it was bound to before. -/
def define (store : Store) (id : ContextId) (name : String) (value : Value) (isMutable : Bool) :
    Store :=
  store.updateTable id fun table => table.define name value isMutable

/-- Whether an assignment to the name in the context itself has to fail. -/
def protects (store : Store) (id : ContextId) (name : String) : Bool :=
  (store.table id).protects name

/-- Gives a value to a name in a context itself, unless the name is immutable there. -/
def assign (store : Store) (id : ContextId) (name : String) (value : Value) : Except Fault Store :=
  if store.protects id name then .error (.immutableBinding name)
  else .ok (store.define id name value true)

/-- How a context was entered, if there is such a context and it was entered. -/
def entered (store : Store) (id : ContextId) : Option Entry :=
  (store.context? id).bind (·.entry)

/-- The outermost context that is reached within a number of steps along the entry links, which lead
to older contexts. -/
def rootWithin (store : Store) : (steps : Nat) → ContextId → ContextId
  | 0, id => id
  | steps + 1, id =>
    match store.entered id with
    | some entry => if entry.caller < id then store.rootWithin steps entry.caller else id
    | none => id

/-- The outermost context around a context. -/
def rootOf (store : Store) (id : ContextId) : ContextId :=
  store.rootWithin (id + 1) id

/-- The frames of a context that has got to `span` and of the contexts that it was entered from,
innermost first, as far as a number of steps leads. -/
def framesWithin (store : Store) : (steps : Nat) → ContextId → Span → List Frame
  | 0, _, _ => []
  | steps + 1, id, span =>
    match store.context? id with
    | none => []
    | some context =>
      ⟨span.source.name, span.line, context.name⟩ ::
        match context.entry with
        | some entry => store.framesWithin steps entry.caller entry.span
        | none => []

/-- The traceback of a context that has got to `span`, outermost frame first. -/
def traceback (store : Store) (id : ContextId) (span : Span) : List Frame :=
  (store.framesWithin (id + 1) id span).reverse

/-- A context in one line: its name and the name of the context that it was entered from. -/
def summary (store : Store) (id : ContextId) : String :=
  match store.context? id with
  | none => ""
  | some context =>
    let parent := context.entry.bind fun entry => store.context? entry.caller
    "Context \x7b name: " ++ Text.diagnosticQuote context.name ++ ", parent: " ++
      (match parent with
        | some outer => "Some(" ++ Text.diagnosticQuote outer.name ++ ")"
        | none => "None") ++
      ", .. \x7d"

end Store

end Quill
