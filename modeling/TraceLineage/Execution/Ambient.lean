import TraceLineage.Execution.Program

/-!
# Ambient operations

The operations of the library as programs.  They act on the context in scope, of which there is at
most one; outside every scope they fail, read nothing or do nothing.
-/

namespace TraceLineage
namespace Ambient

variable {H : Type → Type} {α : Type}

def current? : Prog H (Option Context) :=
  .op .snapshot pure

def traceId? : Prog H (Option TraceId) := do
  return (← current?).bind Context.get?

/-- The auxiliary fields in scope, none outside every scope. -/
def auxiliary : Prog H Auxiliary := do
  return ((← current?).map Context.auxiliary).getD .empty

def isScoped : Prog H Bool := do
  return (← current?).isSome

/-- Replaces the id in scope by one that extends it. -/
def set (id : TraceId) : Prog H (Except Fault Unit) :=
  .op (.set id) pure

def put (key value : String) : Prog H (Except Fault Unit) :=
  .op (.put key value) pure

def clear : Prog H Unit :=
  .op .clear pure

/-- Resolves an id for the unit whose context is in scope. -/
def resolve (c : Config) (b : Boundary) : Prog H (Except Fault TraceId) :=
  .op (.resolve c b) pure

def generate (c : Config) (i : Invoker) (parent : Option TraceId) :
    Prog H (Except Fault TraceId) :=
  .op (.generate c i parent) pure

def emit (e : Event) : Prog H Unit :=
  .op (.emit e) pure

/-- The current span behind its ancestors. -/
def spans : Prog H (List Span) :=
  .op .spans pure

def inContext (ctx : Context) (body : Prog H α) : Prog H α :=
  .inFrame (.scope ctx) body

/-- Runs a part in a context of its own and on the spot. -/
def inContextSync (ctx : Context) (body : Prog H α) : Prog H α :=
  inContext ctx body.inPlace

/-- Runs a part and clears the context in scope when it ends in whatever way. -/
def guarded (body : Prog H α) : Prog H α :=
  .inFrame (.guard false) body

/-- Runs a part inside a new span, whose parent is the span current now. -/
def inSpan (s : Span) (body : Prog H α) : Prog H α := do
  let path ← spans
  .inFrame (.span (path ++ [s])) body

/-- Runs a part inside spans that were current at some other time; with none of them the current
span stays. -/
def underSpans (path : List Span) (body : Prog H α) : Prog H α :=
  match path with
  | [] => body
  | path => .inFrame (.span path) body

/-- Runs a part on a thread without a context and without a span. -/
def detached (body : Prog H α) : Prog H α :=
  .inFrame .detached body

end Ambient
end TraceLineage
