import TraceLineage.Execution.Ambient

/-!
# Hand-offs

The adapter for work that is submitted in one place and executed in another.  A snapshot is taken
where the work is submitted; where it is executed, a copy of the captured context is brought into
scope, extended by a segment of its own, and the captured span is entered again.
-/

namespace TraceLineage

/-- What work takes along from the place where it is submitted: the context there, and the span
there behind its ancestors, of which there is none outside every span. -/
structure Snapshot where
  context : Context
  spans : List Span
  deriving DecidableEq

namespace Snapshot

variable {H : Type → Type} {α : Type}

/-- A snapshot of a given context under the current span. -/
def ofContext (ctx : Context) : Prog H Snapshot := do
  return ⟨ctx, ← Ambient.spans⟩

/-- A snapshot of the context in scope, or of an empty one, under the current span. -/
def capture : Prog H Snapshot := do
  ofContext ((← Ambient.current?).getD .empty)

def run (c : Config) (s : Snapshot) (work : Prog H α) : Prog H (Except Fault α) :=
  Ambient.underSpans s.spans <| Ambient.inContext s.context <| Ambient.guarded do
    match ← Ambient.resolve c .handoff with
    | .error e => return .error e
    | .ok _ => return .ok (← work)

/-- Runs work under a snapshot and on the spot. -/
def runSync (c : Config) (s : Snapshot) (work : Prog H α) : Prog H (Except Fault α) :=
  run c s work.inPlace

/-- The event that reports work without an id. -/
def droppedEvent (e : Fault) : Event where
  level := .error
  message := "Failed to resolve trace id for handed-off task, task dropped"
  fields := [("error", .text e.message)]

/-- The task that an executor is given in place of submitted work: the work under the snapshot taken
at submission, or a report if it has no id. -/
def task (c : Config) (s : Snapshot) (work : Prog H Unit) : Prog H Unit := do
  match ← runSync c s work with
  | .ok () => return ()
  | .error e => Ambient.emit (droppedEvent e)

/-- The task that an executor is given by a stack of decorators, the outermost first, each with its
own configuration and snapshot. -/
def stackedTask (stack : List (Config × Snapshot)) (work : Prog H Unit) : Prog H Unit :=
  stack.foldl (fun inner cs => task cs.1 cs.2 inner) work

end Snapshot
end TraceLineage
