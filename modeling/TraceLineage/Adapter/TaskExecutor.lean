import TraceLineage.Adapter.Snapshot

/-!
# Executors

An executor takes tasks and has each of them run, in the same place or in another one, at once or
later.  A decorator around an executor takes a snapshot where work is submitted and passes on a task
that runs the work under this snapshot.
-/

namespace TraceLineage

/-- Something that takes tasks. -/
structure TaskExecutor (H : Type → Type) : Type 1 where
  execute : Prog H Unit → Prog H Unit

namespace TaskExecutor

variable {H : Type → Type}

/-- Runs every task where it is submitted. -/
def inline : TaskExecutor H where
  execute task := task

/-- The executor behind a decorator. -/
def traced (c : Config) (e : TaskExecutor H) : TaskExecutor H where
  execute work := do
    let s ← Snapshot.capture
    e.execute (s.task c work)

/-- The executor behind several decorators, the outermost first. -/
def decorated (cs : List Config) (e : TaskExecutor H) : TaskExecutor H :=
  cs.foldr traced e

end TaskExecutor
end TraceLineage
