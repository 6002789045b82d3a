import TraceLineage.Execution.Ambient

/-!
# Jobs

The adapter for scheduled jobs.  Each run gets a copy of the context of the scheduler and an id of
its own, which starts a chain; a run that finds an id there is skipped.  Failures and panics are
reported and go no further.
-/

namespace TraceLineage
namespace JobRun

variable {H : Type → Type} {α : Type}

def span (name : String) (id : TraceId) : Span where
  name := "job"
  fields := [("job", .text name), ("trace_id", .text id.text)]

/-- The event that reports a run without an id. -/
def skippedEvent (name : String) (e : Fault) : Event where
  level := .error
  message := "Failed to resolve job trace id, run skipped"
  fields := [("job", .text name), ("error", .text e.message)]

/-- The event that reports a body that failed. -/
def failedEvent (name error : String) : Event where
  level := .error
  message := "Job failed"
  fields := [("job", .text name), ("error", .text error)]

/-- The event that reports a body that panicked. -/
def panickedEvent (name : String) (p : Payload) : Event where
  level := .error
  message := "Job panicked"
  fields := [("job", .text name), ("panic", .text (p.message?.getD "unknown panic"))]

/-- The value of a run, after reporting why there is none. -/
def conclude (name : String) : Exit (Except String α) → Prog H (Option α)
  | .value (.ok a) => pure (some a)
  | .value (.error e) => do
    Ambient.emit (failedEvent name e)
    return none
  | .panic p => do
    Ambient.emit (panickedEvent name p)
    return none

def run (c : Config) (name : String) (body : Prog H (Except String α)) : Prog H (Option α) := do
  let inherited := (← Ambient.current?).getD .empty
  Ambient.inContext inherited <| Ambient.guarded do
    match ← Ambient.resolve c .job with
    | .error e =>
      Ambient.emit (skippedEvent name e)
      return none
    | .ok id =>
      let x ← (Ambient.inSpan (span name id) body).attempt
      conclude name x

def runSync (c : Config) (name : String) (body : Prog H (Except String α)) :
    Prog H (Option α) :=
  run c name body.inPlace

end JobRun
end TraceLineage
