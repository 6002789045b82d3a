import TraceLineage.Adapter.Snapshot
import TraceLineage.Http.Layer

/-!
# What a scenario reports

A scenario is reported as a list of entries in the order in which things happen: the results of
simple steps, the begin and the end of compound steps, and the records of the log.
-/

namespace TraceLineage
namespace Scenario

/-- How a body ends: after its last step, or with a value, or it fails. -/
inductive Outcome where
  | ok (value : Option String)
  | err (message : String)
  deriving DecidableEq, Repr

/-- The result of a step.  A step that does not exist, or that names something that does not, is a
bad one. -/
inductive Answer where
  | nothing
  | id (id : Option TraceId)
  | unit (r : Except Fault Unit)
  | newId (r : Except Fault TraceId)
  | resolved (invoker : Invoker) (r : Except Fault TraceId)
  | state (auxiliary : Auxiliary) (context : Option Context)
  | captured (context : Context)
  | extracted (r : Except Http.Rejection TraceId)
  | ended (x : Exit Outcome)
  | cancelled
  | outcomes (os : List (Option Outcome))
  | job (value : Option (Option String))
  | handedOff (r : Except Fault Outcome)
  | queued (n : Nat)
  | ran (n : Nat)
  | joined (rs : List (Exit (Except Fault Outcome)))
  | request (r : Except Fault (Arrival × Outcome))
  | http (r : Except Fault (Except String (Http.Response Unit)))
  | badStep

/-- Something to report: a simple step with its result, the beginning and the end of a compound
step, a panic, the end of the body of a task, what a handler has extracted, or a record.  The id in
scope is told behind a step. -/
inductive Entry where
  | did (step : String) (r : Answer) (now : Option TraceId)
  | enter (step : String)
  | exit (step : String) (r : Answer) (now : Option TraceId)
  | panicking
  | task (o : Outcome)
  | extracted (r : Except Http.Rejection TraceId)
  | record (r : Record)

/-- Entries among records: each entry stands behind as many records as it is marked with, of which
`passed` have been placed. -/
def weave (passed : Nat) (records : List Record) : List (Nat × Entry) → List Entry
  | [] => records.map Entry.record
  | (n, e) :: marks =>
    (records.take (n - passed)).map Entry.record ++
      e :: weave (passed + (n - passed)) (records.drop (n - passed)) marks

end Scenario
end TraceLineage
