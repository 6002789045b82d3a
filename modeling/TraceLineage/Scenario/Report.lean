import TraceLineage.Scenario.Schedule

/-!
# Reports

A scenario is run from the empty state, outside every context and span, and reported with all that
has happened on the way.
-/

namespace TraceLineage
namespace Scenario

/-- A report: the entries, how the scenario ended, and the redaction of the ids in it. -/
structure Report where
  entries : List Entry
  exit : Exit Outcome
  redaction : Redaction

/-- How many polls and turns a scenario takes at most.  A poll is the first of all, or it follows a
suspension, a spawn, the end of a task that somebody waits for, or a rest; that is one poll for a
step that suspends and at most three for one that spawns.  One new turn at most begins in front of
each. -/
def maxPolls (steps : List Step) : Nat :=
  2 * (3 * stepsSize steps + 1)

def run (c : Config) (source : Source) (steps : List Step) : Report :=
  let start : State := { ambient := none, facilities := .fresh source, host := {} }
  let h := host c (stepsSize steps)
  let (x, w) := Schedule.run c h (maxPolls steps + 1) (Script.ofSteps c steps) {} start
  { entries := w.host.entries w.facilities
    exit := x.getD (.value (.err "stuck"))
    redaction := w.host.redaction w.facilities }

end Scenario
end TraceLineage
