import TraceLineage.Execution.Drive
import TraceLineage.Scenario.Entry
import TraceLineage.Scenario.Redaction
import TraceLineage.Scenario.Syntax

/-!
# The bench of a scenario

What a scenario keeps beside the context in scope: snapshots and tasks under names, tasks in a queue
and spawned tasks, the aliases of ids, and the entries to report.  Programs reach it by requests,
most of which are answered at once; those that run stored bodies or wait for spawned ones are
described in `Scenario.Compile`.

Spawned tasks are numbered in the order in which they were spawned.  Two marks stand in that order:
one behind the tasks that have been started, one behind those that somebody has come to wait for.
Whoever waits is told how a task has ended as soon as it has, but no more than so many times before
its next suspension, unless it runs on a thread of the pool.
-/

namespace TraceLineage
namespace Scenario

/-- A body that has been submitted, with the snapshot taken then. -/
structure Task where
  snapshot : Snapshot
  body : List Step

/-- A task that has been spawned, and whether this was on a thread of the pool. -/
structure Spawned where
  task : Task
  abroad : Bool

/-- How many answers to waits fit between two suspensions. -/
def maxAnswers : Nat := 128

/-- What a scenario keeps: the entries so far, latest first, each with the number of records in
front of it; snapshots and stored tasks by name, latest first; the queue; the spawned tasks, oldest
first, with the two marks in them and how those that have ended did; how many answers are left
before the next suspension; whether a thread of the pool is running; and the aliases, oldest first.
-/
structure Bench where
  marks : List (Nat × Entry) := []
  snapshots : List (String × Snapshot) := []
  tasks : List (String × Task) := []
  queue : List Task := []
  spawned : List Spawned := []
  started : Nat := 0
  claimed : Nat := 0
  ended : List (Nat × Exit (Except Fault Outcome)) := []
  answersLeft : Nat := maxAnswers
  abroad : Bool := false
  aliases : List Alias := []

/-- A request that is answered from the bench at once.  A claim is for the spawned tasks that nobody
has come to wait for and tells their numbers; whoever travels goes to a thread of the pool, or
leaves it, and is told whether one was running before. -/
inductive Errand : Type → Type where
  | read (t : TextExpr) : Errand String
  | report (e : Entry) : Errand Unit
  | keep (name : String) (s : Snapshot) : Errand Unit
  | find (name : String) : Errand (Option Snapshot)
  | store (name : String) (t : Task) : Errand Unit
  | take (name : String) : Errand (Option Task)
  | enqueue (t : Task) : Errand Nat
  | takeQueue : Errand (List Task)
  | spawn (t : Task) : Errand Unit
  | claim : Errand (List Nat)
  | travel (abroad : Bool) : Errand Bool

/-- A request that the bench may not be able to answer yet. -/
inductive Awaited : Type → Type where
  | ended (number : Nat) : Awaited (Exit (Except Fault Outcome))

namespace Bench

/-- The answer to an errand and the bench afterwards. -/
def run {γ : Type} (b : Bench) (f : Facilities) : Errand γ → γ × Bench
  | .read t =>
    (t.eval f.minted, { b with aliases := b.aliases ++ (t.alias? f.minted).toList })
  | .report e => ((), { b with marks := (f.records.length, e) :: b.marks })
  | .keep name s => ((), { b with snapshots := (name, s) :: b.snapshots })
  | .find name => (b.snapshots.lookup name, b)
  | .store name t =>
    ((), { b with tasks := (name, t) :: b.tasks.filter fun e => e.1 ≠ name })
  | .take name =>
    (b.tasks.lookup name, { b with tasks := b.tasks.filter fun e => e.1 ≠ name })
  | .enqueue t => (b.queue.length + 1, { b with queue := b.queue ++ [t] })
  | .takeQueue => (b.queue, { b with queue := [] })
  | .spawn t => ((), { b with spawned := b.spawned ++ [⟨t, b.abroad⟩] })
  | .claim =>
    (List.range' b.claimed (b.spawned.length - b.claimed),
      { b with claimed := b.spawned.length })
  | .travel abroad => (b.abroad, { b with abroad })

/-- The answer to a request that may have to wait, if there is one, and the bench afterwards. -/
def answer? {γ : Type} (b : Bench) : Awaited γ → Option γ × Bench
  | .ended number =>
    match b.ended.lookup number with
    | none => (none, b)
    | some x =>
      if b.abroad then (some x, b)
      else if b.answersLeft = 0 then (none, b)
      else (some x, { b with answersLeft := b.answersLeft - 1 })

def rest (b : Bench) : Bench :=
  { b with answersLeft := maxAnswers }

/-- The spawned tasks that have not been started, with their numbers, and the bench on which they
have been. -/
def start (b : Bench) : List (Nat × Spawned) × Bench :=
  ((b.spawned.zipIdx.drop b.started).map Prod.swap, { b with started := b.spawned.length })

/-- The bench on which a spawned task has ended. -/
def settle (b : Bench) (number : Nat) (x : Exit (Except Fault Outcome)) : Bench :=
  { b with ended := (number, x) :: b.ended }

/-- All entries, with the records among them. -/
def entries (b : Bench) (f : Facilities) : List Entry :=
  weave 0 f.records b.marks.reverse

/-- The redaction of everything generated so far. -/
def redaction (b : Bench) (f : Facilities) : Redaction :=
  .ofMints f.minted b.aliases

end Bench
end Scenario
end TraceLineage
