/-!
# Invokers

The three kinds of execution unit that obtain a trace id.  A request continues the chain of the
caller, a task on another thread continues the chain of its submitter, and a job starts a chain of
its own: it is the only root.
-/

namespace TraceLineage

/-- The kind of execution unit for which an id is generated: an incoming request, a scheduled job,
or a task that is handed to another thread. -/
inductive Invoker where
  | request
  | job
  | thread
  deriving DecidableEq, Repr

namespace Invoker

/-- The name used in messages and records. -/
def name : Invoker → String
  | request => "request"
  | job => "job"
  | thread => "thread"

def ofName? : String → Option Invoker
  | "request" => some request
  | "job" => some job
  | "thread" => some thread
  | _ => none

/-- A root starts a chain and never appends to a parent. -/
def isRoot : Invoker → Bool
  | job => true
  | _ => false

/-- The least accepted segment length, in bytes. -/
def minLength : Invoker → Nat
  | job => 8
  | _ => 4

/-- The greatest accepted segment length, in bytes. -/
def maxLength : Invoker → Nat
  | job => 64
  | _ => 32

/-- The segment length used where none is configured. -/
def defaultLength : Invoker → Nat
  | job => 20
  | _ => 6

/-- The delimiter used where none is configured. -/
def defaultDelimiter : Char := '_'

theorem ofName?_name
    (i : Invoker) :
    ofName? i.name = some i := by
  cases i <;> rfl

theorem defaultLength_mem
    (i : Invoker) :
    i.minLength ≤ i.defaultLength ∧ i.defaultLength ≤ i.maxLength := by
  cases i <;> decide

end Invoker
end TraceLineage
