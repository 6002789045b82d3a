import TraceLineage.Config
import TraceLineage.Context.Basic

/-!
# Resolving ids at boundaries

An execution unit obtains its id when it starts, at one of three boundaries.  A request continues
the chain of its inbound value, if that is acceptable; a job starts a chain and refuses a context
that shows an id already; a hand-off continues the chain of the id in the context.  The new id is
stored in the context and reported in the log.
-/

namespace TraceLineage

/-- Where an execution unit starts: a request arrives, with the value of its trace header if it has
one, a job starts, or a task starts on another thread. -/
inductive Boundary where
  | request (inbound : Option String)
  | job
  | handoff
  deriving DecidableEq, Repr

/-- The kind of execution unit that starts at a boundary. -/
def Boundary.invoker : Boundary → Invoker
  | request _ => .request
  | job => .job
  | handoff => .thread

/-- The event that reports a rejected inbound value of the given length in bytes. -/
def discardedEvent (length : Nat) : Event where
  level := .warn
  message := "Discarding malformed inbound trace id, starting a new chain"
  fields := [("inbound_len", .number length)]

/-- The event that reports a resolved id. -/
def resolvedEvent (i : Invoker) (id : TraceId) : Event where
  level := .debug
  message := "Trace id resolved"
  fields := [("invoker", .text i.name), ("trace_id", .text id.text)]

/-- The parent that an inbound value names.  A value that is rejected although it is not blank is
reported. -/
def inboundParent (inbound : Option String) (f : Facilities) : Option TraceId × Facilities :=
  match inbound with
  | none => (none, f)
  | some raw =>
    match TraceId.ofInbound? raw with
    | some id => (some id, f)
    | none =>
      if Text.isBlank raw = true then (none, f)
      else (none, f.emit (discardedEvent raw.utf8ByteSize))

namespace Config

/-- The id of a unit that starts at a boundary with the given context. -/
def generateAt (c : Config) (b : Boundary) (ctx : Context) (f : Facilities) :
    Except Fault TraceId × Facilities :=
  match b with
  | .request inbound =>
    let (parent, f) := inboundParent inbound f
    f.generate c.request parent
  | .job =>
    match ctx.get? with
    | some existing => (.error (.state (.populated existing)), f)
    | none => f.generate c.job none
  | .handoff => f.generate c.thread ctx.get?

/-- The outcome of a resolution: the id or a fault, the context and the facilities afterwards. -/
abbrev Resolution := Except Fault TraceId × Context × Facilities

/-- Generates the id of a unit and stores it in its context. -/
def resolve (c : Config) (b : Boundary) (ctx : Context) (f : Facilities) : Resolution :=
  match c.generateAt b ctx f with
  | (.error e, f) => (.error e, ctx, f)
  | (.ok id, f) =>
    match ctx.set id with
    | .error e => (.error (.state e), ctx, f)
    | .ok ctx => (.ok id, ctx, f.emit (resolvedEvent b.invoker id))

end Config
end TraceLineage
