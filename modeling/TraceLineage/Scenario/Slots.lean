import TraceLineage.Scenario.Bench

/-!
# Scenarios on context values

A scenario of the second kind works on contexts that are not in scope but lie in named slots.  Every
step concerns one slot, which holds an empty context until it is first used.
-/

namespace TraceLineage
namespace Scenario
namespace Slots

/-- What a step does to its slot. -/
inductive Action where
  | new (context : ContextExpr)
  | copy (other : String)
  | equal (other : String)
  | set (id : TextExpr)
  | put (key value : TextExpr)
  | clear
  | resolve (boundary : BoundaryExpr)
  | unknown

structure SlotStep where
  name : String
  slot : String
  action : Action

inductive SlotAnswer where
  | nothing
  | truth (b : Bool)
  | unit (r : Except Fault Unit)
  | newId (r : Except Fault TraceId)
  | badStep

/-- Something to report. -/
inductive SlotEntry where
  | did (step : String) (r : SlotAnswer) (context : Context)
  | record (r : Record)

/-- The state of a scenario: the contexts by slot and the entries so far, both latest first, and the
aliases, oldest first. -/
structure Shelf where
  contexts : List (String × Context) := []
  facilities : Facilities
  aliases : List Alias := []
  entries : List SlotEntry := []

def Shelf.context (s : Shelf) (slot : String) : Context :=
  (s.contexts.lookup slot).getD .empty

def Shelf.store (s : Shelf) (slot : String) (ctx : Context) : Shelf :=
  { s with contexts := (slot, ctx) :: s.contexts }

def Shelf.read (s : Shelf) (t : TextExpr) : String × Shelf :=
  (t.eval s.facilities.minted,
    { s with aliases := s.aliases ++ (t.alias? s.facilities.minted).toList })

def Shelf.read? (s : Shelf) : Option TextExpr → Option String × Shelf
  | none => (none, s)
  | some t =>
    let (text, s) := s.read t
    (some text, s)

def Shelf.readFields (s : Shelf) : List (String × TextExpr) → List (String × String) × Shelf
  | [] => ([], s)
  | (k, t) :: fs =>
    let (text, s) := s.read t
    let (fields, s) := s.readFields fs
    ((k, text) :: fields, s)

def Shelf.readBoundary (s : Shelf) : BoundaryExpr → Boundary × Shelf
  | .request inbound =>
    let (inbound, s) := s.read? inbound
    (.request inbound, s)
  | .job => (.job, s)
  | .handoff => (.handoff, s)

def act (c : Config) (s : Shelf) (slot : String) : Action → SlotAnswer × Shelf
  | .new context =>
    let (id, s) := s.read? context.id
    let (fields, s) := s.readFields context.auxiliary
    let ctx := (id.map fun i => Context.withId ⟨i⟩).getD .empty
    (.nothing, s.store slot (ctx.putAll fields))
  | .copy other => (.nothing, s.store slot (s.context other))
  | .equal other => (.truth (decide (s.context slot = s.context other)), s)
  | .set id =>
    let (id, s) := s.read id
    match (s.context slot).set ⟨id⟩ with
    | .ok ctx => (.unit (.ok ()), s.store slot ctx)
    | .error e => (.unit (.error (.state e)), s)
  | .put key value =>
    let (key, s) := s.read key
    let (value, s) := s.read value
    (.nothing, s.store slot ((s.context slot).put key value))
  | .clear => (.nothing, s.store slot .empty)
  | .resolve boundary =>
    let (b, s) := s.readBoundary boundary
    let (r, ctx, f) := c.resolve b (s.context slot) s.facilities
    (.newId r, { s with facilities := f }.store slot ctx)
  | .unknown => (.badStep, s)

/-- Performs a step and reports it behind the records that it causes. -/
def perform (c : Config) (s : Shelf) (step : SlotStep) : Shelf :=
  let before := s.facilities.records.length
  let (r, s) := act c s step.slot step.action
  let records := (s.facilities.records.drop before).map SlotEntry.record
  let entry := SlotEntry.did step.name r (s.context step.slot)
  { s with entries := entry :: (records.reverse ++ s.entries) }

/-- A report: the entries and the redaction of the ids in them. -/
structure SlotReport where
  entries : List SlotEntry
  redaction : Redaction

def run (c : Config) (source : Source) (steps : List SlotStep) : SlotReport :=
  let s := steps.foldl (perform c) { facilities := .fresh source }
  { entries := s.entries.reverse
    redaction := .ofMints s.facilities.minted s.aliases }

end Slots
end Scenario
end TraceLineage
