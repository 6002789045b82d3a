import TraceLineage.Adapter.JobRun
import TraceLineage.Adapter.TaskExecutor
import TraceLineage.Scenario.Bench

/-!
# Scenarios as programs

Every step is a program over the adapters of the library and the bench.  A body runs its steps in
order until one of them ends it.  Steps that run other bodies on the spot, be they stored tasks or
units polled in turn, are requests to the host, which answers them by driving those bodies.  A step
that waits for spawned tasks is suspended until they have ended.
-/

namespace TraceLineage
namespace Scenario

/-- A request to drive stored bodies on the spot. -/
inductive Drive : Type → Type where
  | perform (t : Task) : Drive Unit
  | interleave (units : List (Context × List Step)) : Drive (List (Option Outcome))
  | cancel (polls : Nat) (body : List Step) : Drive (Option Outcome)

/-- A request of a scenario to its host: an errand, a request to drive other bodies, or one that may
have to wait for its answer. -/
inductive Act (γ : Type) : Type where
  | errand (e : Errand γ)
  | drive (d : Drive γ)
  | wait (e : Awaited γ)

abbrev Script (α : Type) := Prog Act α

namespace Script

variable {α : Type}

def errand (e : Errand α) : Script α :=
  .host (.errand e) pure

def drive (d : Drive α) : Script α :=
  .host (.drive d) pure

def wait (e : Awaited α) : Script α :=
  .host (.wait e) pure

def read (t : TextExpr) : Script String :=
  errand (.read t)

def read? : Option TextExpr → Script (Option String)
  | none => pure none
  | some t => do return some (← read t)

def readId? (t : Option TextExpr) : Script (Option TraceId) := do
  return (← read? t).map TraceId.mk

def readPairs (es : List (TextExpr × TextExpr)) : Script (List (String × String)) :=
  es.mapM fun e => do return (← read e.1, ← read e.2)

def readContext (e : ContextExpr) : Script Context := do
  let id ← readId? e.id
  let fields ← e.auxiliary.mapM fun f => do return (f.1, ← read f.2)
  return ((id.map Context.withId).getD .empty).putAll fields

def readBoundary : BoundaryExpr → Script Boundary
  | .request inbound => do return .request (← read? inbound)
  | .job => pure .job
  | .handoff => pure .handoff

def did (step : String) (r : Answer) : Script Unit := do
  errand (.report (.did step r (← Ambient.traceId?)))

/-- Reports a compound step around a part that yields its result. -/
def within (step : String) (body : Script Answer) : Script Unit := do
  errand (.report (.enter step))
  let r ← body
  errand (.report (.exit step r (← Ambient.traceId?)))

/-- The outcome of a body that is run on the spot. -/
def onTheSpot (body : Script Outcome) : Script Outcome :=
  .block body fun x => .done (x.getD (.value (.err "stuck")))

def work (body : Script Outcome) : Script Unit := do
  errand (.report (.task (← onTheSpot body)))

def jobWork (body : Script Outcome) : Script (Except String (Option String)) := do
  match ← body with
  | .ok value => return .ok value
  | .err message => return .error message

/-- The first value of a header, in any letter case. -/
def lookupHeader (headers : List (String × String)) : HeaderLookup := fun name =>
  (headers.find? fun h => h.1.toLower = name.toLower).map Prod.snd

/-- A service that runs one body when it is called and answers with another. -/
def service (x : Exchange) (call body : Script Outcome) : Http.Service Act Unit String where
  Pending := Http.Request Unit
  call r := do
    let _ ← onTheSpot call
    return r
  respond r := do
    if x.extract then
      errand (.report (.extracted (← Http.extract r.traceId)))
    match ← body with
    | .err message => return .error message
    | .ok _ =>
      let headers ← readPairs x.responseHeaders
      return .ok { status := x.status, headers := .ofList headers, body := () }

def layer (c : Config) (x : Exchange) : Except Fault Http.Layer := do
  let base ← match x.layer with
    | .standard => .ok Http.Layer.standard
    | .spanless => .ok Http.Layer.spanless
    | .configured => Http.Layer.ofConfig c
  return (x.options.map base.setOptions).getD base

def exchange (c : Config) (x : Exchange) (call body : Script Outcome) : Script Answer := do
  match layer c x with
  | .error e => return .http (.error e)
  | .ok l =>
    let headers ← readPairs x.headers
    match Http.Request.ofTexts? x.method x.uri (.ofList headers) () with
    | none => return .badStep
    | some r => return .http (.ok (← (l.around (service x call body)).handle r))

/-- An executor that runs every task at once, on a thread of its own that keeps panics to itself. -/
def pooled : TaskExecutor Act where
  execute task := do
    let abroad ← errand (.travel true)
    let _ ← (Ambient.detached task).attempt
    let _ ← errand (.travel abroad)

def execute (c : Config) (e : Executor) (body : List Step) (compiled : Script Outcome) :
    Script Answer :=
  match e with
  | .inline => do
    (TaskExecutor.inline.traced c).execute (work compiled)
    return .nothing
  | .pool => do
    (pooled.traced c).execute (work compiled)
    return .nothing
  | .deferred => do
    let s ← Snapshot.capture
    return .queued (← errand (.enqueue ⟨s, body⟩))

def request (c : Config) (async : Bool) (headers : List (TextExpr × TextExpr))
    (body : Script Outcome) : Script Answer := do
  let headers ← readPairs headers
  match ← Arrival.begin c (lookupHeader headers) with
  | .error e => return .request (.error e)
  | .ok trace =>
    let o ← if async then trace.scope body else trace.scopeSync (onTheSpot body)
    return .request (.ok (trace, o))

def readBranches (branches : List Branch) : Script (List (Context × List Step)) :=
  branches.mapM fun
    | .unit ctx body => do return (← readContext ctx, body)

mutual

/-- The program of a step that does not end its body. -/
def ofStep (c : Config) : Step → Script Unit
  | .get => do did "get" (.id (← Ambient.traceId?))
  | .state => do did "state" (.state (← Ambient.auxiliary) (← Ambient.current?))
  | .set id => do
    let r ← Ambient.set ⟨← read id⟩
    did "set" (.unit r)
  | .put key value => do
    let r ← Ambient.put (← read key) (← read value)
    did "put" (.unit r)
  | .clear => do
    Ambient.clear
    did "clear" .nothing
  | .resolve boundary => do
    let b ← readBoundary boundary
    let r ← Ambient.resolve c b
    did "resolve" (.resolved b.invoker r)
  | .generate invoker parent => do
    let r ← Ambient.generate c invoker (← readId? parent)
    did "generate" (.newId r)
  | .capture name => do
    let s ← Snapshot.capture
    errand (.keep name s)
    did "capture" (.captured s.context)
  | .fromContext name context => do
    let s ← Snapshot.ofContext (← readContext context)
    errand (.keep name s)
    did "from_context" (.captured s.context)
  | .log message => do
    Ambient.emit ⟨.info, ← read message, []⟩
    did "log" .nothing
  | .extract attached => do
    let r ← Http.extract (← readId? attached)
    did "extract" (.extracted r)
  | .finish _ => pure ()
  | .fail _ => pure ()
  | .panic kind message => do
    let text ← read message
    errand (.report .panicking)
    .done (.panic (if kind = .number then .other else .text text))
  | .yield => .suspend (pure ())
  | .pend => .never
  | .scope async context body => within "scope" do
    let ctx ← readContext context
    let o ←
      if async then Ambient.inContext ctx (ofSteps c body)
      else Ambient.inContextSync ctx (onTheSpot (ofSteps c body))
    return .ended (.value o)
  | .guard body => within "guard" do
    return .ended (.value (← Ambient.guarded (ofSteps c body)))
  | .span name body => within "span" do
    let s : Span := { name := "unit", fields := [("name", .text (← read name))] }
    return .ended (.value (← Ambient.inSpan s (ofSteps c body)))
  | .attempt body => within "catch" do
    return .ended (← (ofSteps c body).attempt)
  | .cancel polls body => within "cancel" do
    match ← drive (.cancel polls body) with
    | some o => return .ended (.value o)
    | none => return .cancelled
  | .interleave branches => within "interleave" do
    let units ← readBranches branches
    return .outcomes (← drive (.interleave units))
  | .job async name body => within "job" do
    let name ← read name
    let v ←
      if async then JobRun.run c name (jobWork (ofSteps c body))
      else JobRun.runSync c name (jobWork (onTheSpot (ofSteps c body)))
    return .job v
  | .run async snapshot body => within "run" do
    match ← errand (.find snapshot) with
    | none => return .badStep
    | some s =>
      let r ←
        if async then s.run c (ofSteps c body)
        else s.runSync c (onTheSpot (ofSteps c body))
      return .handedOff r
  | .wrap name body => within "wrap" do
    let s ← Snapshot.capture
    errand (.store name ⟨s, body⟩)
    return .nothing
  | .call task => within "call" do
    match ← errand (.take task) with
    | none => return .badStep
    | some t =>
      drive (.perform t)
      return .nothing
  | .execute executor body => within "execute" do
    match executor with
    | none => return .badStep
    | some e => execute c e body (ofSteps c body)
  | .drain => within "drain" do
    let tasks ← errand .takeQueue
    tasks.forM fun t => drive (.perform t)
    return .ran tasks.length
  | .spawn body => within "spawn" do
    let s ← Snapshot.capture
    errand (.spawn ⟨s, body⟩)
    return .nothing
  | .join => within "join" do
    let numbers ← errand .claim
    return .joined (← numbers.mapM fun n => wait (.ended n))
  | .request async headers body => within "request" (request c async headers (ofSteps c body))
  | .http x call body => within "http" (exchange c x (ofSteps c call) (ofSteps c body))
  | .unknown name => did name .badStep

def ofSteps (c : Config) : List Step → Script Outcome
  | [] => pure (.ok none)
  | s :: rest =>
    match s with
    | .finish value => do return .ok (some (← read value))
    | .fail message => do return .err (← read message)
    | s => do
      ofStep c s
      ofSteps c rest

end

end Script
end Scenario
end TraceLineage
