import TraceLineage.Scenario.TextExpr
import TraceLineage.Http.Layer

/-!
# Scenarios

A scenario is a body of steps that exercises the library: simple steps operate on the context in
scope, compound steps run bodies inside the adapters, and control steps end, suspend or panic.
-/

namespace TraceLineage
namespace Scenario

/-- A boundary with its inbound value as an expression. -/
inductive BoundaryExpr where
  | request (inbound : Option TextExpr)
  | job
  | handoff
  deriving Inhabited

/-- What a panic carries. -/
inductive PayloadKind where
  | message
  | number
  deriving DecidableEq, Repr, Inhabited

/-- Where an executor runs the tasks that it is given: at once on the thread of the submitter, later
when the queue is drained, or at once on a thread of its own. -/
inductive Executor where
  | inline
  | deferred
  | pool
  deriving DecidableEq, Repr, Inhabited

/-- A context as an expression: an optional id and auxiliary fields. -/
structure ContextExpr where
  id : Option TextExpr := none
  auxiliary : List (String × TextExpr) := []
  deriving Inhabited

/-- Which layer a request passes: that of the standard configuration, with or without spans, or that
of the configuration at hand. -/
inductive LayerChoice where
  | standard
  | spanless
  | configured
  deriving DecidableEq, Repr, Inhabited

/-- A request through a layer, its bodies apart: the layer and the options in place of its own, the
request, whether the handler extracts the id first, and the response. -/
structure Exchange where
  layer : LayerChoice := .configured
  options : Option Http.Options := none
  method : String := "GET"
  uri : String := "/"
  headers : List (TextExpr × TextExpr) := []
  extract : Bool := false
  status : Nat := 200
  responseHeaders : List (TextExpr × TextExpr) := []
  deriving Inhabited

mutual

/-- A step of a scenario.  Of an executor or a step that does not exist only this is known. -/
inductive Step where
  | get
  | state
  | set (id : TextExpr)
  | put (key value : TextExpr)
  | clear
  | resolve (boundary : BoundaryExpr)
  | generate (invoker : Invoker) (parent : Option TextExpr)
  | capture (name : String)
  | fromContext (name : String) (context : ContextExpr)
  | log (message : TextExpr)
  | extract (attached : Option TextExpr)
  | finish (value : TextExpr)
  | fail (message : TextExpr)
  | panic (kind : PayloadKind) (message : TextExpr)
  | yield
  | pend
  | scope (async : Bool) (context : ContextExpr) (body : List Step)
  | guard (body : List Step)
  | span (name : TextExpr) (body : List Step)
  | attempt (body : List Step)
  | cancel (polls : Nat) (body : List Step)
  | interleave (branches : List Branch)
  | job (async : Bool) (name : TextExpr) (body : List Step)
  | run (async : Bool) (snapshot : String) (body : List Step)
  | wrap (name : String) (body : List Step)
  | call (task : String)
  | execute (executor : Option Executor) (body : List Step)
  | drain
  | spawn (body : List Step)
  | join
  | request (async : Bool) (headers : List (TextExpr × TextExpr)) (body : List Step)
  | http (exchange : Exchange) (call body : List Step)
  | unknown (name : String)

/-- One of several units that are polled in turn. -/
inductive Branch where
  | unit (context : ContextExpr) (body : List Step)

end

instance : Inhabited Step := ⟨.get⟩

mutual

/-- The number of steps in a step, itself included. -/
def Step.size : Step → Nat
  | .scope _ _ body | .guard body | .span _ body | .attempt body | .cancel _ body
  | .job _ _ body | .run _ _ body | .wrap _ body | .execute _ body | .spawn body
  | .request _ _ body => stepsSize body + 1
  | .http _ call body => stepsSize call + stepsSize body + 1
  | .interleave branches => branchesSize branches + 1
  | _ => 1

def stepsSize : List Step → Nat
  | [] => 0
  | s :: ss => s.size + stepsSize ss

def Branch.size : Branch → Nat
  | .unit _ body => stepsSize body

/-- The number of steps in several units. -/
def branchesSize : List Branch → Nat
  | [] => 0
  | b :: bs => b.size + branchesSize bs

end

end Scenario
end TraceLineage
