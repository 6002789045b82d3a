import TraceLineage.Execution.Ambient

/-!
# Arriving requests

The adapter for incoming requests: it fills a new context from the headers, resolves the id of the
request in it, and runs the handler in that context.
-/

namespace TraceLineage

/-- A request that has arrived and whose id is resolved. -/
structure Arrival where
  context : Context
  traceId : TraceId
  deriving DecidableEq

abbrev HeaderLookup := String → Option String

namespace Arrival

variable {H : Type → Type} {α : Type}

/-- A new context with the values of the copied headers, of which the last one present decides
about each key. -/
def initialContext (c : Config) (lookup : HeaderLookup) : Context :=
  c.copiedHeaders.foldl
    (fun ctx a =>
      match lookup a.name with
      | some value => ctx.put a.key value
      | none => ctx)
    .empty

/-- The boundary of a request with the given headers. -/
def boundary (c : Config) (lookup : HeaderLookup) : Boundary :=
  .request (lookup c.headerName)

/-- Resolves the id of a request with the given headers. -/
def begin (c : Config) (lookup : HeaderLookup) : Prog H (Except Fault Arrival) :=
  .op (.resolveIn c (boundary c lookup) (initialContext c lookup)) fun
    | (.ok id, ctx) => pure (.ok ⟨ctx, id⟩)
    | (.error e, _) => pure (.error e)

/-- Runs the handler of a request in its context, which is cleared at the end. -/
def scope (r : Arrival) (handler : Prog H α) : Prog H α :=
  Ambient.inContext r.context (Ambient.guarded handler)

/-- Runs the handler of a request on the spot. -/
def scopeSync (r : Arrival) (handler : Prog H α) : Prog H α :=
  r.scope handler.inPlace

end Arrival
end TraceLineage
