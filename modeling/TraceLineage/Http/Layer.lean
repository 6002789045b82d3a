import TraceLineage.Adapter.Arrival
import TraceLineage.Http.Header
import TraceLineage.Http.Uri
import TraceLineage.Text.Token

/-!
# The HTTP layer

A service acts in two phases: it is called, at once, and then its response is polled, now or later,
here or elsewhere, or never.  A layer makes a new service out of another one.  When the new service
is called, it resolves the id of the request and calls the other service with a request that carries
the id; its response is the response of the other service in the context of the request, with the id
in a header.  The call of the other service happens in front of the context and the span of the
request.
-/

namespace TraceLineage
namespace Http

/-- A request with a body, to which a layer may have attached an id. -/
structure Request (β : Type) where
  method : String := "GET"
  uri : Uri := {}
  headers : HeaderMap := {}
  traceId : Option TraceId := none
  body : β
  deriving DecidableEq

/-- The request of some texts, if its method is a token and its target can be read. -/
def Request.ofTexts? {β : Type} (method target : String) (headers : HeaderMap) (body : β) :
    Option (Request β) :=
  if Text.isToken method then
    (Uri.ofString? target).map fun uri => { method, uri, headers, body }
  else none

/-- A response with a body. -/
structure Response (β : Type) where
  status : Nat
  headers : HeaderMap := {}
  body : β
  deriving DecidableEq

/-- A service that answers requests or fails with an `ε`.  A call hands something over to the
response, which is polled at any time after it. -/
structure Service (H : Type → Type) (β ε : Type) where
  Pending : Type
  call : Request β → Prog H Pending
  respond : Pending → Prog H (Except ε (Response β))

/-- Calls a service and waits for its response. -/
def Service.handle {H : Type → Type} {β ε : Type} (s : Service H β ε) (r : Request β) :
    Prog H (Except ε (Response β)) := do
  let pending ← (s.call r).inPlace
  s.respond pending

/-- What a layer does beside resolving ids: whether the response runs inside a span, and whether it
carries the id. -/
structure Options where
  span : Bool := true
  responseHeader : Bool := true
  deriving DecidableEq, Repr

/-- A layer: how it makes ids and names headers, the header that carries the id in responses, and
what else it does. -/
structure Layer where
  config : Config
  header : HeaderName
  options : Options

namespace Layer

/-- The layer of the standard configuration. -/
def standard : Layer where
  config := .standard
  header := ⟨defaultHeaderName⟩
  options := {}

def setOptions (l : Layer) (o : Options) : Layer :=
  { l with options := o }

/-- The layer of the standard configuration without spans. -/
def spanless : Layer :=
  standard.setOptions { span := false }

def ofConfig (c : Config) : Except Fault Layer :=
  match HeaderName.ofString? c.headerName with
  | some n => .ok ⟨c, n, {}⟩
  | none => .error (.configuration (.headerRefused c.headerName))

variable {H : Type → Type} {β ε : Type}

/-- The span around the response to a request that has arrived. -/
def requestSpan (trace : Arrival) (r : Request β) : Span where
  name := "request"
  fields := [("trace_id", .text trace.traceId.text), ("method", .text r.method),
    ("uri", .text r.uri.text)]
  maps := [("auxiliary", trace.context.auxiliary)]

/-- The event that reports a request without an id. -/
def failedEvent (e : Fault) : Event where
  level := .error
  message := "Failed to resolve request trace id"
  fields := [("error", .text e.message)]

/-- The response of the layer itself to a request without an id, with an empty body. -/
def failedResponse [Inhabited β] : Response β where
  status := 500
  body := default

/-- The response with the id in a header, if the layer puts it there. -/
def finish (l : Layer) (id : TraceId) (r : Response β) : Response β :=
  if l.options.responseHeader = true then
    match HeaderValue.ofPlain? id.text with
    | some value => { r with headers := r.headers.insert l.header value }
    | none => r
  else r

/-- The path of a new span around a response, if the layer opens one. -/
def openSpan (l : Layer) (trace : Arrival) (r : Request β) : Prog H (List Span) := do
  if l.options.span = true then
    return (← Ambient.spans) ++ [requestSpan trace r]
  else
    return []

/-- What the call of a layer hands over to the response: the request had no id, or it has arrived,
and the service behind the layer has handed something over to be polled inside a span. -/
inductive Begun (P : Type) where
  | refused
  | serving (trace : Arrival) (path : List Span) (pending : P)

/-- The service that a layer makes of another one. -/
def around [Inhabited β] (l : Layer) (s : Service H β ε) : Service H β ε where
  Pending := Begun s.Pending
  call r := do
    match ← Arrival.begin l.config r.headers.lookup with
    | .error e =>
      Ambient.emit (failedEvent e)
      return .refused
    | .ok trace =>
      let r := { r with traceId := some trace.traceId }
      let path ← openSpan l trace r
      let pending ← (s.call r).inPlace
      return .serving trace path pending
  respond
    | .refused => return .ok failedResponse
    | .serving trace path pending => Ambient.underSpans path <| trace.scope do
      match ← s.respond pending with
      | .error e => return .error e
      | .ok response => return .ok (l.finish trace.traceId response)

end Layer

/-- A refusal to extract something from a request: a status code and the text of a body. -/
structure Rejection where
  status : Nat
  text : String
  deriving DecidableEq, Repr

/-- The event that reports a handler without an id. -/
def missingEvent : Event where
  level := .error
  message := "TraceId requested but no trace id was resolved for this request. " ++
    "Is TraceIdLayer installed?"

/-- The id that a layer has attached to a request, or else the id in scope. -/
def extract {H : Type → Type} (attached : Option TraceId) :
    Prog H (Except Rejection TraceId) := do
  match attached with
  | some id => return .ok id
  | none =>
    match ← Ambient.traceId? with
    | some id => return .ok id
    | none =>
      Ambient.emit missingEvent
      return .error ⟨500, "trace id is not available"⟩

end Http
end TraceLineage
