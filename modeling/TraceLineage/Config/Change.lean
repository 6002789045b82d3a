import TraceLineage.Config

/-!
# Changing a configuration step by step

Each change is checked on its own; a change that violates a rule leaves the configuration as it was.
-/

namespace TraceLineage

/-- A change of a configuration: a scheme is built and put in, the header that carries ids is
replaced, or a header to copy is appended. -/
inductive Change where
  | scheme (invoker : Invoker) (parts : SchemeParts)
  | headerName (name : String)
  | copiedHeader (header : CopiedHeader)
  deriving DecidableEq, Repr

namespace Config

/-- The configuration after a change, or the rule that the change violates. -/
def change (c : Config) : Change → Except ConfigFault Config
  | .scheme i parts => do
    let g ← Scheme.build i parts
    .ok (c.setScheme g)
  | .headerName name => c.setHeaderName name
  | .copiedHeader h => c.addCopiedHeader h

/-- The results of several changes, each applied to the last valid configuration. -/
def changes (c : Config) : List Change → List (Except ConfigFault Config)
  | [] => []
  | ch :: chs =>
    match c.change ch with
    | .ok d => .ok d :: d.changes chs
    | .error e => .error e :: c.changes chs

end Config
end TraceLineage
