import TraceLineage.Config
import TraceLineage.Scenario.Redaction

/-!
# Generating a list of ids

A scenario of the third kind generates one id after another, each a child of a parent that may
mention the ids in front of it.
-/

namespace TraceLineage
namespace Scenario
namespace Generation

/-- A report: the ids or faults, and the redaction of the ids in them. -/
structure GenerationReport where
  results : List (Except Fault TraceId)
  redaction : Redaction

/-- The children of some parents in order, with the facilities and the aliases afterwards. -/
def children {i : Invoker} (g : Scheme i) :
    List (Option TextExpr) → Facilities → List Alias →
      List (Except Fault TraceId) × Facilities × List Alias
  | [], f, as => ([], f, as)
  | parent :: parents, f, as =>
    let as := as ++ (parent.bind fun t => t.alias? f.minted).toList
    let (r, f) := f.generate g (parent.map fun t => ⟨t.eval f.minted⟩)
    let (rs, f, as) := children g parents f as
    (r :: rs, f, as)

def run (c : Config) (i : Invoker) (source : Source) (parents : List (Option TextExpr)) :
    GenerationReport :=
  let (rs, f, as) := children (c.scheme i) parents (.fresh source) []
  { results := rs, redaction := .ofMints f.minted as }

end Generation
end Scenario
end TraceLineage
