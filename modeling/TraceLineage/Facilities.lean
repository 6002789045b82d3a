import TraceLineage.Minting.Mint
import TraceLineage.Record

/-!
# Facilities

What every execution unit shares beside its context: the source of random symbols with the ids made
from it, and the log with the spans that are open.  Each operation appends; nothing is taken back.
-/

namespace TraceLineage

/-- The shared facilities at one moment: the source of symbols, the ids generated so far, oldest
first, also those that were then refused, the current span behind its ancestors, and the log. -/
structure Facilities where
  source : Source
  minted : List Mint := []
  spans : List Span := []
  records : List Record := []

namespace Facilities

/-- Facilities with nothing generated, opened or recorded yet. -/
def fresh (source : Source) : Facilities where
  source := source

/-- Appends an event, inside the current span. -/
def emit (f : Facilities) (e : Event) : Facilities :=
  { f with records := f.records ++ [⟨e, f.spans⟩] }

def generate {i : Invoker} (f : Facilities) (g : Scheme i) (parent : Option TraceId) :
    Except Fault TraceId × Facilities :=
  match g.mint parent f.source with
  | (.ok m, s) => (.ok m.id, { f with source := s, minted := f.minted ++ [m] })
  | (.error e, s) => (.error e, { f with source := s })

theorem spans_emit
    (f : Facilities) (e : Event) :
    (f.emit e).spans = f.spans := rfl

theorem records_emit
    (f : Facilities) (e : Event) :
    (f.emit e).records = f.records ++ [⟨e, f.spans⟩] := rfl

end Facilities
end TraceLineage
