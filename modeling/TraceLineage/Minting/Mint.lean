import TraceLineage.Minting.Scheme
import TraceLineage.Minting.Source

/-!
# Making ids

An id is made of a head, which is the parent with a delimiter or nothing, followed by the tag of the
scheme, and of a tail of random symbols.  The two parts are kept apart in a `Mint`, so that what was
drawn can be told from what was inherited.
-/

namespace TraceLineage

/-- A generated id in two parts: the head, which the parent and the scheme determine, and the tail,
which was drawn. -/
structure Mint where
  head : String
  tail : String
  deriving DecidableEq, Repr

def Mint.id (m : Mint) : TraceId :=
  ⟨m.head ++ m.tail⟩

namespace Scheme

variable {i : Invoker}

/-- What stands in front of the random part of a child of `parent`.  A blank parent counts as
none. -/
def head (g : Scheme i) (parent : Option TraceId) : Except Fault String :=
  match parent.filter fun p => !p.isBlank with
  | none => .ok g.tag
  | some p => do
    let d ← g.delimiter?
    .ok (p.text ++ String.singleton d ++ g.tag)

/-- A child of `parent`, and the source after its symbols are drawn.  Nothing is drawn where the
child is refused. -/
def mint (g : Scheme i) (parent : Option TraceId) (s : Source) :
    Except Fault Mint × Source :=
  match g.head parent with
  | .ok h => (.ok ⟨h, String.ofList (s.take g.randomLength)⟩, s.skip g.randomLength)
  | .error e => (.error e, s)

/-- The next `n` segments without a parent. -/
def segments (g : Scheme i) : Nat → Source → List String
  | 0, _ => []
  | n + 1, s =>
    (g.tag ++ String.ofList (s.take g.randomLength)) :: g.segments n (s.skip g.randomLength)

theorem head_none
    (g : Scheme i) :
    g.head none = .ok g.tag := rfl

end Scheme
end TraceLineage
