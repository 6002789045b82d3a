import TraceLineage.Minting.Mint

/-!
# Surveys of segments

What a number of segments have in common, told without the segments themselves.
-/

namespace TraceLineage

/-- A summary of several segments of one scheme: the distinct random characters, the distinct texts
in front of them, and the distinct lengths in bytes, all in ascending order. -/
structure Survey where
  characters : List Char
  heads : List String
  lengths : List Nat
  distinct : Nat
  deriving Repr

namespace Survey

/-- Removes what is equal to its predecessor. -/
def dedup {α : Type} [DecidableEq α] : List α → List α
  | [] => []
  | [a] => [a]
  | a :: b :: r => if a = b then dedup (b :: r) else a :: dedup (b :: r)

/-- The distinct texts in ascending order. -/
def distinctTexts (l : List String) : List String :=
  dedup (l.mergeSort fun a b => a ≤ b)

/-- The distinct numbers in ascending order. -/
def distinctNumbers (l : List Nat) : List Nat :=
  dedup (l.mergeSort fun a b => a ≤ b)

/-- The summary of some segments whose random part starts behind `n` characters. -/
def ofSegments (n : Nat) (segments : List String) : Survey where
  characters :=
    (distinctNumbers (segments.flatMap fun s => (s.toList.drop n).map Char.toNat)).map Char.ofNat
  heads := distinctTexts (segments.map fun s => String.ofList (s.toList.take n))
  lengths := distinctNumbers (segments.map String.utf8ByteSize)
  distinct := (distinctTexts segments).length

end Survey

/-- The summary of the next `count` segments. -/
def Scheme.survey {i : Invoker} (g : Scheme i) (count : Nat) (s : Source) :
    Survey :=
  .ofSegments g.tag.utf8ByteSize (g.segments count s)

end TraceLineage
