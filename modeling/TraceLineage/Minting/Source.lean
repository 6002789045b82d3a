/-!
# Random symbols

The alphabet of the random part of an id, and sources of symbols.  A source is any infinite
sequence of indices below the size of the alphabet together with how many have been drawn; nothing
else is assumed of randomness.
-/

namespace TraceLineage

/-- The characters of the random part of an id, in index order. -/
def alphabet : List Char :=
  ['A', 'B', 'C', 'D', 'E', 'F', 'G', 'H', 'I', 'J', 'K', 'L', 'M', 'N', 'O', 'P', 'Q', 'R', 'S',
    'T', 'U', 'V', 'W', 'X', 'Y', 'Z', 'a', 'b', 'c', 'd', 'e', 'f', 'g', 'h', 'i', 'j', 'k', 'l',
    'm', 'n', 'o', 'p', 'q', 'r', 's', 't', 'u', 'v', 'w', 'x', 'y', 'z', '0', '1', '2', '3', '4',
    '5', '6', '7', '8', '9', '_']

abbrev alphabetSize : Nat := 63

theorem length_alphabet : alphabet.length = alphabetSize := rfl

def symbol (i : Fin alphabetSize) : Char :=
  alphabet.get ⟨i.val, by rw [length_alphabet]; exact i.isLt⟩

theorem symbol_mem_alphabet
    (i : Fin alphabetSize) :
    symbol i ∈ alphabet :=
  List.get_mem alphabet _

/-- A sequence of symbol indices, of which the first `drawn` are used up. -/
structure Source where
  index : Nat → Fin alphabetSize
  drawn : Nat

namespace Source

/-- The next `n` symbols. -/
def take (s : Source) (n : Nat) : List Char :=
  (List.range n).map fun i => symbol (s.index (s.drawn + i))

/-- The source after `n` symbols have been drawn. -/
def skip (s : Source) (n : Nat) : Source :=
  { s with drawn := s.drawn + n }

/-- One round of an integer mixing function with full avalanche. -/
def mix (z : UInt64) : UInt64 :=
  let a := (z ^^^ (z >>> 30)) * 0xbf58476d1ce4e5b9
  let b := (a ^^^ (a >>> 27)) * 0x94d049bb133111eb
  b ^^^ (b >>> 31)

/-- A source that mixes a seed with the position of each symbol. -/
def seeded (seed : UInt64) : Source where
  index i :=
    ⟨(mix (seed + (i.toUInt64 + 1) * 0x9e3779b97f4a7c15)).toNat % alphabetSize,
      Nat.mod_lt _ (by decide)⟩
  drawn := 0

theorem length_take
    (s : Source) (n : Nat) :
    (s.take n).length = n := by
  simp [take]

theorem mem_alphabet_of_mem_take
    {s : Source} {n : Nat} {c : Char} (h : c ∈ s.take n) :
    c ∈ alphabet := by
  simp only [take, List.mem_map, List.mem_range] at h
  obtain ⟨i, _, rfl⟩ := h
  exact symbol_mem_alphabet _

theorem skip_skip
    (s : Source) (m n : Nat) :
    (s.skip m).skip n = s.skip (m + n) := by
  simp [skip, Nat.add_assoc]

end Source
end TraceLineage
