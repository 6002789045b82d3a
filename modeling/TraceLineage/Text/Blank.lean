/-!
# White space and blank text

The characters with the Unicode property `White_Space`, removing them from both ends of a text,
and the texts that consist of nothing else.  Trace ids, context keys and inbound header values are
all tested for blankness by these definitions.
-/

namespace TraceLineage
namespace Text

/-- The code points with the property `White_Space`, as inclusive ranges in ascending order. -/
def whiteSpaceRanges : List (Nat × Nat) :=
  [(0x09, 0x0d), (0x20, 0x20), (0x85, 0x85), (0xa0, 0xa0), (0x1680, 0x1680), (0x2000, 0x200a),
    (0x2028, 0x2029), (0x202f, 0x202f), (0x205f, 0x205f), (0x3000, 0x3000)]

/-- A character of the property `White_Space`. -/
def isWhiteSpace (c : Char) : Bool :=
  whiteSpaceRanges.any fun r => r.1 ≤ c.toNat && c.toNat ≤ r.2

/-- The characters of a text without the white space at either end. -/
def trimChars (cs : List Char) : List Char :=
  ((cs.dropWhile isWhiteSpace).reverse.dropWhile isWhiteSpace).reverse

/-- A text without the white space at either end. -/
def trim (s : String) : String :=
  String.ofList (trimChars s.toList)

/-- A text of white space alone, the empty text included. -/
def isBlank (s : String) : Bool :=
  s.toList.all isWhiteSpace

theorem isBlank_empty : isBlank "" = true := rfl

theorem isBlank_append
    (s t : String) :
    isBlank (s ++ t) = (isBlank s && isBlank t) := by
  simp [isBlank]

/-- Dropping a leading run leaves nothing exactly if the whole list is that run. -/
theorem dropWhile_eq_nil
    {α : Type} (p : α → Bool) (l : List α) :
    l.dropWhile p = [] ↔ l.all p = true := by
  induction l with
  | nil => simp
  | cons a l ih => by_cases h : p a = true <;> simp [h, ih]

/-- What is left of a list after its leading run is empty or starts outside the run. -/
theorem dropWhile_all
    {α : Type} (p : α → Bool) (l : List α)
    (h : (l.dropWhile p).all p = true) :
    l.dropWhile p = [] := by
  induction l with
  | nil => rfl
  | cons a l ih =>
    by_cases ha : p a = true
    · simp only [List.dropWhile_cons, ha, if_true] at h ⊢
      exact ih h
    · simp [ha] at h

theorem trimChars_eq_nil_iff
    (cs : List Char) :
    trimChars cs = [] ↔ cs.all isWhiteSpace = true := by
  rw [trimChars, List.reverse_eq_nil_iff, dropWhile_eq_nil, List.all_reverse]
  constructor
  · intro h
    exact (dropWhile_eq_nil isWhiteSpace cs).1 (dropWhile_all isWhiteSpace cs h)
  · intro h
    simp [(dropWhile_eq_nil isWhiteSpace cs).2 h]

/-- A text is blank exactly if nothing of it survives trimming. -/
theorem trim_eq_empty_iff
    (s : String) :
    trim s = "" ↔ isBlank s = true := by
  rw [trim, ← String.toList_inj, String.toList_ofList]
  exact trimChars_eq_nil_iff s.toList

end Text
end TraceLineage
