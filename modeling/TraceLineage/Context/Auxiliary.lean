/-!
# Auxiliary fields

A finite map from texts to texts.  Its entries are kept in ascending order of their keys, one entry
for each key, so that two maps with the same values are equal.
-/

namespace TraceLineage

/-- Texts under distinct keys. -/
structure Auxiliary where
  entries : List (String × String)
  sorted : entries.Pairwise fun a b => a.1 < b.1
  deriving DecidableEq, Repr

namespace Auxiliary

def empty : Auxiliary := ⟨[], .nil⟩

instance : Inhabited Auxiliary := ⟨empty⟩

/-- Puts a value under a key into an ordered list, replacing the value that was there. -/
def insertEntry (k v : String) : List (String × String) → List (String × String)
  | [] => [(k, v)]
  | e :: es =>
    if k < e.1 then (k, v) :: e :: es
    else if k = e.1 then (k, v) :: es
    else e :: insertEntry k v es

theorem mem_insertEntry
    {k v : String} {e : String × String} {es : List (String × String)}
    (h : e ∈ insertEntry k v es) :
    e = (k, v) ∨ e ∈ es := by
  induction es with
  | nil => simpa [insertEntry] using h
  | cons d es ih =>
    simp only [insertEntry] at h
    split at h
    · simpa using h
    · split at h
      · rcases List.mem_cons.1 h with h | h
        · exact Or.inl h
        · exact Or.inr (List.mem_cons_of_mem _ h)
      · rcases List.mem_cons.1 h with h | h
        · exact Or.inr (h ▸ List.mem_cons_self)
        · rcases ih h with h | h
          · exact Or.inl h
          · exact Or.inr (List.mem_cons_of_mem _ h)

theorem lt_of_not_lt_of_ne
    {a b : String} (hlt : ¬ a < b) (hne : a ≠ b) :
    b < a := by
  by_cases h : b < a
  · exact h
  · exact absurd (String.le_antisymm (String.not_lt.1 h) (String.not_lt.1 hlt)) hne

theorem pairwise_insertEntry
    (k v : String) {es : List (String × String)}
    (h : es.Pairwise fun a b => a.1 < b.1) :
    (insertEntry k v es).Pairwise fun a b => a.1 < b.1 := by
  induction es with
  | nil => simp [insertEntry]
  | cons e es ih =>
    obtain ⟨he, hes⟩ := List.pairwise_cons.1 h
    simp only [insertEntry]
    split
    · next hlt =>
      refine List.pairwise_cons.2 ⟨?_, h⟩
      intro d hd
      rcases List.mem_cons.1 hd with hd | hd
      · exact hd ▸ hlt
      · exact String.lt_trans hlt (he d hd)
    · next hlt =>
      split
      · next heq =>
        refine List.pairwise_cons.2 ⟨?_, hes⟩
        intro d hd
        exact heq ▸ he d hd
      · next hne =>
        refine List.pairwise_cons.2 ⟨?_, ih hes⟩
        intro d hd
        rcases mem_insertEntry hd with hd | hd
        · exact hd ▸ lt_of_not_lt_of_ne hlt hne
        · exact he d hd

/-- Puts a value under a key, replacing the value that was there. -/
def insert (a : Auxiliary) (k v : String) : Auxiliary :=
  ⟨insertEntry k v a.entries, pairwise_insertEntry k v a.sorted⟩

/-- The value under a key. -/
def get? (a : Auxiliary) (k : String) : Option String :=
  a.entries.lookup k

def isEmpty (a : Auxiliary) : Bool :=
  a.entries.isEmpty

/-- The map of a list of entries; of two entries with one key the later counts. -/
def ofList (es : List (String × String)) : Auxiliary :=
  es.foldl (fun a e => a.insert e.1 e.2) empty

theorem get?_empty
    (k : String) :
    empty.get? k = none := rfl

theorem lookup_cons_eq
    (q : String) (e : String × String) (es : List (String × String)) :
    (e :: es).lookup q = if q = e.1 then some e.2 else es.lookup q := by
  rw [List.lookup_cons]
  by_cases h : q = e.1
  · rw [if_pos h, beq_iff_eq.2 h]
  · rw [if_neg h, beq_eq_false_iff_ne.2 h]

theorem lookup_insertEntry
    (k v q : String) (es : List (String × String)) :
    (insertEntry k v es).lookup q = if q = k then some v else es.lookup q := by
  induction es with
  | nil => simp only [insertEntry, lookup_cons_eq]
  | cons e es ih =>
    simp only [insertEntry]
    split
    · rw [lookup_cons_eq]
    · split
      · next heq =>
        rw [lookup_cons_eq, lookup_cons_eq, ← heq]
        by_cases h : q = k <;> simp [h]
      · next hne =>
        rw [lookup_cons_eq, lookup_cons_eq, ih]
        by_cases h : q = k
        · simp [h, hne]
        · simp [h]

theorem get?_insert
    (a : Auxiliary) (k v q : String) :
    (a.insert k v).get? q = if q = k then some v else a.get? q :=
  lookup_insertEntry k v q a.entries

end Auxiliary
end TraceLineage
