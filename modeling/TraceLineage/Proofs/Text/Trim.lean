import TraceLineage.Text.Blank

/-!
# Trimming

A text is the trimmed form of another one if that one is the text with white space around it, and
the text itself neither starts nor ends with white space.  Every text has exactly one trimmed form,
and more white space at either end does not change it.
-/

namespace TraceLineage
namespace Text

/-- `t` is what is left of `raw` when all white space at both ends is removed. -/
structure IsTrimOf (t raw : String) : Prop where
  around : ∃ u v, isBlank u = true ∧ isBlank v = true ∧ raw = u ++ t ++ v
  head : ∀ c, t.toList.head? = some c → isWhiteSpace c = false
  last : ∀ c, t.toList.getLast? = some c → isWhiteSpace c = false

/-! ## Lists of characters -/

/-- White space in front of some characters and behind them is lost. -/
theorem trimChars_append
    {us vs : List Char} (hus : us.all isWhiteSpace = true) (hvs : vs.all isWhiteSpace = true)
    (cs : List Char) :
    trimChars (us ++ cs ++ vs) = trimChars cs := by
  have hfront : ∀ c ∈ us, isWhiteSpace c = true := List.all_eq_true.1 hus
  have hback : ∀ c ∈ vs.reverse, isWhiteSpace c = true := by
    intro c hc
    exact List.all_eq_true.1 hvs c (List.mem_reverse.1 hc)
  rw [trimChars, trimChars, List.append_assoc, List.dropWhile_append_of_pos hfront,
    List.dropWhile_append]
  by_cases hcs : cs.dropWhile isWhiteSpace = []
  · have hnone : vs.dropWhile isWhiteSpace = [] := (dropWhile_eq_nil _ _).2 hvs
    rw [hcs, List.isEmpty_nil, if_pos rfl, hnone]
  · have hsome : ¬(cs.dropWhile isWhiteSpace).isEmpty = true := by
      intro hempty
      exact hcs (List.isEmpty_iff.1 hempty)
    rw [if_neg hsome, List.reverse_append, List.dropWhile_append_of_pos hback]

theorem trimChars_of_ends
    {cs : List Char} (hhead : ∀ c, cs.head? = some c → isWhiteSpace c = false)
    (hlast : ∀ c, cs.getLast? = some c → isWhiteSpace c = false) :
    trimChars cs = cs := by
  have hkept : ∀ ds : List Char, (∀ c, ds.head? = some c → isWhiteSpace c = false) →
      ds.dropWhile isWhiteSpace = ds := by
    intro ds hds
    cases ds with
    | nil => rfl
    | cons d ds => exact List.dropWhile_cons_of_neg (Bool.eq_false_iff.1 (hds d rfl))
  have hreverse : cs.reverse.dropWhile isWhiteSpace = cs.reverse := by
    apply hkept
    intro c hc
    rw [List.head?_reverse] at hc
    exact hlast c hc
  rw [trimChars, hkept cs hhead, hreverse, List.reverse_reverse]

/-- The second pass of trimming removes the end of what the first one has left. -/
theorem exists_append_eq_dropWhile
    (cs : List Char) :
    ∃ vs, vs.all isWhiteSpace = true ∧ trimChars cs ++ vs = cs.dropWhile isWhiteSpace := by
  let rest := cs.dropWhile isWhiteSpace
  refine ⟨(rest.reverse.takeWhile isWhiteSpace).reverse, ?_, ?_⟩
  · rw [List.all_reverse]
    exact List.all_takeWhile
  · rw [trimChars, ← List.reverse_append, List.takeWhile_append_dropWhile, List.reverse_reverse]

theorem isWhiteSpace_of_head?_dropWhile
    {cs : List Char} {c : Char} (hc : (cs.dropWhile isWhiteSpace).head? = some c) :
    isWhiteSpace c = false := by
  have hhead := List.head?_dropWhile_not isWhiteSpace cs
  rw [hc] at hhead
  exact hhead

/-! ## Texts -/

/-- A text has exactly one trimmed form. -/
theorem isTrimOf_iff
    (t raw : String) :
    IsTrimOf t raw ↔ t = trim raw := by
  constructor
  · rintro ⟨⟨u, v, hu, hv, rfl⟩, hhead, hlast⟩
    rw [trim, String.toList_append, String.toList_append, trimChars_append hu hv,
      trimChars_of_ends hhead hlast, String.ofList_toList]
  · rintro rfl
    obtain ⟨vs, hvs, hrest⟩ := exists_append_eq_dropWhile raw.toList
    constructor
    · refine ⟨String.ofList (raw.toList.takeWhile isWhiteSpace), String.ofList vs, ?_, ?_, ?_⟩
      · rw [isBlank, String.toList_ofList]
        exact List.all_takeWhile
      · rw [isBlank, String.toList_ofList]
        exact hvs
      · rw [← String.toList_inj, trim, String.toList_append, String.toList_append,
          String.toList_ofList, String.toList_ofList, String.toList_ofList, List.append_assoc,
          hrest, List.takeWhile_append_dropWhile]
    · intro c hc
      rw [trim, String.toList_ofList] at hc
      apply isWhiteSpace_of_head?_dropWhile
      rw [← hrest, List.head?_append, hc, Option.some_or]
    · intro c hc
      rw [trim, String.toList_ofList, trimChars, List.getLast?_reverse] at hc
      exact isWhiteSpace_of_head?_dropWhile hc

/-- White space around a text does not change its trimmed form. -/
theorem trim_append
    {u v : String} (hu : isBlank u = true) (hv : isBlank v = true) (s : String) :
    trim (u ++ s ++ v) = trim s := by
  rw [trim, trim, String.toList_append, String.toList_append, trimChars_append hu hv]

end Text
end TraceLineage
