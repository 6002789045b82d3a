/-!
# Visible characters and byte lengths

A character is visible when it is one of the 94 printing ASCII characters from `!` to `~`.
Lengths are counted in UTF-8 bytes; on visible text they count characters.
-/

namespace TraceLineage
namespace Text

/-- A printing ASCII character other than the space. -/
def isVisible (c : Char) : Bool :=
  0x21 ≤ c.toNat && c.toNat ≤ 0x7e

/-- A text of visible characters alone, the empty text included. -/
def allVisible (s : String) : Bool :=
  s.toList.all isVisible

theorem allVisible_append
    (s t : String) :
    allVisible (s ++ t) = (allVisible s && allVisible t) := by
  simp [allVisible]

theorem utf8Size_of_isVisible
    {c : Char} (h : isVisible c = true) :
    c.utf8Size = 1 := by
  rw [Char.utf8Size_eq_one_iff]
  have hn : c.toNat ≤ 0x7e := by
    simp only [isVisible, Bool.and_eq_true, decide_eq_true_eq] at h
    exact h.2
  have hv : c.val.toNat ≤ 127 := by
    have : c.toNat = c.val.toNat := rfl
    omega
  exact UInt32.le_iff_toNat_le.2 hv

/-- Visible characters take as many bytes as there are of them. -/
theorem utf8ByteSize_ofList
    (cs : List Char) (h : cs.all isVisible = true) :
    (String.ofList cs).utf8ByteSize = cs.length := by
  induction cs with
  | nil => rfl
  | cons c cs ih =>
    rw [List.all_cons, Bool.and_eq_true] at h
    have hcons : String.ofList (c :: cs) = String.singleton c ++ String.ofList cs := by
      apply String.toList_inj.1
      simp
    rw [hcons, String.utf8ByteSize_append, String.utf8ByteSize_singleton,
      utf8Size_of_isVisible h.1, ih h.2, List.length_cons, Nat.add_comm]

theorem utf8ByteSize_of_allVisible
    (s : String) (h : allVisible s = true) :
    s.utf8ByteSize = s.toList.length := by
  rw [← utf8ByteSize_ofList s.toList h, String.ofList_toList]

end Text
end TraceLineage
