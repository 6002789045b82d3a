import TraceLineage.Text.Blank
import TraceLineage.Text.Visible

/-!
# Trace ids

A trace id is a text that grows to the right: each execution unit appends a segment to the id of
its parent, so that the ids of one chain are ordered by the prefix relation.  Ids received from
outside are admitted by `TraceId.ofInbound?`, which trims white space and then requires 1 to 512
visible characters.
-/

namespace TraceLineage

/-- An id that correlates the records of one chain of execution units. -/
structure TraceId where
  text : String
  deriving DecidableEq, Repr

namespace TraceId

/-- The longest inbound id accepted, in bytes. -/
def maxInboundLength : Nat := 512

/-- A blank id counts as no id. -/
def isBlank (id : TraceId) : Bool :=
  Text.isBlank id.text

/-- Whether the text of `parent` is a prefix of the text of `id`. -/
def isExtensionOf (id parent : TraceId) : Bool :=
  parent.text.toList.isPrefixOf id.text.toList

/-- The id carried by an inbound value, if the value is acceptable. -/
def ofInbound? (raw : String) : Option TraceId :=
  let t := Text.trim raw
  if t ≠ "" ∧ t.utf8ByteSize ≤ maxInboundLength ∧ Text.allVisible t = true then some ⟨t⟩ else none

theorem isExtensionOf_iff
    (id parent : TraceId) :
    id.isExtensionOf parent = true ↔ parent.text.toList <+: id.text.toList :=
  List.isPrefixOf_iff_prefix

theorem isExtensionOf_refl
    (id : TraceId) :
    id.isExtensionOf id = true :=
  (isExtensionOf_iff id id).2 (List.prefix_refl _)

theorem isExtensionOf_trans
    {a b c : TraceId} (hba : b.isExtensionOf a = true) (hcb : c.isExtensionOf b = true) :
    c.isExtensionOf a = true := by
  rw [isExtensionOf_iff] at *
  exact hba.trans hcb

theorem isExtensionOf_append
    (id : TraceId) (s : String) :
    (TraceId.mk (id.text ++ s)).isExtensionOf id = true := by
  rw [isExtensionOf_iff]
  simp

theorem isBlank_eq_false_of_isExtensionOf
    {a b : TraceId} (hba : b.isExtensionOf a = true) (ha : a.isBlank = false) :
    b.isBlank = false := by
  rw [isExtensionOf_iff] at hba
  obtain ⟨t, ht⟩ := hba
  have hb : b.text = a.text ++ String.ofList t := by
    apply String.toList_inj.1
    simp [ht]
  rw [isBlank] at ha ⊢
  rw [hb, Text.isBlank_append, ha]
  rfl

end TraceId
end TraceLineage
