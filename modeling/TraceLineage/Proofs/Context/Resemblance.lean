import TraceLineage.Boundary
import TraceLineage.Proofs.Minting.Injectivity

/-!
# Contexts that show the same

A context may store a blank id or none, and the two are different values.  No operation can tell
them apart: what an operation finds, and whether it succeeds, depends on the id that is shown and on
the fields, and whatever it changes is overwritten.
-/

namespace TraceLineage
namespace Context

variable {c d : Context}

/-- Contexts with the same fields, and with the same id or none that counts. -/
structure Resembles (c d : Context) : Prop where
  auxiliary : c.auxiliary = d.auxiliary
  current : c.current = d.current ∨ TraceId.IsMissing c.current ∧ TraceId.IsMissing d.current

theorem resembles_iff
    (c d : Context) :
    c.Resembles d ↔ c.auxiliary = d.auxiliary ∧ c.get? = d.get? := by
  have hshown : c.get? = d.get? ↔
      c.current = d.current ∨ TraceId.IsMissing c.current ∧ TraceId.IsMissing d.current :=
    TraceId.counted_eq_iff c.current d.current
  constructor
  · intro hcd
    exact ⟨hcd.auxiliary, hshown.2 hcd.current⟩
  · rintro ⟨hauxiliary, hget⟩
    exact ⟨hauxiliary, hshown.1 hget⟩

theorem resembles_equivalence :
    Equivalence Resembles := by
  constructor
  · intro c
    exact ⟨rfl, .inl rfl⟩
  · intro c d hcd
    rw [resembles_iff] at hcd ⊢
    exact ⟨hcd.1.symm, hcd.2.symm⟩
  · intro c d e hcd hde
    rw [resembles_iff] at hcd hde ⊢
    exact ⟨hcd.1.trans hde.1, hcd.2.trans hde.2⟩

theorem resembles_of_blank
    {id : TraceId} (hid : id.isBlank = true) (a : Auxiliary) :
    Resembles ⟨none, a⟩ ⟨some id, a⟩ := by
  refine ⟨rfl, .inr ⟨?_, ?_⟩⟩
  · intro p hp
    cases hp
  · intro p hp
    cases hp
    exact hid

namespace Resembles

theorem refl
    (c : Context) :
    c.Resembles c :=
  resembles_equivalence.refl c

theorem get?_eq
    (hcd : c.Resembles d) :
    c.get? = d.get? :=
  ((resembles_iff c d).1 hcd).2

theorem isEmpty_eq
    (hcd : c.Resembles d) :
    c.isEmpty = d.isEmpty := by
  rw [isEmpty, isEmpty, hcd.get?_eq, hcd.auxiliary]

/-- The stored id is replaced whatever it was, so that equal contexts are left. -/
theorem set_eq
    (hcd : c.Resembles d) (id : TraceId) :
    c.set id = d.set id := by
  simp only [set, hcd.get?_eq, hcd.auxiliary]

theorem put
    (hcd : c.Resembles d) (k v : String) :
    (c.put k v).Resembles (d.put k v) := by
  refine ⟨?_, hcd.current⟩
  exact congrArg (fun a : Auxiliary => a.insert k v) hcd.auxiliary

theorem generateAt_eq
    (hcd : c.Resembles d) (g : Config) (b : Boundary) (f : Facilities) :
    g.generateAt b c f = g.generateAt b d f := by
  cases b with
  | request inbound => rfl
  | job => simp only [Config.generateAt, hcd.get?_eq]
  | handoff => simp only [Config.generateAt, hcd.get?_eq]

/-- A resolution comes to the same and writes the same.  If it fails, the contexts are as before,
and otherwise they are equal. -/
theorem resolve
    (hcd : c.Resembles d) (g : Config) (b : Boundary) (f : Facilities) :
    (g.resolve b c f).1 = (g.resolve b d f).1 ∧
      (g.resolve b c f).2.1.Resembles (g.resolve b d f).2.1 ∧
      (g.resolve b c f).2.2 = (g.resolve b d f).2.2 := by
  simp only [Config.resolve, hcd.generateAt_eq]
  rcases g.generateAt b d f with ⟨e | id, f'⟩
  · exact ⟨rfl, hcd, rfl⟩
  · simp only [hcd.set_eq]
    cases d.set id with
    | error e => exact ⟨rfl, hcd, rfl⟩
    | ok changed => exact ⟨rfl, refl changed, rfl⟩

end Resembles
end Context
end TraceLineage
