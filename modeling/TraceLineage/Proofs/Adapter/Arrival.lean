import TraceLineage.Adapter.Arrival
import TraceLineage.Proofs.Boundary.Outcome
import TraceLineage.Proofs.Execution.Records

/-!
# Beginning a request

Beginning a request never fails.  The context of a request is new, so that it accepts the id
whatever the headers are, and the id continues the inbound value if that is acceptable.
-/

namespace TraceLineage

namespace Arrival

theorem get?_initialContext
    (c : Config) (lookup : HeaderLookup) :
    (initialContext c lookup).get? = none := by
  rw [initialContext]
  refine List.foldlRecOn (motive := fun ctx : Context => ctx.get? = none) _ _
    Context.get?_empty ?_
  intro ctx hctx a _
  split
  · exact hctx
  · exact hctx

/-- The resolution with which a request begins yields an id that the new context shows beside the
copied values, and writes the records of this id. -/
theorem perform_resolveIn
    {σ : Type} (c : Config) (lookup : HeaderLookup) (w : World σ) :
    ∃ id f, w.perform (.resolveIn c (boundary c lookup) (initialContext c lookup)) =
        ((.ok id, ⟨some id, (initialContext c lookup).auxiliary⟩), { w with facilities := f }) ∧
      c.request.Extends w.facilities.source ((lookup c.headerName).bind TraceId.ofInbound?) id ∧
      Text.allVisible id.text = true ∧ id.isBlank = false ∧
      f.records = w.facilities.records ++
        ((boundary c lookup).events (.ok id)).map (⟨·, w.facilities.spans⟩) := by
  obtain ⟨id, f, hres, hid, hvisible, hblank, _⟩ :=
    c.resolve_request (lookup c.headerName) (get?_initialContext c lookup) w.facilities
  have hrecords :=
    (Facilities.records_resolve c (boundary c lookup) (initialContext c lookup) w.facilities).1
  rw [boundary, hres] at hrecords
  rw [Facilities.fst_inboundParent] at hid
  refine ⟨id, f, ?_, hid, hvisible, hblank, hrecords⟩
  simp only [World.perform, boundary, hres]

/-- What the beginning of a request leaves: an arrival whose context has the new id beside the
copied values, and the records of the resolution. -/
theorem run_begin
    {H : Type → Type} {σ : Type} (h : Handler H σ) (c : Config) (lookup : HeaderLookup)
    (w : World σ) :
    ∃ id f, (begin c lookup).run h w =
        (some (.value (.ok ⟨⟨some id, (initialContext c lookup).auxiliary⟩, id⟩)),
          { w with facilities := f }) ∧
      c.request.Extends w.facilities.source ((lookup c.headerName).bind TraceId.ofInbound?) id ∧
      Text.allVisible id.text = true ∧ id.isBlank = false ∧
      f.records = w.facilities.records ++
        ((boundary c lookup).events (.ok id)).map (⟨·, w.facilities.spans⟩) := by
  obtain ⟨id, f, hperform, hid⟩ := perform_resolveIn c lookup w
  refine ⟨id, f, ?_, hid⟩
  simp only [begin, Prog.run, Prog.drive, hperform]
  rfl

end Arrival
end TraceLineage
