import TraceLineage.Proofs.Execution.Across
import TraceLineage.Proofs.Execution.Trace

/-!
# Records of operations

Which records an operation writes can be told from what happened: from the operation, its result and
the current span.  All records of one operation stand in the same span, and no operation changes the
current span; nor does any program whose host leaves it alone, because every frame puts back the
span that it has replaced.
-/

namespace TraceLineage

namespace Boundary

/-- The event that reports the inbound value of a boundary, if the value is rejected. -/
def rejections : Boundary → List Event
  | request none => []
  | request (some raw) =>
    if (TraceId.ofInbound? raw).isNone && !Text.isBlank raw then
      [discardedEvent raw.utf8ByteSize]
    else []
  | job => []
  | handoff => []

/-- The events of a resolution with a given result. -/
def events (b : Boundary) : Except Fault TraceId → List Event
  | .ok id => b.rejections ++ [resolvedEvent b.invoker id]
  | .error _ => b.rejections

end Boundary

namespace Facilities

/-- Appends several events, inside the current span. -/
def emitAll (f : Facilities) (es : List Event) : Facilities :=
  { f with records := f.records ++ es.map (⟨·, f.spans⟩) }

theorem emitAll_nil
    (f : Facilities) :
    f.emitAll [] = f := by
  rw [emitAll, List.map_nil, List.append_nil]

/-- The parent that an inbound value names is the id that it carries. -/
theorem fst_inboundParent
    (inbound : Option String) (f : Facilities) :
    (inboundParent inbound f).1 = inbound.bind TraceId.ofInbound? := by
  cases inbound with
  | none => rfl
  | some raw =>
    simp only [inboundParent, Option.bind_some]
    cases TraceId.ofInbound? raw with
    | some id => rfl
    | none =>
      dsimp only
      split <;> rfl

theorem inboundParent_eq
    (inbound : Option String) (f : Facilities) :
    (inboundParent inbound f).2 = f.emitAll (Boundary.request inbound).rejections := by
  cases inbound with
  | none => exact f.emitAll_nil.symm
  | some raw =>
    simp only [inboundParent, Boundary.rejections]
    cases hid : TraceId.ofInbound? raw with
    | some id => exact f.emitAll_nil.symm
    | none =>
      by_cases hblank : Text.isBlank raw = true
      · simp only [hblank, if_true]
        exact f.emitAll_nil.symm
      · simp only [hblank]
        rfl

theorem records_generate
    {i : Invoker} (f : Facilities) (g : Scheme i) (parent : Option TraceId) :
    (f.generate g parent).2.records = f.records ∧ (f.generate g parent).2.spans = f.spans := by
  rw [generate]
  rcases g.mint parent f.source with ⟨e | m, s⟩ <;> exact ⟨rfl, rfl⟩

theorem records_generateAt
    (c : Config) (b : Boundary) (ctx : Context) (f : Facilities) :
    (c.generateAt b ctx f).2.records = (f.emitAll b.rejections).records ∧
      (c.generateAt b ctx f).2.spans = f.spans := by
  cases b with
  | request inbound =>
    obtain ⟨hrecords, hspans⟩ :=
      records_generate (inboundParent inbound f).2 c.request (inboundParent inbound f).1
    rw [inboundParent_eq] at hrecords hspans
    simp only [Config.generateAt]
    rw [inboundParent_eq]
    exact ⟨hrecords, hspans⟩
  | job =>
    rw [Boundary.rejections, emitAll_nil, Config.generateAt]
    cases ctx.get? with
    | none => exact records_generate f c.job none
    | some existing => exact ⟨rfl, rfl⟩
  | handoff =>
    rw [Boundary.rejections, emitAll_nil]
    exact records_generate f c.thread ctx.get?

/-- A resolution writes the events of its result and leaves the current span. -/
theorem records_resolve
    (c : Config) (b : Boundary) (ctx : Context) (f : Facilities) :
    (c.resolve b ctx f).2.2.records = (f.emitAll (b.events (c.resolve b ctx f).1)).records ∧
      (c.resolve b ctx f).2.2.spans = f.spans := by
  obtain ⟨hrecords, hspans⟩ := records_generateAt c b ctx f
  simp only [Config.resolve]
  rcases hgen : c.generateAt b ctx f with ⟨e | id, g⟩
  · rw [hgen] at hrecords hspans
    exact ⟨hrecords, hspans⟩
  · rw [hgen] at hrecords hspans
    dsimp only at hrecords hspans ⊢
    cases ctx.set id with
    | error e => exact ⟨hrecords, hspans⟩
    | ok changed =>
      refine ⟨?_, hspans⟩
      simp only [Boundary.events, emit, hrecords, hspans, emitAll, List.map_append,
        List.map_singleton, List.append_assoc]

end Facilities

namespace Happening

/-- The events that an operation writes to the log. -/
def events : Happening → List Event
  | ⟨_, _, _, _, .emit e, _, _⟩ => [e]
  | ⟨_, _, _, some _, .resolve _ b, r, _⟩ => b.events r
  | ⟨_, _, _, _, .resolveIn _ b _, r, _⟩ => b.events r.1
  | _ => []

/-- The records that an operation writes to the log. -/
def records (x : Happening) : List Record :=
  x.events.map (⟨·, x.spans⟩)

/-- The records of an operation are in the spans of the operation. -/
theorem spans_of_mem_records
    (x : Happening) :
    ∀ q ∈ x.records, q.spans = x.spans := by
  intro q hq
  obtain ⟨e, _, rfl⟩ := List.mem_map.1 hq
  rfl

end Happening

namespace World

variable {σ γ : Type}

/-- What an operation writes to the log, and that it leaves the current span. -/
theorem records_perform
    (w : World σ) (d : Nat) (o : Op γ) :
    (w.perform o).2.facilities.records =
        w.facilities.records ++ (w.happening d o).records ∧
      (w.perform o).2.facilities.spans = w.facilities.spans := by
  have hnothing : w.facilities.records = w.facilities.records ++ [] :=
    (List.append_nil _).symm
  cases o with
  | set id =>
    simp only [perform]
    cases w.ambient with
    | none => exact ⟨hnothing, rfl⟩
    | some ctx =>
      dsimp only
      cases ctx.set id <;> exact ⟨hnothing, rfl⟩
  | put key value =>
    simp only [perform]
    cases w.ambient <;> exact ⟨hnothing, rfl⟩
  | resolve c b =>
    simp only [Happening.records, happening, perform]
    cases w.ambient with
    | none => exact ⟨hnothing, rfl⟩
    | some ctx => exact Facilities.records_resolve c b ctx w.facilities
  | resolveIn c b ctx => exact Facilities.records_resolve c b ctx w.facilities
  | generate c i parent =>
    obtain ⟨hrecords, hspans⟩ := w.facilities.records_generate (c.scheme i) parent
    exact ⟨hrecords.trans hnothing, hspans⟩
  | emit e => exact ⟨rfl, rfl⟩
  | _ => exact ⟨hnothing, rfl⟩

end World

/-! ## The current span stays -/

/-- A host that leaves the current span alone. -/
def Handler.KeepsSpans {H : Type → Type} {σ : Type} (h : Handler H σ) : Prop :=
  ∀ (γ : Type) (r : H γ) (w : World σ), (h γ r w).2.facilities.spans = w.facilities.spans

/-- The current span behind a program is the one in front of it. -/
theorem Handler.KeepsSpans.across
    {H : Type → Type} {σ : Type} {h : Handler H σ} (hh : h.KeepsSpans) :
    World.Across h fun w v => v.facilities.spans = w.facilities.spans where
  refl _ := rfl
  trans huv hvw := hvw.trans huv
  perform w o := (w.records_perform 0 o).2
  host r w := hh _ r w
  restore fr w v hv := by
    cases fr with
    | span path => rfl
    | detached => rfl
    | _ => exact hv

end TraceLineage
