import TraceLineage.Boundary
import TraceLineage.Proofs.Minting.Segment

/-!
# Outcomes of resolutions

A hand-off succeeds in every context: its id is the next segment of the scheme for threads behind
the id that the context shows, so that the context accepts it.  A request succeeds in every context
without an id: its id is the next segment of the scheme for requests behind the accepted inbound id,
and it is visible.  Both leave the auxiliary fields of the context and the current span alone.
-/

namespace TraceLineage

theorem TraceId.visible_of_ofInbound?
    {raw : String} {id : TraceId} (hid : TraceId.ofInbound? raw = some id) :
    Text.allVisible id.text = true ∧ id.isBlank = false := by
  simp only [ofInbound?, Option.ite_none_right_eq_some, Option.some.injEq] at hid
  obtain ⟨⟨hne, _, hvisible⟩, rfl⟩ := hid
  exact ⟨hvisible, Text.isBlank_of_allVisible hvisible hne⟩

namespace Context

theorem set_eq_ok
    {ctx : Context} {id : TraceId}
    (hid : ∀ p, ctx.get? = some p → id.isExtensionOf p = true) :
    ctx.set id = .ok ⟨some id, ctx.auxiliary⟩ := by
  rw [set]
  cases hget : ctx.get? with
  | none => rfl
  | some p => simp only [hid p hget, if_true]

end Context

namespace Facilities

theorem generate_eq_ok
    {i : Invoker} (f : Facilities) (g : Scheme i) {parent : Option TraceId}
    (hparent : ∀ p, parent = some p → p.isBlank = false)
    (hroot : i.isRoot = true → parent = none) :
    ∃ id f', f.generate g parent = (.ok id, f') ∧ g.Extends f.source parent id ∧
      f'.source = f.source.skip g.randomLength ∧ f'.spans = f.spans := by
  obtain ⟨m, hm, hid⟩ := g.mint_eq_ok f.source hparent hroot
  refine ⟨m.id, { f with source := f.source.skip g.randomLength, minted := f.minted ++ [m] }, ?_,
    hid, rfl, rfl⟩
  rw [generate, hm]

end Facilities

/-- The parent that an inbound value names is visible and not blank; naming it leaves the source and
the current span alone. -/
theorem inboundParent_spec
    (inbound : Option String) (f : Facilities) :
    (∀ p, (inboundParent inbound f).1 = some p →
        Text.allVisible p.text = true ∧ p.isBlank = false) ∧
      (inboundParent inbound f).2.source = f.source ∧
      (inboundParent inbound f).2.spans = f.spans := by
  cases inbound with
  | none => exact ⟨nofun, rfl, rfl⟩
  | some raw =>
    simp only [inboundParent]
    cases hid : TraceId.ofInbound? raw with
    | some id =>
      refine ⟨?_, rfl, rfl⟩
      rintro _ ⟨⟩
      exact TraceId.visible_of_ofInbound? hid
    | none =>
      dsimp only
      split
      · exact ⟨nofun, rfl, rfl⟩
      · exact ⟨nofun, rfl, rfl⟩

namespace Config

theorem resolve_of_generateAt
    {c : Config} {b : Boundary} {ctx : Context} {f f' : Facilities} {id : TraceId}
    (hgen : c.generateAt b ctx f = (.ok id, f'))
    (hid : ∀ p, ctx.get? = some p → id.isExtensionOf p = true) :
    c.resolve b ctx f =
      (.ok id, ⟨some id, ctx.auxiliary⟩, f'.emit (resolvedEvent b.invoker id)) := by
  simp only [resolve, hgen, Context.set_eq_ok hid]

/-- A hand-off succeeds in every context and extends what the context shows. -/
theorem resolve_handoff
    (c : Config) (ctx : Context) (f : Facilities) :
    ∃ id f', c.resolve .handoff ctx f = (.ok id, ⟨some id, ctx.auxiliary⟩, f') ∧
      c.thread.Extends f.source ctx.get? id ∧
      f'.source = f.source.skip c.thread.randomLength ∧ f'.spans = f.spans := by
  obtain ⟨id, f', hgen, hid, hsource, hspans⟩ :=
    f.generate_eq_ok c.thread (fun p hp => ((ctx.get?_eq_some_iff p).1 hp).2) nofun
  refine ⟨id, f'.emit (resolvedEvent .thread id), ?_, hid, hsource, hspans⟩
  refine resolve_of_generateAt hgen ?_
  intro p hp
  rw [hp] at hid
  exact hid.isExtensionOf

/-- A request succeeds in every context without an id. -/
theorem resolve_request
    (c : Config) (inbound : Option String) {ctx : Context} (hctx : ctx.get? = none)
    (f : Facilities) :
    ∃ id f', c.resolve (.request inbound) ctx f = (.ok id, ⟨some id, ctx.auxiliary⟩, f') ∧
      c.request.Extends f.source (inboundParent inbound f).1 id ∧
      Text.allVisible id.text = true ∧ id.isBlank = false ∧ f'.spans = f.spans := by
  obtain ⟨hparent, hsource, hspans⟩ := inboundParent_spec inbound f
  obtain ⟨id, f', hgen, hid, _, hspans'⟩ :=
    (inboundParent inbound f).2.generate_eq_ok c.request (fun p hp => (hparent p hp).2) nofun
  rw [hsource] at hid
  refine ⟨id, f'.emit (resolvedEvent .request id), ?_, hid, ?_, hid.isBlank_eq_false,
    hspans'.trans hspans⟩
  · refine resolve_of_generateAt hgen ?_
    rw [hctx]
    exact nofun
  · exact hid.allVisible fun p hp => (hparent p hp).1

end Config
end TraceLineage
