import TraceLineage.Proofs.Adapter.JobRun
import TraceLineage.Proofs.Minting.Injectivity

/-!
# Resolutions succeed or change nothing

Which resolutions succeed depends on the boundary and on the id that the context shows: a hand-off
always does, a job does where no id is present, and a request does where its new id goes on from
the one that is present.  A resolution that succeeds stores the new id, leaves the auxiliary fields
and reports the id once; one that fails leaves the context as it was and reports no id, although a
request may have generated one by then.
-/

namespace TraceLineage

/-- The records of a log that report resolved ids. -/
def Record.resolved (rs : List Record) : List Record :=
  rs.filter fun q => q.event.message = "Trace id resolved"

theorem Record.resolved_append
    (rs qs : List Record) :
    resolved (rs ++ qs) = resolved rs ++ resolved qs :=
  List.filter_append ..

theorem Boundary.message_of_mem_rejections
    {b : Boundary} {e : Event} (he : e ∈ b.rejections) :
    e.message = "Discarding malformed inbound trace id, starting a new chain" := by
  cases b with
  | request inbound =>
    cases inbound with
    | none => exact absurd he List.not_mem_nil
    | some raw =>
      rw [rejections] at he
      split at he
      · rw [List.mem_singleton.1 he]
        rfl
      · exact absurd he List.not_mem_nil
  | job => exact absurd he List.not_mem_nil
  | handoff => exact absurd he List.not_mem_nil

/-- Of the events of a resolution just one reports a resolved id, and only if there is one. -/
theorem Boundary.resolved_events
    (b : Boundary) (r : Except Fault TraceId) (path : List Span) :
    Record.resolved ((b.events r).map (⟨·, path⟩)) =
      match r with
      | .ok id => [⟨resolvedEvent b.invoker id, path⟩]
      | .error _ => [] := by
  have hrejections : Record.resolved (b.rejections.map (⟨·, path⟩)) = [] := by
    rw [Record.resolved, List.filter_eq_nil_iff]
    intro q hq
    obtain ⟨e, he, rfl⟩ := List.mem_map.1 hq
    rw [message_of_mem_rejections he]
    decide
  cases r with
  | ok id =>
    rw [events, List.map_append, Record.resolved_append, hrejections]
    rfl
  | error e => exact hrejections

theorem Context.eq_of_set
    {ctx ctx' : Context} {id : TraceId} (hset : ctx.set id = .ok ctx') :
    ctx' = ⟨some id, ctx.auxiliary⟩ := by
  simp only [set] at hset
  split at hset
  · cases hset
    rfl
  · split at hset
    · cases hset
      rfl
    · cases hset

namespace Config

/-- What a request comes to: an id is generated in any case, and then the context accepts it or
not. -/
theorem resolve_request_eq
    (c : Config) (inbound : Option String) (ctx : Context) (f : Facilities) :
    ∃ m, c.request.mint (inbound.bind TraceId.ofInbound?) f.source =
        (.ok m, f.source.skip c.request.randomLength) ∧
      c.request.Extends f.source (inbound.bind TraceId.ofInbound?) m.id ∧
      let g := { f.emitAll (Boundary.request inbound).rejections with
        source := f.source.skip c.request.randomLength, minted := f.minted ++ [m] }
      c.resolve (.request inbound) ctx f =
        match ctx.set m.id with
        | .ok ctx' => (.ok m.id, ctx', g.emit (resolvedEvent .request m.id))
        | .error e => (.error (.state e), ctx, g) := by
  have hparent : ∀ p, inbound.bind TraceId.ofInbound? = some p → p.isBlank = false := by
    intro p hp
    obtain ⟨raw, _, hraw⟩ := Option.bind_eq_some_iff.1 hp
    exact (TraceId.visible_of_ofInbound? hraw).2
  obtain ⟨m, hm, hid⟩ := c.request.mint_eq_ok f.source hparent nofun
  refine ⟨m, hm, hid, ?_⟩
  intro g
  have hgen : c.generateAt (.request inbound) ctx f = (.ok m.id, g) := by
    have hsource : (f.emitAll (Boundary.request inbound).rejections).source = f.source := rfl
    simp only [generateAt, Facilities.generate, Facilities.fst_inboundParent,
      Facilities.inboundParent_eq, hsource, hm]
    rfl
  simp only [resolve, hgen]
  cases ctx.set m.id <;> rfl

/-- A resolution stores the id that it returns and nothing else, or it is in conflict with the
context and leaves it. -/
theorem resolve_cases
    (c : Config) (b : Boundary) (ctx : Context) (f : Facilities) :
    (∃ id g, c.resolve b ctx f = (.ok id, ⟨some id, ctx.auxiliary⟩, g) ∧ id.isBlank = false) ∨
      ∃ e g, c.resolve b ctx f = (.error (.state e), ctx, g) := by
  cases b with
  | request inbound =>
    obtain ⟨m, _, hid, hres⟩ := c.resolve_request_eq inbound ctx f
    cases hset : ctx.set m.id with
    | ok ctx' =>
      obtain rfl := Context.eq_of_set hset
      rw [hset] at hres
      exact Or.inl ⟨m.id, _, hres, hid.isBlank_eq_false⟩
    | error e =>
      rw [hset] at hres
      exact Or.inr ⟨e, _, hres⟩
  | job =>
    cases hctx : ctx.get? with
    | none =>
      obtain ⟨id, g, hres, htext, _⟩ := c.resolve_job hctx f
      refine Or.inl ⟨id, g, hres, ?_⟩
      rw [TraceId.isBlank, htext]
      exact c.job.isBlank_segment f.source
    | some old => exact Or.inr ⟨_, f, c.resolve_job_of_populated hctx f⟩
  | handoff =>
    obtain ⟨id, g, hres, hid, _⟩ := c.resolve_handoff ctx f
    exact Or.inl ⟨id, g, hres, hid.isBlank_eq_false⟩

theorem resolve_leaves
    (c : Config) (b : Boundary) (ctx : Context) (f : Facilities) :
    match c.resolve b ctx f with
    | (.ok id, ctx', g) =>
      ctx'.get? = some id ∧ id.isBlank = false ∧ ctx'.auxiliary = ctx.auxiliary ∧
        Record.resolved g.records =
          Record.resolved f.records ++ [⟨resolvedEvent b.invoker id, f.spans⟩]
    | (.error _, ctx', g) =>
      ctx' = ctx ∧ Record.resolved g.records = Record.resolved f.records := by
  have hrecords := (Facilities.records_resolve c b ctx f).1
  have hreported := b.resolved_events (c.resolve b ctx f).1 f.spans
  rcases c.resolve_cases b ctx f with ⟨id, g, hres, hblank⟩ | ⟨e, g, hres⟩
  · rw [hres] at hrecords hreported ⊢
    refine ⟨(Context.get?_eq_some_iff _ _).2 ⟨rfl, hblank⟩, hblank, rfl, ?_⟩
    rw [hrecords, Facilities.emitAll, Record.resolved_append, hreported]
  · rw [hres] at hrecords hreported ⊢
    refine ⟨rfl, ?_⟩
    rw [hrecords, Facilities.emitAll, Record.resolved_append, hreported, List.append_nil]

end Config

namespace Ambient

variable {H : Type → Type} {σ α : Type}

/-- A resolution, together with the context in scope behind it. -/
def resolveAndRead (c : Config) (b : Boundary) :
    Prog H (Except Fault TraceId × Option Context) := do
  let r ← resolve c b
  return (r, ← current?)

/-- A resolution is about the innermost scope, whatever scopes are around it. -/
theorem run_resolveAndRead
    (h : Handler H σ) (c : Config) (b : Boundary) (outer : List Context) (ctx : Context)
    (w : World σ) :
    (outer.foldr inContext (inContext ctx (resolveAndRead c b))).run h w =
      let (r, ctx', g) := c.resolve b ctx w.facilities
      (some (.value (r, some ctx')), { w with facilities := g }) := by
  have hdrive : ∀ w : World σ,
      (outer.foldr inContext (inContext ctx (resolveAndRead c b))).drive h true w =
        (.finished (.value ((c.resolve b ctx w.facilities).1,
            some (c.resolve b ctx w.facilities).2.1)),
          { w with facilities := (c.resolve b ctx w.facilities).2.2 }) := by
    induction outer with
    | nil =>
      intro w
      rw [List.foldr_nil, drive_inContext]
      rfl
    | cons around outer ih =>
      intro w
      rw [List.foldr_cons, drive_inContext, ih]
  rw [Prog.run, hdrive w]

end Ambient

/-- Resolutions succeed just where they should, and otherwise change nothing.  A hand-off succeeds
in every context.  A job succeeds where no id is present, and where one is nothing is generated.  A
request generates an id in any case, and succeeds unless the context shows an id from which the new
one does not go on.  Where a resolution succeeds, the context shows the id that is returned, with
the auxiliary fields as they were, and the log reports that id once; where it fails, the context is
the same and the log reports none.  In a scope it is the innermost context that is resolved, in the
same way; outside every scope, and only there, there is no context, and nothing changes at all. -/
theorem Config.resolve_atomic
    (c : Config) :
    (∀ (ctx : Context) (f : Facilities),
      ∃ id ctx' g, c.resolve .handoff ctx f = (.ok id, ctx', g)) ∧
    (∀ (ctx : Context) (f : Facilities),
      match ctx.get? with
      | none => ∃ id ctx' g, c.resolve .job ctx f = (.ok id, ctx', g)
      | some old => c.resolve .job ctx f = (.error (.state (.populated old)), ctx, f)) ∧
    (∀ (inbound : Option String) (ctx : Context) (f : Facilities), ∃ m,
      c.request.mint (inbound.bind TraceId.ofInbound?) f.source =
        (.ok m, f.source.skip c.request.randomLength) ∧
      (c.resolve (.request inbound) ctx f).2.2.minted = f.minted ++ [m] ∧
      (c.resolve (.request inbound) ctx f).1 =
        match ctx.get? with
        | none => .ok m.id
        | some old =>
          if m.id.isExtensionOf old = true then .ok m.id
          else .error (.state (.overriding old m.id))) ∧
    (∀ (b : Boundary) (ctx : Context) (f : Facilities),
      match c.resolve b ctx f with
      | (.ok id, ctx', g) =>
        ctx'.get? = some id ∧ id.isBlank = false ∧ ctx'.auxiliary = ctx.auxiliary ∧
          let resolved : Event := ⟨.debug, "Trace id resolved",
            [("invoker", .text b.invoker.name), ("trace_id", .text id.text)]⟩
          Record.resolved g.records = Record.resolved f.records ++ [⟨resolved, f.spans⟩]
      | (.error _, ctx', g) =>
        ctx' = ctx ∧ Record.resolved g.records = Record.resolved f.records) ∧
    ∀ {H : Type → Type} {σ : Type} (h : Handler H σ) (b : Boundary) (w : World σ),
      (∀ (outer : List Context) (ctx : Context),
        (outer.foldr Ambient.inContext (Ambient.inContext ctx (Ambient.resolveAndRead c b))).run
            h w =
          let (r, ctx', g) := c.resolve b ctx w.facilities
          (some (.value (r, some ctx')), { w with facilities := g })) ∧
      match w.ambient with
      | none => w.perform (.resolve c b) = (.error .noContext, w)
      | some _ => (w.perform (.resolve c b)).1 ≠ .error .noContext := by
  refine ⟨?_, ?_, ?_, c.resolve_leaves, ?_⟩
  · intro ctx f
    obtain ⟨id, g, hres, _⟩ := c.resolve_handoff ctx f
    exact ⟨id, _, g, hres⟩
  · intro ctx f
    cases hctx : ctx.get? with
    | none =>
      obtain ⟨id, g, hres, _⟩ := c.resolve_job hctx f
      exact ⟨id, _, g, hres⟩
    | some old => exact c.resolve_job_of_populated hctx f
  · intro inbound ctx f
    obtain ⟨m, hm, _, hres⟩ := c.resolve_request_eq inbound ctx f
    refine ⟨m, hm, ?_⟩
    simp only [hres, Context.set]
    cases ctx.get? with
    | none => exact ⟨rfl, rfl⟩
    | some old =>
      dsimp only
      by_cases hext : m.id.isExtensionOf old = true
      · rw [if_pos hext, if_pos hext]
        exact ⟨rfl, rfl⟩
      · rw [if_neg hext, if_neg hext]
        exact ⟨rfl, rfl⟩
  · intro H σ h b w
    refine ⟨fun outer ctx => Ambient.run_resolveAndRead h c b outer ctx w, ?_⟩
    cases hambient : w.ambient with
    | none => simp only [World.perform, hambient]
    | some ctx =>
      simp only [World.perform, hambient]
      rcases c.resolve_cases b ctx w.facilities with ⟨id, g, hres, _⟩ | ⟨e, g, hres⟩
      · rw [hres]
        intro hok
        cases hok
      · rw [hres]
        intro hstate
        cases hstate

end TraceLineage
