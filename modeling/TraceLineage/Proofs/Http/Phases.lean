import TraceLineage.Proofs.Execution.Placement
import TraceLineage.Proofs.Http.OneId

/-!
# Calling a service and answering through it

A service acts in two phases, and a layer treats them differently.  The response is polled in the
context of the request, inside the span that is opened for it.  The call is made in front of both:
it finds the context and the spans of whoever polls the layer, which may be those of another unit.
-/

namespace TraceLineage

/-- On a line every operation finds the context in front of the line, until one may change it. -/
theorem Happening.Linked.before_eq
    {σ : Type} {a b : Option Context} {xs : List Happening} (hxs : Linked σ a xs b) :
    ∀ x ∈ xs.takeWhile fun x => x.op.sparesContext, x.before = a := by
  induction hxs with
  | nil a =>
    intro x hx
    rw [List.takeWhile_nil] at hx
    exact absurd hx List.not_mem_nil
  | cons w d o _ ih =>
    intro x hx
    rw [List.takeWhile_cons] at hx
    split at hx
    · rename_i ho
      rcases List.mem_cons.1 hx with rfl | hx
      · rfl
      · exact (ih x hx).trans (w.ambient_perform ho)
    · exact absurd hx List.not_mem_nil

namespace Http
namespace Layer

open Happening

variable {H : Type → Type} {σ β ε : Type} [Inhabited β] {h : Handler H σ}

/-- The two phases of a request.  When a layer is called, it begins the request, which gives an id,
and then it calls its service on the spot: until this call changes the context itself, everything
that it performs there finds the context around the layer, and what it writes to the log directly is
in the spans around the layer.  If the call returns, the response is polled in the context of the
request, whenever and wherever: everything that it performs there up to the first clearing finds an
id that extends the one of the request, and, if the layer opens spans, what it writes to the log
directly is in the span of the request. -/
theorem phases_of_request
    (hcontext : h.SparesContext) (hspans : h.KeepsSpans) (l : Layer) (s : Service H β ε)
    (r : Request β) (w : World σ) :
    ∃ id ctx g,
      w.perform (l.beginning r) = ((.ok id, ctx), { w with facilities := g }) ∧
      ctx.get? = some id ∧
      let trace : Arrival := ⟨ctx, id⟩
      let forwarded := { r with traceId := some id }
      let u : World σ := { w with facilities := g }
      let path := l.spanPath trace forwarded u
      let call := (s.call forwarded).inPlace
      ((l.around s).call r).trace h true 0 w =
        w.happening 0 (l.beginning r) :: (l.opening u ++ call.trace h true 0 u) ∧
      (∀ x ∈ (atDepth 0 (call.trace h true 0 u)).takeWhile fun x => x.op.sparesContext,
        x.before = w.ambient) ∧
      (∀ x ∈ call.placed h true 0 0 u, x.1 = 0 →
        ∀ q ∈ x.2.records, q.spans = w.facilities.spans) ∧
      (match (s.call forwarded).run h u with
        | (x, v) =>
          ((l.around s).call r).run h w = (x.map (Exit.map (Begun.serving trace path)), v)) ∧
      ∀ (p : s.Pending) (ws : List (World σ)),
        let served := response s path ctx p
        (((l.around s).respond (Begun.serving trace path p)).life h ws).trace =
          (served.life h ws).trace ∧
        (∀ x ∈ (atDepth 1 (served.life h ws).trace).takeWhile fun x => !x.op.isClear,
          Context.Extends id x.before) ∧
        (l.options.span = true → ∀ x ∈ served.placedLife h ws, x.1 = 1 →
          ∀ q ∈ x.2.records, q.spans = w.facilities.spans ++ [requestSpan trace forwarded]) := by
  obtain ⟨id, ctx, g, hbegin, hget, _⟩ := l.perform_beginning r w
  refine ⟨id, ctx, g, hbegin, hget, ?_⟩
  intro trace forwarded u path call
  have hsame : g.spans = w.facilities.spans := spans_of_perform_beginning hbegin
  obtain ⟨hrun, htrace⟩ := l.run_call s r hbegin (h := h)
  refine ⟨htrace, ?_, ?_, hrun, ?_⟩
  · have hline := call.linked_drive hcontext true 0 u
    exact hline.before_eq
  · intro x hx hplace q hq
    have hplaced := (call.placedIn_of_mem_placed hspans true 0 0 u x hx).2 hplace
    rw [x.2.spans_of_mem_records q hq, hplaced]
    exact hsame
  · intro p ws served
    refine ⟨((l.relays_respond s trace path p).life h ws).2.2, ?_, ?_⟩
    · obtain ⟨b, hline⟩ := Ambient.linked_life_inContext hcontext path ctx
        (Ambient.guarded (s.respond p)) ws
      intro x hx
      exact (hline.extends ⟨id, hget, id.isExtensionOf_refl⟩ x hx).1
    · intro hoption x hx hplace q hq
      have hpath : path = w.facilities.spans ++ [requestSpan trace forwarded] := by
        rw [← hsame]
        exact spanPath_of_span hoption trace forwarded u
      have hpath_ne : path ≠ [] := by
        rw [hpath]
        exact List.append_ne_nil_of_right_ne_nil _ (List.cons_ne_nil _ _)
      have hplaced := (Ambient.placedIn_of_mem_placedLife hspans hpath_ne ctx
        (Ambient.guarded (s.respond p)) ws x hx).2 hplace
      rw [x.2.spans_of_mem_records q hq, hplaced, hpath]

/-- A service that reads the context in scope and writes to the log in both phases. -/
def talkative : Service (fun _ => Empty) Unit Unit where
  Pending := Unit
  call _ := .op .snapshot fun _ => .op (.emit ⟨.info, "called", []⟩) fun _ => .done (.value ())
  respond _ := .op .snapshot fun _ => .op (.emit ⟨.info, "polled", []⟩) fun _ =>
    .done (.value (.ok { status := 200, body := () }))

/-- The standard layer in front of a talkative service, called in one unit and polled in another
one: what the response writes is in the span of the request, and what it reads extends the id of
the request. -/
theorem phases_of_talkative :
    let h := LocalHost.nobody.handler
    let f : Facilities := .fresh ⟨fun n => ⟨n % 63, Nat.mod_lt n (by decide)⟩, 0⟩
    let w : World Unit := ⟨some (.withId ⟨"outer"⟩), f, ()⟩
    let v : World Unit := ⟨some (.withId ⟨"poller"⟩), f, ()⟩
    h.SparesContext ∧ h.KeepsSpans ∧
      ∃ id ctx g,
        w.perform (standard.beginning { body := () }) =
          ((.ok id, ctx), { w with facilities := g }) ∧
        let span := requestSpan ⟨ctx, id⟩ { traceId := some id, body := () }
        (((standard.around talkative).call { body := () }).run h w).1 =
          some (.value (Begun.serving ⟨ctx, id⟩ [span] ())) ∧
        let served := response talkative [span] ctx ()
        (∃ x ∈ (atDepth 1 (served.life h [v]).trace).takeWhile fun x => !x.op.isClear,
          Context.Extends id x.before) ∧
        ∃ x ∈ served.placedLife h [v], x.1 = 1 ∧
          ∃ q ∈ x.2.records, q.event.message = "polled" ∧ q.spans = [span] := by
  intro h f w v
  have hcontext : h.SparesContext := LocalHost.nobody.sparesContext
  have hspans : h.KeepsSpans := fun _ _ _ => rfl
  obtain ⟨id, ctx, g, hbegin, _, _, _, _, hcall, hserved⟩ :=
    phases_of_request hcontext hspans standard talkative { body := () } w
  have hnone : g.spans = [] := spans_of_perform_beginning hbegin
  have hpath : standard.spanPath ⟨ctx, id⟩ { traceId := some id, body := () }
      { w with facilities := g } = [requestSpan ⟨ctx, id⟩ { traceId := some id, body := () }] := by
    rw [spanPath_of_span rfl, hnone, List.nil_append]
  obtain ⟨_, hreads, hwrites⟩ := hserved () [v]
  simp only [hpath] at hcall hreads hwrites
  refine ⟨hcontext, hspans, id, ctx, g, hbegin, congrArg Prod.fst hcall, ?_, ?_⟩
  · exact ⟨_, List.mem_cons_self, hreads _ List.mem_cons_self⟩
  · refine ⟨_, List.mem_cons_of_mem _ List.mem_cons_self, rfl, _, List.mem_cons_self, rfl, ?_⟩
    exact hwrites rfl _ (List.mem_cons_of_mem _ List.mem_cons_self) rfl _ List.mem_cons_self

/-- The call of a service is not in the context of the request.  A talkative service under a unit
with the id `outer-1` finds this id in its call, which does not extend the id of the request, and
what it writes to the log there is not in the span of the request, although the layer opens one. -/
theorem call_outside_request :
    let h := LocalHost.nobody.handler
    let f : Facilities := .fresh ⟨fun n => ⟨n % 63, Nat.mod_lt n (by decide)⟩, 0⟩
    let w : World Unit := ⟨some (.withId ⟨"outer-1"⟩), f, ()⟩
    let whole := ((standard.around talkative).call { body := () }).trace h true 0 w
    standard.options.span = true ∧
      ∃ id ctx g,
        w.perform (standard.beginning { body := () }) =
          ((.ok id, ctx), { w with facilities := g }) ∧
        let forwarded : Request Unit := { traceId := some id, body := () }
        let calling := (talkative.call forwarded).placed h true 0 0 { w with facilities := g }
        (∃ x ∈ calling, x.2 ∈ whole ∧ x.2.depth = 0 ∧
          x.2.before = some (.withId ⟨"outer-1"⟩) ∧ ¬ Context.Extends id x.2.before) ∧
        ∃ x ∈ calling, x.2 ∈ whole ∧ x.1 = 0 ∧ ∃ q ∈ x.2.records,
          q.event.message = "called" ∧ requestSpan ⟨ctx, id⟩ forwarded ∉ q.spans := by
  intro h f w whole
  have hshown : (Context.withId ⟨"outer-1"⟩).get? = some ⟨"outer-1"⟩ := by decide +kernel
  refine ⟨rfl, _, _, _, rfl, ?_, ?_⟩
  · refine ⟨_, List.mem_cons_self, ?_, rfl, rfl, ?_⟩
    · exact List.mem_cons_of_mem _ (List.mem_cons_of_mem _ List.mem_cons_self)
    · rintro ⟨next, hnext, hext⟩
      obtain rfl : next = ⟨"outer-1"⟩ := Option.some.inj (hnext.symm.trans hshown)
      revert hext
      decide +kernel
  · refine ⟨_, List.mem_cons_of_mem _ List.mem_cons_self, ?_, rfl, _, List.mem_cons_self, rfl, ?_⟩
    · exact List.mem_cons_of_mem _
        (List.mem_cons_of_mem _ (List.mem_cons_of_mem _ List.mem_cons_self))
    · exact List.not_mem_nil

end Layer
end Http
end TraceLineage
