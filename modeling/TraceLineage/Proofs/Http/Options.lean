import TraceLineage.Proofs.Adapter.Parallel
import TraceLineage.Proofs.Http.OneId

/-!
# The options of a layer

Whether a layer opens a span around the responses of its service, and whether it puts the id into
them, makes no difference to anything else.  The service observes the same, the log tells of the
same events in the same order, the layer ends in the same way, and the states that it leaves behind
agree.  What differs are the values under one header and the spans of records, and these differ by
the span of the request, with an exception: work that is handed off without a span stays inside the
spans of the place where it is executed.
-/

namespace TraceLineage
namespace Http

/-- How the spans of a record may differ between two layers: not at all, or, if only the second one
opens a span, by the span of the request behind the spans around the layer.  If this is meant
loosely, the first layer may show any spans in place of those around it. -/
def Options.SpansDiffer (o o' : Options) (outer : List Span) (request : Span) (loose : Prop)
    (x y : List Span) : Prop :=
  x = y ∨ o.span ≠ o'.span ∧ ∃ front rest,
    x = front ++ rest ∧ y = outer ++ request :: rest ∧ (front = outer ∨ loose)

namespace Options

variable {H : Type → Type} {σ : Type} {E : Correspondence H σ} {o o' : Options}
  {outer : List Span} {request : Span} {loose : Prop}

theorem lawful_of_spansDiffer
    (hE : E.spans = o.SpansDiffer o' outer request loose) :
    E.Lawful := by
  refine ⟨?_, ?_, ?_⟩
  · rw [hE]
    exact .inl rfl
  · rw [hE]
    rintro x y s (rfl | ⟨ho, front, rest, rfl, rfl, hfront⟩)
    · exact .inl rfl
    · refine .inr ⟨ho, front, rest ++ [s], List.append_assoc .., ?_, hfront⟩
      rw [List.append_assoc, List.cons_append]
  · rw [hE]
    rintro x (rfl | ⟨_, front, rest, _, hnil, _⟩)
    · rfl
    · exact absurd hnil.symm (List.append_ne_nil_of_right_ne_nil _ (List.cons_ne_nil _ _))

/-- Work that is handed off inside the layer goes back to spans in both runs if there are spans
around the layer; if there are none, the spans where it is executed show through. -/
theorem reenters_of_spansDiffer
    (hE : E.spans = o.SpansDiffer o' outer request loose) (hloose : outer = [] → loose) :
    E.Reenters := by
  intro path hpath hne x y _
  rw [hE] at hpath ⊢
  rcases hpath with hnil | ⟨ho, front, rest, hfront, hpath, hshow⟩
  · exact absurd hnil.symm hne
  · obtain ⟨rfl, rfl⟩ := List.append_eq_nil_iff.1 hfront.symm
    refine .inr ⟨ho, x, [], (List.append_nil x).symm, hpath, .inr ?_⟩
    rcases hshow with hnil | hloosely
    · exact hloose hnil.symm
    · exact hloosely

end Options

namespace Layer

variable {H : Type → Type} {σ β ε : Type} {h : Handler H σ}

/-- Responses with the same id that differ in the span around them alone. -/
theorem matches_response
    {E : Correspondence H σ} {o o' : Options} {outer : List Span} {loose : Prop} {trace : Arrival}
    {forwarded : Request β}
    (hE : E.spans = o.SpansDiffer o' outer (requestSpan trace forwarded) loose)
    (hh : h.Respects E) (hk : h.KeepsSpans) (ho : o.span = true → o'.span = true) (l : Layer)
    (s : Service H β ε) {p : s.Pending} (hp : (s.respond p).Parallel E (· = ·) (s.respond p))
    (ctx : Context) {u : World σ} (hu : u.facilities.spans = outer) {ws vs : List (World σ)}
    (hwvs : List.Forall₂ (World.Matches E) ws vs)
    (hws : ∀ w ∈ ws, w.facilities.spans = outer ∨ loose) :
    let served := (response s ((l.setOptions o).spanPath trace forwarded u) ctx p).life h ws
    let served' := (response s ((l.setOptions o').spanPath trace forwarded u) ctx p).life h vs
    served'.step.exit? = served.step.exit? ∧
      List.Forall₂ (World.Matches E) served.states served'.states ∧
      Happening.observed served'.trace = Happening.observed served.trace := by
  have hlawful := Options.lawful_of_spansDiffer hE
  have hsame : ∀ x, E.spans x x := fun x => by
    rw [hE]
    exact .inl rfl
  have hscope := Ambient.parallel_inContext ctx (Ambient.parallel_guarded hp)
  by_cases hspan : o.span = o'.span
  · -- both open a span, or none
    have hpath : (l.setOptions o').spanPath trace forwarded u =
        (l.setOptions o).spanPath trace forwarded u := by
      rw [spanPath, spanPath, setOptions, setOptions, hspan]
    let path := (l.setOptions o).spanPath trace forwarded u
    have hboth := Ambient.parallel_underSpans hlawful (hsame path)
      (fun hnil hne => absurd hnil hne) hscope
    obtain ⟨hstep, hstates, htrace⟩ := hboth.life hlawful hh hk hwvs
    rw [hpath]
    exact ⟨hstep.exit?_eq, hstates, htrace⟩
  · -- only the second one opens a span
    have hoff : o.span = false :=
      Bool.eq_false_iff.2 fun hon => hspan (hon.trans (ho hon).symm)
    have hon : o'.span = true :=
      Bool.ne_false_iff.1 fun hoff' => hspan (hoff.trans hoff'.symm)
    have hnone : (l.setOptions o).spanPath trace forwarded u = [] := by
      rw [spanPath, setOptions, if_neg (hoff ▸ Bool.false_ne_true)]
    have hpath : (l.setOptions o').spanPath trace forwarded u =
        outer ++ [requestSpan trace forwarded] := by
      rw [spanPath_of_span hon, hu]
    have hne : outer ++ [requestSpan trace forwarded] ≠ [] :=
      List.append_ne_nil_of_right_ne_nil _ (List.cons_ne_nil _ _)
    have hinside : ∀ w ∈ ws,
        E.spans w.facilities.spans (outer ++ [requestSpan trace forwarded]) := by
      intro w hw
      rw [hE]
      exact .inr ⟨hspan, w.facilities.spans, [], (List.append_nil _).symm, rfl, hws w hw⟩
    have hpolls := (List.forall₂_and_left _ _).2 ⟨hinside, hwvs⟩
    obtain ⟨hstep, hstates, htrace⟩ := hscope.life_inFrame_span hlawful hh hk hpolls
    rw [hnone, hpath, response, response, Ambient.underSpans_of_ne_nil hne]
    exact ⟨hstep.exit?_eq, hstates, htrace⟩

variable [Inhabited β]

/-- Before a layer calls its service, nothing but the resolution is observed. -/
theorem observed_call
    (l : Layer) (s : Service H β ε) (r : Request β) {w u : World σ} {id : TraceId} {ctx : Context}
    (hbegin : w.perform (l.beginning r) = ((.ok id, ctx), u)) :
    Happening.observed (((l.around s).call r).trace h true 0 w) =
      (w.happening 0 (l.beginning r)).withoutSpans ::
        Happening.observed ((s.call { r with traceId := some id }).inPlace.trace h true 0 u) := by
  have hopening : Happening.observed (l.opening u) = [] := by
    rw [opening]
    cases l.options.span <;> rfl
  have hbeginning : (w.happening 0 (l.beginning r)).op.readsSpans = false := rfl
  rw [(l.run_call s r hbegin).2, Happening.observed_cons hbeginning, Happening.observed_append,
    hopening, List.nil_append]

/-- The options of a layer change nothing but what they say.  Take two layers that differ in their
options, the second one with spans if only one of them opens spans.  When they are called, both
resolve the same id and call the service with the same request, which has the same effects; both
calls end in the same way and in the same state.  Take a response of the service that uses the spans
which it reads for nothing but to open spans, and poll it in both layers in states that agree,
wherever that is.  Whatever is performed for the request, at whatever poll, has the same result in
the same context.  Both layers end in the same way, with the same status and body and the same
headers up to the one with the id, or both are suspended, and the states behind their polls agree:
the same context is in scope, and the log has the same events in the same order.

The spans of a record differ by the span of the request at most, provided that the layer is always
polled inside the spans in which it was called, and that there are such spans or no work is handed
off.  Without this `loose` has to be chosen: what is polled or executed elsewhere then shows the
spans there, if the layer opens none. -/
theorem options_agree
    (hk : h.KeepsSpans) (l : Layer) {o o' : Options} (ho : o.span = true → o'.span = true)
    (s : Service H β ε) (r : Request β) (w : World σ) :
    ∃ id ctx g,
      w.perform (l.beginning r) = ((.ok id, ctx), { w with facilities := g }) ∧
      ctx.get? = some id ∧
      let trace : Arrival := ⟨ctx, id⟩
      let forwarded := { r with traceId := some id }
      let u : World σ := { w with facilities := g }
      let one := (l.setOptions o).around s
      let other := (l.setOptions o').around s
      let path := (l.setOptions o).spanPath trace forwarded u
      let path' := (l.setOptions o').spanPath trace forwarded u
      (∀ (options : Options) (q : Response β),
        let finished := (l.setOptions options).finish id q
        finished.status = q.status ∧ finished.body = q.body ∧
          (∀ n, n ≠ l.header → finished.headers.values n = q.headers.values n) ∧
          (options.responseHeader = true →
            finished.headers.values l.header = [.ofText id.text]) ∧
          (options.responseHeader = false → finished = q)) ∧
      (match (s.call forwarded).run h u with
        | (x, v) =>
          (one.call r).run h w = (x.map (Exit.map (Begun.serving trace path)), v) ∧
          (other.call r).run h w = (x.map (Exit.map (Begun.serving trace path')), v)) ∧
      Happening.observed ((one.call r).trace h true 0 w) =
        (w.happening 0 (l.beginning r)).withoutSpans ::
          Happening.observed ((s.call forwarded).inPlace.trace h true 0 u) ∧
      Happening.observed ((other.call r).trace h true 0 w) =
        Happening.observed ((one.call r).trace h true 0 w) ∧
      ∀ (E : Correspondence H σ) (loose : Prop),
        E.spans = o.SpansDiffer o' w.facilities.spans (requestSpan trace forwarded) loose →
        h.Respects E →
        ∀ p, (s.respond p).Parallel E (· = ·) (s.respond p) →
        ∀ ws vs, List.Forall₂ (World.Matches E) ws vs →
          (∀ v ∈ ws, v.facilities.spans = w.facilities.spans ∨ loose) →
          let whole := (one.respond (Begun.serving trace path p)).life h ws
          let whole' := (other.respond (Begun.serving trace path' p)).life h vs
          (∃ x : Option (Exit (Except ε (Response β))),
            whole.step.exit? = x.map (Exit.map (Except.map ((l.setOptions o).finish id))) ∧
            whole'.step.exit? = x.map (Exit.map (Except.map ((l.setOptions o').finish id)))) ∧
          List.Forall₂ (World.Matches E) whole.states whole'.states ∧
          Happening.observed whole'.trace = Happening.observed whole.trace := by
  obtain ⟨id, ctx, g, hbegin, hget, hvisible⟩ := l.perform_beginning r w
  refine ⟨id, ctx, g, hbegin, hget, ?_⟩
  intro trace forwarded u one other path path'
  have hkept : u.facilities.spans = w.facilities.spans := spans_of_perform_beginning hbegin
  have hcall := (l.setOptions o).run_call s r hbegin (h := h)
  have hcall' := (l.setOptions o').run_call s r hbegin (h := h)
  have hobserved := (l.setOptions o).observed_call s r hbegin (h := h)
  have hobserved' := (l.setOptions o').observed_call s r hbegin (h := h)
  refine ⟨fun options q => (l.setOptions options).finish_spec hvisible q, ⟨hcall.1, hcall'.1⟩,
    hobserved, hobserved'.trans hobserved.symm, ?_⟩
  intro E loose hE hh p hp ws vs hwvs hws whole whole'
  obtain ⟨hexit, hserved, hsame⟩ := matches_response hE hh hk ho l s hp ctx hkept hwvs hws
  obtain ⟨hstep, hstates, htrace⟩ := ((l.setOptions o).relays_respond s trace path p).life h ws
  obtain ⟨hstep', hstates', htrace'⟩ :=
    ((l.setOptions o').relays_respond s trace path' p).life h vs
  refine ⟨⟨_, hstep.exit?_eq, ?_⟩, ?_, ?_⟩
  · rw [hstep'.exit?_eq, hexit]
  · rw [hstates, hstates']
    exact hserved
  · rw [htrace, htrace', hsame]

def workerSpan : Span where
  name := "worker"
  fields := []

/-- What handed-off work writes to the log. -/
def workedEvent : Event where
  level := .info
  message := "worked"

/-- A service that hands work off and executes it itself, inside another span. -/
def delegating : Service (fun _ => Empty) String Unit where
  Pending := Unit
  call _ := pure ()
  respond _ := do
    let snapshot ← Snapshot.capture
    let _ ← Ambient.inSpan workerSpan (snapshot.run .standard (Ambient.emit workedEvent))
    return .ok { status := 200, body := "worked" }

theorem parallel_delegating
    {σ : Type} {E : Correspondence (fun _ => Empty) σ} (hE : E.Lawful) (hre : E.Reenters)
    (p : delegating.Pending) :
    (delegating.respond p).Parallel E (· = ·) (delegating.respond p) := by
  refine Snapshot.parallel_capture.bind fun s t hst => ?_
  have hemit : Prog.Parallel E (· = ·) (Ambient.emit workedEvent) (Ambient.emit workedEvent) :=
    .op rfl fun _ => .pure rfl
  have hwork := Snapshot.parallel_run hE hre .standard hst hemit
  refine (Ambient.parallel_inSpan hE workerSpan hwork).bind ?_
  rintro r _ rfl
  exact .pure rfl

/-- A delegating service behind the standard layer, with and without a span, called in one unit and
polled in another one: everything but the spans of records agrees. -/
theorem options_agree_of_delegating :
    let h := LocalHost.nobody.handler
    let f : Facilities := .fresh ⟨fun n => ⟨n % 63, Nat.mod_lt n (by decide)⟩, 0⟩
    let w : World Unit := ⟨none, f, ()⟩
    let v : World Unit := ⟨some (.withId ⟨"poller"⟩), { f with spans := [workerSpan] }, ()⟩
    let o : Options := { span := false }
    let o' : Options := {}
    let r : Request String := { body := "work" }
    h.KeepsSpans ∧ (o.span = true → o'.span = true) ∧
      ∃ id ctx g,
        w.perform (standard.beginning r) = ((.ok id, ctx), { w with facilities := g }) ∧
        let trace : Arrival := ⟨ctx, id⟩
        let forwarded := { r with traceId := some id }
        let E : Correspondence (fun _ => Empty) Unit :=
          .ofSpans (o.SpansDiffer o' [] (requestSpan trace forwarded) True)
        let part (options : Options) :=
          (((standard.setOptions options).around delegating).respond
            (Begun.serving trace ((standard.setOptions options).spanPath trace forwarded
              { w with facilities := g }) ())).life h [v]
        h.Respects E ∧ (delegating.respond ()).Parallel E (· = ·) (delegating.respond ()) ∧
        v.Matches E v ∧ List.Forall₂ (World.Matches E) (part o).states (part o').states ∧
        Happening.observed (part o').trace = Happening.observed (part o).trace := by
  intro h f w v o o' r
  have hk : h.KeepsSpans := fun _ _ _ => rfl
  have ho : o.span = true → o'.span = true := fun _ => rfl
  obtain ⟨id, ctx, g, hbegin, -, -, -, -, -, hagree⟩ := options_agree hk standard ho delegating r w
  let trace : Arrival := ⟨ctx, id⟩
  let forwarded := { r with traceId := some id }
  let E : Correspondence (fun _ => Empty) Unit :=
    .ofSpans (o.SpansDiffer o' [] (requestSpan trace forwarded) True)
  have hh : h.Respects E := LocalHost.nobody.respects_ofSpans _
  have hservice : (delegating.respond ()).Parallel E (· = ·) (delegating.respond ()) :=
    parallel_delegating (Options.lawful_of_spansDiffer rfl)
      (Options.reenters_of_spansDiffer rfl fun _ => trivial) ()
  have hsame : ∀ x, E.spans x x := fun _ => .inl rfl
  have hv : v.Matches E v := .refl hsame (fun _ => rfl) v
  obtain ⟨-, hstates, htrace⟩ := hagree E True rfl hh () hservice [v] [v] (.cons hv .nil)
    fun _ _ => .inr trivial
  exact ⟨hk, ho, id, ctx, g, hbegin, hh, hservice, hv, hstates, htrace⟩

/-- Not only the span of the request can make the difference.  Handed-off work that a service
executes inside another span shows this span if the layer opens none, and does not show it if the
layer opens one. -/
theorem spans_differ_by_worker :
    let h := LocalHost.nobody.handler
    let w : World Unit := ⟨none, .fresh ⟨fun n => ⟨n % 63, Nat.mod_lt n (by decide)⟩, 0⟩, ()⟩
    let r : Request String := { body := "work" }
    let log (o : Options) :=
      ((((standard.setOptions o).around delegating).handle r).poll h w).2.facilities.records
    ∃ x y, (log { span := false }).getLast? = some ⟨workedEvent, x⟩ ∧
      (log {}).getLast? = some ⟨workedEvent, y⟩ ∧
      workerSpan.name ≠ "request" ∧ workerSpan ∈ x ∧ workerSpan ∉ y := by
  intro h w r log
  let id : TraceId := ⟨"ABCDEF"⟩
  refine ⟨[workerSpan], [requestSpan ⟨.withId id, id⟩ { r with traceId := some id }],
    ?_, ?_, ?_, ?_, ?_⟩
  · decide +kernel
  · decide +kernel
  · decide
  · exact List.mem_singleton_self _
  · decide

end Layer
end Http
end TraceLineage
