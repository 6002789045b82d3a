import Mathlib.Data.List.Basic
import TraceLineage.Http.Layer
import TraceLineage.Proofs.Adapter.Arrival
import TraceLineage.Proofs.Execution.Lineage
import TraceLineage.Proofs.Execution.Life
import TraceLineage.Proofs.Execution.Replay
import TraceLineage.Proofs.Text.Inbound

/-!
# One id per request

A layer resolves the id of a request before it does anything else, and the resolution always
succeeds: the context of the request is new, and the scheme for requests accepts every parent that
an inbound value can name.  The id is visible, so that a header can carry it.  From then on the id
is the one in the request, in the span, in the context and in the response.
-/

namespace TraceLineage
namespace Http

namespace HeaderValue

theorem isPlain_ofText_of_allVisible
    {s : String} (hs : Text.allVisible s = true) :
    (ofText s).isPlain = true := by
  rw [Text.allVisible, List.all_eq_true] at hs
  rw [isPlain, ofText, utf8Bytes, List.all_eq_true, List.forall_mem_flatMap]
  intro c hc b hb
  have hvisible := (Text.isVisible_iff_bytes c).1 (hs c hc) b hb
  simp only [isPlainByte, Bool.or_eq_true, Bool.and_eq_true, decide_eq_true_eq]
  omega

/-- A visible text can be written to a header, and it is what a lookup finds there. -/
theorem ofPlain?_of_allVisible
    {s : String} (hs : Text.allVisible s = true) :
    ofPlain? s = some (ofText s) ∧ (ofText s).text? = some s := by
  have hplain := isPlain_ofText_of_allVisible hs
  rw [Text.allVisible, List.all_eq_true] at hs
  have hchar : ∀ c ∈ s.toList,
      (String.utf8EncodeChar c).map (fun b => Char.ofNat b.toNat) = [c] := by
    intro c hc
    have hvisible := hs c hc
    have hval : c.toNat = c.val.toNat := rfl
    simp only [Text.isVisible, Bool.and_eq_true, decide_eq_true_eq] at hvisible
    have hascii : c.val.toNat ≤ 127 := by omega
    have hbyte : (UInt8.ofNat c.val.toNat).toNat = c.toNat := by
      rw [UInt8.toNat_ofNat']
      omega
    rw [String.utf8EncodeChar, if_pos hascii, List.map_singleton, hbyte, Char.ofNat_toNat]
  have hchars : (utf8Bytes s).map (fun b => Char.ofNat b.toNat) = s.toList := by
    rw [utf8Bytes, List.map_flatMap, List.flatMap_congr hchar, List.flatMap_singleton']
  refine ⟨if_pos hplain, ?_⟩
  rw [text?, if_pos hplain, ofText, hchars, String.ofList_toList]

end HeaderValue

namespace Layer

/-- A layer as the library makes them: the standard one, or the one of a configuration, with any
options. -/
inductive Built : Layer → Prop where
  | standard : Built standard
  | ofConfig {c : Config} {l : Layer} : ofConfig c = .ok l → Built l
  | setOptions {l : Layer} (o : Options) : Built l → Built (l.setOptions o)

/-- A layer writes its ids under the header name that is configured. -/
theorem Built.header
    {l : Layer} (hl : l.Built) :
    HeaderName.ofString? l.config.headerName = some l.header := by
  induction hl with
  | standard => decide +kernel
  | @ofConfig c l hc =>
    simp only [Layer.ofConfig] at hc
    split at hc
    · rename_i n hn
      cases hc
      exact hn
    · exact nomatch hc
  | setOptions o _ ih => exact ih

/-- What a layer does to a response: at most it puts the id in place of all values under its
header. -/
theorem finish_spec
    {β : Type} (l : Layer) {id : TraceId} (hid : Text.allVisible id.text = true) (q : Response β) :
    (l.finish id q).status = q.status ∧ (l.finish id q).body = q.body ∧
      (∀ n, n ≠ l.header → (l.finish id q).headers.values n = q.headers.values n) ∧
      (l.options.responseHeader = true →
        (l.finish id q).headers.values l.header = [.ofText id.text]) ∧
      (l.options.responseHeader = false → l.finish id q = q) := by
  simp only [finish, (HeaderValue.ofPlain?_of_allVisible hid).1]
  cases l.options.responseHeader with
  | true =>
    refine ⟨rfl, rfl, ?_, fun _ => HeaderMap.values_insert _ _ _, fun hoff => nomatch hoff⟩
    intro n hn
    exact HeaderMap.values_insert_of_ne _ _ hn.symm
  | false =>
    exact ⟨rfl, rfl, fun _ _ => rfl, fun hon => absurd hon Bool.false_ne_true, fun _ => rfl⟩

variable {H : Type → Type} {σ β ε : Type} {h : Handler H σ}

/-- The resolution with which a layer begins. -/
def beginning (l : Layer) (r : Request β) : Op (Except Fault TraceId × Context) :=
  .resolveIn l.config (Arrival.boundary l.config r.headers.lookup)
    (Arrival.initialContext l.config r.headers.lookup)

/-- Beginning a request succeeds. -/
theorem perform_beginning
    (l : Layer) (r : Request β) (w : World σ) :
    ∃ id ctx g,
      w.perform (l.beginning r) = ((.ok id, ctx), { w with facilities := g }) ∧
      ctx.get? = some id ∧ Text.allVisible id.text = true := by
  obtain ⟨id, g, hperform, _, hvisible, hblank, _⟩ :=
    Arrival.perform_resolveIn l.config r.headers.lookup w
  exact ⟨id, _, g, hperform, (Context.get?_eq_some_iff _ _).2 ⟨rfl, hblank⟩, hvisible⟩

theorem spans_of_perform_beginning
    {l : Layer} {r : Request β} {w u : World σ} {x : Except Fault TraceId × Context}
    (hbegin : w.perform (l.beginning r) = (x, u)) :
    u.facilities.spans = w.facilities.spans := by
  have hkept := (w.records_perform 0 (l.beginning r)).2
  rw [hbegin] at hkept
  exact hkept

/-! ## The call -/

/-- What the call of a layer comes to once the request has its id: the layer opens a span, if it
does so, and calls the service behind it. -/
def calling (l : Layer) (s : Service H β ε) (r : Request β) (trace : Arrival) :
    Prog H (Begun s.Pending) :=
  (l.openSpan trace r).bind fun path =>
    (s.call r).inPlace.bind fun p => .done (.value (.serving trace path p))

/-- The path of the span around a response that is opened in a state, if one is. -/
def spanPath (l : Layer) (trace : Arrival) (r : Request β) (w : World σ) : List Span :=
  if l.options.span = true then w.facilities.spans ++ [requestSpan trace r] else []

theorem spanPath_of_span
    {l : Layer} (ho : l.options.span = true) (trace : Arrival) (r : Request β) (w : World σ) :
    l.spanPath trace r w = w.facilities.spans ++ [requestSpan trace r] :=
  if_pos ho

/-- What a layer performs to open a span, if it does so. -/
def opening (l : Layer) (w : World σ) : List Happening :=
  if l.options.span = true then [w.happening 0 .spans] else []

theorem drive_openSpan_bind
    {α : Type} (l : Layer) (trace : Arrival) (r : Request β) (f : List Span → Prog H α)
    (through : Bool) (w : World σ) :
    ((l.openSpan trace r).bind f).drive h through w =
        (f (l.spanPath trace r w)).drive h through w ∧
      ((l.openSpan trace r).bind f).trace h through 0 w =
        l.opening w ++ (f (l.spanPath trace r w)).trace h through 0 w := by
  by_cases ho : l.options.span = true
  · simp only [openSpan, spanPath, opening, if_pos ho]
    exact ⟨rfl, rfl⟩
  · simp only [openSpan, spanPath, opening, if_neg ho]
    exact ⟨rfl, rfl⟩

variable [Inhabited β]

/-- The call of a layer resolves an id and goes on with the request. -/
theorem drive_call
    (l : Layer) (s : Service H β ε) (r : Request β) {w u : World σ} {id : TraceId} {ctx : Context}
    (hbegin : w.perform (l.beginning r) = ((.ok id, ctx), u)) (through : Bool) (d : Nat) :
    let calling := l.calling s { r with traceId := some id } ⟨ctx, id⟩
    ((l.around s).call r).drive h through w = calling.drive h through u ∧
      ((l.around s).call r).trace h through d w =
        w.happening d (l.beginning r) :: calling.trace h through d u := by
  rw [beginning] at hbegin
  constructor
  · simp only [around, Arrival.begin, Bind.bind, Prog.bind, Prog.drive, hbegin]
    rfl
  · simp only [around, Arrival.begin, Bind.bind, Prog.bind, Prog.trace, hbegin]
    rfl

/-- The call of a layer comes to the call of the service behind it, and ends like this. -/
theorem run_call
    (l : Layer) (s : Service H β ε) (r : Request β) {w u : World σ} {id : TraceId} {ctx : Context}
    (hbegin : w.perform (l.beginning r) = ((.ok id, ctx), u)) :
    let forwarded := { r with traceId := some id }
    let path := l.spanPath ⟨ctx, id⟩ forwarded u
    (match (s.call forwarded).run h u with
      | (x, v) =>
        ((l.around s).call r).run h w = (x.map (Exit.map (Begun.serving ⟨ctx, id⟩ path)), v)) ∧
      ((l.around s).call r).trace h true 0 w =
        w.happening 0 (l.beginning r) ::
          (l.opening u ++ (s.call forwarded).inPlace.trace h true 0 u) := by
  intro forwarded path
  obtain ⟨hdrive, htrace⟩ := l.drive_call s r hbegin (h := h) true 0
  obtain ⟨hopen, hopening⟩ := l.drive_openSpan_bind ⟨ctx, id⟩ forwarded
    (fun path => (s.call forwarded).inPlace.bind fun p =>
      .done (.value (Begun.serving ⟨ctx, id⟩ path p))) (h := h) true u
  rw [calling] at hdrive htrace
  rw [hopen, Prog.drive_inPlace_bind] at hdrive
  rw [hopening, Prog.trace_bind, Prog.drive_inPlace] at htrace
  simp only [Prog.run] at hdrive htrace ⊢
  rcases hcall : (s.call forwarded).drive h true u with ⟨(p | e) | rest, v⟩
  -- a call that returns, one that panics, and one that never ends
  · rw [hcall] at hdrive htrace
    rw [hdrive]
    refine ⟨rfl, htrace.trans ?_⟩
    simp only [Prog.traceAfter, Prog.trace, List.append_nil]
  all_goals
    rw [hcall] at hdrive htrace
    rw [hdrive]
    refine ⟨rfl, htrace.trans ?_⟩
    simp only [Prog.traceAfter, List.append_nil]

/-! ## The response -/

/-- The response of a service in the context of its request. -/
def response (s : Service H β ε) (path : List Span) (ctx : Context) (p : s.Pending) :
    Prog H (Except ε (Response β)) :=
  Ambient.underSpans path <| Ambient.inContext ctx <| Ambient.guarded <| s.respond p

theorem relays_respond
    (l : Layer) (s : Service H β ε) (trace : Arrival) (path : List Span) (p : s.Pending) :
    Prog.Relays (Except.map (l.finish trace.traceId)) (response s path trace.context p)
      ((l.around s).respond (Begun.serving trace path p)) := by
  have hfinish : (l.around s).respond (Begun.serving trace path p) =
      (Ambient.underSpans path <| Ambient.inContext trace.context <| Ambient.guarded <|
        (s.respond p).bind fun x => .done (.value (x.map (l.finish trace.traceId)))) := by
    refine congrArg (fun f => Ambient.underSpans path (Ambient.inContext trace.context
      (Ambient.guarded ((s.respond p).bind f)))) (funext fun x => ?_)
    cases x <;> rfl
  rw [response, hfinish]
  cases path with
  | nil => exact .inFrame _ (.inFrame _ (.map _ _))
  | cons first path => exact .inFrame _ (.inFrame _ (.inFrame _ (.map _ _)))

/-- Every request has one id, and nothing fails for want of it.  The resolution with which the call
of a layer begins succeeds with an id that the new context shows, that the request carries to the
service and to the extractor, and that the span around the response has as a field.  The call then
ends like the call of the service, and never with the answer of the layer itself.  The response
runs in the new context, whenever and wherever it is polled: every id that it finds in this scope
extends that id up to the first clearing, and the layer passes on what the service answers, changed
by `finish`, or how it fails.  All that `finish` does to a response is to put the id in place of
the values under the configured header, and not even this if that is switched off. -/
theorem one_id_per_request
    (hh : h.SparesContext) {l : Layer} (hl : l.Built) (s : Service H β ε) (r : Request β)
    (w : World σ) :
    ∃ id ctx g,
      w.perform (l.beginning r) = ((.ok id, ctx), { w with facilities := g }) ∧
      ctx.get? = some id ∧
      let trace : Arrival := ⟨ctx, id⟩
      let forwarded := { r with traceId := some id }
      let u : World σ := { w with facilities := g }
      let path := l.spanPath trace forwarded u
      extract (H := H) forwarded.traceId = pure (.ok id) ∧
      (requestSpan trace forwarded).fields.lookup "trace_id" = some (.text id.text) ∧
      (match (s.call forwarded).run h u with
        | (x, v) =>
          ((l.around s).call r).run h w = (x.map (Exit.map (Begun.serving trace path)), v)) ∧
      ((l.around s).call r).trace h true 0 w =
        w.happening 0 (l.beginning r) ::
          (l.opening u ++ (s.call forwarded).inPlace.trace h true 0 u) ∧
      (∀ (p : s.Pending) (ws : List (World σ)),
        let whole := ((l.around s).respond (Begun.serving trace path p)).life h ws
        let served := (response s path ctx p).life h ws
        let own := Happening.atDepth 1 served.trace
        whole.trace = served.trace ∧ whole.states = served.states ∧
          Step.Relays (Except.map (l.finish id)) served.step whole.step ∧
          (∀ x, own.head? = some x → x.before = some ctx) ∧
          ∀ x ∈ own.takeWhile fun x => !x.op.isClear,
            Context.Extends id x.before ∧ Context.Extends id x.after) ∧
      (HeaderValue.ofText id.text).text? = some id.text ∧
      ∃ n, HeaderName.ofString? l.config.headerName = some n ∧
        ∀ q : Response β, (l.finish id q).status = q.status ∧ (l.finish id q).body = q.body ∧
          (∀ m, m ≠ n → (l.finish id q).headers.values m = q.headers.values m) ∧
          (l.options.responseHeader = true →
            (l.finish id q).headers.values n = [.ofText id.text]) ∧
          (l.options.responseHeader = false → l.finish id q = q) := by
  obtain ⟨id, ctx, g, hbegin, hget, hvisible⟩ := l.perform_beginning r w
  refine ⟨id, ctx, g, hbegin, hget, ?_⟩
  intro trace forwarded u path
  obtain ⟨hcall, htrace⟩ := l.run_call s r hbegin (h := h)
  refine ⟨rfl, rfl, hcall, htrace, ?_, (HeaderValue.ofPlain?_of_allVisible hvisible).2, l.header,
    hl.header, l.finish_spec hvisible⟩
  intro p ws
  obtain ⟨hstep, hstates, hlife⟩ := (l.relays_respond s trace path p).life h ws
  obtain ⟨b, hline⟩ := Ambient.linked_life_inContext hh path ctx (Ambient.guarded (s.respond p)) ws
  exact ⟨hlife, hstates, hstep, hline.before_head,
    hline.extends ⟨id, hget, id.isExtensionOf_refl⟩⟩

/-- A service whose response reads the id in scope, suspends, reads it again, and then comes with a
trace header of its own. -/
def dawdling : Service (fun _ => Empty) String Unit where
  Pending := Unit
  call _ := pure ()
  respond _ :=
    .op .snapshot fun _ => .suspend <| .op .snapshot fun _ => .done <| .value <| .ok
      { status := 201, headers := .ofList [("X-Trace-Id", "forged")], body := "made" }

/-- The standard layer in front of a dawdling service, for a request that continues a chain, called
in one unit and polled in two others.  The response reads an id of the chain each time, and it comes
with this id in place of the one that the service had put there. -/
theorem one_id_per_continued_request :
    let h := LocalHost.nobody.handler
    let f : Facilities := .fresh ⟨fun n => ⟨n % 63, Nat.mod_lt n (by decide)⟩, 0⟩
    let w : World Unit := ⟨none, f, ()⟩
    let v : World Unit := ⟨some (.withId ⟨"other-1"⟩), f, ()⟩
    let v' : World Unit := ⟨some (.withId ⟨"other-2"⟩), f, ()⟩
    let r : Request String := { headers := .ofList [("X-TRACE-ID", " chain-1 ")], body := "make" }
    h.SparesContext ∧ standard.Built ∧
      ∃ ctx path q, q.headers.values ⟨"x-trace-id"⟩ = [.ofText "chain-1_ABCDEF"] ∧ q.status = 201 ∧
        (((standard.around dawdling).call r).run h w).1 =
          some (.value (Begun.serving ⟨ctx, ⟨"chain-1_ABCDEF"⟩⟩ path ())) ∧
        let trace : Arrival := ⟨ctx, ⟨"chain-1_ABCDEF"⟩⟩
        let whole :=
          ((standard.around dawdling).respond (Begun.serving trace path ())).life h [v, v']
        whole.step = .finished (.value (.ok q)) ∧
          ∃ first second clearing, Happening.atDepth 1 whole.trace = [first, second, clearing] ∧
            first.before = some ctx ∧ Context.Extends ⟨"chain-1_ABCDEF"⟩ second.before := by
  intro h f w v v' r
  have hh : h.SparesContext := LocalHost.nobody.sparesContext
  obtain ⟨id, ctx, g, hbegin, hget, -, -, hcall, -, hserved, -, n, hn, hfinish⟩ :=
    one_id_per_request hh .standard dawdling r w
  have hname : HeaderName.ofString? standard.config.headerName = some ⟨"x-trace-id"⟩ := by
    decide +kernel
  obtain rfl : n = ⟨"x-trace-id"⟩ := Option.some.inj (hn.symm.trans hname)
  have hid : (w.perform (standard.beginning r)).1.1 = .ok ⟨"chain-1_ABCDEF"⟩ := by
    decide +kernel
  obtain rfl : id = ⟨"chain-1_ABCDEF"⟩ := by
    rw [hbegin] at hid
    exact Except.ok.inj hid
  have hnone : g.spans = [] := spans_of_perform_beginning hbegin
  let trace : Arrival := ⟨ctx, ⟨"chain-1_ABCDEF"⟩⟩
  let forwarded := { r with traceId := some trace.traceId }
  have hpath : standard.spanPath trace forwarded { w with facilities := g } =
      [requestSpan trace forwarded] := by
    rw [spanPath_of_span rfl, hnone, List.nil_append]
  obtain ⟨htrace, -, -, hfirst, hextends⟩ := hserved () [v, v']
  simp only [trace, forwarded] at hpath
  simp only [hpath] at hcall htrace hfirst hextends
  let own : Response String :=
    { status := 201, headers := .ofList [("X-Trace-Id", "forged")], body := "made" }
  refine ⟨hh, .standard, ctx, _, standard.finish ⟨"chain-1_ABCDEF"⟩ own, (hfinish own).2.2.2.1 rfl,
    (hfinish own).1, congrArg Prod.fst hcall, ?_, ?_⟩
  · rfl
  · rw [htrace]
    exact ⟨_, _, _, rfl, hfirst _ rfl, (hextends _ (List.mem_cons_of_mem _ List.mem_cons_self)).1⟩

end Layer
end Http
end TraceLineage
