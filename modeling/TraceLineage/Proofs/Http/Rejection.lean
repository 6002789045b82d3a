import TraceLineage.Proofs.Boundary.Atomicity
import TraceLineage.Proofs.Http.OneId

/-!
# Rejected inbound values

A request whose inbound value is not acceptable goes on like a request without one.  A value that is
not blank leaves a warning in front of everything else, which tells its length in bytes and nothing
more of it.  A header whose first value is no text is not even looked at: it counts as no header.
-/

namespace TraceLineage

/-- The event that reports a rejected inbound value, unless the value is blank. -/
theorem Boundary.rejections_of_rejected
    {raw : String} (hraw : TraceId.ofInbound? raw = none) :
    (request (some raw)).rejections =
      if Text.isBlank raw = true then [] else [discardedEvent raw.utf8ByteSize] := by
  rw [rejections, hraw]
  by_cases hblank : Text.isBlank raw = true
  · rw [hblank]
    rfl
  · rw [eq_false_of_ne_true hblank]
    rfl

/-- With a rejected inbound value a resolution comes to what it comes to without one, but for what
the log says in front of it. -/
theorem Config.resolve_of_rejected
    {raw : String} (hraw : TraceId.ofInbound? raw = none) (c : Config) (ctx : Context)
    (f : Facilities) :
    ∃ new, let (r, ctx', g) := c.resolve (.request none) ctx f
      g.records = f.records ++ new ∧
      c.resolve (.request (some raw)) ctx f =
        (r, ctx', { g with records :=
          (f.emitAll (Boundary.request (some raw)).rejections).records ++ new }) := by
  obtain ⟨m, hm, _, hres⟩ := c.resolve_request_eq none ctx f
  obtain ⟨m', hm', _, hres'⟩ := c.resolve_request_eq (some raw) ctx f
  rw [Option.bind_some, hraw] at hm'
  obtain rfl : m = m' := Except.ok.inj (congrArg Prod.fst (hm.symm.trans hm'))
  rw [hres, hres', Boundary.rejections, Facilities.emitAll_nil]
  -- both resolutions make the same id, so that the context decides in the same way about it
  cases ctx.set m.id with
  | ok ctx' => exact ⟨[⟨resolvedEvent .request m.id, f.spans⟩], rfl, rfl⟩
  | error e =>
    refine ⟨[], (List.append_nil _).symm, ?_⟩
    rw [List.append_nil]
    rfl

namespace Http

namespace HeaderMap

def remove (m : HeaderMap) (n : HeaderName) : HeaderMap :=
  ⟨m.entries.filter fun e => e.1 ≠ n⟩

theorem values_remove
    (m : HeaderMap) (n : HeaderName) :
    (m.remove n).values n = [] := by
  simp [values, remove, List.filter_filter]

theorem values_remove_of_ne
    (m : HeaderMap) {n q : HeaderName} (hq : q ≠ n) :
    (m.remove n).values q = m.values q := by
  have hinsert : (m.insert n ⟨[]⟩).values q = (m.remove n).values q := by
    simp [values, insert, remove, List.filter_append, hq.symm]
  rw [← hinsert, values_insert_of_ne m ⟨[]⟩ hq.symm]

/-- Looking up a header whose first value is no text is like looking it up where it is absent. -/
theorem lookup_remove
    {m : HeaderMap} {n : HeaderName} {value : HeaderValue} (hvalue : m.first? n = some value)
    (hplain : value.text? = none) :
    (m.remove n).lookup = m.lookup := by
  funext name
  rw [lookup, lookup]
  cases HeaderName.ofString? name with
  | none => rfl
  | some q =>
    rw [Option.bind_some, Option.bind_some]
    by_cases hq : q = n
    · subst hq
      rw [hvalue, Option.bind_some, hplain, first?, values_remove]
      rfl
    · rw [first?, first?, values_remove_of_ne m hq]

end HeaderMap

/-- A service that is given other headers than those of the request. -/
def Service.withHeaders {H : Type → Type} {β ε : Type} (s : Service H β ε) (m : HeaderMap) :
    Service H β ε where
  Pending := s.Pending
  call r := s.call { r with headers := m }
  respond := s.respond

namespace Layer

/-- What a layer does with a request depends on the headers only by what looking them up yields. -/
theorem around_congr
    {H : Type → Type} {β ε : Type} [Inhabited β] (l : Layer) (s : Service H β ε) {r : Request β}
    {m : HeaderMap} (hm : m.lookup = r.headers.lookup) :
    (l.around (s.withHeaders r.headers)).call { r with headers := m } = (l.around s).call r ∧
      (l.around (s.withHeaders r.headers)).respond = (l.around s).respond := by
  constructor
  · simp only [around, hm]
    rfl
  · funext p
    cases p <;> rfl

/-- A layer that finds no inbound value starts a new chain, and reports nothing but the id. -/
theorem perform_beginning_of_no_value
    {σ β : Type} (l : Layer) {r : Request β}
    (hvalue : r.headers.lookup l.config.headerName = none) (w : World σ) :
    ∃ id ctx g,
      w.perform (l.beginning r) = ((.ok id, ctx), { w with facilities := g }) ∧
      l.config.request.Extends w.facilities.source none id ∧
      g.records = w.facilities.records ++ [⟨resolvedEvent .request id, w.facilities.spans⟩] := by
  obtain ⟨id, g, hperform, hid, _, _, hrecords⟩ :=
    Arrival.perform_resolveIn l.config r.headers.lookup w
  rw [hvalue] at hid
  rw [Arrival.boundary, hvalue] at hrecords
  exact ⟨id, _, g, hperform, hid, hrecords⟩

end Layer

/-- A rejected inbound value has no influence beyond its length.  With one, the resolution of a
request has the same result and leaves the same context and the same facilities as without one,
apart from a warning in front of what else it reports; there is one unless the value is blank, and
all that it tells is the length of the value in bytes.  Two rejected values that are not blank and
of the same length cannot be told apart.  A layer that finds a first value of its header that is no
text does with every service what it does with the request without this header, when it is called
and when it responds, and no warning is written. -/
theorem rejected_tells_length
    (c : Config) :
    (∀ (raw : String), TraceId.ofInbound? raw = none → ∀ (ctx : Context) (f : Facilities),
      ∃ new, let (r, ctx', g) := c.resolve (.request none) ctx f
        let warning : Event :=
          ⟨.warn, "Discarding malformed inbound trace id, starting a new chain",
            [("inbound_len", .number raw.utf8ByteSize)]⟩
        let warnings := if Text.isBlank raw = true then [] else [⟨warning, f.spans⟩]
        g.records = f.records ++ new ∧
        c.resolve (.request (some raw)) ctx f =
          (r, ctx', { g with records := f.records ++ warnings ++ new })) ∧
    (∀ raw raw' : String,
      TraceId.ofInbound? raw = none → Text.isBlank raw = false →
      TraceId.ofInbound? raw' = none → Text.isBlank raw' = false →
      raw.utf8ByteSize = raw'.utf8ByteSize →
      c.resolve (.request (some raw)) = c.resolve (.request (some raw'))) ∧
    ∀ {β : Type} [Inhabited β] {l : Layer} {r : Request β} {value : HeaderValue}, l.Built →
      l.config = c → r.headers.first? l.header = some value → value.text? = none →
      let bare := { r with headers := r.headers.remove l.header }
      bare.headers.first? l.header = none ∧
      (∀ {H : Type → Type} {ε : Type} (s : Service H β ε),
        let s' := s.withHeaders r.headers
        (l.around s).call r = (l.around s').call bare ∧
          (l.around s).respond = (l.around s').respond) ∧
      ∀ {σ : Type} (w : World σ), ∃ id ctx g,
        w.perform (l.beginning r) = ((.ok id, ctx), { w with facilities := g }) ∧
        c.request.Extends w.facilities.source none id ∧
        let resolved : Event := ⟨.debug, "Trace id resolved",
          [("invoker", .text "request"), ("trace_id", .text id.text)]⟩
        g.records = w.facilities.records ++ [⟨resolved, w.facilities.spans⟩] := by
  refine ⟨?_, ?_, ?_⟩
  · intro raw hraw ctx f
    obtain ⟨new, hrecords, hres⟩ := Config.resolve_of_rejected hraw c ctx f
    refine ⟨new, hrecords, hres.trans ?_⟩
    rw [Facilities.emitAll, Boundary.rejections_of_rejected hraw]
    cases Text.isBlank raw <;> rfl
  · intro raw raw' hraw hblank hraw' hblank' hlength
    funext ctx f
    have hwarning : (Boundary.request (some raw)).rejections =
        (Boundary.request (some raw')).rejections := by
      rw [Boundary.rejections_of_rejected hraw, Boundary.rejections_of_rejected hraw', hblank,
        hblank', hlength]
    obtain ⟨new, hrecords, hres⟩ := Config.resolve_of_rejected hraw c ctx f
    obtain ⟨new', hrecords', hres'⟩ := Config.resolve_of_rejected hraw' c ctx f
    obtain rfl : new = new' := List.append_cancel_left (hrecords.symm.trans hrecords')
    rw [hres, hres', hwarning]
  · rintro β _ l r value hl rfl hvalue hplain
    have hlookup := HeaderMap.lookup_remove hvalue hplain
    have hnone : r.headers.lookup l.config.headerName = none := by
      rw [HeaderMap.lookup, hl.header, Option.bind_some, hvalue, Option.bind_some, hplain]
    refine ⟨?_, ?_, l.perform_beginning_of_no_value hnone⟩
    · rw [HeaderMap.first?, HeaderMap.values_remove]
      rfl
    · intro H ε s s'
      obtain ⟨hcall, hrespond⟩ := l.around_congr s hlookup
      exact ⟨hcall.symm, hrespond.symm⟩

/-- A value with a blank inside and a value that is not of visible characters, for a context that
shows an id of another chain, and a request whose first header value is no text. -/
theorem rejected_tells_length_of_conflict :
    let c := Config.standard
    let f := Facilities.fresh ⟨fun n => ⟨n % 63, Nat.mod_lt n (by decide)⟩, 0⟩
    let ctx := Context.withId ⟨"other-chain"⟩
    let header := Layer.standard.header
    let r : Request Unit :=
      { headers := ⟨[(header, ⟨[0xff]⟩), (header, .ofText "chain")]⟩, body := () }
    let bare := { r with headers := r.headers.remove header }
    TraceId.ofInbound? "a b" = none ∧ Text.isBlank "a b" = false ∧
    TraceId.ofInbound? "é!" = none ∧ Text.isBlank "é!" = false ∧
    (c.resolve (.request none) ctx f).1.isOk = false ∧
    (∃ new, let (r, ctx', g) := c.resolve (.request none) ctx f
      let warning : Event := ⟨.warn,
        "Discarding malformed inbound trace id, starting a new chain", [("inbound_len", .number 3)]⟩
      c.resolve (.request (some "a b")) ctx f =
        (r, ctx', { g with records := f.records ++ [⟨warning, f.spans⟩] ++ new })) ∧
    c.resolve (.request (some "a b")) = c.resolve (.request (some "é!")) ∧
    Layer.standard.Built ∧ r.headers.first? header = some ⟨[0xff]⟩ ∧
    HeaderValue.text? ⟨[0xff]⟩ = none ∧
    ∀ s : Service (fun _ => Empty) Unit Unit,
      (Layer.standard.around s).call r =
        (Layer.standard.around (s.withHeaders r.headers)).call bare := by
  intro c f ctx header r bare
  have hblank : TraceId.ofInbound? "a b" = none := by decide +kernel
  have hforeign : TraceId.ofInbound? "é!" = none := by decide +kernel
  have hinner : Text.isBlank "a b" = false := by decide +kernel
  have hmark : Text.isBlank "é!" = false := by decide +kernel
  have hvalue : r.headers.first? header = some ⟨[0xff]⟩ := by decide +kernel
  have hplain : HeaderValue.text? ⟨[0xff]⟩ = none := by decide +kernel
  obtain ⟨hrejected, hpair, hheader⟩ := rejected_tells_length c
  obtain ⟨new, hres⟩ := hrejected "a b" hblank ctx f
  refine ⟨hblank, hinner, hforeign, hmark, by decide +kernel, ⟨new, ?_⟩,
    hpair _ _ hblank hinner hforeign hmark (by decide +kernel), .standard, hvalue, hplain,
    fun s => ?_⟩
  · revert hres
    generalize c.resolve (.request none) ctx f = none'
    intro hres
    rw [hinner] at hres
    exact hres.2
  · exact ((hheader .standard rfl hvalue hplain).2.1 s).1

end Http
end TraceLineage
