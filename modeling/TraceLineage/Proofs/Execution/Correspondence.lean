import Mathlib.Data.List.Forall2
import TraceLineage.Proofs.Execution.Records
import TraceLineage.Proofs.Execution.Replay

/-!
# Corresponding states

Two runs of the same work may differ in the spans that are open around it.  A correspondence says
which spans of the one run stand for which of the other, and in the same way what the hosts keep and
are asked.  States correspond if they agree in everything else: in the context, in the symbols to
come and the ids that have been made, and, record by record, in the events of the log.

An operation that does not read the spans has the same result in corresponding states.
-/

namespace TraceLineage

/-- What of one run stands for what of another. -/
structure Correspondence (H : Type → Type) (σ : Type) where
  spans : List Span → List Span → Prop
  request : {γ δ : Type} → H γ → H δ → (γ → δ → Prop) → Prop
  host : σ → σ → Prop

namespace Correspondence

variable {H : Type → Type} {σ : Type}

/-- A correspondence that is not disturbed by spans that are opened inside others, and in which the
second run has a span whenever the first one has. -/
structure Lawful (E : Correspondence H σ) : Prop where
  nil : E.spans [] []
  snoc : ∀ {x y : List Span} (s : Span), E.spans x y → E.spans (x ++ [s]) (y ++ [s])
  eq_nil : ∀ {x : List Span}, E.spans x [] → x = []

/-- Spans of the second run that stand for all spans in which the first one may be. -/
def Covers (E : Correspondence H σ) (path : List Span) : Prop :=
  ∀ x y, E.spans x y → E.spans x path

/-- A correspondence that admits that the second run enters spans where the first one has none to
enter. -/
def Reenters (E : Correspondence H σ) : Prop :=
  ∀ path, E.spans [] path → path ≠ [] → E.Covers path

end Correspondence

/-- The same event in spans that stand for each other. -/
structure Record.Matches (R : List Span → List Span → Prop) (q r : Record) : Prop where
  event : r.event = q.event
  spans : R q.spans r.spans

/-- Exits of the same kind, whose values stand for each other. -/
inductive Exit.Matches {α β : Type} (A : α → β → Prop) : Exit α → Exit β → Prop
  | value {a : α} {b : β} (hab : A a b) : Matches A (.value a) (.value b)
  | panic (e : Payload) : Matches A (.panic e) (.panic e)

theorem Exit.Matches.eq
    {α : Type} {x y : Exit α} (hxy : x.Matches (· = ·) y) :
    x = y := by
  cases hxy with
  | value hab => rw [hab]
  | panic e => rfl

theorem Exit.Matches.refl
    {α : Type} (x : Exit α) :
    x.Matches (· = ·) x := by
  cases x with
  | value a => exact .value rfl
  | panic e => exact .panic e

/-! ## Facilities -/

/-- Facilities that agree in everything but spans, and correspond in these. -/
structure Facilities.Matches (R : List Span → List Span → Prop) (f g : Facilities) : Prop where
  source : g.source = f.source
  minted : g.minted = f.minted
  spans : R f.spans g.spans
  records : List.Forall₂ (Record.Matches R) f.records g.records

namespace Facilities.Matches

variable {R : List Span → List Span → Prop} {f g : Facilities}

theorem emitAll
    (hfg : Matches R f g) (es : List Event) :
    Matches R (f.emitAll es) (g.emitAll es) := by
  refine ⟨hfg.source, hfg.minted, hfg.spans, ?_⟩
  have hnew : List.Forall₂ (Record.Matches R) (es.map (⟨·, f.spans⟩)) (es.map (⟨·, g.spans⟩)) := by
    rw [List.forall₂_map_left_iff, List.forall₂_map_right_iff, List.forall₂_same]
    exact fun e _ => ⟨rfl, hfg.spans⟩
  exact List.rel_append hfg.records hnew

theorem generate
    {i : Invoker} (hfg : Matches R f g) (s : Scheme i) (parent : Option TraceId) :
    (g.generate s parent).1 = (f.generate s parent).1 ∧
      Matches R (f.generate s parent).2 (g.generate s parent).2 := by
  simp only [Facilities.generate, hfg.source, hfg.minted]
  rcases s.mint parent f.source with ⟨e | m, t⟩
  · exact ⟨rfl, rfl, rfl, hfg.spans, hfg.records⟩
  · exact ⟨rfl, rfl, rfl, hfg.spans, hfg.records⟩

theorem generateAt
    (hfg : Matches R f g) (c : Config) (b : Boundary) (ctx : Context) :
    (c.generateAt b ctx g).1 = (c.generateAt b ctx f).1 ∧
      Matches R (c.generateAt b ctx f).2 (c.generateAt b ctx g).2 := by
  cases b with
  | request inbound =>
    have hparent : Matches R (inboundParent inbound f).2 (inboundParent inbound g).2 := by
      rw [Facilities.inboundParent_eq, Facilities.inboundParent_eq]
      exact hfg.emitAll _
    have hsame : (inboundParent inbound g).1 = (inboundParent inbound f).1 := by
      rw [Facilities.fst_inboundParent, Facilities.fst_inboundParent]
    simp only [Config.generateAt, hsame]
    exact hparent.generate c.request _
  | job =>
    simp only [Config.generateAt]
    cases ctx.get? with
    | some existing => exact ⟨rfl, hfg⟩
    | none => exact hfg.generate c.job none
  | handoff => exact hfg.generate c.thread ctx.get?

theorem resolve
    (hfg : Matches R f g) (c : Config) (b : Boundary) (ctx : Context) :
    (c.resolve b ctx g).1 = (c.resolve b ctx f).1 ∧
      (c.resolve b ctx g).2.1 = (c.resolve b ctx f).2.1 ∧
      Matches R (c.resolve b ctx f).2.2 (c.resolve b ctx g).2.2 := by
  obtain ⟨hid, hbehind⟩ := hfg.generateAt c b ctx
  simp only [Config.resolve]
  rcases hf : c.generateAt b ctx f with ⟨r, f'⟩
  rcases hg : c.generateAt b ctx g with ⟨r', g'⟩
  rw [hf, hg] at hid hbehind
  obtain rfl : r' = r := hid
  cases r' with
  | error e => exact ⟨rfl, rfl, hbehind⟩
  | ok id =>
    dsimp only
    cases ctx.set id with
    | error e => exact ⟨rfl, rfl, hbehind⟩
    | ok changed => exact ⟨rfl, rfl, hbehind.emitAll [_]⟩

end Facilities.Matches

/-! ## States and operations -/

/-- States that agree in everything but what a correspondence leaves open. -/
structure World.Matches {H : Type → Type} {σ : Type} (E : Correspondence H σ) (w v : World σ) :
    Prop where
  ambient : v.ambient = w.ambient
  facilities : w.facilities.Matches E.spans v.facilities
  host : E.host w.host v.host

/-- Whether an operation reads the current spans. -/
def Op.readsSpans {γ : Type} : Op γ → Bool
  | .spans => true
  | _ => false

/-- What happened, no matter in which spans. -/
def Happening.withoutSpans (x : Happening) : Happening :=
  { x with spans := [] }

/-- What has been observed, spans aside. -/
def Happening.observed (xs : List Happening) : List Happening :=
  (xs.filter fun x => !x.op.readsSpans).map withoutSpans

theorem Happening.observed_append
    (xs ys : List Happening) :
    observed (xs ++ ys) = observed xs ++ observed ys := by
  simp only [observed, List.filter_append, List.map_append]

theorem Happening.observed_cons
    {x : Happening} (hx : x.op.readsSpans = false) (xs : List Happening) :
    observed (x :: xs) = x.withoutSpans :: observed xs := by
  rw [observed, List.filter_cons_of_pos (by rw [hx]; rfl), List.map_cons]
  rfl

variable {H : Type → Type} {σ : Type} {E : Correspondence H σ} {w v w' v' : World σ}

namespace World.Matches

/-- A state corresponds to itself if its spans and its host do. -/
theorem refl
    (hspans : ∀ x, E.spans x x) (hhost : ∀ k, E.host k k) (w : World σ) :
    Matches E w w := by
  refine ⟨rfl, ⟨rfl, rfl, hspans _, ?_⟩, hhost _⟩
  exact List.forall₂_same.2 fun q _ => ⟨rfl, hspans _⟩

theorem clear
    (hwv : Matches E w v) :
    Matches E w.clear v.clear := by
  refine ⟨?_, hwv.facilities, hwv.host⟩
  simp only [World.clear, hwv.ambient]

theorem withSpans
    {x y : List Span} (hwv : Matches E w v) (hxy : E.spans x y) :
    Matches E (w.withSpans x) (v.withSpans y) :=
  ⟨hwv.ambient, ⟨hwv.facilities.source, hwv.facilities.minted, hxy, hwv.facilities.records⟩,
    hwv.host⟩

/-- The spans of the second state may be replaced by any that stand for those of the first. -/
theorem rightSpans
    {y : List Span} (hwv : Matches E w v) (hy : E.spans w.facilities.spans y) :
    Matches E w (v.withSpans y) :=
  ⟨hwv.ambient, ⟨hwv.facilities.source, hwv.facilities.minted, hy, hwv.facilities.records⟩,
    hwv.host⟩

theorem withAmbient
    (hwv : Matches E w v) (a : Option Context) :
    Matches E { w with ambient := a } { v with ambient := a } :=
  ⟨rfl, hwv.facilities, hwv.host⟩

/-- An operation has the same result and effect in corresponding states, unless it reads the
spans. -/
theorem perform
    {γ : Type} (hwv : Matches E w v) {o : Op γ} (ho : o.readsSpans = false) :
    (v.perform o).1 = (w.perform o).1 ∧ Matches E (w.perform o).2 (v.perform o).2 := by
  obtain ⟨hambient, hfacilities, hhost⟩ := hwv
  cases o with
  | snapshot => exact ⟨hambient, hambient, hfacilities, hhost⟩
  | set id =>
    simp only [World.perform, hambient]
    cases hw : w.ambient with
    | none => exact ⟨rfl, hambient, hfacilities, hhost⟩
    | some ctx =>
      dsimp only
      cases ctx.set id with
      | ok ctx => exact ⟨rfl, rfl, hfacilities, hhost⟩
      | error e => exact ⟨rfl, hambient, hfacilities, hhost⟩
  | put key value =>
    simp only [World.perform, hambient]
    cases hw : w.ambient with
    | none => exact ⟨rfl, hambient, hfacilities, hhost⟩
    | some ctx => exact ⟨rfl, rfl, hfacilities, hhost⟩
  | clear => exact ⟨rfl, clear ⟨hambient, hfacilities, hhost⟩⟩
  | resolve c b =>
    simp only [World.perform, hambient]
    cases hw : w.ambient with
    | none => exact ⟨rfl, hambient, hfacilities, hhost⟩
    | some ctx =>
      obtain ⟨hid, hctx, hbehind⟩ := hfacilities.resolve c b ctx
      exact ⟨hid, congrArg some hctx, hbehind, hhost⟩
  | resolveIn c b ctx =>
    obtain ⟨hid, hctx, hbehind⟩ := hfacilities.resolve c b ctx
    exact ⟨Prod.ext hid hctx, hambient, hbehind, hhost⟩
  | generate c i parent =>
    obtain ⟨hid, hbehind⟩ := hfacilities.generate (c.scheme i) parent
    exact ⟨hid, hambient, hbehind, hhost⟩
  | emit e => exact ⟨rfl, hambient, hfacilities.emitAll [e], hhost⟩
  | spans => exact absurd ho.symm Bool.false_ne_true

/-- An operation happens in the same way in corresponding states, spans aside. -/
theorem happening
    {γ : Type} (hwv : Matches E w v) (d : Nat) {o : Op γ} (ho : o.readsSpans = false) :
    (v.happening d o).withoutSpans = (w.happening d o).withoutSpans := by
  obtain ⟨hresult, hafter⟩ := hwv.perform ho
  simp only [Happening.withoutSpans, World.happening, hwv.ambient, hresult, hafter.ambient]

end World.Matches

/-! ## Frames -/

/-- The same frame around corresponding parts, with spans that stand for each other. -/
inductive Frame.Matches (R : List Span → List Span → Prop) : Frame → Frame → Prop
  | scope (ctx : Context) : Matches R (.scope ctx) (.scope ctx)
  | guard (begun : Bool) : Matches R (.guard begun) (.guard begun)
  | span {x y : List Span} (hxy : R x y) : Matches R (.span x) (.span y)
  | detached : Matches R .detached .detached
  | extent : Matches R .extent .extent

namespace Frame.Matches

variable {fr fr' : Frame}

theorem refl
    {R : List Span → List Span → Prop} (hR : ∀ x, R x x) (fr : Frame) :
    Matches R fr fr := by
  cases fr with
  | scope ctx => exact .scope ctx
  | guard begun => exact .guard begun
  | span path => exact .span (hR path)
  | detached => exact .detached
  | extent => exact .extent

theorem depth
    {R : List Span → List Span → Prop} (hfr : Matches R fr fr') :
    fr'.depth = fr.depth := by
  cases hfr <;> rfl

theorem enter
    (hE : E.Lawful) (hfr : Matches E.spans fr fr') (hw : w.Matches E v) :
    (fr.enter w).Matches E (fr'.enter v) := by
  cases hfr with
  | scope ctx => exact hw.withAmbient (some ctx)
  | guard begun => exact hw
  | span hxy => exact hw.withSpans hxy
  | detached => exact (hw.withAmbient none).withSpans hE.nil
  | extent => exact hw

theorem restore
    (hfr : Matches E.spans fr fr') (hw : w.Matches E v) (hw' : w'.Matches E v') :
    (fr.restore w w').Matches E (fr'.restore v v') := by
  cases hfr with
  | scope ctx => exact ⟨hw.ambient, hw'.facilities, hw'.host⟩
  | guard begun => exact hw'
  | span hxy => exact hw'.withSpans hw.facilities.spans
  | detached =>
    have hback :
        World.Matches E { w' with ambient := w.ambient } { v' with ambient := v.ambient } :=
      ⟨hw.ambient, hw'.facilities, hw'.host⟩
    exact hback.withSpans hw.facilities.spans
  | extent => exact hw'

theorem leave
    (hfr : Matches E.spans fr fr') (hw : w.Matches E v) (hw' : w'.Matches E v') :
    (fr.leave w w').Matches E (fr'.leave v v') := by
  cases hfr with
  | guard begun => exact hw'.clear
  | scope ctx => exact (Matches.scope ctx).restore hw hw'
  | span hxy => exact (Matches.span hxy).restore hw hw'
  | detached => exact Matches.detached.restore hw hw'
  | extent => exact hw'

theorem abandon
    (hfr : Matches E.spans fr fr') (hw : w.Matches E v) (hw' : w'.Matches E v') :
    (fr.abandon w w').Matches E (fr'.abandon v v') := by
  cases hfr with
  | guard begun =>
    cases begun with
    | false => exact hw'
    | true => exact hw'.clear
  | scope ctx => exact (Matches.scope ctx).restore hw hw'
  | span hxy => exact (Matches.span hxy).restore hw hw'
  | detached => exact Matches.detached.restore hw hw'
  | extent => exact hw'

theorem parked
    (hfr : Matches E.spans fr fr') (hw : w.Matches E v) :
    Matches E.spans (fr.parked w) (fr'.parked v) := by
  cases hfr with
  | scope ctx =>
    rw [Frame.parked, Frame.parked, hw.ambient]
    exact .scope _
  | guard begun => exact .guard true
  | span hxy => exact .span hxy
  | detached => exact .detached
  | extent => exact .extent

theorem observed_leaveTrace
    (hfr : Matches E.spans fr fr') (hw : w.Matches E v) (d : Nat) :
    Happening.observed (fr'.leaveTrace d v) = Happening.observed (fr.leaveTrace d w) := by
  cases hfr with
  | guard begun => exact congrArg (fun x => [x]) (hw.happening d (o := .clear) rfl)
  | _ => rfl

theorem observed_abandonTrace
    (hfr : Matches E.spans fr fr') (hw : w.Matches E v) (d : Nat) :
    Happening.observed (fr'.abandonTrace d v) = Happening.observed (fr.abandonTrace d w) := by
  cases hfr with
  | guard begun =>
    cases begun with
    | false => rfl
    | true => exact congrArg (fun x => [x]) (hw.happening d (o := .clear) rfl)
  | _ => rfl

end Frame.Matches

/-! ## Hosts -/

/-- A host whose answers and effects correspond whenever states and requests do. -/
def Handler.Respects (h : Handler H σ) (E : Correspondence H σ) : Prop :=
  ∀ {γ δ : Type} {r : H γ} {r' : H δ} {A : γ → δ → Prop}, E.request r r' A →
    ∀ {w v : World σ}, w.Matches E v →
      Option.Rel (Exit.Matches A) (h γ r w).1 (h δ r' v).1 ∧ (h γ r w).2.Matches E (h δ r' v).2

/-- The same request, for the same answer. -/
inductive SameRequest : {γ δ : Type} → H γ → H δ → (γ → δ → Prop) → Prop
  | refl {γ : Type} (r : H γ) : SameRequest r r (· = ·)

/-- The correspondence for hosts that have nothing to do with spans. -/
def Correspondence.ofSpans (R : List Span → List Span → Prop) : Correspondence H σ where
  spans := R
  request := SameRequest
  host := (· = ·)

theorem LocalHost.respects_ofSpans
    (k : LocalHost H σ) (R : List Span → List Span → Prop) :
    k.handler.Respects (.ofSpans R) := by
  intro γ δ r r' A hr w v hwv
  obtain ⟨r⟩ := hr
  have hhost : w.host = v.host := hwv.host
  simp only [LocalHost.handler, ← hhost]
  refine ⟨?_, hwv.ambient, hwv.facilities, rfl⟩
  cases (k.answer _ r w.host).1 with
  | none => exact .none
  | some x => exact .some (.refl x)

end TraceLineage
