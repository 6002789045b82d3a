import TraceLineage.Adapter.JobRun
import TraceLineage.Adapter.Snapshot
import TraceLineage.Http.Layer
import TraceLineage.Proofs.Execution.Parallel

/-!
# Adapters and parallel programs

Nothing in the library looks at the spans that it reads.  Its operations and adapters are parallel
to themselves, around parts that are parallel, and so is every program that is made of them.

Work that is handed off is the one case in which the two runs may differ in their frames.  If it was
submitted where only the second run has a span, only the second run enters one, and the first stays
in the spans of the place where the work is executed.  Whether this is admitted is up to the
correspondence.
-/

namespace TraceLineage

variable {H : Type → Type} {σ α β : Type} {E : Correspondence H σ} {A : α → β → Prop}

namespace Prog.Parallel

theorem pure
    {a : α} {b : β} (hab : A a b) :
    Parallel E A (Pure.pure a) (Pure.pure b) :=
  .done (.value hab)

theorem inFrame
    {p : Prog H α} {q : Prog H β} {fr fr' : Frame} (hfr : fr.Matches E.spans fr')
    (hpq : Parallel E A p q) :
    Parallel E A (p.inFrame fr) (q.inFrame fr') :=
  .frame hfr hpq fun _ _ hxy => .done hxy

theorem attempt
    {p : Prog H α} {q : Prog H β} (hpq : Parallel E A p q) :
    Parallel E (Exit.Matches A) p.attempt q.attempt :=
  .frame .extent hpq fun _ _ hxy => pure hxy

theorem inPlace
    {p : Prog H α} {q : Prog H β} (hpq : Parallel E A p q) :
    Parallel E A p.inPlace q.inPlace := by
  refine .block hpq ?_
  rintro _ _ (hxy | _)
  · exact .done hxy
  · exact .never

end Prog.Parallel

namespace Ambient

open Prog (Parallel)

theorem parallel_spans :
    Parallel E E.spans (spans : Prog H (List Span)) spans :=
  .spans fun _ _ hxy => .pure hxy

theorem parallel_inContext
    {p : Prog H α} {q : Prog H β} (ctx : Context) (hpq : Parallel E A p q) :
    Parallel E A (inContext ctx p) (inContext ctx q) :=
  .inFrame (.scope ctx) hpq

theorem parallel_guarded
    {p : Prog H α} {q : Prog H β} (hpq : Parallel E A p q) :
    Parallel E A (guarded p) (guarded q) :=
  .inFrame (.guard false) hpq

theorem parallel_inSpan
    (hE : E.Lawful) {p : Prog H α} {q : Prog H β} (s : Span) (hpq : Parallel E A p q) :
    Parallel E A (inSpan s p) (inSpan s q) :=
  parallel_spans.bind fun _ _ hxy => .inFrame (.span (hE.snoc s hxy)) hpq

/-- Parts that are put inside spans which stand for each other, or of which only the second one is
put inside spans at all. -/
theorem parallel_underSpans
    (hE : E.Lawful) {p : Prog H α} {q : Prog H β} {x y : List Span} (hxy : E.spans x y)
    (honly : x = [] → y ≠ [] → E.Covers y) (hpq : Parallel E A p q) :
    Parallel E A (underSpans x p) (underSpans y q) := by
  cases x with
  | nil =>
    cases y with
    | nil => exact hpq
    | cons s y =>
      have hpath := honly rfl (List.cons_ne_nil s y)
      have hunder := Parallel.under hpath hpq fun a b hab => .done (.value hab)
      rw [Prog.bind_value, Prog.bind_value] at hunder
      exact hunder
  | cons s x =>
    cases y with
    | nil => exact absurd (hE.eq_nil hxy) (List.cons_ne_nil s x)
    | cons t y => exact .inFrame (.span hxy) hpq

end Ambient

/-! ## Hand-offs -/

/-- Snapshots of the same context under spans that stand for each other. -/
structure Snapshot.Matches (R : List Span → List Span → Prop) (s t : Snapshot) : Prop where
  context : t.context = s.context
  spans : R s.spans t.spans

namespace Snapshot

open Prog (Parallel)

theorem parallel_capture :
    Parallel E (Matches E.spans) (capture : Prog H Snapshot) capture := by
  refine .op rfl fun a => ?_
  exact Ambient.parallel_spans.bind fun x y hxy => .pure ⟨rfl, hxy⟩

theorem parallel_run
    (hE : E.Lawful) (hre : E.Reenters) (c : Config) {s t : Snapshot} (hst : s.Matches E.spans t)
    {work work' : Prog H α} (hwork : Parallel E (· = ·) work work') :
    Parallel E (· = ·) (s.run c work) (t.run c work') := by
  rw [run, run, hst.context]
  refine Ambient.parallel_underSpans hE hst.spans ?_ (Ambient.parallel_inContext _
    (Ambient.parallel_guarded ?_))
  · exact fun hnil => hre _ (hnil ▸ hst.spans)
  · refine .op rfl fun r => ?_
    cases r with
    | error e => exact .pure rfl
    | ok id =>
      refine hwork.bind ?_
      rintro a _ rfl
      exact .pure rfl

theorem parallel_task
    (hE : E.Lawful) (hre : E.Reenters) (c : Config) {s t : Snapshot} (hst : s.Matches E.spans t)
    {work work' : Prog H Unit} (hwork : Parallel E (· = ·) work work') :
    Parallel E (· = ·) (s.task c work) (t.task c work') := by
  refine (parallel_run hE hre c hst hwork.inPlace).bind ?_
  rintro r _ rfl
  cases r with
  | ok u => exact .pure rfl
  | error e => exact .op rfl fun _ => .pure rfl

end Snapshot

/-! ## Jobs and requests -/

open Prog (Parallel)

theorem JobRun.parallel_run
    (hE : E.Lawful) (c : Config) (name : String) {body body' : Prog H (Except String α)}
    (hbody : Parallel E (· = ·) body body') :
    Parallel E (· = ·) (run c name body) (run c name body') := by
  refine .op rfl fun inherited => ?_
  refine Ambient.parallel_inContext _ (Ambient.parallel_guarded ?_)
  refine .op rfl fun r => ?_
  cases r with
  | error e =>
    exact .op rfl fun _ => .pure rfl
  | ok id =>
    refine (Ambient.parallel_inSpan hE _ hbody).attempt.bind ?_
    intro x y hxy
    obtain rfl := hxy.eq
    rcases x with (e | a) | p
    · exact .op rfl fun _ => .pure rfl
    · exact .pure rfl
    · exact .op rfl fun _ => .pure rfl

namespace Http

theorem parallel_extract
    (attached : Option TraceId) :
    Parallel E (· = ·) (extract attached : Prog H (Except Rejection TraceId))
      (extract attached) := by
  cases attached with
  | some id => exact .pure rfl
  | none =>
    refine .op rfl fun ctx => ?_
    change Prog.Parallel E (· = ·) (Prog.bind (pure (ctx.bind Context.get?)) _)
      (Prog.bind (pure (ctx.bind Context.get?)) _)
    cases ctx.bind Context.get? with
    | some id => exact .pure rfl
    | none =>
      exact .op rfl fun _ => .pure rfl

/-- A service whose calls and responses are parallel to themselves; what a call hands over to the
response is related by `Q`. -/
structure Service.Parallel {β ε : Type} (E : Correspondence H σ) (s : Service H β ε)
    (Q : s.Pending → s.Pending → Prop) : Prop where
  call : ∀ r, Prog.Parallel E Q (s.call r) (s.call r)
  respond : ∀ {p p'}, Q p p' → Prog.Parallel E (· = ·) (s.respond p) (s.respond p')

namespace Layer

/-- What the call of a layer hands over to the response in two runs: the same request has arrived,
the spans stand for each other, and so does what the service behind the layer has handed over. -/
inductive Begun.Matches {P : Type} (R : List Span → List Span → Prop) (Q : P → P → Prop) :
    Begun P → Begun P → Prop
  | refused : Matches R Q .refused .refused
  | serving {trace : Arrival} {x y : List Span} {p p' : P} (hxy : R x y) (hnil : x = [] → y = [])
    (hp : Q p p') : Matches R Q (.serving trace x p) (.serving trace y p')

theorem parallel_openSpan
    {β : Type} (hE : E.Lawful) (l : Layer) (trace : Arrival) (r : Request β) :
    Prog.Parallel E (fun x y => E.spans x y ∧ (x = [] → y = []))
      (l.openSpan trace r : Prog H (List Span)) (l.openSpan trace r) := by
  by_cases ho : l.options.span = true
  · rw [openSpan, if_pos ho]
    refine Ambient.parallel_spans.bind fun x y hxy => .pure ⟨hE.snoc _ hxy, ?_⟩
    intro hnil
    exact absurd hnil (List.append_ne_nil_of_right_ne_nil _ (List.cons_ne_nil _ _))
  · rw [openSpan, if_neg ho]
    exact .pure ⟨hE.nil, fun _ => rfl⟩

/-- A layer makes of a service that is parallel to itself another one of this kind. -/
theorem parallel_around
    {β ε : Type} [Inhabited β] (hE : E.Lawful) (l : Layer) {s : Service H β ε}
    {Q : s.Pending → s.Pending → Prop} (hs : s.Parallel E Q) :
    (l.around s).Parallel E (Begun.Matches E.spans Q) := by
  constructor
  · intro r
    have hbegin : Prog.Parallel E (· = ·)
        (Arrival.begin l.config r.headers.lookup : Prog H (Except Fault Arrival))
        (Arrival.begin l.config r.headers.lookup) := by
      refine .op rfl fun x => ?_
      rcases x with ⟨e | id, ctx⟩
      · exact .pure rfl
      · exact .pure rfl
    refine hbegin.bind ?_
    rintro a _ rfl
    cases a with
    | error e => exact .op rfl fun _ => .pure .refused
    | ok trace =>
      refine (l.parallel_openSpan hE trace _).bind fun x y hxy => ?_
      exact (hs.call _).inPlace.bind fun p p' hp => .pure (.serving hxy.1 hxy.2 hp)
  · intro p p' hpp'
    cases hpp' with
    | refused => exact .pure rfl
    | serving hxy hnil hp =>
      refine Ambient.parallel_underSpans hE hxy ?_
        (Ambient.parallel_inContext _ (Ambient.parallel_guarded ?_))
      · exact fun hx hy => absurd (hnil hx) hy
      · refine (hs.respond hp).bind ?_
        rintro q _ rfl
        cases q with
        | error e => exact .pure rfl
        | ok response => exact .pure rfl

end Layer
end Http
end TraceLineage
