import Mathlib.Logic.Function.Basic
import TraceLineage.Proofs.Execution.Containment
import TraceLineage.Proofs.Execution.Inside
import TraceLineage.Proofs.Execution.Replay

/-!
# Isolation of interleaved units

An executor polls units of execution in any order.  The units share one slot for the context in
scope, and they draw their symbols from one source.  At each turn the slot holds whatever context
the executor itself has in scope then, or none.

A unit that runs in a scope of its own observes in every such interleaving what it observes when it
is polled alone, as long as it draws the same symbols; and no turn changes the context in scope
around it.
-/

namespace TraceLineage

/-- A turn of an executor: which unit is polled, in which context, and inside which spans. -/
structure Turn (ι : Type) where
  unit : ι
  ambient : Option Context
  spans : List Span

/-- What has come of a turn. -/
structure Report (ι : Type) : Type 1 where
  turn : Turn ι
  trace : List Happening
  drawn : List Char
  ambient : Option Context

/-- What an executor keeps: of every unit its exit or what remains of it and the state of its host,
and the facilities that all of them share. -/
structure Executor (H : Type → Type) (ι σ : Type) (α : ι → Type) : Type 1 where
  units : (i : ι) → Step H (α i)
  hosts : ι → σ
  facilities : Facilities

namespace Report

variable {ι : Type} [DecidableEq ι]

/-- What the turns of a unit have come to, taken together. -/
def ofUnit {β : Type*} (f : Report ι → List β) (i : ι) (rs : List (Report ι)) : List β :=
  (rs.filter fun r => r.turn.unit = i).flatMap f

/-- What a unit has performed in some turns. -/
def traceOf (i : ι) (rs : List (Report ι)) : List Happening :=
  ofUnit Report.trace i rs

/-- The symbols that a unit has drawn in some turns. -/
def drawnBy (i : ι) (rs : List (Report ι)) : List Char :=
  ofUnit Report.drawn i rs

variable {β : Type*} (f : Report ι → List β)

theorem ofUnit_append
    (i : ι) (rs qs : List (Report ι)) :
    ofUnit f i (rs ++ qs) = ofUnit f i rs ++ ofUnit f i qs := by
  simp only [ofUnit, List.filter_append, List.flatMap_append]

theorem ofUnit_cons_self
    {i : ι} {r : Report ι} (hr : r.turn.unit = i) (rs : List (Report ι)) :
    ofUnit f i (r :: rs) = f r ++ ofUnit f i rs := by
  simp [ofUnit, hr]

theorem ofUnit_cons_of_ne
    {i : ι} {r : Report ι} (hr : r.turn.unit ≠ i) (rs : List (Report ι)) :
    ofUnit f i (r :: rs) = ofUnit f i rs := by
  simp [ofUnit, hr]

end Report

namespace Executor

variable {H : Type → Type} {ι σ : Type} {α : ι → Type}

/-- Units that have not begun, each in a scope with a context of its own. -/
def start (ctx : ι → Context) (body : (i : ι) → Prog H (α i)) (hosts : ι → σ) (f : Facilities) :
    Executor H ι σ α where
  units i := .pending (Ambient.inContext (ctx i) (body i))
  hosts := hosts
  facilities := f

/-- The state that a unit finds at a turn. -/
def state (e : Executor H ι σ α) (t : Turn ι) : World σ where
  ambient := t.ambient
  facilities := { e.facilities with spans := t.spans }
  host := e.hosts t.unit

variable [DecidableEq ι]

/-- Polls a unit; one that has ended is left alone. -/
def turn (k : LocalHost H σ) (e : Executor H ι σ α) (t : Turn ι) :
    Report ι × Executor H ι σ α :=
  match e.units t.unit with
  | .finished _ => (⟨t, [], [], t.ambient⟩, e)
  | .pending p =>
    let w := e.state t
    let (s, v) := p.poll k.handler w
    (⟨t, p.trace k.handler false 0 w,
        w.facilities.source.take (v.facilities.source.drawn - w.facilities.source.drawn),
        v.ambient⟩,
      { units := Function.update e.units t.unit s
        hosts := Function.update e.hosts t.unit v.host
        facilities := v.facilities })

def run (k : LocalHost H σ) (e : Executor H ι σ α) :
    List (Turn ι) → List (Report ι) × Executor H ι σ α
  | [] => ([], e)
  | t :: ts =>
    let (r, e) := e.turn k t
    let (rs, e) := e.run k ts
    (r :: rs, e)

theorem turn_of_finished
    {k : LocalHost H σ} {e : Executor H ι σ α} {t : Turn ι} {x : Exit (α t.unit)}
    (hx : e.units t.unit = .finished x) :
    e.turn k t = (⟨t, [], [], t.ambient⟩, e) := by
  simp only [turn, hx]

theorem run_append
    (k : LocalHost H σ) (e : Executor H ι σ α) (ts us : List (Turn ι)) :
    e.run k (ts ++ us) =
      ((e.run k ts).1 ++ ((e.run k ts).2.run k us).1, ((e.run k ts).2.run k us).2) := by
  induction ts generalizing e with
  | nil => rfl
  | cons t ts ih => simp only [List.cons_append, run, ih]

theorem turn_report
    (k : LocalHost H σ) (e : Executor H ι σ α) (t : Turn ι) :
    (e.turn k t).1.turn = t := by
  rw [turn]
  cases e.units t.unit <;> rfl

theorem turn_of_ne
    {i : ι} {t : Turn ι} (ht : t.unit ≠ i) (k : LocalHost H σ) (e : Executor H ι σ α) :
    (e.turn k t).2.units i = e.units i ∧ (e.turn k t).2.hosts i = e.hosts i := by
  rw [turn]
  cases e.units t.unit with
  | finished x => exact ⟨rfl, rfl⟩
  | pending p => exact ⟨Function.update_of_ne ht.symm _ _, Function.update_of_ne ht.symm _ _⟩

end Executor

/-! ## Units in scopes of their own -/

/-- A step that has ended or leaves a program in a scope of its own. -/
def Step.Scoped {H : Type → Type} {α : Type} : Step H α → Prop
  | .finished _ => True
  | .pending p => ∃ ctx body, p = Ambient.inContext ctx body

namespace Ambient

variable {H : Type → Type} {σ α : Type}

theorem scoped_drive_inContext
    (h : Handler H σ) (ctx : Context) (body : Prog H α) (through : Bool) (w : World σ) :
    ((inContext ctx body).drive h through w).1.Scoped := by
  have hstep := step_underSpans_inContext (h := h) [] ctx body through w
  rw [underSpans] at hstep
  rw [hstep]
  rcases body.drive h through (w.within [] ctx) with ⟨x | rest, v⟩
  · trivial
  · exact ⟨_, rest, rfl⟩

/-- Inside a scope there is no difference between two contexts around it. -/
theorem drive_inContext_withAmbient
    (h : Handler H σ) (ctx : Context) (body : Prog H α) (through : Bool) (w : World σ)
    (a : Option Context) :
    (inContext ctx body).drive h through { w with ambient := a } =
      (((inContext ctx body).drive h through w).1,
        { ((inContext ctx body).drive h through w).2 with ambient := a }) := by
  simp only [inContext, Prog.inFrame, Prog.drive, Frame.enter]
  rcases body.drive h through { w with ambient := some ctx } with ⟨x | rest, v⟩ <;> rfl

theorem trace_inContext_withAmbient
    (h : Handler H σ) (ctx : Context) (body : Prog H α) (through : Bool) (d : Nat) (w : World σ)
    (a : Option Context) :
    (inContext ctx body).trace h through d { w with ambient := a } =
      (inContext ctx body).trace h through d w := by
  rw [trace_inContext, trace_inContext]

end Ambient

namespace Executor

variable {H : Type → Type} {ι σ : Type} {α : ι → Type}

/-- Every unit is in a scope of its own as long as it has not ended. -/
def Scoped (e : Executor H ι σ α) : Prop :=
  ∀ i, (e.units i).Scoped

theorem scoped_start
    (ctx : ι → Context) (body : (i : ι) → Prog H (α i)) (hosts : ι → σ) (f : Facilities) :
    (start ctx body hosts f).Scoped :=
  fun i => ⟨ctx i, body i, rfl⟩

/-- `e'` has the unit `i` of `e` alone. -/
structure Alone (i : ι) (e : Executor H ι σ α) (e' : Executor H Unit σ fun _ => α i) : Prop where
  unit : e'.units () = e.units i
  host : e'.hosts () = e.hosts i

/-- The states that a unit finds among others and alone mirror each other, up to the contexts of
the executors. -/
theorem Alone.mirrors
    {e : Executor H ι σ α} {t : Turn ι} {e' : Executor H Unit σ fun _ => α t.unit}
    (hee : e.Alone t.unit e') {t' : Turn Unit} (ht : t'.spans = t.spans) :
    (e.state t).Mirrors e.facilities.source e'.facilities.source
      { e'.state t' with ambient := t.ambient } :=
  ⟨rfl, ⟨ht, 0, rfl, rfl⟩, hee.host⟩

variable [DecidableEq ι]

theorem Scoped.turn
    {e : Executor H ι σ α} (he : e.Scoped) (k : LocalHost H σ) (t : Turn ι) :
    (e.turn k t).2.Scoped ∧ (e.turn k t).1.ambient = t.ambient := by
  rw [Executor.turn]
  have hunit := he t.unit
  cases hu : e.units t.unit with
  | finished x => exact ⟨he, rfl⟩
  | pending p =>
    rw [hu] at hunit
    obtain ⟨ctx, body, rfl⟩ := hunit
    refine ⟨?_, ((Ambient.contained_inContext ctx body).drive k.handler false (e.state t)).1⟩
    intro i
    dsimp only
    by_cases hi : i = t.unit
    · subst hi
      rw [Function.update_self]
      exact Ambient.scoped_drive_inContext k.handler ctx body false (e.state t)
    · rw [Function.update_of_ne hi]
      exact he i

/-- The context in scope behind every turn is the one in front of it. -/
theorem Scoped.run
    {e : Executor H ι σ α} (he : e.Scoped) (k : LocalHost H σ) (ts : List (Turn ι)) :
    ∀ r ∈ (e.run k ts).1, r.ambient = r.turn.ambient := by
  induction ts generalizing e with
  | nil => exact nofun
  | cons t ts ih =>
    obtain ⟨hbehind, hambient⟩ := he.turn k t
    intro r hr
    rcases List.mem_cons.1 hr with hr | hr
    · have hturn : r.turn = t := hr ▸ turn_report k e t
      rw [hturn]
      exact hr ▸ hambient
    · exact ih hbehind r hr

variable {k : LocalHost H σ} {e : Executor H ι σ α}

theorem Alone.turn_of_ne
    {i : ι} {e' : Executor H Unit σ fun _ => α i} (hee : e.Alone i e') {t : Turn ι}
    (ht : t.unit ≠ i) :
    (e.turn k t).2.Alone i e' := by
  obtain ⟨hunit, hhost⟩ := Executor.turn_of_ne ht k e
  exact ⟨hee.unit.trans hunit.symm, hee.host.trans hhost.symm⟩

/-- A turn of a unit comes to the same alone, if the same symbols are drawn. -/
theorem Alone.turn
    {t : Turn ι} {e' : Executor H Unit σ fun _ => α t.unit} (hee : e.Alone t.unit e')
    (he : e.Scoped) {t' : Turn Unit} (ht : t'.spans = t.spans)
    (hdrawn : e'.facilities.source.take (e.turn k t).1.drawn.length = (e.turn k t).1.drawn) :
    (e'.turn k t').1.trace = (e.turn k t).1.trace ∧
      (e.turn k t).2.Alone t.unit (e'.turn k t').2 ∧
      (e'.turn k t').2.facilities.source =
        e'.facilities.source.skip (e.turn k t).1.drawn.length := by
  have hscoped := he t.unit
  cases hu : e.units t.unit with
  | finished x =>
    rw [turn_of_finished hu, turn_of_finished (hee.unit.trans hu)]
    exact ⟨rfl, hee, rfl⟩
  | pending p =>
    have hu' := hee.unit.trans hu
    rw [hu] at hscoped
    obtain ⟨ctx, body, rfl⟩ := hscoped
    simp only [Executor.turn, hu, hu', Prog.poll, Source.length_take] at hdrawn ⊢
    have hle := Prog.drawn_le_drive k (Ambient.inContext ctx body) false (e.state t)
    -- what is drawn at the turn is just what the two sources have in common
    obtain ⟨hstep, hstate, htrace⟩ :=
      Prog.replays k (Ambient.inContext ctx body) false 0 hdrawn (hee.mirrors ht)
        (Nat.le_of_eq (Nat.add_sub_cancel' hle).symm)
    have halone := Ambient.drive_inContext_withAmbient k.handler ctx body false (e'.state t')
    rw [halone] at hstep hstate
    rw [Ambient.trace_inContext_withAmbient] at htrace
    obtain ⟨n, hv, hv'⟩ := hstate.facilities.drawn
    refine ⟨htrace, ⟨?_, ?_⟩, ?_⟩
    · simpa only [Function.update_self] using hstep
    · simpa only [Function.update_self] using hstate.host
    · rw [hv]
      exact hv'.trans (congrArg _ (Nat.add_sub_cancel_left _ n).symm)

/-- A unit does the same among others and alone, if it draws the same symbols. -/
theorem Alone.run
    {i : ι} {e' : Executor H Unit σ fun _ => α i} (hee : e.Alone i e') (he : e.Scoped)
    (ts : List (Turn ι)) {turns : List (Turn Unit)}
    (hspans : turns.map Turn.spans = (ts.filter fun t => t.unit = i).map Turn.spans)
    (hdrawn : e'.facilities.source.take (Report.drawnBy i (e.run k ts).1).length =
      Report.drawnBy i (e.run k ts).1) :
    Report.traceOf () (e'.run k turns).1 = Report.traceOf i (e.run k ts).1 ∧
      (e.run k ts).2.Alone i (e'.run k turns).2 := by
  induction ts generalizing e e' turns with
  | nil =>
    obtain rfl : turns = [] := List.map_eq_nil_iff.1 hspans
    exact ⟨rfl, hee⟩
  | cons t ts ih =>
    have hbehind := (he.turn k t).1
    have hturn := turn_report k e t
    simp only [Executor.run] at hdrawn ⊢
    by_cases ht : t.unit = i
    · subst ht
      rw [List.filter_cons_of_pos (by simp)] at hspans
      obtain ⟨t', turns, rfl, hspan, hspans⟩ := List.map_eq_cons_iff.1 hspans
      rw [Report.drawnBy, Report.ofUnit_cons_self _ (by rw [hturn])] at hdrawn
      obtain ⟨hhead, htail⟩ := Source.take_of_append hdrawn
      obtain ⟨htrace, halone, hsource⟩ := hee.turn he hspan hhead
      rw [← hsource] at htail
      obtain ⟨hrest, hend⟩ := ih halone hbehind hspans htail
      refine ⟨?_, hend⟩
      simp only [Executor.run, Report.traceOf] at hrest ⊢
      rw [Report.ofUnit_cons_self _ (Subsingleton.elim _ _),
        Report.ofUnit_cons_self _ (by rw [hturn]), htrace, hrest]
    · rw [List.filter_cons_of_neg (by simpa using ht)] at hspans
      rw [Report.drawnBy, Report.ofUnit_cons_of_ne _ (by rw [hturn]; exact ht)] at hdrawn
      simp only [Report.traceOf]
      rw [Report.ofUnit_cons_of_ne _ (by rw [hturn]; exact ht)]
      exact ih (hee.turn_of_ne ht) hbehind hspans hdrawn

theorem run_of_finished
    {i : ι} {x : Exit (α i)} (hx : e.units i = .finished x) (ts : List (Turn ι)) :
    Report.traceOf i (e.run k ts).1 = [] ∧ (e.run k ts).2.units i = .finished x := by
  induction ts generalizing e with
  | nil => exact ⟨rfl, hx⟩
  | cons t ts ih =>
    simp only [Executor.run]
    by_cases ht : t.unit = i
    · subst ht
      rw [Report.traceOf, Report.ofUnit_cons_self _ (by rw [turn_report]), turn_of_finished hx]
      exact ih hx
    · rw [Report.traceOf, Report.ofUnit_cons_of_ne _ (by rw [turn_report]; exact ht)]
      exact ih ((Executor.turn_of_ne ht k e).1.trans hx)

/-- Units in scopes of their own are isolated from each other and from the executor, in whatever
order they are polled.  Behind every turn the context in scope is the one in front of it.  And a
unit that is polled alone, in whatever other contexts, performs the same with the same results and
comes to the same point, if it draws the same symbols: all that it performs alone, if it has ended,
and otherwise the beginning of it. -/
theorem isolated
    (k : LocalHost H σ) (ctx : ι → Context) (body : (i : ι) → Prog H (α i)) (hosts : ι → σ)
    (f : Facilities) (schedule : List (Turn ι)) :
    let among := (start ctx body hosts f).run k schedule
    (∀ r ∈ among.1, r.ambient = r.turn.ambient) ∧
      ∀ (i : ι) (g : Facilities) (turns : List (Turn Unit)),
        turns.map Turn.spans = (schedule.filter fun t => t.unit = i).map Turn.spans →
        g.source.take (Report.drawnBy i among.1).length = Report.drawnBy i among.1 →
        let alone := start (fun _ => ctx i) (fun _ => body i) (fun _ => hosts i) g
        Report.traceOf () (alone.run k turns).1 = Report.traceOf i among.1 ∧
          (alone.run k turns).2.units () = among.2.units i ∧
          ∀ more : List (Turn Unit),
            Report.traceOf i among.1 <+: Report.traceOf () (alone.run k (turns ++ more)).1 ∧
            ∀ x, among.2.units i = .finished x →
              Report.traceOf () (alone.run k (turns ++ more)).1 = Report.traceOf i among.1 ∧
                (alone.run k (turns ++ more)).2.units () = .finished x := by
  have hscoped := scoped_start ctx body hosts f
  refine ⟨hscoped.run k schedule, ?_⟩
  intro i g turns hspans hdrawn alone
  have halone : (start ctx body hosts f).Alone i alone := ⟨rfl, rfl⟩
  obtain ⟨htrace, hend⟩ := halone.run hscoped schedule hspans hdrawn
  refine ⟨htrace, hend.unit, ?_⟩
  intro more
  rw [run_append]
  simp only [Report.traceOf] at htrace ⊢
  rw [Report.ofUnit_append, htrace]
  refine ⟨List.prefix_append _ _, ?_⟩
  intro x hx
  obtain ⟨hnothing, hexit⟩ := run_of_finished (k := k) (hend.unit.trans hx) more
  rw [Report.traceOf] at hnothing
  rw [hnothing, List.append_nil]
  exact ⟨rfl, hexit⟩

/-- Two hand-offs with a suspension in between. -/
def twoHops : Prog (fun _ => Empty) (Except Fault TraceId) :=
  .op (.resolve .standard .handoff) fun _ => .suspend (Ambient.resolve .standard .handoff)

/-- Two units that make two hand-offs in turn, and the second of them alone: at each hand-off it
draws the six symbols of a segment behind the six ones of the other unit. -/
theorem isolated_twoHops :
    let among :=
      (start (fun _ : Bool => .empty) (fun _ => twoHops) (fun _ => ())
        (.fresh ⟨fun n => ⟨n % 63, Nat.mod_lt n (by decide)⟩, 0⟩)).run .nobody
        [⟨true, none, []⟩, ⟨false, some .empty, []⟩, ⟨true, none, []⟩, ⟨false, none, []⟩]
    let skipping : Source :=
      ⟨fun n => ⟨(if n < 6 then n + 6 else n + 12) % 63, Nat.mod_lt _ (by decide)⟩, 0⟩
    let turns : List (Turn Unit) := [⟨(), some .empty, []⟩, ⟨(), none, []⟩]
    skipping.take (Report.drawnBy false among.1).length = Report.drawnBy false among.1 ∧
      Report.traceOf ()
        ((start (fun _ => .empty) (fun _ => twoHops) (fun _ => ()) (.fresh skipping)).run
          .nobody turns).1 =
        Report.traceOf false among.1 := by
  intro among skipping turns
  have hdrawn :
      skipping.take (Report.drawnBy false among.1).length = Report.drawnBy false among.1 := by
    decide +kernel
  exact ⟨hdrawn, ((isolated .nobody _ _ _ _ _).2 false (.fresh skipping) turns rfl hdrawn).1⟩

end Executor
end TraceLineage
