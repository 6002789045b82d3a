import TraceLineage.Adapter.Snapshot
import TraceLineage.Proofs.Boundary.Outcome
import TraceLineage.Proofs.Execution.Inside
import TraceLineage.Proofs.Execution.Life

/-!
# What a hand-off runs

Work under a snapshot begins with a resolution, which always succeeds, and what follows is the work
itself, once, in a scope with the new id and the captured auxiliary fields.
-/

namespace TraceLineage

/-- A program whose value is reported as a success. -/
def Prog.succeeding {H : Type → Type} {α : Type} (p : Prog H α) : Prog H (Except Fault α) :=
  p.bind fun a => .done (.value (.ok a))

namespace Snapshot

variable {H : Type → Type} {σ α : Type}

/-- Work under a snapshot that has its id already. -/
def started (s : Snapshot) (id : TraceId) (work : Prog H α) : Prog H α :=
  Ambient.underSpans s.spans <| Ambient.inContext ⟨some id, s.context.auxiliary⟩ <|
    Ambient.guarded work

/-- The resolution of an id under a snapshot. -/
def resolution (s : Snapshot) (c : Config) (id : TraceId) (depth : Nat) (w : World σ) :
    Happening where
  γ := Except Fault TraceId
  depth := depth
  spans := (w.under s.spans).facilities.spans
  before := some s.context
  op := .resolve c .handoff
  result := .ok id
  after := some ⟨some id, s.context.auxiliary⟩

/-- Work under a snapshot is a resolution followed by the work. -/
theorem run_eq
    (c : Config) (s : Snapshot) (work : Prog H α) :
    s.run c work =
      (Ambient.underSpans s.spans <| Ambient.inContext s.context <| Ambient.guarded <|
        .op (.resolve c .handoff) fun
          | .error e => .done (.value (.error e))
          | .ok _ => work.succeeding) := by
  rfl

/-- The resolution succeeds and replaces the captured id by one that extends it. -/
theorem perform_resolve
    (c : Config) (s : Snapshot) (w : World σ) :
    ∃ id f, (w.within s.spans s.context).perform (.resolve c .handoff) =
        (.ok id, { (w.within s.spans s.context) with
          ambient := some ⟨some id, s.context.auxiliary⟩, facilities := f }) ∧
      c.thread.Extends w.facilities.source s.context.get? id ∧
      f.source = w.facilities.source.skip c.thread.randomLength ∧
      f.spans = (w.under s.spans).facilities.spans := by
  obtain ⟨id, f, hres, hid, hsource, hspans⟩ :=
    c.resolve_handoff s.context (w.under s.spans).facilities
  rw [w.source_under] at hid hsource
  refine ⟨id, f, ?_, hid, hsource, hspans⟩
  simp only [World.perform, World.within, hres]

theorem drive_run
    (c : Config) (s : Snapshot) (work : Prog H α) {h : Handler H σ} (hh : h.KeepsScope)
    (through : Bool) (d : Nat) (w : World σ) :
    ∃ id g, c.thread.Extends w.facilities.source s.context.get? id ∧
      g.source = w.facilities.source.skip c.thread.randomLength ∧
      g.spans = w.facilities.spans ∧
      (s.run c work).drive h through w =
        (s.started id work.succeeding).drive h through { w with facilities := g } ∧
      (s.run c work).trace h through d w =
        s.resolution c id (d + 1) w ::
          (s.started id work.succeeding).trace h through d { w with facilities := g } := by
  obtain ⟨id, f, hperform, hid, hsource, hspans⟩ := s.perform_resolve c w
  have hbehind := World.under_of_spans hspans
  let first : Prog H (Except Fault α) := .op (.resolve c .handoff) fun
    | .error e => .done (.value (.error e))
    | .ok _ => work.succeeding
  let inside : World σ := w.within s.spans s.context
  let behind : World σ := { inside with
    ambient := some ⟨some id, s.context.auxiliary⟩, facilities := f }
  have hdrive : first.drive h through inside = work.succeeding.drive h through behind := by
    simp only [first, inside, behind, Prog.drive, hperform]
  have hhappening :
      inside.happening (d + 1) (.resolve c .handoff) = s.resolution c id (d + 1) w := by
    simp only [inside, World.happening, hperform]
    rfl
  have htrace : first.trace h through (d + 1) inside =
      [s.resolution c id (d + 1) w] ++ work.succeeding.trace h through (d + 1) behind := by
    simp only [first, Prog.trace, hhappening, List.singleton_append]
    simp only [inside, behind, hperform]
  refine ⟨id, { f with spans := w.facilities.spans }, hid, hsource, rfl, ?_, ?_⟩
  · rw [run_eq]
    refine Ambient.drive_underSpans_congr rfl ?_
    rw [hbehind]
    refine Ambient.drive_inContext_congr hh rfl ?_
    exact Ambient.drive_guarded_congr hdrive
  · rw [run_eq, started, Ambient.trace_underSpans, Ambient.trace_underSpans, hbehind,
      Ambient.trace_inContext, Ambient.trace_inContext]
    exact Ambient.trace_guarded_congr _ (d + 1) hdrive htrace

/-- What a task does with the outcome of its work. -/
def report : Except Fault Unit → Prog H Unit
  | .ok () => .done (.value ())
  | .error e => Ambient.emit (droppedEvent e)

theorem task_eq
    (c : Config) (s : Snapshot) (work : Prog H Unit) :
    s.task c work = (s.runSync c work).bind report := by
  rfl

theorem relays_started
    (s : Snapshot) (id : TraceId) {β : Type} {g : α → β} {p : Prog H α} {q : Prog H β}
    (hpq : Prog.Relays g p q) :
    Prog.Relays g (s.started id p) (s.started id q) := by
  have hscope : Prog.Relays g
      (Ambient.inContext ⟨some id, s.context.auxiliary⟩ (Ambient.guarded p))
      (Ambient.inContext ⟨some id, s.context.auxiliary⟩ (Ambient.guarded q)) :=
    .inFrame _ (.inFrame _ hpq)
  rw [started, started]
  rcases s.spans with _ | ⟨first, path⟩
  · exact hscope
  · exact .inFrame _ hscope

end Snapshot

/-- What can be made of work and a snapshot, by the types of the results of the work and of the
whole. -/
inductive Job (H : Type → Type) : Type → Type → Type 1 where
  | wrapped (work : Prog H Unit) : Job H Unit Unit
  | run {α : Type} (work : Prog H α) : Job H α (Except Fault α)
  | runSync {α : Type} (work : Prog H α) : Job H α (Except Fault α)

namespace Job

variable {H : Type → Type} {σ α β : Type}

def program (c : Config) (s : Snapshot) : {α β : Type} → Job H α β → Prog H β
  | _, _, wrapped work => s.task c work
  | _, _, run work => s.run c work
  | _, _, runSync work => s.runSync c work

/-- The work of a job, run on the spot where the job is. -/
def work : {α β : Type} → Job H α β → Prog H α
  | _, _, wrapped work => work.inPlace
  | _, _, run work => work
  | _, _, runSync work => work.inPlace

/-- What a job makes of the value of its work. -/
def pass : {α β : Type} → Job H α β → α → β
  | _, _, wrapped _ => id
  | _, _, run _ => .ok
  | _, _, runSync _ => .ok

theorem drive_program
    (c : Config) (s : Snapshot) (j : Job H α β) {h : Handler H σ} (hh : h.KeepsScope)
    (through : Bool) (d : Nat) (w : World σ) :
    ∃ id g q, c.thread.Extends w.facilities.source s.context.get? id ∧
      g.source = w.facilities.source.skip c.thread.randomLength ∧
      g.spans = w.facilities.spans ∧
      Prog.Relays j.pass (s.started id j.work) q ∧
      (j.program c s).drive h through w = q.drive h through { w with facilities := g } ∧
      (j.program c s).trace h through d w =
        s.resolution c id (d + 1) w :: q.trace h through d { w with facilities := g } := by
  cases j with
  | run work =>
    obtain ⟨id, g, hid, hsource, hspans, hdrive, htrace⟩ := s.drive_run c work hh through d w
    exact ⟨id, g, _, hid, hsource, hspans, s.relays_started id (.map _ work), hdrive, htrace⟩
  | runSync work =>
    obtain ⟨id, g, hid, hsource, hspans, hdrive, htrace⟩ :=
      s.drive_run c work.inPlace hh through d w
    exact ⟨id, g, _, hid, hsource, hspans, s.relays_started id (.map _ _), hdrive, htrace⟩
  | wrapped work =>
    obtain ⟨id, g, hid, hsource, hspans, hdrive, htrace⟩ :=
      s.drive_run c work.inPlace hh through d w
    have hrelays : Prog.Relays (Except.ok : Unit → Except Fault Unit) (s.started id work.inPlace)
        (s.started id work.inPlace.succeeding) :=
      s.relays_started id (.map _ _)
    refine ⟨id, g, (s.started id work.inPlace.succeeding).bind Snapshot.report, hid, hsource,
      hspans, .bind hrelays fun _ => rfl, ?_, ?_⟩
    · rw [program, Snapshot.task_eq, Snapshot.runSync, Prog.drive_bind, Prog.drive_bind, hdrive]
    · rw [program, Snapshot.task_eq, Snapshot.runSync, Prog.trace_bind, Prog.trace_bind, hdrive,
        htrace, List.cons_append]

/-- From its first poll on a job does what its work does in a scope with the new id, and nothing
else. -/
theorem life_program
    (c : Config) (s : Snapshot) (j : Job H α β) {h : Handler H σ} (hh : h.KeepsScope)
    (w : World σ) (ws : List (World σ)) :
    ∃ id g, c.thread.Extends w.facilities.source s.context.get? id ∧
      g.source = w.facilities.source.skip c.thread.randomLength ∧
      g.spans = w.facilities.spans ∧
      let begun := (s.started id j.work).life h ({ w with facilities := g } :: ws)
      let whole := (j.program c s).life h (w :: ws)
      Step.Relays j.pass begun.step whole.step ∧ whole.states = begun.states ∧
        whole.trace = s.resolution c id 1 w :: begun.trace := by
  obtain ⟨id, g, q, hid, hsource, hspans, hrelays, hdrive, htrace⟩ :=
    j.drive_program c s hh false 0 w
  obtain ⟨hstep, hstates, hlife⟩ := hrelays.life h ({ w with facilities := g } :: ws)
  have hwhole := Prog.life_congr ws [s.resolution c id 1 w] hdrive htrace
  refine ⟨id, g, hid, hsource, hspans, ?_⟩
  dsimp only
  rw [hwhole, hlife]
  exact ⟨hstep, hstates, rfl⟩

end Job
end TraceLineage
