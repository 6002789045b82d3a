import TraceLineage.Adapter.Arrival
import TraceLineage.Adapter.JobRun
import TraceLineage.Adapter.Snapshot
import TraceLineage.Proofs.Execution.Containment

/-!
# Adapters restore the context around them

Every adapter of the library is a contained program, whatever it runs: what it runs stands in a
scope of its own, and so do the guards that clear contexts.  The main statement says what follows
for an adapter that is polled, run on the spot, or dropped half-way.
-/

namespace TraceLineage

/-- An adapter of the library with everything that it is given, by the type of its results. -/
inductive Adapter (H : Type → Type) : Type → Type 1 where
  | scope {α : Type} (ctx : Context) (body : Prog H α) : Adapter H α
  | scopeSync {α : Type} (ctx : Context) (body : Prog H α) : Adapter H α
  | arrival {α : Type} (r : Arrival) (handler : Prog H α) : Adapter H α
  | arrivalSync {α : Type} (r : Arrival) (handler : Prog H α) : Adapter H α
  | job {α : Type} (c : Config) (name : String) (body : Prog H (Except String α)) :
    Adapter H (Option α)
  | jobSync {α : Type} (c : Config) (name : String) (body : Prog H (Except String α)) :
    Adapter H (Option α)
  | snapshot {α : Type} (c : Config) (s : Snapshot) (work : Prog H α) :
    Adapter H (Except Fault α)
  | snapshotSync {α : Type} (c : Config) (s : Snapshot) (work : Prog H α) :
    Adapter H (Except Fault α)
  | task (c : Config) (s : Snapshot) (work : Prog H Unit) : Adapter H Unit

namespace Adapter

variable {H : Type → Type} {σ α : Type}

def program : {α : Type} → Adapter H α → Prog H α
  | _, scope ctx body => Ambient.inContext ctx body
  | _, scopeSync ctx body => Ambient.inContextSync ctx body
  | _, arrival r handler => r.scope handler
  | _, arrivalSync r handler => r.scopeSync handler
  | _, job c name body => JobRun.run c name body
  | _, jobSync c name body => JobRun.runSync c name body
  | _, snapshot c s work => s.run c work
  | _, snapshotSync c s work => s.runSync c work
  | _, task c s work => s.task c work

end Adapter

variable {H : Type → Type} {σ α : Type}

theorem JobRun.contained_run
    (c : Config) (name : String) (body : Prog H (Except String α)) :
    (JobRun.run c name body).Contained :=
  -- the run reads the context in scope and then stays inside a scope with a copy of it
  ⟨rfl, fun _ => Ambient.contained_inContext _ _⟩

theorem Snapshot.contained_run
    (c : Config) (s : Snapshot) (work : Prog H α) :
    (s.run c work).Contained :=
  Ambient.contained_underSpans _ (Ambient.contained_inContext _ _)

theorem Snapshot.contained_task
    (c : Config) (s : Snapshot) (work : Prog H Unit) :
    (s.task c work).Contained := by
  refine Prog.Contained.bind (s.contained_run c _) ?_
  rintro (e | ⟨⟩)
  · exact ⟨rfl, fun _ => trivial⟩
  · trivial

theorem Adapter.contained
    (a : Adapter H α) :
    a.program.Contained := by
  cases a with
  | scope ctx body => exact Ambient.contained_inContext ctx body
  | scopeSync ctx body => exact Ambient.contained_inContext ctx _
  | arrival r handler => exact Ambient.contained_inContext r.context _
  | arrivalSync r handler => exact Ambient.contained_inContext r.context _
  | job c name body => exact JobRun.contained_run c name body
  | jobSync c name body => exact JobRun.contained_run c name _
  | snapshot c s work => exact s.contained_run c work
  | snapshotSync c s work => exact s.contained_run c _
  | task c s work => exact s.contained_task c work

/-- An adapter never changes the context around it: not at any of its polls, the one at which it
returns, fails or panics included, not when it is dropped after any number of polls, and not when it
is run through on the spot.  The states of the polls and of the drop are arbitrary. -/
theorem Adapter.restores_ambient
    (h : Handler H σ) (a : Adapter H α) (ws : List (World σ)) :
    (a.program.life h ws).states.map World.ambient <+: ws.map World.ambient ∧
      (∀ rest, (a.program.life h ws).step = .pending rest →
        ∀ w : World σ, (rest.drop w).ambient = w.ambient) ∧
      ∀ w : World σ, (a.program.run h w).2.ambient = w.ambient := by
  obtain ⟨hstates, hstep⟩ := a.contained.life h ws
  refine ⟨hstates, ?_, a.contained.ambient_run h⟩
  intro rest hrest w
  rw [hrest] at hstep
  exact Prog.Contained.ambient_drop hstep w

end TraceLineage
