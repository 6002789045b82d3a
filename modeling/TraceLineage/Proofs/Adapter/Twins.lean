import TraceLineage.Proofs.Adapter.Handoff
import TraceLineage.Proofs.Adapter.Restoration
import TraceLineage.Proofs.Execution.Completion

/-!
# Two variants of each adapter

Each adapter comes in two variants: one is polled, and the other one runs on the spot, which is all
that a body without suspensions needs.  The variants enter scopes and spans in different ways.  On
the spot a scope holds a closure, and the panic of a job is caught inside the span of the job; where
a job is polled it is caught around the span.  None of this can be observed.
-/

namespace TraceLineage

/-- An adapter that comes in two variants, with everything that it is given except its body, by the
types of the results of the body and of the whole. -/
inductive Twin : Type → Type → Type 1 where
  | scope {α : Type} (ctx : Context) : Twin α α
  | arrival {α : Type} (r : Arrival) : Twin α α
  | job {α : Type} (c : Config) (name : String) : Twin (Except String α) (Option α)
  | snapshot {α : Type} (c : Config) (s : Snapshot) : Twin α (Except Fault α)

namespace Twin

variable {H : Type → Type} {σ α β : Type}

def polled : {α β : Type} → Twin α β → Prog H α → Adapter H β
  | _, _, scope ctx, body => .scope ctx body
  | _, _, arrival r, body => .arrival r body
  | _, _, job c name, body => .job c name body
  | _, _, snapshot c s, body => .snapshot c s body

def onTheSpot : {α β : Type} → Twin α β → Prog H α → Adapter H β
  | _, _, scope ctx, body => .scopeSync ctx body
  | _, _, arrival r, body => .arrivalSync r body
  | _, _, job c name, body => .jobSync c name body
  | _, _, snapshot c s, body => .snapshotSync c s body

/-- The variant that runs on the spot, written for a closure: the scope holds the guard and whatever
else is done, and a panic is caught before the span is left. -/
def closure : {α β : Type} → Twin α β → Prog H α → Prog H β
  | _, _, scope ctx, body => Ambient.inContextSync ctx body
  | _, _, arrival r, body => Ambient.inContextSync r.context (Ambient.guarded body)
  | _, _, job c name, body => do
    let inherited := (← Ambient.current?).getD .empty
    Ambient.inContextSync inherited <| Ambient.guarded do
      match ← Ambient.resolve c .job with
      | .error e =>
        Ambient.emit (JobRun.skippedEvent name e)
        return none
      | .ok id =>
        let x ← Ambient.inSpan (JobRun.span name id) body.attempt
        JobRun.conclude name x
  | _, _, snapshot c s, body =>
    Ambient.underSpans s.spans <| Ambient.inContextSync s.context <| Ambient.guarded do
      match ← Ambient.resolve c .handoff with
      | .error e => return .error e
      | .ok _ => return .ok (← body)

end Twin

namespace Prog.Alike

variable {H : Type → Type} {σ α : Type} {h : Handler H σ}

theorem inFrame
    (hh : h.Prompt) (fr : Frame) {p q : Prog H α} (hpq : Alike h p q) :
    Alike h (p.inFrame fr) (q.inFrame fr) :=
  .frame hh fr hpq fun x => .refl h (.done x)

theorem underSpans
    (hh : h.Prompt) (path : List Span) {p q : Prog H α} (hpq : Alike h p q) :
    Alike h (Ambient.underSpans path p) (Ambient.underSpans path q) := by
  cases path with
  | nil => exact hpq
  | cons s path => exact hpq.inFrame hh _

theorem inSpan
    (hh : h.Prompt) (s : Span) {p q : Prog H α} (hpq : Alike h p q) :
    Alike h (Ambient.inSpan s p) (Ambient.inSpan s q) :=
  .op fun _ => hpq.inFrame hh _

theorem attempt
    (hh : h.Prompt) {p q : Prog H α} (hpq : Alike h p q) :
    Alike h p.attempt q.attempt :=
  .frame hh .extent hpq fun _ => .refl h _

theorem inContextSync
    (hh : h.Prompt) (ctx : Context) {p q : Prog H α} (hpq : Alike h p q) :
    Alike h (Ambient.inContext ctx p) (Ambient.inContextSync ctx q) :=
  .inFrame hh _ fun d w => (hpq d w).trans (ending_inPlace h d w q).symm

/-- An operation cannot panic, so that it may stand in front of the place that catches panics. -/
theorem attempt_op
    (hh : h.Prompt) {γ : Type} (o : Op γ) (next : γ → Prog H α) :
    Alike h (Prog.op o next).attempt (.op o fun r => (next r).attempt) := by
  intro d w
  have hextent : d + Frame.extent.depth = d := rfl
  simp only [Prog.attempt, ending_frame hh, hextent, Frame.enter, ending_op, Ending.behind_after]
  rfl

/-- Whether a panic is caught inside a span or around it comes to the same. -/
theorem attempt_inSpan
    (hh : h.Prompt) (s : Span) (p : Prog H α) :
    Alike h (Ambient.inSpan s p).attempt (Ambient.inSpan s p.attempt) := by
  have hcatch : ∀ path,
      Alike h (p.inFrame (.span path)).attempt (p.attempt.inFrame (.span path)) := by
    intro path d w
    have hextent : d + Frame.extent.depth = d := rfl
    have hspan : d + (Frame.span path).depth = d := rfl
    simp only [Prog.attempt, Prog.inFrame, ending_frame hh, hextent, hspan, Frame.enter]
    rcases p.ending h d (w.withSpans path) with ⟨_ | x, v, hs⟩
    · simp only [Ending.behind, Frame.leave, Frame.leaveTrace, List.append_nil]
      rfl
    · simp only [Ending.behind, Frame.leave, Frame.leaveTrace, List.append_nil]
      rfl
  exact (attempt_op hh .spans _).trans (.op fun path => hcatch (path ++ [s]))

theorem jobRun
    (hh : h.Prompt) (c : Config) (name : String) {p q : Prog H (Except String α)}
    (hpq : Alike h p q) :
    Alike h (JobRun.run c name p) (Twin.closure (.job c name) q) := by
  have hcaught : ∀ id, Alike h (Ambient.inSpan (JobRun.span name id) p).attempt
      (Ambient.inSpan (JobRun.span name id) q.attempt) := by
    intro id
    exact (hpq.inSpan hh _).attempt hh |>.trans (attempt_inSpan hh _ q)
  refine .op fun inherited => .inContextSync hh _ (.inFrame hh _ (.op ?_))
  rintro (e | id)
  · exact .refl h _
  · have hok : Alike h
        ((Ambient.inSpan (JobRun.span name id) p).attempt.bind (JobRun.conclude name))
        ((Ambient.inSpan (JobRun.span name id) q.attempt).bind (JobRun.conclude name)) :=
      .bind hh (hcaught id) fun x => .refl h _
    exact hok

end Prog.Alike

namespace Twin

variable {H : Type → Type} {σ α β : Type} {h : Handler H σ}

open Prog

/-- The variant that is polled and the one for a closure come to the same. -/
theorem alike_polled_closure
    (hh : h.Prompt) (t : Twin α β) {p q : Prog H α} (hpq : Alike h p q) :
    Alike h (t.polled p).program (t.closure q) := by
  cases t with
  | scope ctx => exact hpq.inContextSync hh ctx
  | arrival r => exact .inContextSync hh _ (hpq.inFrame hh _)
  | job c name => exact .jobRun hh c name hpq
  | snapshot c s =>
    refine .underSpans hh _ (.inContextSync hh _ (.inFrame hh _ (.op ?_)))
    rintro (e | id)
    · exact .refl h _
    · have hok : Alike h p.succeeding q.succeeding := .bind hh hpq fun a => .refl h _
      exact hok

/-- The variant that runs on the spot is the other one with its body on the spot. -/
theorem program_onTheSpot
    (t : Twin α β) (p : Prog H α) :
    (t.onTheSpot p).program = (t.polled p.inPlace).program := by
  cases t <;> rfl

/-- The variants of an adapter agree.  Polling the one to completion brings it to some end exactly
if running the other one on the spot, with the same body without its suspensions, brings that one
to the same end: with the same value or panic, in the same state behind it, which is the context in
scope, the ids generated, the records in their spans and the state of the host, and with the same
operations performed on the way, each with its result, in the same spans, and with the same context
in front of it and behind it.  So it does for the variant that is written for a closure. -/
theorem variants_agree
    (hh : h.Prompt) (t : Twin α β) (body : Prog H α) (w : World σ) (x : Exit β) (v : World σ)
    (hs : List Happening) :
    let polling := (t.polled body).program.Completes h 0 w ⟨some x, v, hs⟩
    (polling ↔
      (t.onTheSpot body.withoutYields).program.run h w = (some x, v) ∧
        (t.onTheSpot body.withoutYields).program.trace h true 0 w = hs) ∧
    (polling ↔
      (t.closure body.withoutYields).run h w = (some x, v) ∧
        (t.closure body.withoutYields).trace h true 0 w = hs) := by
  intro polling
  have hbody : Alike h body body.withoutYields :=
    fun d w => (ending_withoutYields hh body d w).symm
  have hclosure := t.alike_polled_closure hh hbody
  have hspot : Alike h (t.polled body).program (t.onTheSpot body.withoutYields).program := by
    rw [program_onTheSpot]
    have hplace : Alike h body.withoutYields.inPlace body.withoutYields :=
      fun d w => ending_inPlace h d w body.withoutYields
    exact hclosure.trans (t.alike_polled_closure hh hplace).symm
  rw [← ending_eq_iff h _ 0, ← ending_eq_iff h _ 0, ← hspot 0 w, ← hclosure 0 w]
  exact ⟨completes_iff hh _ x v hs, completes_iff hh _ x v hs⟩

/-- A job that is suspended twice and then panics, polled to completion: the panic goes no further
than in the same job on the spot, and it is reported outside the span of the job. -/
theorem variants_agree_of_panic :
    let h := LocalHost.nobody.handler
    let w : World Unit := ⟨none, .fresh ⟨fun n => ⟨n % 63, Nat.mod_lt n (by decide)⟩, 0⟩, ()⟩
    let body : Prog (fun _ => Empty) (Except String Unit) :=
      .suspend (.op (.emit ⟨.info, "sweeping", []⟩) fun _ =>
        .suspend (.done (.panic (.text "boom"))))
    h.Prompt ∧ ∃ v hs,
      ((Twin.job .standard "sweep").polled body).program.Completes h 0 w
        ⟨some (.value none), v, hs⟩ ∧
      v.ambient = none ∧
      v.facilities.records.map (fun r => (r.event.message, r.spans.map Span.name)) =
        [("Trace id resolved", []), ("sweeping", ["job"]), ("Job panicked", [])] := by
  intro h w body
  have hh : h.Prompt := LocalHost.prompt fun _ r => r.elim
  have hagree := (Twin.job .standard "sweep").variants_agree hh body w (.value none)
  refine ⟨hh, _, _, (hagree _ _).1.2 ⟨rfl, rfl⟩, rfl, ?_⟩
  decide +kernel

end Twin
end TraceLineage
