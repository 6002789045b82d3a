import TraceLineage.Adapter.Snapshot
import TraceLineage.Proofs.Execution.Nesting
import TraceLineage.Proofs.Execution.Replay

/-!
# Spans across hand-offs

A snapshot takes the spans along that are current where it is taken, and work under it writes its
records there, behind which come the spans that it opens itself.  This holds wherever the work is
executed, as long as there was a span to take along: without one nothing is entered, and the spans
of the place of execution show through.
-/

namespace TraceLineage

open Happening

namespace Ambient

variable {H : Type → Type} {σ α : Type} {h : Handler H σ}

/-- The spans that are made current around a part that runs under some spans. -/
def entering (path : List Span) : List (List Span) :=
  if path = [] then [] else [path]

/-- Under some spans a part is performed in these, or in those of the place of execution if there
are none of them. -/
theorem located_of_mem_underSpans
    (hh : h.KeepsSpans) (path : List Span) (body : Prog H α) (d : Nat) (ws : List (World σ)) :
    ∀ x ∈ (underSpans path body).nestedLife h d ws, ∃ w ∈ ws, ∃ inner,
      x.1 = entering path ++ inner ∧
        Located (w.under path).facilities.spans (inner, x.2) := by
  intro x hx
  obtain ⟨w, hw, hlocated⟩ := Prog.located_of_mem_nestedLife hh _ d ws x hx
  refine ⟨w, hw, ?_⟩
  cases path with
  | nil => exact ⟨x.1, rfl, hlocated⟩
  | cons s path =>
    rw [underSpans_of_ne_nil (List.cons_ne_nil s path)] at hx
    obtain ⟨inner, hinner⟩ := Prog.exists_cons_of_mem_nestedLife (s :: path) body d ws x hx
    exact ⟨inner, hinner, hlocated.inside hinner⟩

end Ambient

namespace Snapshot

variable {H : Type → Type} {σ α : Type} {h : Handler H σ}

/-- Takes a snapshot of a given context or, if there is none, of the one in scope. -/
def taking (given : Option Context) : Prog H Snapshot :=
  given.elim capture ofContext

theorem run_taking
    (given : Option Context) (u : World σ) :
    (taking given).run h u =
      (some (.value ⟨given.getD (u.ambient.getD .empty), u.facilities.spans⟩), u) := by
  cases given <;> rfl

/-- Work under a snapshot, as it stands or on the spot. -/
def execution (s : Snapshot) (c : Config) (onTheSpot : Bool) (work : Prog H α) :
    Prog H (Except Fault α) :=
  if onTheSpot = true then s.runSync c work else s.run c work

theorem execution_eq
    (s : Snapshot) (c : Config) (onTheSpot : Bool) (work : Prog H α) :
    ∃ body, s.execution c onTheSpot work = Ambient.underSpans s.spans body := by
  by_cases hspot : onTheSpot = true
  · rw [execution, if_pos hspot]
    exact ⟨_, rfl⟩
  · rw [execution, if_neg hspot]
    exact ⟨_, rfl⟩

/-- A hand-off takes the spans of its submitter along and leaves those of the worker alone.  A
snapshot that is taken in whatever way holds the spans `path` that are current there.  Work under
it, on the spot or polled in any states, writes every record, those of the library included, in
`path` and the spans that it has opened there itself, if `path` is not empty or there are no spans
where the work is polled.  Behind every poll and behind a drop the current span is the one in front
of it. -/
theorem run_in_captured_spans
    (hh : h.KeepsSpans) (given : Option Context) (u : World σ) (c : Config) (onTheSpot : Bool)
    (work : Prog H α) (ws : List (World σ)) :
    let path := u.facilities.spans
    let s : Snapshot := ⟨given.getD (u.ambient.getD .empty), path⟩
    let p := s.execution c onTheSpot work
    let xs := p.nestedLife h 0 ws
    (taking given).run h u = (some (.value s), u) ∧
      xs.map Prod.snd = (p.life h ws).trace ∧
      (∀ x ∈ xs, ∃ inner, x.1 = Ambient.entering path ++ inner ∧
        ((path = [] → ∀ w ∈ ws, w.facilities.spans = []) → ∀ more, Opens path inner more →
          ∀ q ∈ x.2.records, q.spans = path ++ more)) ∧
      (p.life h ws).states.map (·.facilities.spans) <+: ws.map (·.facilities.spans) ∧
      ∀ rest, (p.life h ws).step = .pending rest →
        ∀ w : World σ, (rest.drop w).facilities.spans = w.facilities.spans := by
  intro path s p xs
  refine ⟨run_taking given u, p.map_snd_nestedLife h ws, ?_, p.spans_life hh ws,
    fun rest _ => hh.across.drop rest⟩
  intro x hx
  obtain ⟨body, hp⟩ := s.execution_eq c onTheSpot work
  simp only [xs, p, hp] at hx
  obtain ⟨w, hw, inner, hinner, hlocated⟩ :=
    Ambient.located_of_mem_underSpans hh path body 0 ws x hx
  refine ⟨inner, hinner, ?_⟩
  intro hws more hopens
  have hunder : (w.under path).facilities.spans = path := by
    cases hpath : path with
    | nil => exact hws hpath w hw
    | cons s rest => rfl
  rw [hunder] at hlocated
  exact hlocated.spans_of_opens hopens

/-- Work that is suspended, then opens a span and writes a record there, on a worker inside another
span: the record is in the span of the submitter and the one that the work has opened. -/
theorem run_in_captured_spans_of_suspended :
    let h := LocalHost.nobody.handler
    let f : Facilities := .fresh ⟨fun n => ⟨n % 63, Nat.mod_lt n (by decide)⟩, 0⟩
    let u : World Unit := ⟨none, { f with spans := [⟨"submitter", [], []⟩] }, ()⟩
    let w : World Unit := ⟨none, { f with spans := [⟨"worker", [], []⟩] }, ()⟩
    let s : Snapshot := ⟨.empty, [⟨"submitter", [], []⟩]⟩
    let work : Prog (fun _ => Empty) Unit :=
      .suspend (Ambient.inSpan ⟨"part", [], []⟩ (Ambient.emit ⟨.info, "m", []⟩))
    h.KeepsSpans ∧ (taking none).run h u = (some (.value s), u) ∧
      ∃ x ∈ (s.execution .standard false work).nestedLife h 0 [w, w], ∃ q ∈ x.2.records,
        q.event.message = "m" ∧ q.spans = [⟨"submitter", [], []⟩, ⟨"part", [], []⟩] := by
  intro h f u w s work
  have hh : h.KeepsSpans := fun _ _ _ => rfl
  obtain ⟨htaking, _, hall, _⟩ := run_in_captured_spans hh none u .standard false work [w, w]
  -- the resolution, the look at the current spans, and then the record
  obtain ⟨x, hx, hnested, q, hq, hmessage⟩ :
      ∃ x ∈ (s.execution .standard false work).nestedLife h 0 [w, w],
        x.1 = [[⟨"submitter", [], []⟩], [⟨"submitter", [], []⟩, ⟨"part", [], []⟩]] ∧
        ∃ q ∈ x.2.records, q.event.message = "m" :=
    ⟨_, List.mem_cons_of_mem _ (List.mem_cons_of_mem _ List.mem_cons_self), rfl, _,
      List.mem_cons_self, rfl⟩
  obtain ⟨inner, hinner, hrecords⟩ := hall x hx
  obtain rfl : [[⟨"submitter", [], []⟩, ⟨"part", [], []⟩]] = inner :=
    (List.cons.inj (hnested.symm.trans hinner)).2
  have hcaptured : u.facilities.spans ≠ [] := List.cons_ne_nil _ _
  have hopens : Opens u.facilities.spans
      [[⟨"submitter", [], []⟩, ⟨"part", [], []⟩]] [⟨"part", [], []⟩] := .some [_] (.none _)
  exact ⟨hh, htaking, x, hx, q, hq, hmessage,
    hrecords (fun hnone => absurd hnone hcaptured) _ hopens q hq⟩

/-- Without a span to take along the spans of the worker show through: work that is handed off
outside of every span and executed inside one writes its record there. -/
theorem run_shows_spans_of_worker :
    let h := LocalHost.nobody.handler
    let f : Facilities := .fresh ⟨fun n => ⟨n % 63, Nat.mod_lt n (by decide)⟩, 0⟩
    let u : World Unit := ⟨none, f, ()⟩
    let w : World Unit := ⟨none, { f with spans := [⟨"unit", [("name", .text "W")], []⟩] }, ()⟩
    let s : Snapshot := ⟨.empty, []⟩
    let work : Prog (fun _ => Empty) Unit := Ambient.emit ⟨.info, "m", []⟩
    (taking none).run h u = (some (.value s), u) ∧
      ∃ x ∈ (s.execution .standard true work).nestedLife h 0 [w], Opens [] x.1 [] ∧
        ∃ q ∈ x.2.records,
          q.event.message = "m" ∧ q.spans = w.facilities.spans ∧ q.spans ≠ [] := by
  intro h f u w s work
  refine ⟨rfl, _, List.mem_cons_of_mem _ List.mem_cons_self, .none _, _, List.mem_cons_self, rfl,
    rfl, ?_⟩
  exact List.cons_ne_nil _ _

end Snapshot
end TraceLineage
