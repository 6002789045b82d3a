import TraceLineage.Proofs.Adapter.JobSeries
import TraceLineage.Proofs.Execution.Nesting

/-!
# Records of a run

The id of a run is a field of the span around its body, so that whatever the body writes to the log
shows it.  The record of the resolution shows it in a field of its own.  A failure is reported when
the span is closed already, and that record shows the id neither way.
-/

namespace TraceLineage

/-- Whether a record shows an id, in a field of its own or in a field of a `job` span around it. -/
def Record.Shows (id : TraceId) (q : Record) : Prop :=
  ("trace_id", .text id.text) ∈ q.event.fields ∨
    ∃ s ∈ q.spans, s.name = "job" ∧ ("trace_id", .text id.text) ∈ s.fields

namespace JobRun

open Happening

variable {H : Type → Type} {σ α : Type} {h : Handler H σ}

theorem shows_of_mem_span
    {name : String} {id : TraceId} {q : Record} (hq : span name id ∈ q.spans) :
    q.Shows id :=
  Or.inr ⟨_, hq, rfl, List.mem_cons_of_mem _ List.mem_cons_self⟩

theorem fields_of_mem_reports
    (name : String) (x : Exit (Except String α)) :
    ∀ e ∈ reports name x, ∀ v, ("trace_id", v) ∉ e.fields := by
  intro e he v
  rcases x with (error | a) | p
  · rw [List.mem_singleton.1 he]
    simp [failedEvent]
  · exact absurd he List.not_mem_nil
  · rw [List.mem_singleton.1 he]
    simp [panickedEvent]

/-! ## In front of the body and behind it -/

/-- What a run writes in front of its body shows the id that it has resolved. -/
theorem shows_of_mem_beginning
    (c : Config) (inherited : Context) {w : World σ} {id : TraceId} {v : World σ}
    (hresolve : ({ w with ambient := some inherited } : World σ).perform (.resolve c .job) =
      (.ok id, v)) (d : Nat) :
    ∀ x ∈ beginning c inherited d w, ∀ q ∈ x.records, q.Shows id := by
  intro x hx q hq
  simp only [beginning, List.mem_cons, List.not_mem_nil, or_false] at hx
  rcases hx with rfl | rfl | rfl
  · exact absurd hq List.not_mem_nil
  · have hrecords : (({ w with ambient := some inherited } : World σ).happening (d + 1)
        (.resolve c .job)).records = [⟨resolvedEvent .job id, w.facilities.spans⟩] := by
      simp only [Happening.records, World.happening, Happening.events, hresolve]
      rfl
    rw [hrecords] at hq
    obtain rfl := List.mem_singleton.1 hq
    exact Or.inl (List.mem_cons_of_mem _ List.mem_cons_self)
  · exact absurd hq List.not_mem_nil

theorem mem_reports_of_mem_closing
    (es : List Event) (d : Nat) (w : World σ) :
    ∀ x ∈ closing es d w, ∀ q ∈ x.records, q.event ∈ es ∧ q.spans = w.facilities.spans := by
  intro x hx q hq
  rcases List.mem_append.1 hx with hx | hx
  · obtain ⟨e, he, rfl⟩ := List.mem_map.1 hx
    obtain rfl : q = ⟨e, w.facilities.spans⟩ := List.mem_singleton.1 hq
    exact ⟨he, rfl⟩
  · rw [List.mem_singleton.1 hx] at hq
    exact absurd hq List.not_mem_nil

/-- What is written behind a body in the care of a run are reports of its exit, in the spans in
which the last poll was made. -/
theorem Attends.records_behind
    {front : List Happening} {name : String} {inner : Life H σ (Except String α)}
    {outer : Life H σ (Option α)} (hattends : Attends front name inner outer) :
    ∃ ys, outer.trace = front ++ inner.trace ++ ys ∧
      ∀ y ∈ ys, ∀ q ∈ y.records, ∃ x, inner.step = .finished x ∧ q.event ∈ reports name x ∧
        ∃ v ∈ inner.states, q.spans = v.facilities.spans := by
  rw [Attends] at hattends
  cases hstep : inner.step with
  | finished x =>
    rw [hstep] at hattends
    obtain ⟨_, states, v, kept, hstates, _, htrace⟩ := hattends
    refine ⟨_, htrace, ?_⟩
    intro y hy q hq
    obtain ⟨hevent, hspans⟩ := mem_reports_of_mem_closing _ _ _ y hy q hq
    refine ⟨x, rfl, hevent, v, ?_, hspans⟩
    rw [hstates]
    exact List.mem_append_right _ List.mem_cons_self
  | pending rest =>
    rw [hstep] at hattends
    obtain ⟨_, _, htrace⟩ := hattends
    refine ⟨[], ?_, fun y hy => absurd hy List.not_mem_nil⟩
    rw [htrace, List.append_nil]

/-! ## Inside the span of the body -/

/-- At every poll the body is inside the span of the run, and what it writes there, directly or in
spans that it opens itself, shows the id. -/
theorem shows_of_mem_running
    (hh : h.KeepsSpans) (ctx : Context) (front : List Span) (name : String) (id : TraceId)
    (body : Prog H α) (ws : List (World σ)) :
    let path := front ++ [span name id]
    ∀ x ∈ (Ambient.inContext ctx (body.inFrame (.span path))).nestedLife h 0 ws,
      ∃ inner, x.1 = path :: inner ∧
        ∀ more, Opens path inner more → ∀ q ∈ x.2.records, q.spans = path ++ more ∧ q.Shows id := by
  intro path x hx
  obtain ⟨w, _, hlocated⟩ := Prog.located_of_mem_nestedLife hh _ 0 ws x hx
  obtain ⟨vs, hlife⟩ :=
    Prog.nestedLife_inFrame (h := h) (.scope ctx) rfl (body.inFrame (.span path)) 0 ws
  rw [Ambient.inContext, hlife] at hx
  obtain ⟨y, hy, rfl⟩ := List.mem_map.1 hx
  obtain ⟨inner, hinner⟩ := Prog.exists_cons_of_mem_nestedLife path body _ vs y hy
  refine ⟨inner, hinner, ?_⟩
  intro more hopens q hq
  have hspans := (hlocated.inside hinner).spans_of_opens hopens q hq
  have hspan : span name id ∈ q.spans := by
    rw [hspans]
    exact List.mem_append_left _ (List.mem_append_right _ List.mem_cons_self)
  exact ⟨hspans, shows_of_mem_span hspan⟩

/-! ## The whole run -/

/-- Every record of a run shows the id of the run, except the report of a failure.  Where a run
finds no id, it resolves one, and what it writes up to the end of its body is the record of the
resolution and what the body writes inside the span of the run, on the spot or polled in any states;
all of that shows the id.  What is written behind the body is the report of its error or panic.
This record is in the spans of the scheduler, and the id is not among its fields. -/
theorem records_of_run
    (hscope : h.KeepsScope) (hspans : h.KeepsSpans) (c : Config) (k : Call H) (w : World σ)
    (hroot : (w.ambient.getD .empty).get? = none) (ws : List (World σ)) :
    let inherited := w.ambient.getD .empty
    let resolving := ({ w with ambient := some inherited } : World σ).perform (.resolve c .job)
    ∃ id g ys, resolving.1 = .ok id ∧
      let path := w.facilities.spans ++ [span k.name id]
      let running := Ambient.inContext ⟨some id, inherited.auxiliary⟩ (k.work.inFrame (.span path))
      let polls := { w with facilities := g } :: ws
      let xs := running.nestedLife h 0 polls
      ((k.program c).life h (w :: ws)).trace =
        beginning c inherited 0 w ++ xs.map Prod.snd ++ ys ∧
      (∀ x ∈ beginning c inherited 0 w, ∀ q ∈ x.records, q.Shows id) ∧
      (∀ x ∈ xs, ∃ inner, x.1 = path :: inner ∧
        ∀ more, Opens path inner more → ∀ q ∈ x.2.records, q.spans = path ++ more ∧ q.Shows id) ∧
      ∀ y ∈ ys, ∀ q ∈ y.records,
        (∃ x, (running.life h polls).step = .finished x ∧ q.event ∈ reports k.name x) ∧
        (∃ u ∈ w :: ws, q.spans = u.facilities.spans) ∧
        ∀ v, ("trace_id", v) ∉ q.event.fields := by
  intro inherited resolving
  obtain ⟨id, g, hid, _, hback, _, hattends⟩ := k.attends_of_root hscope c hroot ws
  obtain ⟨id', f, hresolve, hid', _⟩ := c.resolve_job hroot w.facilities
  obtain rfl : id' = id := by
    have htext : id'.text = id.text := hid'.trans hid.symm
    cases id
    cases id'
    exact congrArg TraceId.mk htext
  have hperform : resolving =
      (.ok id', { w with ambient := some ⟨some id', inherited.auxiliary⟩, facilities := f }) := by
    simp only [resolving, World.perform, inherited, hresolve]
  obtain ⟨ys, htrace, hys⟩ := hattends.records_behind
  refine ⟨id', g, ys, congrArg Prod.fst hperform, ?_⟩
  intro path running polls xs
  refine ⟨?_, shows_of_mem_beginning c inherited hperform 0, ?_, ?_⟩
  · rw [htrace, ← running.map_snd_nestedLife h polls]
  · exact shows_of_mem_running hspans _ _ k.name id' k.work polls
  · intro y hy q hq
    obtain ⟨x, hstep, hevent, v, hv, hplace⟩ := hys y hy q hq
    -- every poll leaves the current span as it has found it
    have hbehind : v.facilities.spans ∈
        (running.life h polls).states.map (·.facilities.spans) :=
      List.mem_map.2 ⟨v, hv, rfl⟩
    obtain ⟨u, hu, hfound⟩ := List.mem_map.1 ((running.spans_life hspans polls).mem hbehind)
    refine ⟨⟨x, hstep, hevent⟩, ?_, fields_of_mem_reports k.name x q.event hevent⟩
    rcases List.mem_cons.1 hu with rfl | hu
    · exact ⟨w, List.mem_cons_self, hplace.trans (hfound.symm.trans hback)⟩
    · exact ⟨u, List.mem_cons_of_mem _ hu, hplace.trans hfound.symm⟩

/-- A body that is suspended, writes a record and fails: its record shows the id of the run. -/
theorem records_of_run_of_suspended :
    let h := LocalHost.nobody.handler
    let w : World Unit := ⟨none, .fresh ⟨fun n => ⟨n % 63, Nat.mod_lt n (by decide)⟩, 0⟩, ()⟩
    let k : Call fun _ => Empty := ⟨Unit, "sweep", false,
      .suspend (.op (.emit ⟨.info, "working", []⟩) fun _ => .done (.value (.error "boom")))⟩
    h.KeepsScope ∧ h.KeepsSpans ∧ (w.ambient.getD .empty).get? = none ∧
      ∃ id, (({ w with ambient := some .empty } : World Unit).perform
          (.resolve .standard .job)).1 = .ok id ∧
        ∃ x ∈ ((k.program .standard).life h [w, w]).trace, ∃ q ∈ x.records,
          q.event.message = "working" ∧ q.Shows id := by
  intro h w k
  have hscope : h.KeepsScope := LocalHost.nobody.sparesContext.keepsScope
  have hspans : h.KeepsSpans := fun _ _ _ => rfl
  obtain ⟨id, g, ys, hresolve, htrace, _, hbody, _⟩ :=
    records_of_run hscope hspans .standard k w rfl [w]
  let running := Ambient.inContext ⟨some id, .empty⟩ (k.work.inFrame (.span [span "sweep" id]))
  obtain ⟨x, hx, hnested, q, hq, hmessage⟩ :
      ∃ x ∈ running.nestedLife h 0 [{ w with facilities := g }, w], x.1 = [[span "sweep" id]] ∧
        ∃ q ∈ x.2.records, q.event.message = "working" :=
    ⟨_, List.mem_cons_self, rfl, _, List.mem_cons_self, rfl⟩
  obtain ⟨inner, hinner, hrecords⟩ := hbody x hx
  obtain rfl : [] = inner := (List.cons.inj (hnested.symm.trans hinner)).2
  refine ⟨hscope, hspans, rfl, id, hresolve, x.2, ?_, q, hq, hmessage,
    (hrecords [] (.none _) q hq).2⟩
  rw [htrace]
  exact List.mem_append_left _ (List.mem_append_right _ (List.mem_map.2 ⟨x, hx, rfl⟩))

/-- The report of a failure does not show the id of the run, nor any other id. -/
theorem report_shows_no_id :
    let h := LocalHost.nobody.handler
    let w : World Unit := ⟨none, .fresh ⟨fun n => ⟨n % 63, Nat.mod_lt n (by decide)⟩, 0⟩, ()⟩
    let k : Call fun _ => Empty := ⟨Unit, "sweep", true,
      .op (.emit ⟨.info, "working", []⟩) fun _ => .done (.value (.error "boom"))⟩
    (w.ambient.getD .empty).get? = none ∧
      ∃ x ∈ ((k.program .standard).life h [w]).trace, ∃ q ∈ x.records,
        q.event = failedEvent "sweep" "boom" ∧ ∀ id, ¬ q.Shows id := by
  intro h w k
  -- a look at the context, the resolution, a look at the spans, and what the body writes
  have hmem : _ ∈ ((k.program .standard).life h [w]).trace :=
    List.mem_cons_of_mem _ (List.mem_cons_of_mem _ (List.mem_cons_of_mem _
      (List.mem_cons_of_mem _ List.mem_cons_self)))
  refine ⟨rfl, _, hmem, _, List.mem_cons_self, rfl, ?_⟩
  rintro id (hfield | ⟨s, hs, _⟩)
  · exact fields_of_mem_reports "sweep" (.value (.error "boom") : Exit (Except String Unit)) _
      List.mem_cons_self _ hfield
  · exact absurd hs List.not_mem_nil

end JobRun
end TraceLineage
