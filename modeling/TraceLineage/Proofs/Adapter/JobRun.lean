import TraceLineage.Adapter.JobRun
import TraceLineage.Proofs.Boundary.Outcome
import TraceLineage.Proofs.Execution.Inside
import TraceLineage.Proofs.Execution.Life
import TraceLineage.Proofs.Execution.Records

/-!
# What a run of a job does

A run begins with a resolution.  Where it is refused the run ends at once.  Otherwise the body is in
the care of the run from then on: it does what it would do by itself in a scope with the new id, and
when it has ended, a failure or a panic is reported and the scope is cleared.
-/

namespace TraceLineage

/-- A job starts a chain in every context that does not show an id. -/
theorem Config.resolve_job
    (c : Config) {ctx : Context} (hctx : ctx.get? = none) (f : Facilities) :
    ∃ id g, c.resolve .job ctx f = (.ok id, ⟨some id, ctx.auxiliary⟩, g) ∧
      id.text = c.job.segment f.source ∧
      g.source = f.source.skip c.job.randomLength ∧ g.spans = f.spans ∧
      g.records = f.records ++ [⟨resolvedEvent .job id, f.spans⟩] := by
  have hnone : ∀ p : TraceId, none = some p → p.isBlank = false := nofun
  obtain ⟨id, g, hgen, hid, hsource, hspans⟩ := f.generate_eq_ok c.job hnone fun _ => rfl
  have hat : c.generateAt .job ctx f = (.ok id, g) := by
    simp only [generateAt, hctx, hgen]
  have hres : c.resolve .job ctx f =
      (.ok id, ⟨some id, ctx.auxiliary⟩, g.emit (resolvedEvent .job id)) := by
    refine resolve_of_generateAt hat ?_
    rw [hctx]
    exact nofun
  obtain ⟨hrecords, _⟩ := Facilities.records_resolve c .job ctx f
  rw [hres] at hrecords
  exact ⟨id, g.emit (resolvedEvent .job id), hres, hid.root rfl, hsource, hspans, hrecords⟩

/-- A job is refused where an id is present, and nothing is generated. -/
theorem Config.resolve_job_of_populated
    (c : Config) {ctx : Context} {old : TraceId} (hctx : ctx.get? = some old) (f : Facilities) :
    c.resolve .job ctx f = (.error (.state (.populated old)), ctx, f) := by
  simp only [resolve, generateAt, hctx]

namespace JobRun

variable {H : Type → Type} {σ α : Type} {h : Handler H σ}

/-! ## Bodies in the care of a run -/

/-- What a run returns for the exit of its body. -/
def outcome : Exit (Except String α) → Option α
  | .value (.ok a) => some a
  | .value (.error _) => none
  | .panic _ => none

/-- What a run reports of the exit of its body. -/
def reports (name : String) : Exit (Except String α) → List Event
  | .value (.ok _) => []
  | .value (.error e) => [failedEvent name e]
  | .panic p => [panickedEvent name p]

/-- What a run performs behind its body: it reports some events and clears its context. -/
def closing (es : List Event) (depth : Nat) (w : World σ) : List Happening :=
  es.map (fun e => w.happening depth (.emit e)) ++
    [World.happening { w with facilities := w.facilities.emitAll es } depth .clear]

/-- A body in the care of a run: it has a scope of its own, which is cleared behind it, and its exit
is reported. -/
def attended (begun : Bool) (name : String) (ctx : Context) (body : Prog H (Except String α)) :
    Prog H (Option α) :=
  Ambient.inContext ctx <| Prog.inFrame (.guard begun) <| body.attempt.bind (conclude name)

theorem drive_conclude
    (name : String) (x : Exit (Except String α)) (through : Bool) (d : Nat) (w : World σ) :
    (conclude name x : Prog H (Option α)).drive h through w =
        (.finished (.value (outcome x)),
          { w with facilities := w.facilities.emitAll (reports name x) }) ∧
      (conclude name x : Prog H (Option α)).trace h through d w =
        (reports name x).map fun e => w.happening d (.emit e) := by
  rcases x with (e | a) | p
  · exact ⟨rfl, rfl⟩
  · rw [reports, Facilities.emitAll_nil]
    exact ⟨rfl, rfl⟩
  · exact ⟨rfl, rfl⟩

/-- The care of a run changes what a body comes to only when it has ended. -/
theorem drive_attended
    (begun : Bool) (name : String) (ctx : Context) (body : Prog H (Except String α))
    (through : Bool) (d : Nat) (w : World σ) :
    (attended begun name ctx body).drive h through w =
        (match body.drive h through { w with ambient := some ctx } with
        | (.finished x, v) =>
          (.finished (.value (outcome x)),
            { v with ambient := w.ambient, facilities := v.facilities.emitAll (reports name x) })
        | (.pending rest, v) =>
          (.pending (attended true name (v.ambient.getD ctx) rest),
            { v with ambient := w.ambient })) ∧
      (attended begun name ctx body).trace h through d w =
        body.trace h through (d + 1) { w with ambient := some ctx } ++
          match body.drive h through { w with ambient := some ctx } with
          | (.finished x, v) => closing (reports name x) (d + 1) v
          | (.pending _, _) => [] := by
  rw [attended, Ambient.drive_inContext, Ambient.trace_inContext]
  have hguard : d + 1 + (Frame.guard begun).depth = d + 1 := rfl
  have hextent : d + 1 + Frame.extent.depth = d + 1 := rfl
  simp only [Prog.inFrame, Prog.attempt, Prog.bind, Prog.drive, Prog.trace, Frame.enter, hguard,
    hextent]
  rcases body.drive h through { w with ambient := some ctx } with ⟨x | rest, v⟩
  · have hpure : (pure x : Prog H (Exit (Except String α))).bind (conclude name) =
        conclude name x := rfl
    obtain ⟨hdrive, htrace⟩ := drive_conclude (h := h) name x through (d + 1) v
    simp only [hpure, Frame.leave, Frame.restore, hdrive, htrace]
    refine ⟨rfl, ?_⟩
    simp only [Frame.leaveTrace, closing, List.nil_append, List.append_nil, List.append_assoc]
  · refine ⟨rfl, ?_⟩
    simp only [List.append_nil]

/-- `outer` is `inner` behind a beginning, and then reports some events, in the spans that are
current at that time, and clears the context that is kept in its scope. -/
def ReportsBehind {β γ : Type} (front : List Happening) (es : List Event) (inner : Life H σ β)
    (outer : Life H σ γ) : Prop :=
  ∃ (states : List (World σ)) (v : World σ) (kept : Option Context),
    inner.states = states ++ [v] ∧
    outer.states = states ++ [{ v with facilities := v.facilities.emitAll es }] ∧
    outer.trace = front ++ inner.trace ++ closing es 1 { v with ambient := kept }

/-- What becomes of a run behind its beginning, given what becomes of its body: the same up to the
end of the body, whose exit is then reported and gives the value of the run. -/
def Attends (front : List Happening) (name : String) (inner : Life H σ (Except String α))
    (outer : Life H σ (Option α)) : Prop :=
  match inner.step with
  | .finished x =>
    outer.step = .finished (.value (outcome x)) ∧
      ReportsBehind front (reports name x) inner outer
  | .pending _ =>
    (∃ rest, outer.step = .pending rest) ∧ outer.states = inner.states ∧
      outer.trace = front ++ inner.trace

theorem Attends.cons
    {name : String} {inner : Life H σ (Except String α)} {outer : Life H σ (Option α)}
    (hattends : Attends [] name inner outer) (v : World σ) (hs : List Happening) :
    Attends [] name ⟨inner.step, v :: inner.states, hs ++ inner.trace⟩
      ⟨outer.step, v :: outer.states, hs ++ outer.trace⟩ := by
  rcases inner with ⟨x | rest, vs, trace⟩
  · obtain ⟨hstep, states, u, kept, hstates, hstates', htrace⟩ := hattends
    refine ⟨hstep, v :: states, u, kept, congrArg _ hstates, congrArg _ hstates', ?_⟩
    simp only [htrace, List.nil_append, List.append_assoc]
  · obtain ⟨hstep, hstates, htrace⟩ := hattends
    exact ⟨hstep, congrArg _ hstates, congrArg _ htrace⟩

theorem Attends.behind
    {name : String} {inner : Life H σ (Except String α)} {outer : Life H σ (Option α)}
    (hattends : Attends [] name inner outer) (front : List Happening) :
    Attends front name inner ⟨outer.step, outer.states, front ++ outer.trace⟩ := by
  rcases inner with ⟨x | rest, vs, trace⟩
  · obtain ⟨hstep, states, u, kept, hstates, hstates', htrace⟩ := hattends
    refine ⟨hstep, states, u, kept, hstates, hstates', ?_⟩
    simp only [htrace, List.nil_append, List.append_assoc]
  · obtain ⟨hstep, hstates, htrace⟩ := hattends
    exact ⟨hstep, hstates, congrArg _ htrace⟩

/-- A life in the care of a run is the same up to the end of the body. -/
theorem attends_life
    (begun : Bool) (name : String) (ctx : Context) (body : Prog H (Except String α))
    (ws : List (World σ)) :
    Attends [] name ((Ambient.inContext ctx body).life h ws)
      ((attended begun name ctx body).life h ws) := by
  induction ws generalizing begun ctx body with
  | nil => exact ⟨⟨_, rfl⟩, rfl, rfl⟩
  | cons w ws ih =>
    have hinner := Ambient.drive_inContext (h := h) ctx body false w
    have htrace := Ambient.trace_inContext (h := h) ctx body false 0 w
    obtain ⟨houter, htrace'⟩ := drive_attended (h := h) begun name ctx body false 0 w
    rcases hb : body.drive h false { w with ambient := some ctx } with ⟨x | rest, v⟩
    · rw [hb] at hinner houter htrace'
      rw [Prog.life_of_finished ws hinner, Prog.life_of_finished ws houter, htrace, htrace']
      exact ⟨rfl, [], _, v.ambient, rfl, rfl, rfl⟩
    · rw [hb] at hinner houter htrace'
      rw [List.append_nil] at htrace'
      rw [Prog.life_of_pending ws hinner, Prog.life_of_pending ws houter, htrace, htrace']
      exact (ih true (v.ambient.getD ctx) rest).cons _ _

/-! ## The beginning of a run -/

/-- What a run performs in front of its body. -/
def beginning (c : Config) (inherited : Context) (depth : Nat) (w : World σ) : List Happening :=
  let inside : World σ := { w with ambient := some inherited }
  [w.happening depth .snapshot, inside.happening (depth + 1) (.resolve c .job),
    (inside.perform (.resolve c .job)).2.happening (depth + 1) .spans]

/-- What a run performs that is skipped and reported by an event. -/
def skipping (c : Config) (skipped : Event) (inherited : Context) (depth : Nat) (w : World σ) :
    List Happening :=
  let inside : World σ := { w with ambient := some inherited }
  [w.happening depth .snapshot, inside.happening (depth + 1) (.resolve c .job)] ++
    closing [skipped] (depth + 1) inside

def resolving (c : Config) (name : String) (body : Prog H (Except String α)) :
    Prog H (Option α) :=
  .op (.resolve c .job) fun
    | .error e => .op (.emit (skippedEvent name e)) fun _ => .done (.value none)
    | .ok id => (Ambient.inSpan (span name id) body).attempt.bind (conclude name)

/-- A run reads the context in scope and resolves an id in a copy of it. -/
theorem run_eq
    (c : Config) (name : String) (body : Prog H (Except String α)) :
    run c name body =
      .op .snapshot fun inherited =>
        Ambient.inContext (inherited.getD .empty) (Ambient.guarded (resolving c name body)) := by
  rfl

theorem poll_run_of_populated
    (c : Config) (name : String) (body : Prog H (Except String α)) {w : World σ} {old : TraceId}
    (hold : (w.ambient.getD .empty).get? = some old) :
    let skipped := skippedEvent name (.state (.populated old))
    (run c name body).poll h w =
        (.finished (.value none), { w with facilities := w.facilities.emit skipped }) ∧
      (run c name body).trace h false 0 w = skipping c skipped (w.ambient.getD .empty) 0 w := by
  have hres := c.resolve_job_of_populated hold w.facilities
  rw [run_eq]
  constructor
  · simp only [Prog.poll, Prog.drive, World.perform, Ambient.drive_inContext, Ambient.guarded,
      Prog.inFrame, Frame.enter, resolving, hres]
    rfl
  · simp only [Prog.trace, World.perform, Ambient.trace_inContext, Ambient.guarded,
      Prog.inFrame, Frame.enter, Prog.drive, resolving, hres]
    rfl

theorem drive_attempt_inSpan_bind
    {β : Type} (s : Span) (body : Prog H α) (k : Exit α → Prog H β) (through : Bool) (d : Nat)
    (w : World σ) :
    let opened := (body.inFrame (.span (w.facilities.spans ++ [s]))).attempt.bind k
    ((Ambient.inSpan s body).attempt.bind k).drive h through w = opened.drive h through w ∧
      ((Ambient.inSpan s body).attempt.bind k).trace h through d w =
        w.happening d .spans :: opened.trace h through d w := by
  intro opened
  have hspan : Ambient.inSpan s body =
      .op .spans fun path => body.inFrame (.span (path ++ [s])) := rfl
  have hextent : d + Frame.extent.depth = d := rfl
  rw [hspan]
  simp only [opened, Prog.attempt, Prog.bind, Prog.drive, Prog.trace, Frame.enter, World.perform,
    hextent, List.cons_append]
  exact ⟨trivial, trivial⟩

/-- Where no id is found, the resolution succeeds and the body follows in its span. -/
theorem drive_resolving
    (c : Config) (name : String) (body : Prog H (Except String α)) {ctx : Context}
    (hctx : ctx.get? = none) (through : Bool) (d : Nat) (w : World σ) :
    let inside : World σ := { w with ambient := some ctx }
    ∃ id g, id.text = c.job.segment w.facilities.source ∧
      g.source = w.facilities.source.skip c.job.randomLength ∧ g.spans = w.facilities.spans ∧
      g.records = w.facilities.records ++ [⟨resolvedEvent .job id, w.facilities.spans⟩] ∧
      let behind : World σ :=
        { w with ambient := some ⟨some id, ctx.auxiliary⟩, facilities := g }
      let rest : Prog H (Option α) :=
        (body.inFrame (.span (w.facilities.spans ++ [span name id]))).attempt.bind (conclude name)
      inside.perform (.resolve c .job) = (.ok id, behind) ∧
        (resolving c name body).drive h through inside = rest.drive h through behind ∧
        (resolving c name body).trace h through d inside =
          [inside.happening d (.resolve c .job), behind.happening d .spans] ++
            rest.trace h through d behind := by
  intro inside
  obtain ⟨id, g, hres, hid, hsource, hspans, hrecords⟩ := c.resolve_job hctx w.facilities
  refine ⟨id, g, hid, hsource, hspans, hrecords, ?_⟩
  intro behind rest
  have hperform : inside.perform (.resolve c .job) = (.ok id, behind) := by
    simp only [inside, behind, World.perform, hres]
  obtain ⟨hdrive, htrace⟩ :=
    drive_attempt_inSpan_bind (h := h) (span name id) body (conclude name) through d behind
  simp only [behind, hspans] at hdrive htrace
  refine ⟨hperform, ?_, ?_⟩
  · simp only [resolving, Prog.drive, hperform]
    exact hdrive
  · simp only [resolving, Prog.trace, hperform]
    exact congrArg _ htrace

theorem drive_run_of_root
    (hh : h.KeepsScope) (c : Config) (name : String) (body : Prog H (Except String α))
    {w : World σ} (hroot : (w.ambient.getD .empty).get? = none) (through : Bool) (d : Nat) :
    let inherited := w.ambient.getD .empty
    ∃ id g, id.text = c.job.segment w.facilities.source ∧
      g.source = w.facilities.source.skip c.job.randomLength ∧ g.spans = w.facilities.spans ∧
      g.records = w.facilities.records ++ [⟨resolvedEvent .job id, w.facilities.spans⟩] ∧
      let running := attended false name ⟨some id, inherited.auxiliary⟩
        (body.inFrame (.span (w.facilities.spans ++ [span name id])))
      (run c name body).drive h through w =
          running.drive h through { w with facilities := g } ∧
        (run c name body).trace h through d w =
          beginning c inherited d w ++ running.trace h through d { w with facilities := g } := by
  intro inherited
  obtain ⟨id, g, hid, hsource, hspans, hrecords, hperform, hdrive, htrace⟩ :=
    drive_resolving (h := h) c name body hroot through (d + 1) w
  refine ⟨id, g, hid, hsource, hspans, hrecords, ?_⟩
  intro running
  have hguarded := Ambient.trace_guarded_congr _ (d + 1) hdrive htrace
  have hscope :
      (Ambient.inContext inherited (Ambient.guarded (resolving c name body))).drive h through w =
        running.drive h through { w with facilities := g } :=
    Ambient.drive_inContext_congr hh rfl (Ambient.drive_guarded_congr hdrive)
  have hscopeTrace :
      (Ambient.inContext inherited (Ambient.guarded (resolving c name body))).trace h through d w =
        (beginning c inherited d w).tail ++
          running.trace h through d { w with facilities := g } := by
    rw [Ambient.trace_inContext, hguarded]
    simp only [running, attended, Ambient.trace_inContext, beginning, List.tail_cons, inherited,
      hperform]
    rfl
  rw [run_eq]
  exact ⟨hscope, congrArg _ hscopeTrace⟩

end JobRun
end TraceLineage
