import TraceLineage.Adapter.TaskExecutor
import TraceLineage.Proofs.Adapter.Handoff
import TraceLineage.Proofs.Adapter.Restoration
import TraceLineage.Proofs.Execution.Ending
import TraceLineage.Proofs.Execution.Lineage

/-!
# Stacked executors

Several decorators around one executor each take a snapshot and each resolve an id.  All the
snapshots are taken where the work is submitted, so that they are the same, and each layer brings
the captured context into scope anew, whatever the layer around it has made of it.  The work runs in
the layer of the outermost decorator, and so it has one segment more than its submitter, not one for
each layer.
-/

namespace TraceLineage

/-- A state as it is seen around scopes and spans that were entered in `w`. -/
def World.outside {σ : Type} (w v : World σ) : World σ :=
  { v with ambient := w.ambient }.withSpans w.facilities.spans

namespace Ambient

variable {H : Type → Type} {σ α : Type} {h : Handler H σ}

/-- A guarded part of a scope is cleared behind it, and the context around the scope is back. -/
theorem ending_inContext_guarded
    (hscope : h.KeepsScope) (hspans : h.KeepsSpans) (ctx : Context) (body : Prog H α) (d : Nat)
    (w : World σ) :
    let e := body.ending h (d + 1) { w with ambient := some ctx }
    (inContext ctx (guarded body)).ending h d w =
      ⟨e.exit, { e.state with ambient := w.ambient },
        e.trace ++ [e.state.happening (d + 1) .clear]⟩ := by
  intro e
  simp only [inContext, guarded, Prog.ending_inFrame hscope hspans]
  exact congrArg _ (List.append_nil _)

theorem ending_underSpans
    (hscope : h.KeepsScope) (hspans : h.KeepsSpans) (path : List Span) (body : Prog H α) (d : Nat)
    (w : World σ) :
    let e := body.ending h d (w.under path)
    (underSpans path body).ending h d w =
      ⟨e.exit, e.state.withSpans w.facilities.spans, e.trace⟩ := by
  intro e
  cases path with
  | nil =>
    -- there is nothing to enter, and the part leaves the current span as it is
    have hsame : e.state.facilities.spans = w.facilities.spans := by
      rw [Prog.state_ending]
      exact hspans.across.run body w
    have hstate : e.state.withSpans w.facilities.spans = e.state := by
      rw [World.withSpans, ← hsame]
    rw [hstate]
    rfl
  | cons s path =>
    rw [underSpans_of_ne_nil (List.cons_ne_nil s path), Prog.ending_inFrame hscope hspans]
    exact congrArg _ (List.append_nil _)

end Ambient

namespace Snapshot

variable {H : Type → Type} {σ : Type} {h : Handler H σ}

/-! ## One layer -/

theorem ending_started
    (hscope : h.KeepsScope) (hspans : h.KeepsSpans) {α : Type} (s : Snapshot) (id : TraceId)
    (work : Prog H α) (d : Nat) (v : World σ) :
    let e := work.ending h (d + 1) (v.within s.spans ⟨some id, s.context.auxiliary⟩)
    (s.started id work).ending h d v =
      ⟨e.exit, v.outside e.state, e.trace ++ [e.state.happening (d + 1) .clear]⟩ := by
  intro e
  rw [started, Ambient.ending_underSpans hscope hspans,
    Ambient.ending_inContext_guarded hscope hspans, World.ambient_under]
  rfl

/-- A task gives its work an id of its own, in a scope that is cleared behind it. -/
theorem ending_task
    (hscope : h.KeepsScope) (hspans : h.KeepsSpans) (c : Config) (s : Snapshot)
    (work : Prog H Unit) (d : Nat) (v : World σ) :
    ∃ id u, c.thread.Extends v.facilities.source s.context.get? id ∧
      u.ambient = some ⟨some id, s.context.auxiliary⟩ ∧
      u.facilities.source = v.facilities.source.skip c.thread.randomLength ∧
      u.host = v.host ∧
      let e := work.ending h (d + 1) u
      (s.task c work).ending h d v =
        ⟨e.exit, v.outside e.state,
          s.resolution c id (d + 1) v :: e.trace ++ [e.state.happening (d + 1) .clear]⟩ := by
  obtain ⟨id, g, hid, hsource, hback, hdrive, htrace⟩ :=
    s.drive_run c work.inPlace hscope true d v
  let begun : World σ := { v with facilities := g }
  let u : World σ := begun.within s.spans ⟨some id, s.context.auxiliary⟩
  have hrun : (s.runSync c work).ending h d v =
      ((s.started id work.inPlace.succeeding).ending h d begun).after
        [s.resolution c id (d + 1) v] :=
    Prog.ending_congr hdrive htrace
  have hwork : work.inPlace.succeeding.ending h (d + 1) u =
      (work.ending h (d + 1) u).andThen fun a x => ⟨some (.value (.ok a)), x, []⟩ := by
    rw [Prog.succeeding, Prog.ending_bind_of_keeps hscope hspans, Prog.ending_inPlace]
    rfl
  have houtside : ∀ x, begun.outside x = v.outside x := by
    intro x
    simp only [begun, World.outside, hback]
  refine ⟨id, u, hid, rfl, (World.source_under begun s.spans).trans hsource,
    World.host_under begun s.spans, ?_⟩
  rw [task_eq, Prog.ending_bind_of_keeps hscope hspans, hrun, ending_started hscope hspans, hwork,
    houtside]
  rcases work.ending h (d + 1) u with ⟨_ | ⟨⟨⟩⟩ | p, x, hs⟩
  · rfl
  · simp only [Ending.andThen, Ending.after, List.append_nil]
    exact congrArg _ (List.append_nil _)
  · rfl

/-! ## All layers -/

/-- How several layers are entered when a task is run in `v`: by the resolutions `xs`, and then the
state is `u`.  The layers are given from the outermost decorator on, whose layer is entered last.
Every layer has an id of its own, which extends the captured one and not the one that the layer in
front of it has brought into scope. -/
inductive Entered (s : Snapshot) (d : Nat) (v : World σ) :
    List Config → List Happening → World σ → Prop
  | nil : Entered s d v [] [] v
  | cons {c : Config} {cs : List Config} {xs : List Happening} {u x : World σ} {id : TraceId} :
    Entered s d v cs xs u →
      c.thread.Extends u.facilities.source s.context.get? id →
      x.ambient = some ⟨some id, s.context.auxiliary⟩ →
      x.facilities.source = u.facilities.source.skip c.thread.randomLength →
      x.host = u.host →
      Entered s d v (c :: cs) (xs ++ [s.resolution c id (d + cs.length + 1) u]) x

/-- Inside several layers a program does what it does in the state in which it finds itself there,
and behind it all of them are cleared. -/
theorem ending_stackedTask
    (hscope : h.KeepsScope) (hspans : h.KeepsSpans) (s : Snapshot) (cs : List Config)
    {p : Prog H Unit} (hp : cs = [] → p.Contained) (d : Nat) (v : World σ) :
    ∃ xs u ys, s.Entered d v cs xs u ∧
      ys.length = cs.length ∧ (∀ y ∈ ys, y.op.isClear = true) ∧
      let e := p.ending h (d + cs.length) u
      (stackedTask (cs.map (·, s)) p).ending h d v =
        ⟨e.exit, v.outside e.state, xs ++ e.trace ++ ys⟩ := by
  induction cs generalizing p with
  | nil =>
    refine ⟨[], v, [], .nil, rfl, ?_, ?_⟩
    · exact fun y hy => absurd hy List.not_mem_nil
    intro e
    have hstate : v.outside e.state = e.state := by
      have hambient : e.state.ambient = v.ambient := by
        rw [Prog.state_ending]
        exact (hp rfl).ambient_run h v
      have hsame : e.state.facilities.spans = v.facilities.spans := by
        rw [Prog.state_ending]
        exact hspans.across.run p v
      rw [World.outside, World.withSpans, ← hambient, ← hsame]
    rw [hstate, List.append_nil]
    rfl
  | cons c cs ih =>
    -- the layers that are entered first run the task of the layer that is entered last
    obtain ⟨xs, u, ys, hxs, hlength, hys, hstack⟩ := ih fun _ => s.contained_task c p
    obtain ⟨id, x, hid, hambient, hsource, hhost, htask⟩ :=
      ending_task hscope hspans c s p (d + cs.length) u
    let clearing := (p.ending h (d + cs.length + 1) x).state.happening (d + cs.length + 1) .clear
    refine ⟨_, x, clearing :: ys, hxs.cons hid hambient hsource hhost, congrArg _ hlength, ?_, ?_⟩
    · intro y hy
      rcases List.mem_cons.1 hy with rfl | hy
      · rfl
      · exact hys y hy
    · intro e
      have hstacked : stackedTask ((c :: cs).map (·, s)) p =
          stackedTask (cs.map (·, s)) (s.task c p) := rfl
      simp only [hstacked, hstack, htask, List.append_assoc, List.cons_append, List.nil_append]
      rfl

end Snapshot

namespace TaskExecutor

variable {H : Type → Type} {σ : Type} {h : Handler H σ}

/-! ## Submission -/

/-- Every decorator takes a snapshot where the work is submitted. -/
def capturing (cs : List Config) (d : Nat) (w : World σ) : List Happening :=
  cs.flatMap fun _ => [w.happening d .snapshot, w.happening d .spans]

/-- Submitting work to a decorated executor is submitting one task to the executor inside, with the
same snapshot for every layer. -/
theorem drive_decorated
    (cs : List Config) (e : TaskExecutor H) (work : Prog H Unit) (through : Bool) (d : Nat)
    (w : World σ) :
    let s : Snapshot := ⟨w.ambient.getD .empty, w.facilities.spans⟩
    let submitted := e.execute (Snapshot.stackedTask (cs.map (·, s)) work)
    ((decorated cs e).execute work).drive h through w = submitted.drive h through w ∧
      ((decorated cs e).execute work).trace h through d w =
        capturing cs d w ++ submitted.trace h through d w := by
  intro s
  induction cs generalizing work with
  | nil => exact ⟨rfl, rfl⟩
  | cons c cs ih =>
    obtain ⟨hdrive, htrace⟩ := ih (s.task c work)
    have htraced : ((decorated (c :: cs) e).execute work : Prog H Unit) =
        .op .snapshot fun current => .op .spans fun path =>
          (decorated cs e).execute (Snapshot.task c ⟨current.getD .empty, path⟩ work) := rfl
    rw [htraced]
    constructor
    · exact hdrive
    · exact congrArg ([w.happening d .snapshot, w.happening d .spans] ++ ·) htrace

/-! ## One segment for the whole stack -/

/-- Work that is submitted to a stack of decorators gets one segment, however many they are.  The
executor inside is given one task, and all that precedes this is that every decorator takes a
snapshot.  Wherever and whenever that task is run, it runs the work once, in a context with the
captured auxiliary fields and an id that extends the captured one by a segment of the outermost
scheme for threads; in front of this every layer resolves an id of its own in the captured context,
and behind it every layer clears its context.  The task ends as the work does and leaves the context
and the spans of the place where it is run alone. -/
theorem stack_adds_one_segment
    (hscope : h.KeepsScope) (hspans : h.KeepsSpans) (outer : Config) (inner : List Config)
    (e : TaskExecutor H) (work : Prog H Unit) (w : World σ) :
    let layers := outer :: inner
    let s : Snapshot := ⟨w.ambient.getD .empty, w.facilities.spans⟩
    let task := Snapshot.stackedTask (layers.map (·, s)) work
    (∀ through d,
      ((decorated layers e).execute work).drive h through w = (e.execute task).drive h through w ∧
      ((decorated layers e).execute work).trace h through d w =
        capturing layers d w ++ (e.execute task).trace h through d w) ∧
    ∀ (v : World σ) (d : Nat), ∃ id xs ys, ∃ u x : World σ,
      s.Entered d v inner xs u ∧
      outer.thread.Extends u.facilities.source s.context.get? id ∧
      x.ambient = some ⟨some id, s.context.auxiliary⟩ ∧ x.host = u.host ∧
      ys.length = layers.length ∧ (∀ y ∈ ys, y.op.isClear = true) ∧
      let worked := work.ending h (d + layers.length) x
      task.ending h d v =
        ⟨worked.exit, v.outside worked.state,
          xs ++ s.resolution outer id (d + layers.length) u :: worked.trace ++ ys⟩ := by
  intro layers s task
  refine ⟨fun through d => drive_decorated layers e work through d w, ?_⟩
  intro v d
  obtain ⟨_, x, ys, hentered, hlength, hys, htask⟩ :=
    Snapshot.ending_stackedTask (p := work) hscope hspans s (outer :: inner)
      (List.cons_ne_nil outer inner).elim d v
  cases hentered with
  | @cons _ _ xs u _ id hxs hid hambient hsource hhost =>
    refine ⟨id, xs, ys, u, x, hxs, hid, hambient, hhost, hlength, hys, ?_⟩
    intro worked
    simp only [List.append_assoc, List.singleton_append] at htask ⊢
    exact htask

/-- Three decorators, the outermost with a delimiter of its own, and a worker on which the context
of another request is left: the work finds one segment behind the id of its submitter. -/
theorem stack_adds_one_segment_on_stale_worker :
    let h := LocalHost.nobody.handler
    let slashed : Config := Config.standard.setScheme
      { Scheme.standard .thread with delimiter := some '/', delimiter_visible := rfl }
    let f : Facilities := .fresh ⟨fun n => ⟨n % 63, Nat.mod_lt n (by decide)⟩, 0⟩
    let w : World Unit := ⟨some (.withId ⟨"req"⟩), f, ()⟩
    let v : World Unit := ⟨some (.withId ⟨"stale"⟩), f, ()⟩
    let work : Prog (fun _ => Empty) Unit := .op .snapshot fun _ => .done (.value ())
    let s : Snapshot := ⟨.withId ⟨"req"⟩, []⟩
    let task := Snapshot.stackedTask ([slashed, .standard, .standard].map (·, s)) work
    h.KeepsScope ∧ h.KeepsSpans ∧
      ((decorated [slashed, .standard, .standard] .inline).execute work).drive h true w =
        task.drive h true w ∧
      ∃ id source, id.text = "req/" ++ slashed.thread.segment source ∧
        (task.ending h 0 v).exit = some (.value ()) ∧
        ∃ y ∈ (task.ending h 0 v).trace, y.depth = 3 ∧ y.before = some (.withId id) ∧
          y.after = some (.withId id) := by
  intro h slashed f w v work s task
  have hscope : h.KeepsScope := LocalHost.nobody.sparesContext.keepsScope
  have hspans : h.KeepsSpans := fun _ _ _ => rfl
  obtain ⟨hsubmit, htask⟩ := stack_adds_one_segment hscope hspans slashed
    [.standard, .standard] .inline work w
  obtain ⟨id, xs, ys, u, x, _, hid, hambient, _, _, _, htask⟩ := htask v 0
  have hshown : (Context.withId ⟨"req"⟩).get? = some ⟨"req"⟩ := by decide +kernel
  obtain ⟨delimiter, hdelimiter, htext⟩ := hid.child _ hshown
  obtain rfl : '/' = delimiter := Option.some.inj hdelimiter
  refine ⟨hscope, hspans, (hsubmit true 0).1, id, u.facilities.source, htext, ?_, ?_⟩
  · exact congrArg Ending.exit htask
  · refine ⟨x.happening 3 .snapshot, ?_, rfl, hambient, hambient⟩
    have htrace : (task.ending h 0 v).trace = xs ++ _ :: [x.happening 3 .snapshot] ++ ys :=
      congrArg Ending.trace htask
    rw [htrace]
    exact List.mem_append_left _
      (List.mem_append_right _ (List.mem_cons_of_mem _ List.mem_cons_self))

end TaskExecutor
end TraceLineage
