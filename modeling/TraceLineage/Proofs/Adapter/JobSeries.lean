import TraceLineage.Proofs.Adapter.JobRun
import TraceLineage.Proofs.Adapter.Restoration
import TraceLineage.Proofs.Execution.Replay

/-!
# Series of jobs

A scheduler runs jobs one after the other, in whatever context it is itself.  If that context shows
an id, every run is skipped and reported.  Otherwise every run is a root: its body runs once, in a
scope with the auxiliary fields of the scheduler and with a new id that is a bare segment, and a
failure or a panic of the body is reported and goes no further.  In either case the context of the
scheduler stays what it was, so that no run can make a later one be skipped.
-/

namespace TraceLineage
namespace JobRun

variable {H : Type → Type} {σ : Type} {h : Handler H σ}

/-- A call of the runner: the name of the job, whether it runs on the spot, and the body. -/
structure Call (H : Type → Type) : Type 1 where
  α : Type
  name : String
  onTheSpot : Bool
  body : Prog H (Except String α)

namespace Call

def program (c : Config) (k : Call H) : Prog H (Option k.α) :=
  if k.onTheSpot = true then runSync c k.name k.body else run c k.name k.body

/-- The body of a call, on the spot if the call is. -/
def work (k : Call H) : Prog H (Except String k.α) :=
  if k.onTheSpot = true then k.body.inPlace else k.body

theorem program_eq
    (c : Config) (k : Call H) :
    k.program c = run c k.name k.work := by
  by_cases hk : k.onTheSpot = true
  · rw [program, work, if_pos hk, if_pos hk, runSync]
  · rw [program, work, if_neg hk, if_neg hk]

theorem attends_of_root
    (hh : h.KeepsScope) (c : Config) (k : Call H) {w : World σ}
    (hroot : (w.ambient.getD .empty).get? = none) (ws : List (World σ)) :
    let inherited := w.ambient.getD .empty
    ∃ id g, id.text = c.job.segment w.facilities.source ∧
      g.source = w.facilities.source.skip c.job.randomLength ∧ g.spans = w.facilities.spans ∧
      g.records = w.facilities.records ++ [⟨resolvedEvent .job id, w.facilities.spans⟩] ∧
      let running := Ambient.inContext ⟨some id, inherited.auxiliary⟩ <|
        k.work.inFrame (.span (w.facilities.spans ++ [span k.name id]))
      Attends (beginning c inherited 0 w) k.name
        (running.life h ({ w with facilities := g } :: ws)) ((k.program c).life h (w :: ws)) := by
  intro inherited
  obtain ⟨id, g, hid, hsource, hspans, hrecords, hdrive, htrace⟩ :=
    drive_run_of_root hh c k.name k.work hroot false 0
  rw [← k.program_eq] at hdrive htrace
  refine ⟨id, g, hid, hsource, hspans, hrecords, ?_⟩
  rw [Prog.life_congr ws _ hdrive htrace]
  exact (attends_life false k.name _ _ _).behind _

end Call

/-- A call with the states in which it is polled. -/
structure Turn (H : Type → Type) (σ : Type) : Type 1 where
  call : Call H
  polls : List (World σ)

/-- The states in front of the polls of a call and behind them, up to its end. -/
def Turn.visits (h : Handler H σ) (c : Config) (t : Turn H σ) : List (World σ × World σ) :=
  t.polls.zip ((t.call.program c).life h t.polls).states

/-- The context of the scheduler is left alone between polls: each poll finds what the one before
has left, and the first one finds `s`. -/
def Undisturbed (s : Option Context) : List (World σ × World σ) → Prop
  | [] => True
  | x :: xs => x.1.ambient = s ∧ Undisturbed x.2.ambient xs

theorem Undisturbed.ambient_eq
    {s : Option Context} {xs : List (World σ × World σ)} (hxs : Undisturbed s xs)
    (hleaves : ∀ x ∈ xs, x.2.ambient = x.1.ambient) :
    ∀ x ∈ xs, x.1.ambient = s ∧ x.2.ambient = s := by
  induction xs generalizing s with
  | nil => exact nofun
  | cons x xs ih =>
    obtain ⟨hx, hrest⟩ := hxs
    have hbehind : x.2.ambient = s := (hleaves x List.mem_cons_self).trans hx
    rw [hbehind] at hrest
    intro y hy
    rcases List.mem_cons.1 hy with rfl | hy
    · exact ⟨hx, hbehind⟩
    · exact ih hrest (fun z hz => hleaves z (List.mem_cons_of_mem _ hz)) y hy

theorem Turn.exists_visit
    (h : Handler H σ) (c : Config) {t : Turn H σ} {w : World σ} {ws : List (World σ)}
    (hpolls : t.polls = w :: ws) :
    ∃ v, (w, v) ∈ t.visits h c := by
  rw [visits, hpolls]
  rcases hp : (t.call.program c).poll h w with ⟨x | rest, v⟩
  · rw [Prog.life_of_finished ws hp]
    exact ⟨v, List.mem_cons_self⟩
  · rw [Prog.life_of_pending ws hp]
    exact ⟨v, List.mem_cons_self⟩

/-- Behind a poll of a call the context in scope is the one in front of it. -/
theorem Turn.ambient_visits
    (h : Handler H σ) (c : Config) (t : Turn H σ) :
    ∀ x ∈ t.visits h c, x.2.ambient = x.1.ambient := by
  have hcontained : (t.call.program c).Contained := by
    rw [t.call.program_eq]
    exact contained_run c t.call.name t.call.work
  obtain ⟨hstates, _⟩ := hcontained.life h t.polls
  intro x hx
  obtain ⟨i, hi, rfl⟩ := List.mem_iff_getElem.1 hx
  rw [visits, List.length_zip] at hi
  have hleaves := hstates.getElem (i := i) (by rw [List.length_map]; omega)
  simp only [List.getElem_map] at hleaves
  simp only [visits, List.getElem_zip]
  exact hleaves

/-- Runs of jobs are contained, and each of them is a root.  In a series of runs, each on the spot
or polled in any states, the context of the scheduler is the same in front of every poll and behind
it.  If it shows an id, a run ends at its first poll without a value, and all that it does is to
write one record that reports this.  Otherwise it resolves an id that is a bare segment of the
scheme for jobs and goes on as its body does in a scope with this id and the auxiliary fields of
the scheduler.  It has the value of a body that succeeds; a body that fails or panics is reported by
one record, and the run ends without a value. -/
theorem series_of_roots
    (hh : h.KeepsScope) (c : Config) (s : Option Context) (turns : List (Turn H σ))
    (hturns : Undisturbed s (turns.flatMap (Turn.visits h c))) :
    (∀ x ∈ turns.flatMap (Turn.visits h c), x.1.ambient = s ∧ x.2.ambient = s) ∧
    ∀ t ∈ turns, ∀ w ws, t.polls = w :: ws →
      let name := t.call.name
      let inherited := s.getD .empty
      let whole := (t.call.program c).life h (w :: ws)
      (∀ old, inherited.get? = some old →
        let skipped : Event := ⟨.error, "Failed to resolve job trace id, run skipped",
          [("job", .text name), ("error", .text ("invalid trace state: " ++
            ("context already has trace id populated, this is illegal (existing: " ++
              old.text ++ ")")))]⟩
        whole.step = .finished (.value none) ∧
        whole.states = [{ w with facilities := w.facilities.emit skipped }] ∧
        whole.trace = skipping c skipped inherited 0 w) ∧
      (inherited.get? = none → ∃ id g,
        let resolved : Event := ⟨.debug, "Trace id resolved",
          [("invoker", .text "job"), ("trace_id", .text id.text)]⟩
        let failed (error : String) : Event :=
          ⟨.error, "Job failed", [("job", .text name), ("error", .text error)]⟩
        let panicked (panic : String) : Event :=
          ⟨.error, "Job panicked", [("job", .text name), ("panic", .text panic)]⟩
        id.text = c.job.segment w.facilities.source ∧ id.text.utf8ByteSize = c.job.length ∧
        g.source = w.facilities.source.skip c.job.randomLength ∧
        g.spans = w.facilities.spans ∧
        g.records = w.facilities.records ++ [⟨resolved, w.facilities.spans⟩] ∧
        let front := beginning c inherited 0 w
        let running := (Ambient.inContext ⟨some id, inherited.auxiliary⟩ <|
          t.call.work.inFrame (.span (w.facilities.spans ++ [span name id]))).life h
            ({ w with facilities := g } :: ws)
        match running.step with
        | .finished (.value (.ok a)) =>
          whole.step = .finished (.value (some a)) ∧ ReportsBehind front [] running whole
        | .finished (.value (.error e)) =>
          whole.step = .finished (.value none) ∧ ReportsBehind front [failed e] running whole
        | .finished (.panic (.text text)) =>
          whole.step = .finished (.value none) ∧ ReportsBehind front [panicked text] running whole
        | .finished (.panic .other) =>
          whole.step = .finished (.value none) ∧
            ReportsBehind front [panicked "unknown panic"] running whole
        | .pending _ =>
          (∃ rest, whole.step = .pending rest) ∧ whole.states = running.states ∧
            whole.trace = front ++ running.trace) := by
  have hvisits : ∀ x ∈ turns.flatMap (Turn.visits h c), x.1.ambient = s ∧ x.2.ambient = s := by
    refine hturns.ambient_eq ?_
    intro x hx
    obtain ⟨t, _, hx⟩ := List.mem_flatMap.1 hx
    exact t.ambient_visits h c x hx
  refine ⟨hvisits, ?_⟩
  intro t ht w ws hpolls name inherited whole
  have hfirst : w.ambient = s := by
    obtain ⟨v, hv⟩ := Turn.exists_visit h c hpolls
    exact (hvisits _ (List.mem_flatMap.2 ⟨t, ht, hv⟩)).1
  subst hfirst
  constructor
  · intro old hold skipped
    obtain ⟨hpoll, htrace⟩ := poll_run_of_populated (h := h) c name t.call.work hold
    rw [← t.call.program_eq] at hpoll htrace
    simp only [whole, Prog.life_of_finished ws hpoll]
    exact ⟨trivial, rfl, htrace⟩
  · intro hroot
    obtain ⟨id, g, hid, hsource, hspans, hrecords, hattends⟩ :=
      t.call.attends_of_root hh c hroot ws
    have hlength : id.text.utf8ByteSize = c.job.length := by
      rw [hid, c.job.utf8ByteSize_segment]
    refine ⟨id, g, ?_⟩
    intro resolved failed panicked
    refine ⟨hid, hlength, hsource, hspans, hrecords, ?_⟩
    intro front running
    have hattends : Attends front name running whole := hattends
    rw [Attends] at hattends
    -- the exit of the body decides about the value of the run and about what it reports
    rcases hexit : running.step with ((e | a) | (text | _)) | rest
    all_goals
      rw [hexit] at hattends
      exact hattends

/-- A job that fails on the spot, and then one that is suspended and panics with something that is
no message: both are roots, neither has a value, and the second one is not skipped. -/
theorem series_of_roots_of_failures :
    let h := LocalHost.nobody.handler
    let w : World Unit := ⟨none, .fresh ⟨fun n => ⟨n % 63, Nat.mod_lt n (by decide)⟩, 0⟩, ()⟩
    let failing : Call fun _ => Empty := ⟨Unit, "sweep", true, .done (.value (.error "boom"))⟩
    let panicking : Call fun _ => Empty := ⟨Unit, "index", false, .suspend (.done (.panic .other))⟩
    let turns : List (Turn _ Unit) := [⟨failing, [w]⟩, ⟨panicking, [w, w]⟩]
    let whole := (panicking.program .standard).life h [w, w]
    let panicked : Event :=
      ⟨.error, "Job panicked", [("job", .text "index"), ("panic", .text "unknown panic")]⟩
    h.KeepsScope ∧ Undisturbed none (turns.flatMap (Turn.visits h .standard)) ∧
      ∃ id g, id.text.utf8ByteSize = 20 ∧
        whole.step = .finished (.value none) ∧
        ReportsBehind (beginning .standard .empty 0 w) [panicked]
          ((Ambient.inContext ⟨some id, .empty⟩ <|
            panicking.work.inFrame (.span [span "index" id])).life h
              [{ w with facilities := g }, w]) whole := by
  intro h w failing panicking turns whole panicked
  have hh : h.KeepsScope := LocalHost.nobody.sparesContext.keepsScope
  have hturns : Undisturbed none (turns.flatMap (Turn.visits h .standard)) :=
    ⟨rfl, rfl, rfl, trivial⟩
  obtain ⟨_, hall⟩ := series_of_roots hh .standard none turns hturns
  have hsecond : (⟨panicking, [w, w]⟩ : Turn _ Unit) ∈ turns :=
    List.mem_cons_of_mem _ List.mem_cons_self
  obtain ⟨id, g, _, hlength, _, _, _, hrun⟩ := (hall _ hsecond w [w] rfl).2 rfl
  exact ⟨hh, hturns, id, g, hlength, hrun⟩

end JobRun
end TraceLineage
