import Mathlib.Logic.Function.Basic
import TraceLineage.Proofs.Adapter.Handoff
import TraceLineage.Proofs.Adapter.Restoration
import TraceLineage.Proofs.Execution.Replay

/-!
# Provenance of hand-offs

Work is submitted in some places and executed in others, possibly much later.  In the meantime the
contexts in scope keep changing everywhere, more work is submitted from the same snapshots, and the
work submitted so far is executed in any order.  A place is a thread or another unit of execution:
it has a slot for the context in scope and may open and close scopes.

Whatever the history, a job starts from the context that was in scope where and when its snapshot
was taken, in a scope of its own that no place and no other job ever sees.
-/

namespace TraceLineage

/-- What is in scope at a place, and what was in scope around each open scope, the innermost first.
-/
structure Place where
  ambient : Option Context
  outer : List (Option Context)
  spans : List Span

/-- A move in a history of submissions and executions. -/
inductive Move (H : Type → Type) (ι σ : Type) : Type 1 where
  | operate (i : ι) {γ : Type} (o : Op γ)
  | enter (i : ι) (ctx : Context)
  | exit (i : ι)
  | span (i : ι) (path : List Span)
  | outside (act : σ → σ)
  | capture (i : ι)
  | submit (n : Nat) (c : Config) {α β : Type} (j : Job H α β)
  | poll (i : ι) (m : Nat)

/-- The places, the snapshots in the order in which they were taken, what remains of the jobs in the
order in which they were made, and what all of them share. -/
structure Pool (H : Type → Type) (ι σ : Type) : Type 1 where
  places : ι → Place
  snapshots : List Snapshot
  jobs : List ((β : Type) × Step H β)
  facilities : Facilities
  host : σ

/-- A job never changes the context in scope where it is polled. -/
theorem Job.contained_program
    {H : Type → Type} {α β : Type} (c : Config) (s : Snapshot) (j : Job H α β) :
    (j.program c s).Contained := by
  cases j with
  | wrapped work => exact s.contained_task c work
  | run work => exact s.contained_run c work
  | runSync work => exact s.contained_run c work.inPlace

namespace Pool

variable {H : Type → Type} {ι σ : Type}

/-- Places without snapshots and without jobs. -/
def start (places : ι → Place) (f : Facilities) (host : σ) : Pool H ι σ where
  places := places
  snapshots := []
  jobs := []
  facilities := f
  host := host

def world (p : Pool H ι σ) (i : ι) : World σ where
  ambient := (p.places i).ambient
  facilities := { p.facilities with spans := (p.places i).spans }
  host := p.host

/-- The state in which a move polls a job, if it does. -/
def visit (p : Pool H ι σ) (m : Nat) : Move H ι σ → Option (World σ)
  | .poll i n => if n = m then some (p.world i) else none
  | _ => none

/-- A move that polls a job polls it in the state at its place. -/
theorem eq_poll_of_visit
    {p : Pool H ι σ} {m : Nat} {a : Move H ι σ} {w : World σ} (ha : p.visit m a = some w) :
    ∃ i, a = .poll i m ∧ w = p.world i := by
  cases a with
  | poll i n =>
    simp only [visit, Option.ite_none_right_eq_some, Option.some.injEq] at ha
    obtain ⟨rfl, rfl⟩ := ha
    exact ⟨i, rfl, rfl⟩
  | _ => exact nomatch ha

variable [DecidableEq ι]

/-- The pool after something has happened at a place that led to the given state there. -/
def settle (p : Pool H ι σ) (i : ι) (w : World σ) : Pool H ι σ :=
  { p with
    places := Function.update p.places i { p.places i with ambient := w.ambient }
    facilities := w.facilities
    host := w.host }

/-- The pool after a move.  A closing without an open scope, a submission without a snapshot and a
poll without a job that is suspended are no moves. -/
def step (h : Handler H σ) (p : Pool H ι σ) : Move H ι σ → Pool H ι σ
  | .operate i o => p.settle i ((p.world i).perform o).2
  | .enter i ctx =>
    let l := p.places i
    { p with places := Function.update p.places i ⟨some ctx, l.ambient :: l.outer, l.spans⟩ }
  | .exit i =>
    match p.places i with
    | ⟨_, [], _⟩ => p
    | ⟨_, ctx :: outer, spans⟩ =>
      { p with places := Function.update p.places i ⟨ctx, outer, spans⟩ }
  | .span i path =>
    { p with places := Function.update p.places i { p.places i with spans := path } }
  | .outside act => { p with host := act p.host }
  | .capture i =>
    match (Snapshot.capture : Prog H Snapshot).run h (p.world i) with
    | (some (.value s), w) => { p.settle i w with snapshots := p.snapshots ++ [s] }
    | (_, w) => p.settle i w
  | .submit n c j =>
    match p.snapshots[n]? with
    | some s => { p with jobs := p.jobs ++ [⟨_, .pending (j.program c s)⟩] }
    | none => p
  | .poll i m =>
    match p.jobs[m]? with
    | some ⟨_, .pending q⟩ =>
      let (s, w) := q.poll h (p.world i)
      { p.settle i w with jobs := p.jobs.set m ⟨_, s⟩ }
    | _ => p

def run (h : Handler H σ) (p : Pool H ι σ) : List (Move H ι σ) → Pool H ι σ
  | [] => p
  | a :: as => (p.step h a).run h as

def visits (h : Handler H σ) (m : Nat) (p : Pool H ι σ) : List (Move H ι σ) → List (World σ)
  | [] => []
  | a :: as => (p.visit m a).toList ++ (p.step h a).visits h m as

/-- What a job performs when it is polled in a state. -/
def traceIn (h : Handler H σ) (w : World σ) : Option ((β : Type) × Step H β) → List Happening
  | some ⟨_, .pending q⟩ => q.trace h false 0 w
  | _ => []

def traceOf (h : Handler H σ) (m : Nat) (p : Pool H ι σ) : List (Move H ι σ) → List Happening
  | [] => []
  | a :: as => (p.visit m a).toList.flatMap (traceIn h · p.jobs[m]?) ++ (p.step h a).traceOf h m as

/-! ## Snapshots and jobs over a history -/

variable {h : Handler H σ}

/-- Taking a snapshot copies the context in scope and leaves the state alone. -/
theorem run_capture
    (w : World σ) :
    (Snapshot.capture : Prog H Snapshot).run h w =
      (some (.value ⟨w.ambient.getD .empty, w.facilities.spans⟩), w) := by
  rfl

theorem snapshots_step_capture
    (p : Pool H ι σ) (i : ι) :
    (p.step h (.capture i)).snapshots =
      p.snapshots ++ [⟨(p.places i).ambient.getD .empty, (p.places i).spans⟩] := by
  simp only [step, run_capture]
  rfl

theorem snapshots_step
    (p : Pool H ι σ) (a : Move H ι σ) :
    p.snapshots <+: (p.step h a).snapshots := by
  cases a with
  | capture i =>
    rw [snapshots_step_capture]
    exact List.prefix_append _ _
  | exit i =>
    simp only [step]
    split <;> exact List.prefix_refl _
  | submit n c j =>
    simp only [step]
    split <;> exact List.prefix_refl _
  | poll i m =>
    simp only [step]
    split <;> exact List.prefix_refl _
  | _ => exact List.prefix_refl _

theorem snapshots_run
    (p : Pool H ι σ) (as : List (Move H ι σ)) :
    p.snapshots <+: (p.run h as).snapshots := by
  induction as generalizing p with
  | nil => exact List.prefix_refl _
  | cons a as ih => exact (p.snapshots_step a).trans (ih (p.step h a))

theorem jobs_step_of_not_visited
    {p : Pool H ι σ} {m : Nat} (hm : m < p.jobs.length) {a : Move H ι σ}
    (ha : p.visit m a = none) :
    (p.step h a).jobs[m]? = p.jobs[m]? := by
  cases a with
  | capture i =>
    simp only [step, run_capture]
    rfl
  | exit i =>
    simp only [step]
    split <;> rfl
  | submit n c j =>
    simp only [step]
    split
    · exact List.getElem?_append_left hm
    · rfl
  | poll i n =>
    have hn : n ≠ m := by
      intro hn
      simp only [visit, hn, if_true] at ha
      exact nomatch ha
    simp only [step]
    split
    · exact List.getElem?_set_ne hn
    · rfl
  | _ => rfl

theorem jobs_step_of_finished
    {p : Pool H ι σ} {m : Nat} {β : Type} {x : Exit β} (hx : p.jobs[m]? = some ⟨β, .finished x⟩)
    (a : Move H ι σ) :
    (p.step h a).jobs[m]? = some ⟨β, .finished x⟩ := by
  have hm : m < p.jobs.length := (List.getElem?_eq_some_iff.1 hx).1
  cases ha : p.visit m a with
  | none => rw [jobs_step_of_not_visited hm ha, hx]
  | some w =>
    obtain ⟨i, rfl, _⟩ := eq_poll_of_visit ha
    simp only [step, hx]

theorem jobs_step_poll
    {p : Pool H ι σ} {m : Nat} {β : Type} {q : Prog H β} (hq : p.jobs[m]? = some ⟨β, .pending q⟩)
    (i : ι) :
    (p.step h (.poll i m)).jobs[m]? = some ⟨β, (q.poll h (p.world i)).1⟩ := by
  have hm : m < p.jobs.length := (List.getElem?_eq_some_iff.1 hq).1
  simp only [step, hq]
  exact List.getElem?_set_self hm

theorem run_of_finished
    {p : Pool H ι σ} {m : Nat} {β : Type} {x : Exit β} (hx : p.jobs[m]? = some ⟨β, .finished x⟩)
    (as : List (Move H ι σ)) :
    (p.run h as).jobs[m]? = some ⟨β, .finished x⟩ ∧ p.traceOf h m as = [] := by
  induction as generalizing p with
  | nil => exact ⟨hx, rfl⟩
  | cons a as ih =>
    obtain ⟨hend, hnothing⟩ := ih (jobs_step_of_finished hx a)
    refine ⟨hend, ?_⟩
    rw [traceOf, hx, hnothing]
    cases p.visit m a <;> rfl

/-- Over a history a job has the life that it has in the states in which it is polled. -/
theorem run_of_pending
    {p : Pool H ι σ} {m : Nat} {β : Type} {q : Prog H β} (hq : p.jobs[m]? = some ⟨β, .pending q⟩)
    (as : List (Move H ι σ)) :
    (p.run h as).jobs[m]? = some ⟨β, (q.life h (p.visits h m as)).step⟩ ∧
      p.traceOf h m as = (q.life h (p.visits h m as)).trace := by
  induction as generalizing p q with
  | nil => exact ⟨hq, rfl⟩
  | cons a as ih =>
    have hm : m < p.jobs.length := (List.getElem?_eq_some_iff.1 hq).1
    rw [visits, traceOf, run]
    cases ha : p.visit m a with
    | none =>
      exact ih ((jobs_step_of_not_visited hm ha).trans hq)
    | some w =>
      obtain ⟨i, rfl, rfl⟩ := eq_poll_of_visit ha
      have hstep := jobs_step_poll (h := h) hq i
      simp only [Option.toList_some, List.singleton_append, List.flatMap_singleton, hq, traceIn]
      rcases hpoll : q.poll h (p.world i) with ⟨x | rest, v⟩
      -- later polls do nothing, although the history may contain some
      · rw [hpoll] at hstep
        obtain ⟨hend, hnothing⟩ := run_of_finished hstep as
        rw [Prog.life_of_finished _ hpoll, hend, hnothing, List.append_nil]
        exact ⟨rfl, rfl⟩
      · rw [hpoll] at hstep
        obtain ⟨hend, htrace⟩ := ih hstep
        rw [Prog.life_of_pending _ hpoll, hend, htrace]
        exact ⟨rfl, rfl⟩

/-! ## Jobs keep to themselves -/

/-- What remains of every job never changes the context in scope where it is polled. -/
def Tidy (p : Pool H ι σ) : Prop :=
  ∀ t ∈ p.jobs, t.2.Contained

theorem Tidy.step
    {p : Pool H ι σ} (hp : p.Tidy) (a : Move H ι σ) :
    (p.step h a).Tidy := by
  cases a with
  | exit i =>
    simp only [Pool.step]
    split <;> exact hp
  | capture i =>
    simp only [Pool.step, run_capture]
    exact hp
  | submit n c j =>
    simp only [Pool.step]
    split
    · intro t ht
      rcases List.mem_append.1 ht with ht | ht
      · exact hp t ht
      · rw [List.mem_singleton.1 ht]
        exact j.contained_program c _
    · exact hp
  | poll i m =>
    simp only [Pool.step]
    split
    · rename_i q hq
      intro t ht
      rcases List.mem_or_eq_of_mem_set ht with ht | ht
      · exact hp t ht
      · rw [ht]
        have hcontained : q.Contained := hp _ (List.mem_of_getElem? hq)
        exact (hcontained.drive h false (p.world i)).2
    · exact hp
  | _ => exact hp

theorem Tidy.run
    {p : Pool H ι σ} (hp : p.Tidy) (as : List (Move H ι σ)) :
    (p.run h as).Tidy := by
  induction as generalizing p with
  | nil => exact hp
  | cons a as ih => exact ih (hp.step a)

/-- A poll of a job changes nothing that is in scope anywhere, no snapshot and no other job. -/
theorem Tidy.poll
    {p : Pool H ι σ} (hp : p.Tidy) (i : ι) (m : Nat) :
    (p.step h (.poll i m)).places = p.places ∧
      (p.step h (.poll i m)).snapshots = p.snapshots ∧
      ∀ n, n ≠ m → (p.step h (.poll i m)).jobs[n]? = p.jobs[n]? := by
  simp only [Pool.step]
  split
  · rename_i q hq
    have hcontained : q.Contained := hp _ (List.mem_of_getElem? hq)
    have hambient := (hcontained.drive h false (p.world i)).1
    refine ⟨?_, rfl, fun n hn => List.getElem?_set_ne hn.symm⟩
    simp only [settle, Prog.poll, hambient]
    exact Function.update_eq_self i p.places
  · exact ⟨rfl, rfl, fun _ _ => rfl⟩

/-! ## Provenance -/

variable {α β : Type}

/-- A hand-off takes its provenance from the submission.  Take any history in which, after some
moves, a snapshot is taken at a place, after some more a job is made of a copy of it, and after that
anything happens.  As long as the job is not polled, it does nothing.  From its first poll on it
resolves an id, which extends the one in scope at the capture by a segment of the thread length, and
then it does what its work does, once, in a scope with that id and the auxiliary fields in scope at
the capture; in whatever context it is polled, it ends as its work ends.  No poll of any job changes
the context in scope at any place, a snapshot or another job. -/
theorem provenance
    (hh : h.KeepsScope) (places : ι → Place) (f : Facilities) (host : σ)
    (before between after : List (Move H ι σ)) (i : ι) (c : Config) (j : Job H α β) :
    let capturing : Pool H ι σ := (start places f host).run h before
    let submitting := (capturing.step h (.capture i)).run h between
    let submitted := submitting.step h (.submit capturing.snapshots.length c j)
    let m := submitting.jobs.length
    let captured : Snapshot :=
      ⟨(capturing.places i).ambient.getD .empty, (capturing.places i).spans⟩
    (submitted.visits h m after = [] → submitted.traceOf h m after = []) ∧
      (∀ w ws, submitted.visits h m after = w :: ws →
        ∃ id g, c.thread.Extends w.facilities.source captured.context.get? id ∧
          (c.thread.segment w.facilities.source).utf8ByteSize = c.thread.length ∧
          g.source = w.facilities.source.skip c.thread.randomLength ∧
          g.spans = w.facilities.spans ∧
          let begun := (captured.started id j.work).life h ({ w with facilities := g } :: ws)
          submitted.traceOf h m after = captured.resolution c id 1 w :: begun.trace ∧
            ∃ s, (submitted.run h after).jobs[m]? = some ⟨β, s⟩ ∧
              Step.Relays j.pass begun.step s) ∧
      ∀ l n,
        let reached := submitted.run h after
        (reached.step h (.poll l n)).places = reached.places ∧
          (reached.step h (.poll l n)).snapshots = reached.snapshots ∧
          ∀ k, k ≠ n → (reached.step h (.poll l n)).jobs[k]? = reached.jobs[k]? := by
  intro capturing submitting submitted m captured
  have htaken : submitting.snapshots[capturing.snapshots.length]? = some captured := by
    have hprefix := snapshots_run (h := h) (capturing.step h (.capture i)) between
    rw [snapshots_step_capture] at hprefix
    obtain ⟨rest, hrest⟩ := hprefix
    rw [← hrest, List.append_assoc, List.getElem?_append_right (Nat.le_refl _), Nat.sub_self]
    rfl
  have hjob : submitted.jobs[m]? = some ⟨β, .pending (j.program c captured)⟩ := by
    simp only [submitted, m, step, htaken]
    exact List.getElem?_concat_length
  have hnone : (start places f host : Pool H ι σ).Tidy := nofun
  have htidy : (submitted.run h after).Tidy :=
    ((((hnone.run before).step _).run between).step _).run after
  obtain ⟨hstep, htrace⟩ := run_of_pending (h := h) hjob after
  refine ⟨?_, ?_, fun l n => htidy.poll l n⟩
  · intro hvisits
    rw [htrace, hvisits]
    rfl
  · intro w ws hvisits
    obtain ⟨id, g, hid, hsource, hspans, hlife⟩ := j.life_program c captured hh w ws
    rw [hvisits] at hstep htrace
    refine ⟨id, g, hid, c.thread.utf8ByteSize_segment _, hsource, hspans, ?_⟩
    obtain ⟨hrelays, _, hwhole⟩ := hlife
    exact ⟨htrace.trans hwhole, _, hstep, hrelays⟩

/-- A task is submitted inside a request.  The request ends before a worker runs the task, in a
context of its own that is not cleared. -/
theorem provenance_of_request :
    let h := LocalHost.nobody.handler
    let places : Bool → Place := fun i => ⟨if i then none else some (.withId ⟨"stale"⟩), [], []⟩
    let f : Facilities := .fresh ⟨fun n => ⟨n % 63, Nat.mod_lt n (by decide)⟩, 0⟩
    let capturing : Pool (fun _ => Empty) Bool Unit :=
      (start places f ()).run h [.enter true (.withId ⟨"req"⟩)]
    let submitted :=
      ((capturing.step h (.capture true)).run h [.operate true .clear, .exit true]).step h
        (.submit 0 .standard (.wrapped Ambient.clear))
    let captured : Snapshot := ⟨.withId ⟨"req"⟩, []⟩
    let w := submitted.world false
    h.KeepsScope ∧ submitted.visits h 0 [.poll false 0] = [w] ∧
      ∃ id, (Scheme.standard .thread).Extends w.facilities.source (some ⟨"req"⟩) id ∧
        ∃ rest, submitted.traceOf h 0 [.poll false 0] =
          captured.resolution .standard id 1 w :: rest := by
  intro h places f capturing submitted captured w
  have hh : h.KeepsScope := LocalHost.nobody.sparesContext.keepsScope
  have hvisits : submitted.visits h 0 [.poll false 0] = [w] := by rfl
  refine ⟨hh, hvisits, ?_⟩
  obtain ⟨_, hprovenance, _⟩ :=
    provenance hh places f () [.enter true (.withId ⟨"req"⟩)] [.operate true .clear, .exit true]
      [.poll false 0] true .standard (.wrapped Ambient.clear)
  obtain ⟨id, _, hid, _, _, _, htrace, _⟩ := hprovenance w [] hvisits
  exact ⟨id, hid, _, htrace⟩

end Pool
end TraceLineage
