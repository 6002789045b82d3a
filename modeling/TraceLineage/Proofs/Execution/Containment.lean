import TraceLineage.Proofs.Execution.Life

/-!
# Contained programs

A contained program never changes the context that is in scope around it.  It may read that context,
and inside scopes of its own it may do whatever it likes, even leave the answering of requests to a
host that changes contexts at will.

Containment is kept by every poll, so the context around a contained program is the same behind each
poll as in front of it, and the same behind a drop, whatever contexts are in scope at the polls and
at the drop.
-/

namespace TraceLineage

/-- An operation that only reads the context in scope, if it looks at it at all. -/
def Op.sparesContext : {γ : Type} → Op γ → Bool
  | _, .snapshot => true
  | _, .set _ => false
  | _, .put _ _ => false
  | _, .clear => false
  | _, .resolve _ _ => false
  | _, .resolveIn _ _ _ => true
  | _, .generate _ _ _ => true
  | _, .emit _ => true
  | _, .spans => true

theorem World.ambient_perform
    {σ γ : Type} (w : World σ) {o : Op γ} (ho : o.sparesContext = true) :
    (w.perform o).2.ambient = w.ambient := by
  cases o with
  | set id => exact absurd ho Bool.false_ne_true
  | put key value => exact absurd ho Bool.false_ne_true
  | clear => exact absurd ho Bool.false_ne_true
  | resolve c b => exact absurd ho Bool.false_ne_true
  | _ => rfl

namespace Prog

variable {H : Type → Type} {σ α β : Type}

/-- A program that changes contexts in scopes of its own only. -/
def Contained : {α : Type} → Prog H α → Prop
  | _, done _ => True
  | _, suspend rest => rest.Contained
  | _, never => True
  | _, op o next => o.sparesContext = true ∧ ∀ r, (next r).Contained
  | _, host _ _ => False
  | _, frame fr body next =>
    fr.isGuard = false ∧ (fr.hidesContext = false → body.Contained) ∧ ∀ x, (next x).Contained
  | _, block body next => body.Contained ∧ ∀ x, (next x).Contained

end Prog

/-- A step that has ended or leaves a contained program. -/
def Step.Contained {H : Type → Type} {α : Type} : Step H α → Prop
  | .finished _ => True
  | .pending rest => rest.Contained

namespace Prog

variable {H : Type → Type} {σ α β : Type}

theorem Contained.bind
    {p : Prog H α} {f : α → Prog H β} (hp : p.Contained) (hf : ∀ a, (f a).Contained) :
    (p.bind f).Contained := by
  induction p with
  | done x =>
    cases x with
    | value a => exact hf a
    | panic e => trivial
  | suspend rest ih => exact ih hp hf
  | never => trivial
  | op o next ih => exact ⟨hp.1, fun r => ih r (hp.2 r) hf⟩
  | host r next ih => exact hp.elim
  | frame fr body next _ ih => exact ⟨hp.1, hp.2.1, fun x => ih x (hp.2.2 x) hf⟩
  | block body next _ ih => exact ⟨hp.1, fun x => ih x (hp.2 x) hf⟩

/-- Around a frame that is no guard the context is the same as before, if the part inside leaves
the context alone that it can reach. -/
theorem ambient_restore_of_inside
    {fr : Frame} {w v : World σ}
    (hv : fr.hidesContext = false → v.ambient = (fr.enter w).ambient) :
    (fr.restore w v).ambient = w.ambient := by
  rw [fr.ambient_restore]
  by_cases hfr : fr.hidesContext = true
  · rw [if_pos hfr]
  · rw [if_neg hfr]
    have hfr : fr.hidesContext = false := Bool.eq_false_iff.2 hfr
    rw [hv hfr, Frame.ambient_enter hfr]

theorem Contained.ambient_drop
    {p : Prog H α} (hp : p.Contained) (w : World σ) :
    (p.drop w).ambient = w.ambient := by
  induction p generalizing w with
  | frame fr body next ih _ =>
    obtain ⟨hguard, hbody, _⟩ := hp
    rw [drop, Frame.abandon_of_not_guard hguard]
    exact ambient_restore_of_inside fun hfr => ih (hbody hfr) (fr.enter w)
  | _ => rfl

/-- Driving a contained program leaves the context, and what remains is contained. -/
theorem Contained.drive
    {p : Prog H α} (hp : p.Contained) (h : Handler H σ) (through : Bool) (w : World σ) :
    (p.drive h through w).2.ambient = w.ambient ∧ (p.drive h through w).1.Contained := by
  induction p generalizing through w with
  | done x => exact ⟨rfl, trivial⟩
  | suspend rest ih =>
    cases through with
    | false => exact ⟨rfl, hp⟩
    | true => exact ih hp true w
  | never => exact ⟨rfl, trivial⟩
  | op o next ih =>
    obtain ⟨hnext, hrest⟩ := ih (w.perform o).1 (hp.2 _) through (w.perform o).2
    exact ⟨hnext.trans (w.ambient_perform hp.1), hrest⟩
  | host r next ih => exact hp.elim
  | frame fr body next ihbody ihnext =>
    obtain ⟨hguard, hbody, hnext⟩ := hp
    have hinside := fun hfr => ihbody (hbody hfr) through (fr.enter w)
    simp only [Prog.drive]
    rcases hb : body.drive h through (fr.enter w) with ⟨x | rest, v⟩
    · rw [hb] at hinside
      have hv : (fr.leave w v).ambient = w.ambient := by
        rw [Frame.leave_of_not_guard hguard]
        exact ambient_restore_of_inside fun hfr => (hinside hfr).1
      obtain ⟨hstate, hrest⟩ := ihnext x (hnext x) through (fr.leave w v)
      exact ⟨hstate.trans hv, hrest⟩
    · rw [hb] at hinside
      refine ⟨ambient_restore_of_inside fun hfr => (hinside hfr).1, ?_, ?_, hnext⟩
      · rw [fr.isGuard_parked]
        exact hguard
      · rw [fr.hidesContext_parked]
        exact fun hfr => (hinside hfr).2
  | block body next ihbody ihnext =>
    obtain ⟨hbody, hnext⟩ := hp
    have hinside := ihbody hbody true w
    simp only [Prog.drive]
    rcases hb : body.drive h true w with ⟨x | rest, v⟩
    · rw [hb] at hinside
      obtain ⟨hstate, hrest⟩ := ihnext (some x) (hnext _) through v
      exact ⟨hstate.trans hinside.1, hrest⟩
    · rw [hb] at hinside
      -- the part that is still suspended is dropped in the same context
      have hdrop : (rest.drop v).ambient = v.ambient := Contained.ambient_drop hinside.2 v
      obtain ⟨hstate, hrest⟩ := ihnext none (hnext _) through (rest.drop v)
      exact ⟨hstate.trans (hdrop.trans hinside.1), hrest⟩

/-- A contained program that is run through leaves the context, whether it ends or is dropped. -/
theorem Contained.ambient_run
    {p : Prog H α} (hp : p.Contained) (h : Handler H σ) (w : World σ) :
    (p.run h w).2.ambient = w.ambient := by
  obtain ⟨hstate, hrest⟩ := hp.drive h true w
  rw [run]
  rcases hd : p.drive h true w with ⟨x | rest, v⟩
  · rw [hd] at hstate
    exact hstate
  · rw [hd] at hstate hrest
    exact (Contained.ambient_drop hrest v).trans hstate

/-- Behind every poll of a contained program the context is the one in front of the poll, and what
remains is contained. -/
theorem Contained.life
    {p : Prog H α} (hp : p.Contained) (h : Handler H σ) (ws : List (World σ)) :
    (p.life h ws).states.map World.ambient <+: ws.map World.ambient ∧
      (p.life h ws).step.Contained := by
  induction ws generalizing p with
  | nil => exact ⟨List.prefix_refl _, hp⟩
  | cons w ws ih =>
    obtain ⟨hstate, hrest⟩ := hp.drive h false w
    rcases hd : p.poll h w with ⟨x | rest, v⟩
    · rw [poll] at hd
      rw [hd] at hstate
      rw [life_of_finished ws hd]
      exact ⟨List.cons_prefix_cons.2 ⟨hstate, List.nil_prefix⟩, trivial⟩
    · rw [poll] at hd
      rw [hd] at hstate hrest
      obtain ⟨hstates, hstep⟩ := ih hrest
      rw [life_of_pending ws hd]
      exact ⟨List.cons_prefix_cons.2 ⟨hstate, hstates⟩, hstep⟩

end Prog

namespace Ambient

variable {H : Type → Type} {α : Type}

theorem contained_inContext
    (ctx : Context) (body : Prog H α) :
    (inContext ctx body).Contained :=
  ⟨rfl, nofun, fun _ => trivial⟩

theorem contained_underSpans
    (path : List Span) {body : Prog H α} (hbody : body.Contained) :
    (underSpans path body).Contained := by
  cases path with
  | nil => exact hbody
  | cons s path => exact ⟨rfl, fun _ => hbody, fun _ => trivial⟩

end Ambient
end TraceLineage
