import TraceLineage.Proofs.Boundary.Replay
import TraceLineage.Proofs.Execution.Across
import TraceLineage.Proofs.Execution.Trace

/-!
# Replaying a program

What a program does depends on the context in scope, on the spans, on the state of its host and on
the symbols that it draws, and on nothing else.  Two states mirror each other if they agree in all
of this; the ids and records in them may differ, and so may the symbols that are drawn later.

The host of a program is local here: it answers from a state of its own and reaches neither the
context in scope nor the facilities.  That every program can be replayed is shown by induction on
the program, with a lemma for each way of composing programs.
-/

namespace TraceLineage

/-- A host that answers requests, or not yet, from a state of its own. -/
structure LocalHost (H : Type → Type) (σ : Type) where
  answer : (γ : Type) → H γ → σ → Option (Exit γ) × σ

/-- The answers of a local host in a state of which it sees its own part only. -/
def LocalHost.handler {H : Type → Type} {σ : Type} (k : LocalHost H σ) : Handler H σ :=
  fun γ r w => ((k.answer γ r w.host).1, { w with host := (k.answer γ r w.host).2 })

/-- A host that nobody asks. -/
def LocalHost.nobody : LocalHost (fun _ => Empty) Unit where
  answer _ r _ := r.elim

theorem LocalHost.sparesContext
    {H : Type → Type} {σ : Type} (k : LocalHost H σ) :
    k.handler.SparesContext :=
  fun _ _ _ => rfl

/-- Two states with the same context, the same spans and the same state of the host, in which as
many symbols have been drawn since `s` as in the other since `t`. -/
structure World.Mirrors {σ : Type} (s t : Source) (w v : World σ) : Prop where
  ambient : v.ambient = w.ambient
  facilities : Facilities.Mirrors s t w.facilities v.facilities
  host : v.host = w.host

/-! ## Operations and frames -/

namespace World

variable {σ : Type}

theorem drawn_le_perform
    {γ : Type} (w : World σ) (o : Op γ) :
    w.facilities.source.drawn ≤ (w.perform o).2.facilities.source.drawn := by
  cases o with
  | set id =>
    simp only [perform]
    cases w.ambient with
    | none => exact Nat.le_refl _
    | some ctx =>
      dsimp only
      cases ctx.set id <;> exact Nat.le_refl _
  | put key value =>
    simp only [perform]
    cases w.ambient <;> exact Nat.le_refl _
  | resolve c b =>
    simp only [perform]
    cases w.ambient with
    | none => exact Nat.le_refl _
    | some ctx =>
      dsimp only
      rw [Facilities.source_resolve]
      exact Facilities.drawn_le_generateAt c b ctx w.facilities
  | resolveIn c b ctx =>
    simp only [perform]
    rw [Facilities.source_resolve]
    exact Facilities.drawn_le_generateAt c b ctx w.facilities
  | generate c i parent => exact Facilities.drawn_le_generate w.facilities (c.scheme i) parent
  | _ => exact Nat.le_refl _

namespace Mirrors

variable {s t : Source} {w v : World σ}

theorem clear
    (hwv : Mirrors s t w v) :
    Mirrors s t w.clear v.clear := by
  refine ⟨?_, hwv.facilities, hwv.host⟩
  simp only [World.clear, hwv.ambient]

/-- An operation has the same result and effect in states that mirror each other. -/
theorem perform
    {γ : Type} (hwv : Mirrors s t w v) (o : Op γ) {m : Nat} (hst : t.take m = s.take m)
    (hm : (w.perform o).2.facilities.source.drawn ≤ s.drawn + m) :
    (v.perform o).1 = (w.perform o).1 ∧ Mirrors s t (w.perform o).2 (v.perform o).2 := by
  obtain ⟨hambient, hfacilities, hhost⟩ := hwv
  cases o with
  | snapshot => exact ⟨hambient, hambient, hfacilities, hhost⟩
  | set id =>
    simp only [World.perform, hambient]
    cases hw : w.ambient with
    | none => exact ⟨rfl, hambient, hfacilities, hhost⟩
    | some ctx =>
      dsimp only
      cases ctx.set id with
      | ok ctx => exact ⟨rfl, rfl, hfacilities, hhost⟩
      | error e => exact ⟨rfl, hambient, hfacilities, hhost⟩
  | put key value =>
    simp only [World.perform, hambient]
    cases hw : w.ambient with
    | none => exact ⟨rfl, hambient, hfacilities, hhost⟩
    | some ctx => exact ⟨rfl, rfl, hfacilities, hhost⟩
  | clear => exact ⟨rfl, clear ⟨hambient, hfacilities, hhost⟩⟩
  | resolve c b =>
    simp only [World.perform, hambient] at hm ⊢
    cases hw : w.ambient with
    | none => exact ⟨rfl, hambient, hfacilities, hhost⟩
    | some ctx =>
      rw [hw] at hm
      obtain ⟨hid, hctx, hfacilities⟩ := hfacilities.resolve c b ctx hst hm
      exact ⟨hid, congrArg some hctx, hfacilities, hhost⟩
  | resolveIn c b ctx =>
    obtain ⟨hid, hctx, hfacilities⟩ := hfacilities.resolve c b ctx hst hm
    exact ⟨Prod.ext hid hctx, hambient, hfacilities, hhost⟩
  | generate c i parent =>
    obtain ⟨hid, hfacilities⟩ := hfacilities.generate (c.scheme i) parent hst hm
    exact ⟨hid, hambient, hfacilities, hhost⟩
  | emit e => exact ⟨rfl, hambient, hfacilities.emit e, hhost⟩
  | spans => exact ⟨hfacilities.spans, hambient, hfacilities, hhost⟩

/-- An operation happens in the same way in states that mirror each other. -/
theorem happening
    {γ : Type} (hwv : Mirrors s t w v) (d : Nat) (o : Op γ) {m : Nat} (hst : t.take m = s.take m)
    (hm : (w.perform o).2.facilities.source.drawn ≤ s.drawn + m) :
    v.happening d o = w.happening d o := by
  obtain ⟨hresult, hafter⟩ := hwv.perform o hst hm
  simp only [World.happening, hwv.facilities.spans, hwv.ambient, hresult, hafter.ambient]

theorem withSpans
    (hwv : Mirrors s t w v) (path : List Span) :
    Mirrors s t (w.withSpans path) (v.withSpans path) :=
  ⟨hwv.ambient, ⟨rfl, hwv.facilities.drawn⟩, hwv.host⟩

theorem withAmbient
    (hwv : Mirrors s t w v) (a : Option Context) :
    Mirrors s t { w with ambient := a } { v with ambient := a } :=
  ⟨rfl, hwv.facilities, hwv.host⟩

/-- A guard ends in the same way in states that mirror each other. -/
theorem happening_clear
    (hwv : Mirrors s t w v) (d : Nat) :
    v.happening d .clear = w.happening d .clear := by
  simp only [World.happening, hwv.facilities.spans, hwv.ambient, World.perform, World.clear]

end Mirrors
end World

namespace Frame

variable {σ : Type}

theorem source_enter
    (fr : Frame) (w : World σ) :
    (fr.enter w).facilities.source = w.facilities.source := by
  cases fr <;> rfl

theorem source_leave
    (fr : Frame) (w v : World σ) :
    (fr.leave w v).facilities.source = v.facilities.source := by
  cases fr <;> rfl

theorem source_restore
    (fr : Frame) (w v : World σ) :
    (fr.restore w v).facilities.source = v.facilities.source := by
  cases fr <;> rfl

theorem source_abandon
    (fr : Frame) (w v : World σ) :
    (fr.abandon w v).facilities.source = v.facilities.source := by
  cases fr with
  | guard begun => cases begun <;> rfl
  | _ => rfl

variable {s t : Source} {w w' v v' : World σ}

theorem mirrors_enter
    (fr : Frame) (hw : w.Mirrors s t w') :
    (fr.enter w).Mirrors s t (fr.enter w') := by
  cases fr with
  | scope ctx => exact hw.withAmbient (some ctx)
  | guard begun => exact hw
  | span path => exact hw.withSpans path
  | detached => exact (hw.withAmbient none).withSpans []
  | extent => exact hw

theorem mirrors_restore
    (fr : Frame) (hw : w.Mirrors s t w') (hv : v.Mirrors s t v') :
    (fr.restore w v).Mirrors s t (fr.restore w' v') := by
  cases fr with
  | scope ctx => exact ⟨hw.ambient, hv.facilities, hv.host⟩
  | guard begun => exact hv
  | span path => exact ⟨hv.ambient, ⟨hw.facilities.spans, hv.facilities.drawn⟩, hv.host⟩
  | detached => exact ⟨hw.ambient, ⟨hw.facilities.spans, hv.facilities.drawn⟩, hv.host⟩
  | extent => exact hv

theorem mirrors_leave
    (fr : Frame) (hw : w.Mirrors s t w') (hv : v.Mirrors s t v') :
    (fr.leave w v).Mirrors s t (fr.leave w' v') := by
  rcases fr.eq_guard_or with ⟨begun, rfl⟩ | hfr
  · exact hv.clear
  · rw [leave_of_not_guard hfr, leave_of_not_guard hfr]
    exact fr.mirrors_restore hw hv

theorem mirrors_abandon
    (fr : Frame) (hw : w.Mirrors s t w') (hv : v.Mirrors s t v') :
    (fr.abandon w v).Mirrors s t (fr.abandon w' v') := by
  rcases fr.eq_guard_or with ⟨begun, rfl⟩ | hfr
  · cases begun with
    | false => exact hv
    | true => exact hv.clear
  · rw [abandon_of_not_guard hfr, abandon_of_not_guard hfr]
    exact fr.mirrors_restore hw hv

theorem parked_of_mirrors
    (fr : Frame) (hv : v.Mirrors s t v') :
    fr.parked v' = fr.parked v := by
  cases fr with
  | scope ctx => simp only [parked, hv.ambient]
  | _ => rfl

theorem leaveTrace_of_mirrors
    (fr : Frame) (d : Nat) (hv : v.Mirrors s t v') :
    fr.leaveTrace d v' = fr.leaveTrace d v := by
  rcases fr.eq_guard_or with ⟨begun, rfl⟩ | hfr
  · simp only [leaveTrace, hv.happening_clear]
  · rw [leaveTrace_of_not_guard hfr, leaveTrace_of_not_guard hfr]

theorem abandonTrace_of_mirrors
    (fr : Frame) (d : Nat) (hv : v.Mirrors s t v') :
    fr.abandonTrace d v' = fr.abandonTrace d v := by
  rcases fr.eq_guard_or with ⟨begun, rfl⟩ | hfr
  · cases begun with
    | false => rfl
    | true => simp only [abandonTrace, hv.happening_clear]
  · rw [abandonTrace_of_not_guard hfr, abandonTrace_of_not_guard hfr]

end Frame

theorem LocalHost.across_drawn
    {H : Type → Type} {σ : Type} (k : LocalHost H σ) :
    World.Across k.handler fun w v =>
      w.facilities.source.drawn ≤ v.facilities.source.drawn where
  refl _ := Nat.le_refl _
  trans huv hvw := Nat.le_trans huv hvw
  perform w o := w.drawn_le_perform o
  host _ _ := Nat.le_refl _
  restore fr w v hv := by
    rw [fr.source_enter] at hv
    rw [fr.source_restore]
    exact hv

/-! ## Programs -/

namespace Prog

variable {H : Type → Type} {σ α : Type}

theorem source_drop
    (p : Prog H α) (w : World σ) :
    (p.drop w).facilities.source = w.facilities.source := by
  induction p generalizing w with
  | frame fr body next ih _ => rw [drop, fr.source_abandon, ih, fr.source_enter]
  | _ => rfl

theorem drawn_le_drive
    (k : LocalHost H σ) (p : Prog H α) (through : Bool) (w : World σ) :
    w.facilities.source.drawn ≤ (p.drive k.handler through w).2.facilities.source.drawn :=
  k.across_drawn.drive p through w

theorem mirrors_drop
    (p : Prog H α) {s t : Source} {w v : World σ} (hwv : w.Mirrors s t v) :
    (p.drop w).Mirrors s t (p.drop v) := by
  induction p generalizing w v with
  | frame fr body next ih _ => exact fr.mirrors_abandon hwv (ih (fr.mirrors_enter hwv))
  | _ => exact hwv

theorem dropTrace_of_mirrors
    (p : Prog H α) (d : Nat) {s t : Source} {w v : World σ} (hwv : w.Mirrors s t v) :
    p.dropTrace d v = p.dropTrace d w := by
  induction p generalizing d w v with
  | frame fr body next ih _ =>
    have henter := fr.mirrors_enter hwv
    rw [dropTrace, dropTrace, ih _ henter, fr.abandonTrace_of_mirrors d (body.mirrors_drop henter)]
  | _ => rfl

/-- A program does the same in states that mirror each other, if it draws the same symbols. -/
def Replays (k : LocalHost H σ) (p : Prog H α) : Prop :=
  ∀ (through : Bool) (d : Nat) {s t : Source} {m : Nat}, t.take m = s.take m →
    ∀ {w v : World σ}, w.Mirrors s t v →
      (p.drive k.handler through w).2.facilities.source.drawn ≤ s.drawn + m →
        (p.drive k.handler through v).1 = (p.drive k.handler through w).1 ∧
          (p.drive k.handler through w).2.Mirrors s t (p.drive k.handler through v).2 ∧
          p.trace k.handler through d v = p.trace k.handler through d w

variable {k : LocalHost H σ}

theorem Replays.op
    {γ : Type} {o : Op γ} {next : γ → Prog H α} (hnext : ∀ r, (next r).Replays k) :
    (Prog.op o next).Replays k := by
  intro through d s t m hst w v hwv hm
  -- what the operation draws is a part of what the program draws
  have hop : (w.perform o).2.facilities.source.drawn ≤ s.drawn + m :=
    Nat.le_trans (drawn_le_drive k (next _) through _) hm
  obtain ⟨hresult, hbehind⟩ := hwv.perform o hst hop
  obtain ⟨hstep, hstate, htrace⟩ := hnext (w.perform o).1 through d hst hbehind hm
  simp only [drive, trace, hresult, hwv.happening d o hst hop]
  exact ⟨hstep, hstate, congrArg _ htrace⟩

theorem Replays.host
    {γ : Type} {r : H γ} {next : γ → Prog H α} (hnext : ∀ a, (next a).Replays k) :
    (Prog.host r next).Replays k := by
  intro through d s t m hst w v hwv hm
  simp only [drive, trace, LocalHost.handler, hwv.host] at hm ⊢
  rcases hr : k.answer _ r w.host with ⟨_ | a | e, x⟩
  · exact ⟨rfl, ⟨hwv.ambient, hwv.facilities, rfl⟩, rfl⟩
  · rw [hr] at hm
    exact hnext a through d hst ⟨hwv.ambient, hwv.facilities, rfl⟩ hm
  · exact ⟨rfl, ⟨hwv.ambient, hwv.facilities, rfl⟩, rfl⟩

theorem Replays.frame
    {β : Type} {fr : Frame} {body : Prog H β} {next : Exit β → Prog H α}
    (hbody : body.Replays k) (hnext : ∀ x, (next x).Replays k) :
    (Prog.frame fr body next).Replays k := by
  intro through d s t m hst w v hwv hm
  have hinside := hbody through (d + fr.depth) hst (fr.mirrors_enter hwv)
  simp only [drive, trace] at hm ⊢
  rcases hb : body.drive k.handler through (fr.enter w) with ⟨x | rest, wi⟩
  · rw [hb] at hm hinside
    have hdrawn : wi.facilities.source.drawn ≤ s.drawn + m := by
      rw [← fr.source_leave w wi]
      exact Nat.le_trans (drawn_le_drive k (next x) through _) hm
    obtain ⟨hstep, hstate, htrace⟩ := hinside hdrawn
    rcases hc : body.drive k.handler through (fr.enter v) with ⟨sv, vi⟩
    rw [hc] at hstep hstate
    obtain rfl : sv = .finished x := hstep
    obtain ⟨hstep, hbehind, hrest⟩ := hnext x through d hst (fr.mirrors_leave hwv hstate) hm
    refine ⟨hstep, hbehind, ?_⟩
    simp only [htrace, fr.leaveTrace_of_mirrors d hstate, hrest]
  · rw [hb] at hm hinside
    have hdrawn : wi.facilities.source.drawn ≤ s.drawn + m := by
      rw [← fr.source_restore w wi]
      exact hm
    obtain ⟨hstep, hstate, htrace⟩ := hinside hdrawn
    rcases hc : body.drive k.handler through (fr.enter v) with ⟨sv, vi⟩
    rw [hc] at hstep hstate
    obtain rfl : sv = .pending rest := hstep
    refine ⟨?_, fr.mirrors_restore hwv hstate, ?_⟩
    · simp only [fr.parked_of_mirrors hstate]
    · simp only [htrace]

theorem Replays.block
    {β : Type} {body : Prog H β} {next : Option (Exit β) → Prog H α}
    (hbody : body.Replays k) (hnext : ∀ x, (next x).Replays k) :
    (Prog.block body next).Replays k := by
  intro through d s t m hst w v hwv hm
  have hinside := hbody true d hst hwv
  simp only [drive, trace] at hm ⊢
  rcases hb : body.drive k.handler true w with ⟨x | rest, wi⟩
  · rw [hb] at hm hinside
    have hdrawn : wi.facilities.source.drawn ≤ s.drawn + m :=
      Nat.le_trans (drawn_le_drive k (next _) through wi) hm
    obtain ⟨hstep, hstate, htrace⟩ := hinside hdrawn
    rcases hc : body.drive k.handler true v with ⟨sv, vi⟩
    rw [hc] at hstep hstate
    obtain rfl : sv = .finished x := hstep
    obtain ⟨hstep, hbehind, hrest⟩ := hnext (some x) through d hst hstate hm
    refine ⟨hstep, hbehind, ?_⟩
    simp only [htrace, hrest]
  · rw [hb] at hm hinside
    have hdrawn : wi.facilities.source.drawn ≤ s.drawn + m := by
      rw [← source_drop rest wi]
      exact Nat.le_trans (drawn_le_drive k (next none) through _) hm
    obtain ⟨hstep, hstate, htrace⟩ := hinside hdrawn
    rcases hc : body.drive k.handler true v with ⟨sv, vi⟩
    rw [hc] at hstep hstate
    obtain rfl : sv = .pending rest := hstep
    obtain ⟨hstep, hbehind, hrest⟩ := hnext none through d hst (rest.mirrors_drop hstate) hm
    refine ⟨hstep, hbehind, ?_⟩
    simp only [htrace, rest.dropTrace_of_mirrors d hstate, hrest]

/-- Every program can be replayed. -/
theorem replays
    (k : LocalHost H σ) (p : Prog H α) :
    p.Replays k := by
  induction p with
  | done x => exact fun _ _ _ _ _ _ _ _ hwv _ => ⟨rfl, hwv, rfl⟩
  | suspend rest ih =>
    intro through d s t m hst w v hwv hm
    cases through with
    | false => exact ⟨rfl, hwv, rfl⟩
    | true => exact ih true d hst hwv hm
  | never => exact fun _ _ _ _ _ _ _ _ hwv _ => ⟨rfl, hwv, rfl⟩
  | op o next ih => exact .op ih
  | host r next ih => exact .host ih
  | frame fr body next ihbody ihnext => exact .frame ihbody ihnext
  | block body next ihbody ihnext => exact .block ihbody ihnext

end Prog
end TraceLineage
