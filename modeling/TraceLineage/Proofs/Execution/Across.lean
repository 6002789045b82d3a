import TraceLineage.Proofs.Execution.Frames

/-!
# Relations across programs

A relation between states that holds across every operation, every answer of the host and every
frame holds across every program, whether it is driven or dropped.
-/

namespace TraceLineage

/-- A relation between an earlier and a later state that every part of a program respects. -/
structure World.Across {H : Type → Type} {σ : Type} (h : Handler H σ)
    (R : World σ → World σ → Prop) : Prop where
  refl : ∀ w, R w w
  trans : ∀ {u v w}, R u v → R v w → R u w
  perform : ∀ {γ : Type} (w : World σ) (o : Op γ), R w (w.perform o).2
  host : ∀ {γ : Type} (r : H γ) (w : World σ), R w (h γ r w).2
  restore : ∀ (fr : Frame) {w v : World σ}, R (fr.enter w) v → R w (fr.restore w v)

namespace World.Across

variable {H : Type → Type} {σ α : Type} {h : Handler H σ} {R : World σ → World σ → Prop}

/-- A guard that ends clears the context, which is an operation like any other. -/
theorem leave
    (hR : Across h R) (fr : Frame) {w v : World σ} (hv : R (fr.enter w) v) :
    R w (fr.leave w v) := by
  rcases fr.eq_guard_or with ⟨begun, rfl⟩ | hfr
  · exact hR.trans hv (hR.perform v .clear)
  · rw [Frame.leave_of_not_guard hfr]
    exact hR.restore fr hv

theorem abandon
    (hR : Across h R) (fr : Frame) {w v : World σ} (hv : R (fr.enter w) v) :
    R w (fr.abandon w v) := by
  rcases fr.eq_guard_or with ⟨begun, rfl⟩ | hfr
  · cases begun with
    | false => exact hv
    | true => exact hR.trans hv (hR.perform v .clear)
  · rw [Frame.abandon_of_not_guard hfr]
    exact hR.restore fr hv

theorem drop
    (hR : Across h R) (p : Prog H α) (w : World σ) :
    R w (p.drop w) := by
  induction p generalizing w with
  | frame fr body next ih _ => exact hR.abandon fr (ih (fr.enter w))
  | _ => exact hR.refl w

theorem drive
    (hR : Across h R) (p : Prog H α) (through : Bool) (w : World σ) :
    R w (p.drive h through w).2 := by
  induction p generalizing through w with
  | done x => exact hR.refl w
  | suspend rest ih =>
    cases through with
    | false => exact hR.refl w
    | true => exact ih true w
  | never => exact hR.refl w
  | op o next ih => exact hR.trans (hR.perform w o) (ih _ through _)
  | host r next ih =>
    have hanswer := hR.host r w
    simp only [Prog.drive]
    rcases hr : h _ r w with ⟨_ | a | e, v⟩
    · rw [hr] at hanswer
      exact hanswer
    · rw [hr] at hanswer
      exact hR.trans hanswer (ih a through v)
    · rw [hr] at hanswer
      exact hanswer
  | frame fr body next ihbody ihnext =>
    have hinside := ihbody through (fr.enter w)
    simp only [Prog.drive]
    rcases hb : body.drive h through (fr.enter w) with ⟨x | rest, v⟩
    · rw [hb] at hinside
      exact hR.trans (hR.leave fr hinside) (ihnext x through _)
    · rw [hb] at hinside
      exact hR.restore fr hinside
  | block body next ihbody ihnext =>
    have hinside := ihbody true w
    simp only [Prog.drive]
    rcases hb : body.drive h true w with ⟨x | rest, v⟩
    · rw [hb] at hinside
      exact hR.trans hinside (ihnext _ through v)
    · rw [hb] at hinside
      exact hR.trans (hR.trans hinside (hR.drop rest v)) (ihnext none through _)

theorem run
    (hR : Across h R) (p : Prog H α) (w : World σ) :
    R w (p.run h w).2 := by
  have hdriven := hR.drive p true w
  rw [Prog.run]
  rcases hp : p.drive h true w with ⟨x | rest, v⟩
  · rw [hp] at hdriven
    exact hdriven
  · rw [hp] at hdriven
    exact hR.trans hdriven (hR.drop rest v)

end World.Across

/-! ## Scopes stay open -/

/-- A host that neither opens nor closes a scope; inside one it may change the context. -/
def Handler.KeepsScope {H : Type → Type} {σ : Type} (h : Handler H σ) : Prop :=
  ∀ (γ : Type) (r : H γ) (w : World σ), (h γ r w).2.ambient.isSome = w.ambient.isSome

/-- A host that leaves the context in scope alone. -/
def Handler.SparesContext {H : Type → Type} {σ : Type} (h : Handler H σ) : Prop :=
  ∀ (γ : Type) (r : H γ) (w : World σ), (h γ r w).2.ambient = w.ambient

theorem Handler.SparesContext.keepsScope
    {H : Type → Type} {σ : Type} {h : Handler H σ} (hh : h.SparesContext) :
    h.KeepsScope := by
  intro γ r w
  rw [hh γ r w]

theorem World.isSome_perform
    {σ γ : Type} (w : World σ) (o : Op γ) :
    (w.perform o).2.ambient.isSome = w.ambient.isSome := by
  cases o with
  | set id =>
    simp only [perform]
    cases hw : w.ambient with
    | none => rw [hw]
    | some ctx =>
      dsimp only
      cases ctx.set id with
      | ok ctx => rfl
      | error e => rw [hw]
  | put key value =>
    simp only [perform]
    cases hw : w.ambient with
    | none => rw [hw]
    | some ctx => rfl
  | clear => simp only [perform, clear, Option.isSome_map]
  | resolve c b =>
    simp only [perform]
    cases hw : w.ambient with
    | none => rw [hw]
    | some ctx => rfl
  | _ => rfl

/-- Whether a context is in scope is the same behind every program as in front of it. -/
theorem Handler.KeepsScope.across
    {H : Type → Type} {σ : Type} {h : Handler H σ} (hh : h.KeepsScope) :
    World.Across h fun w v => v.ambient.isSome = w.ambient.isSome where
  refl _ := rfl
  trans huv hvw := hvw.trans huv
  perform w o := w.isSome_perform o
  host r w := hh _ r w
  restore fr w v hv := by
    cases fr with
    | scope ctx => rfl
    | detached => rfl
    | _ => exact hv

end TraceLineage
