import TraceLineage.Proofs.Context.Resemblance
import TraceLineage.Proofs.Execution.Containment
import TraceLineage.Proofs.Execution.Parallel

/-!
# Programs in contexts that show the same

Two states resemble each other if they differ in nothing but in contexts that show the same.  Every
operation is indifferent to such a difference: results, ids and records are the same, and only a
copy of the context carries the difference on.  So programs that are similar, which means that they
do the same with copies that resemble each other, perform the same when they are driven in such
states, and the contexts in front of and behind each operation resemble each other.
-/

namespace TraceLineage

/-- What the results of an operation have in common in states that resemble each other. -/
def Op.Alike : {γ : Type} → Op γ → γ → γ → Prop
  | _, .snapshot => Option.Rel Context.Resembles
  | _, _ => Eq

/-- States that agree in everything but the context, and in what the context shows. -/
structure World.Resembles {σ : Type} (w v : World σ) : Prop where
  ambient : Option.Rel Context.Resembles w.ambient v.ambient
  facilities : w.facilities = v.facilities
  host : w.host = v.host

/-- The same operation in the same place, with the same result. -/
inductive Happening.Resembles : Happening → Happening → Prop
  | intro {γ : Type} (depth : Nat) (spans : List Span) (o : Op γ)
    {before before' after after' : Option Context} {r r' : γ}
    (hbefore : Option.Rel Context.Resembles before before') (hresult : o.Alike r r')
    (hafter : Option.Rel Context.Resembles after after') :
    Resembles ⟨γ, depth, spans, before, o, r, after⟩ ⟨γ, depth, spans, before', o, r', after'⟩

theorem Context.resembles_option_refl
    (a : Option Context) :
    Option.Rel Context.Resembles a a := by
  cases a with
  | none => exact .none
  | some c => exact .some (.refl c)

theorem Context.Resembles.getD
    {a b : Option Context} {c d : Context} (hab : Option.Rel Context.Resembles a b)
    (hcd : c.Resembles d) :
    (a.getD c).Resembles (b.getD d) := by
  cases hab with
  | none => exact hcd
  | some hab => exact hab

namespace World.Resembles

variable {σ : Type} {w v : World σ}

theorem refl
    (w : World σ) :
    w.Resembles w :=
  ⟨Context.resembles_option_refl w.ambient, rfl, rfl⟩

theorem eq
    (hwv : w.Resembles v) (hambient : w.ambient = v.ambient) :
    w = v := by
  obtain ⟨a, f, k⟩ := w
  obtain ⟨b, g, l⟩ := v
  obtain ⟨_, rfl, rfl⟩ := hwv
  obtain rfl : a = b := hambient
  rfl

/-- States that resemble each other are equal where nothing has changed the contexts. -/
theorem eq_of_contained
    {ws vs : List (World σ)} (hwvs : List.Forall₂ World.Resembles ws vs)
    {as : List (Option Context)} (hws : ws.map World.ambient <+: as)
    (hvs : vs.map World.ambient <+: as) :
    ws = vs := by
  induction hwvs generalizing as with
  | nil => rfl
  | @cons w v ws vs hwv _ ih =>
    cases as with
    | nil => cases List.prefix_nil.1 hws
    | cons a as =>
      obtain ⟨hw, hws⟩ := List.cons_prefix_cons.1 hws
      obtain ⟨hv, hvs⟩ := List.cons_prefix_cons.1 hvs
      rw [hwv.eq (hw.trans hv.symm), ih hws hvs]

theorem withAmbient
    {a b : Option Context} (hwv : w.Resembles v) (hab : Option.Rel Context.Resembles a b) :
    World.Resembles { w with ambient := a } { v with ambient := b } :=
  ⟨hab, hwv.facilities, hwv.host⟩

theorem withSpans
    (hwv : w.Resembles v) (path : List Span) :
    (w.withSpans path).Resembles (v.withSpans path) := by
  refine ⟨hwv.ambient, ?_, hwv.host⟩
  simp only [World.withSpans, hwv.facilities]

theorem clear
    (hwv : w.Resembles v) :
    w.clear.Resembles v.clear := by
  obtain ⟨a, f, k⟩ := w
  obtain ⟨b, g, l⟩ := v
  obtain ⟨hab, hfacilities, hhost⟩ := hwv
  refine ⟨?_, hfacilities, hhost⟩
  cases hab with
  | none => exact .none
  | some _ => exact .some (.refl .empty)

/-- One operation: the results are alike, and the states still resemble each other. -/
theorem perform
    {γ : Type} (hwv : w.Resembles v) (o : Op γ) :
    o.Alike (w.perform o).1 (v.perform o).1 ∧ (w.perform o).2.Resembles (v.perform o).2 := by
  obtain ⟨a, f, k⟩ := w
  obtain ⟨b, g, l⟩ := v
  obtain ⟨hab, rfl, rfl⟩ := hwv
  cases o with
  | snapshot => exact ⟨hab, hab, rfl, rfl⟩
  | set id =>
    cases hab with
    | none => exact ⟨rfl, .none, rfl, rfl⟩
    | @some c d hcd =>
      simp only [World.perform, hcd.set_eq]
      cases d.set id with
      | ok changed => exact ⟨rfl, .some (.refl changed), rfl, rfl⟩
      | error e => exact ⟨rfl, .some hcd, rfl, rfl⟩
  | put key value =>
    cases hab with
    | none => exact ⟨rfl, .none, rfl, rfl⟩
    | some hcd => exact ⟨rfl, .some (hcd.put key value), rfl, rfl⟩
  | clear => exact ⟨rfl, clear ⟨hab, rfl, rfl⟩⟩
  | resolve c b =>
    cases hab with
    | none => exact ⟨rfl, .none, rfl, rfl⟩
    | some hcd =>
      obtain ⟨hid, hctx, hbehind⟩ := hcd.resolve c b f
      exact ⟨hid, .some hctx, hbehind, rfl⟩
  | resolveIn c b ctx => exact ⟨rfl, hab, rfl, rfl⟩
  | generate c i parent => exact ⟨rfl, hab, rfl, rfl⟩
  | emit e => exact ⟨rfl, hab, rfl, rfl⟩
  | spans => exact ⟨rfl, hab, rfl, rfl⟩

theorem happening
    {γ : Type} (hwv : w.Resembles v) (d : Nat) (o : Op γ) :
    (w.happening d o).Resembles (v.happening d o) := by
  obtain ⟨hresult, hbehind⟩ := hwv.perform o
  rw [World.happening, World.happening, hwv.facilities]
  exact .intro d v.facilities.spans o hwv.ambient hresult hbehind.ambient

end World.Resembles

/-! ## Frames -/

/-- Scopes whose contexts show the same, or equal frames. -/
inductive Frame.Resembles : Frame → Frame → Prop
  | scope {c d : Context} (hcd : c.Resembles d) : Resembles (.scope c) (.scope d)
  | same (fr : Frame) : Resembles fr fr

namespace Frame.Resembles

variable {σ : Type} {fr fr' : Frame} {w v w' v' : World σ}

theorem depth
    (hfr : fr.Resembles fr') :
    fr.depth = fr'.depth := by
  cases hfr <;> rfl

theorem enter
    (hfr : fr.Resembles fr') (hwv : w.Resembles v) :
    (fr.enter w).Resembles (fr'.enter v) := by
  cases hfr with
  | scope hcd => exact hwv.withAmbient (.some hcd)
  | same fr =>
    cases fr with
    | scope ctx => exact hwv.withAmbient (.some (.refl ctx))
    | guard begun => exact hwv
    | span path => exact hwv.withSpans path
    | detached => exact (hwv.withAmbient .none).withSpans []
    | extent => exact hwv

theorem restore
    (hfr : fr.Resembles fr') (hwv : w.Resembles v) (hinside : w'.Resembles v') :
    (fr.restore w w').Resembles (fr'.restore v v') := by
  cases hfr with
  | scope hcd => exact hinside.withAmbient hwv.ambient
  | same fr =>
    cases fr with
    | scope ctx => exact hinside.withAmbient hwv.ambient
    | guard begun => exact hinside
    | span path =>
      simp only [Frame.restore, hwv.facilities]
      exact hinside.withSpans _
    | detached =>
      simp only [Frame.restore, hwv.facilities]
      exact (hinside.withAmbient hwv.ambient).withSpans _
    | extent => exact hinside

theorem eq_guard_or
    (hfr : fr.Resembles fr') :
    (∃ begun, fr = .guard begun ∧ fr' = .guard begun) ∨
      fr.isGuard = false ∧ fr'.isGuard = false := by
  cases hfr with
  | scope hcd => exact .inr ⟨rfl, rfl⟩
  | same fr =>
    rcases fr.eq_guard_or with ⟨begun, rfl⟩ | hfr
    · exact .inl ⟨begun, rfl, rfl⟩
    · exact .inr ⟨hfr, hfr⟩

theorem leave
    (hfr : fr.Resembles fr') (hwv : w.Resembles v) (hinside : w'.Resembles v') :
    (fr.leave w w').Resembles (fr'.leave v v') := by
  rcases hfr.eq_guard_or with ⟨begun, rfl, rfl⟩ | ⟨hleft, hright⟩
  · exact hinside.clear
  · rw [Frame.leave_of_not_guard hleft, Frame.leave_of_not_guard hright]
    exact hfr.restore hwv hinside

theorem abandon
    (hfr : fr.Resembles fr') (hwv : w.Resembles v) (hinside : w'.Resembles v') :
    (fr.abandon w w').Resembles (fr'.abandon v v') := by
  rcases hfr.eq_guard_or with ⟨begun, rfl, rfl⟩ | ⟨hleft, hright⟩
  · cases begun with
    | false => exact hinside
    | true => exact hinside.clear
  · rw [Frame.abandon_of_not_guard hleft, Frame.abandon_of_not_guard hright]
    exact hfr.restore hwv hinside

theorem parked
    (hfr : fr.Resembles fr') (hwv : w.Resembles v) :
    (fr.parked w).Resembles (fr'.parked v) := by
  cases hfr with
  | scope hcd => exact .scope (.getD hwv.ambient hcd)
  | same fr =>
    cases fr with
    | scope ctx => exact .scope (.getD hwv.ambient (.refl ctx))
    | guard begun => exact .same (.guard true)
    | span path => exact .same (.span path)
    | detached => exact .same .detached
    | extent => exact .same .extent

theorem leaveTrace
    (hfr : fr.Resembles fr') (hwv : w.Resembles v) (d : Nat) :
    List.Forall₂ Happening.Resembles (fr.leaveTrace d w) (fr'.leaveTrace d v) := by
  rcases hfr.eq_guard_or with ⟨begun, rfl, rfl⟩ | ⟨hleft, hright⟩
  · exact .cons (hwv.happening d .clear) .nil
  · rw [Frame.leaveTrace_of_not_guard hleft, Frame.leaveTrace_of_not_guard hright]
    exact .nil

theorem abandonTrace
    (hfr : fr.Resembles fr') (hwv : w.Resembles v) (d : Nat) :
    List.Forall₂ Happening.Resembles (fr.abandonTrace d w) (fr'.abandonTrace d v) := by
  rcases hfr.eq_guard_or with ⟨begun, rfl, rfl⟩ | ⟨hleft, hright⟩
  · cases begun with
    | false => exact .nil
    | true => exact .cons (hwv.happening d .clear) .nil
  · rw [Frame.abandonTrace_of_not_guard hleft, Frame.abandonTrace_of_not_guard hright]
    exact .nil

end Frame.Resembles

/-! ## Programs -/

namespace Prog

variable {H : Type → Type} {σ : Type}

/-- Programs that do the same with copies of contexts that resemble each other; `A` relates their
values. -/
inductive Similar : {α β : Type} → (α → β → Prop) → Prog H α → Prog H β → Prop
  | done {α β : Type} {A : α → β → Prop} {x : Exit α} {y : Exit β} (hxy : x.Matches A y) :
    Similar A (done x) (done y)
  | suspend {α β : Type} {A : α → β → Prop} {p : Prog H α} {q : Prog H β}
    (hpq : Similar A p q) : Similar A (suspend p) (suspend q)
  | never {α β : Type} {A : α → β → Prop} : Similar A never never
  | op {α β γ : Type} {A : α → β → Prop} {o : Op γ} {next : γ → Prog H α} {next' : γ → Prog H β}
    (hnext : ∀ r r', o.Alike r r' → Similar A (next r) (next' r')) :
    Similar A (op o next) (op o next')
  | host {α β γ : Type} {A : α → β → Prop} {r : H γ} {next : γ → Prog H α} {next' : γ → Prog H β}
    (hnext : ∀ a, Similar A (next a) (next' a)) : Similar A (host r next) (host r next')
  | frame {α β γ δ : Type} {A : α → β → Prop} {B : γ → δ → Prop} {fr fr' : Frame}
    {body : Prog H γ} {body' : Prog H δ} {next : Exit γ → Prog H α} {next' : Exit δ → Prog H β}
    (hfr : fr.Resembles fr') (hbody : Similar B body body')
    (hnext : ∀ x y, x.Matches B y → Similar A (next x) (next' y)) :
    Similar A (frame fr body next) (frame fr' body' next')
  | block {α β γ δ : Type} {A : α → β → Prop} {B : γ → δ → Prop}
    {body : Prog H γ} {body' : Prog H δ} {next : Option (Exit γ) → Prog H α}
    {next' : Option (Exit δ) → Prog H β} (hbody : Similar B body body')
    (hnext : ∀ x y, Option.Rel (Exit.Matches B) x y → Similar A (next x) (next' y)) :
    Similar A (block body next) (block body' next')

variable {α β γ δ : Type} {A : α → β → Prop} {B : γ → δ → Prop}

theorem Similar.bind
    {p : Prog H γ} {q : Prog H δ} {f : γ → Prog H α} {g : δ → Prog H β}
    (hpq : Similar B p q) (hfg : ∀ a b, B a b → Similar A (f a) (g b)) :
    Similar A (p.bind f) (q.bind g) := by
  induction hpq with
  | done hxy =>
    cases hxy with
    | value hab => exact hfg _ _ hab
    | panic e => exact .done (.panic e)
  | suspend _ ih => exact .suspend (ih hfg)
  | never => exact .never
  | op _ ih => exact .op fun r r' hr => ih r r' hr hfg
  | host _ ih => exact .host fun a => ih a hfg
  | frame hfr hbody _ _ ih => exact .frame hfr hbody fun x y hxy => ih x y hxy hfg
  | block hbody _ _ ih => exact .block hbody fun x y hxy => ih x y hxy hfg

theorem Similar.drop
    {p : Prog H α} {q : Prog H β} (hpq : Similar A p q) (d : Nat) {w v : World σ}
    (hwv : w.Resembles v) :
    (p.drop w).Resembles (q.drop v) ∧
      List.Forall₂ Happening.Resembles (p.dropTrace d w) (q.dropTrace d v) := by
  induction hpq generalizing d w v with
  | frame hfr _ _ ih _ =>
    obtain ⟨hinside, htrace⟩ := ih (d + _) (hfr.enter hwv)
    refine ⟨hfr.abandon hwv hinside, ?_⟩
    simp only [dropTrace, ← hfr.depth]
    exact List.rel_append htrace (hfr.abandonTrace hinside d)
  | _ => exact ⟨hwv, .nil⟩

/-- What comes of programs in states that resemble each other: both end alike or both are suspended
and remain similar, the states behind resemble each other, and the same is performed. -/
def Concurs (h : Handler H σ) (A : α → β → Prop) (p : Prog H α) (q : Prog H β) : Prop :=
  ∀ (through : Bool) (d : Nat) {w v : World σ}, w.Resembles v →
    Step.Matches (Similar A) A (p.drive h through w).1 (q.drive h through v).1 ∧
      (p.drive h through w).2.Resembles (q.drive h through v).2 ∧
      List.Forall₂ Happening.Resembles (p.trace h through d w) (q.trace h through d v)

theorem Concurs.op
    {h : Handler H σ} {o : Op γ} {next : γ → Prog H α} {next' : γ → Prog H β}
    (hnext : ∀ r r', o.Alike r r' → Concurs h A (next r) (next' r')) :
    Concurs h A (.op o next) (.op o next') := by
  intro through d w v hwv
  obtain ⟨hresult, hbehind⟩ := hwv.perform o
  obtain ⟨hstep, hstate, htrace⟩ := hnext _ _ hresult through d hbehind
  exact ⟨hstep, hstate, .cons (hwv.happening d o) htrace⟩

/-- A host that sees nothing but its own state answers the same. -/
theorem Concurs.host
    {k : LocalHost H σ} {r : H γ} {next : γ → Prog H α} {next' : γ → Prog H β}
    (hsimilar : ∀ a, Similar A (next a) (next' a))
    (hnext : ∀ a, Concurs k.handler A (next a) (next' a)) :
    Concurs k.handler A (.host r next) (.host r next') := by
  intro through d w v hwv
  have hbehind : World.Resembles { w with host := (k.answer γ r w.host).2 }
      { v with host := (k.answer γ r w.host).2 } :=
    ⟨hwv.ambient, hwv.facilities, rfl⟩
  simp only [drive, trace, LocalHost.handler, ← hwv.host]
  rcases (k.answer γ r w.host).1 with _ | a | e
  · exact ⟨.pending (.host hsimilar), hbehind, .nil⟩
  · exact hnext a through d hbehind
  · exact ⟨.finished (.panic e), hbehind, .nil⟩

theorem Concurs.frame
    {h : Handler H σ} {fr fr' : Frame} {body : Prog H γ} {body' : Prog H δ}
    {next : Exit γ → Prog H α} {next' : Exit δ → Prog H β} (hfr : fr.Resembles fr')
    (hbody : Concurs h B body body')
    (hsimilar : ∀ x y, x.Matches B y → Similar A (next x) (next' y))
    (hnext : ∀ x y, x.Matches B y → Concurs h A (next x) (next' y)) :
    Concurs h A (.frame fr body next) (.frame fr' body' next') := by
  intro through d w v hwv
  obtain ⟨hstep, hinside, htrace⟩ := hbody through (d + fr.depth) (hfr.enter hwv)
  simp only [drive, trace, ← hfr.depth]
  rcases hw : body.drive h through (fr.enter w) with ⟨x, w'⟩
  rcases hv : body'.drive h through (fr'.enter v) with ⟨y, v'⟩
  rw [hw, hv] at hstep hinside
  cases hstep with
  | @finished x y hxy =>
    obtain ⟨hstep, hstate, hrest⟩ := hnext x y hxy through d (hfr.leave hwv hinside)
    have hleave := List.rel_append (hfr.leaveTrace hinside d) hrest
    exact ⟨hstep, hstate, List.rel_append htrace hleave⟩
  | pending hrest =>
    have hpending := Similar.frame (hfr.parked hinside) hrest hsimilar
    exact ⟨.pending hpending, hfr.restore hwv hinside, List.rel_append htrace .nil⟩

theorem Concurs.block
    {h : Handler H σ} {body : Prog H γ} {body' : Prog H δ}
    {next : Option (Exit γ) → Prog H α} {next' : Option (Exit δ) → Prog H β}
    (hbody : Concurs h B body body')
    (hnext : ∀ x y, Option.Rel (Exit.Matches B) x y → Concurs h A (next x) (next' y)) :
    Concurs h A (.block body next) (.block body' next') := by
  intro through d w v hwv
  obtain ⟨hstep, hinside, htrace⟩ := hbody true d hwv
  simp only [drive, trace]
  rcases hw : body.drive h true w with ⟨x, w'⟩
  rcases hv : body'.drive h true v with ⟨y, v'⟩
  rw [hw, hv] at hstep hinside
  cases hstep with
  | finished hxy =>
    obtain ⟨hstep, hstate, hrest⟩ := hnext _ _ (.some hxy) through d hinside
    exact ⟨hstep, hstate, List.rel_append htrace hrest⟩
  | pending hrest =>
    -- what is left of a part that is run on the spot is dropped
    obtain ⟨hdropped, hdropTrace⟩ := hrest.drop d hinside
    obtain ⟨hstep, hstate, hlater⟩ := hnext _ _ .none through d hdropped
    exact ⟨hstep, hstate, List.rel_append htrace (List.rel_append hdropTrace hlater)⟩

/-- Similar programs perform the same in states that resemble each other. -/
theorem Similar.concurs
    (k : LocalHost H σ) {p : Prog H α} {q : Prog H β} (hpq : Similar A p q) :
    Concurs k.handler A p q := by
  induction hpq with
  | done hxy =>
    intro through d w v hwv
    exact ⟨.finished hxy, hwv, .nil⟩
  | suspend hpq ih =>
    intro through d w v hwv
    cases through with
    | false => exact ⟨.pending hpq, hwv, .nil⟩
    | true => exact ih true d hwv
  | never =>
    intro through d w v hwv
    exact ⟨.pending .never, hwv, .nil⟩
  | op _ ih => exact .op ih
  | host hnext ih => exact .host hnext ih
  | frame hfr _ hnext ihbody ihnext => exact .frame hfr ihbody hnext ihnext
  | block _ _ ihbody ihnext => exact .block ihbody ihnext

/-- Similar programs have the same life, poll by poll. -/
theorem Similar.life
    (k : LocalHost H σ) {p : Prog H α} {q : Prog H β} (hpq : Similar A p q)
    (ws : List (World σ)) :
    Step.Matches (Similar A) A (p.life k.handler ws).step (q.life k.handler ws).step ∧
      List.Forall₂ World.Resembles (p.life k.handler ws).states (q.life k.handler ws).states ∧
      List.Forall₂ Happening.Resembles (p.life k.handler ws).trace (q.life k.handler ws).trace := by
  induction ws generalizing p q with
  | nil => exact ⟨.pending hpq, .nil, .nil⟩
  | cons w ws ih =>
    obtain ⟨hstep, hstate, htrace⟩ := hpq.concurs k false 0 (.refl w)
    rcases hp : p.poll k.handler w with ⟨x, w'⟩
    rcases hq : q.poll k.handler w with ⟨y, v'⟩
    rw [poll] at hp hq
    rw [hp, hq] at hstep hstate
    cases hstep with
    | finished hxy =>
      rw [life_of_finished ws hp, life_of_finished ws hq]
      exact ⟨.finished hxy, .cons hstate .nil, htrace⟩
    | pending hrest =>
      obtain ⟨hlast, hstates, hlater⟩ := ih hrest
      rw [life_of_pending ws hp, life_of_pending ws hq]
      exact ⟨hlast, .cons hstate hstates, List.rel_append htrace hlater⟩

end Prog
end TraceLineage
