import TraceLineage.Proofs.Execution.Correspondence
import TraceLineage.Proofs.Execution.Life

/-!
# Parallel programs

Two programs are parallel if they do the same and use what they read of the spans for nothing but to
open spans: whatever spans they read, if these stand for each other, then so do the programs that go
on with them.  The relation has one case for each way of composing programs, and one more: work that
one program runs inside spans of its own may run in the other without them.

Parallel programs that are driven in corresponding states observe the same, end in the same way, and
leave corresponding states behind.
-/

namespace TraceLineage

namespace Prog

variable {H : Type → Type} {σ : Type}

/-- Programs that do the same in two runs; `A` relates their values.  An operation that reads the
spans may go on with programs that differ as the spans do.  In the last case only the second program
runs a part inside spans, which stand for any in which the first one may run it. -/
inductive Parallel (E : Correspondence H σ) :
    {α β : Type} → (α → β → Prop) → Prog H α → Prog H β → Prop
  | done {α β : Type} {A : α → β → Prop} {x : Exit α} {y : Exit β} (hxy : x.Matches A y) :
    Parallel E A (done x) (done y)
  | suspend {α β : Type} {A : α → β → Prop} {p : Prog H α} {q : Prog H β}
    (hpq : Parallel E A p q) : Parallel E A (suspend p) (suspend q)
  | never {α β : Type} {A : α → β → Prop} : Parallel E A never never
  | op {α β γ : Type} {A : α → β → Prop} {o : Op γ} {next : γ → Prog H α} {next' : γ → Prog H β}
    (ho : o.readsSpans = false) (hnext : ∀ r, Parallel E A (next r) (next' r)) :
    Parallel E A (op o next) (op o next')
  | spans {α β : Type} {A : α → β → Prop} {next : List Span → Prog H α}
    {next' : List Span → Prog H β}
    (hnext : ∀ x y, E.spans x y → Parallel E A (next x) (next' y)) :
    Parallel E A (.op .spans next) (.op .spans next')
  | host {α β γ δ : Type} {A : α → β → Prop} {B : γ → δ → Prop} {r : H γ} {r' : H δ}
    {next : γ → Prog H α} {next' : δ → Prog H β} (hr : E.request r r' B)
    (hnext : ∀ a b, B a b → Parallel E A (next a) (next' b)) :
    Parallel E A (host r next) (host r' next')
  | frame {α β γ δ : Type} {A : α → β → Prop} {B : γ → δ → Prop} {fr fr' : Frame}
    {body : Prog H γ} {body' : Prog H δ} {next : Exit γ → Prog H α} {next' : Exit δ → Prog H β}
    (hfr : fr.Matches E.spans fr') (hbody : Parallel E B body body')
    (hnext : ∀ x y, x.Matches B y → Parallel E A (next x) (next' y)) :
    Parallel E A (frame fr body next) (frame fr' body' next')
  | block {α β γ δ : Type} {A : α → β → Prop} {B : γ → δ → Prop}
    {body : Prog H γ} {body' : Prog H δ} {next : Option (Exit γ) → Prog H α}
    {next' : Option (Exit δ) → Prog H β} (hbody : Parallel E B body body')
    (hnext : ∀ x y, Option.Rel (Exit.Matches B) x y → Parallel E A (next x) (next' y)) :
    Parallel E A (block body next) (block body' next')
  | under {α β γ δ : Type} {A : α → β → Prop} {B : γ → δ → Prop} {path : List Span}
    {body : Prog H γ} {body' : Prog H δ} {next : γ → Prog H α} {next' : δ → Prog H β}
    (hpath : E.Covers path) (hbody : Parallel E B body body')
    (hnext : ∀ a b, B a b → Parallel E A (next a) (next' b)) :
    Parallel E A (body.bind next) ((body'.inFrame (.span path)).bind next')

end Prog

/-- Steps of the same kind: both have ended, or both go on with programs that are related. -/
inductive Step.Matches {H : Type → Type} {α β : Type} (S : Prog H α → Prog H β → Prop)
    (A : α → β → Prop) : Step H α → Step H β → Prop
  | finished {x : Exit α} {y : Exit β} (hxy : x.Matches A y) :
    Matches S A (.finished x) (.finished y)
  | pending {p : Prog H α} {q : Prog H β} (hpq : S p q) : Matches S A (.pending p) (.pending q)

theorem Step.Matches.exit?_eq
    {H : Type → Type} {α : Type} {S : Prog H α → Prog H α → Prop} {x y : Step H α}
    (hxy : Step.Matches S (· = ·) x y) :
    y.exit? = x.exit? := by
  cases hxy with
  | finished hxy => rw [hxy.eq]
  | pending _ => rfl

namespace Prog

variable {H : Type → Type} {σ α β γ δ : Type} {E : Correspondence H σ} {A : α → β → Prop}
  {B : γ → δ → Prop}

/-- Programs that go on in parallel behind parallel ones are parallel as a whole. -/
theorem Parallel.bind
    {p : Prog H γ} {q : Prog H δ} {f : γ → Prog H α} {g : δ → Prog H β}
    (hpq : Parallel E B p q) (hfg : ∀ a b, B a b → Parallel E A (f a) (g b)) :
    Parallel E A (p.bind f) (q.bind g) := by
  induction hpq with
  | done hxy =>
    cases hxy with
    | value hab => exact hfg _ _ hab
    | panic e => exact .done (.panic e)
  | suspend _ ih => exact .suspend (ih hfg)
  | never => exact .never
  | op ho _ ih => exact .op ho fun r => ih r hfg
  | spans _ ih => exact .spans fun x y hxy => ih x y hxy hfg
  | host hr _ ih => exact .host hr fun a b hab => ih a b hab hfg
  | frame hfr hbody _ _ ih => exact .frame hfr hbody fun x y hxy => ih x y hxy hfg
  | block hbody _ _ ih => exact .block hbody fun x y hxy => ih x y hxy hfg
  | under hpath hbody _ _ ih =>
    rw [bind_bind, bind_bind]
    exact .under hpath hbody fun a b hab => ih a b hab hfg

/-- Whether a program never reads the spans. -/
def IgnoresSpans : {α : Type} → Prog H α → Prop
  | _, done _ => True
  | _, suspend rest => rest.IgnoresSpans
  | _, never => True
  | _, op o next => o.readsSpans = false ∧ ∀ r, (next r).IgnoresSpans
  | _, host _ next => ∀ a, (next a).IgnoresSpans
  | _, frame _ body next => body.IgnoresSpans ∧ ∀ x, (next x).IgnoresSpans
  | _, block body next => body.IgnoresSpans ∧ ∀ x, (next x).IgnoresSpans

/-- A program that never reads the spans is parallel to itself, whatever it does. -/
theorem Parallel.refl
    (hspans : ∀ x, E.spans x x) (hrequest : ∀ {γ : Type} (r : H γ), E.request r r (· = ·))
    {p : Prog H α} (hp : p.IgnoresSpans) :
    Parallel E (· = ·) p p := by
  induction p with
  | done x => exact .done (.refl x)
  | suspend rest ih => exact .suspend (ih hp)
  | never => exact .never
  | op o next ih => exact .op hp.1 fun r => ih r (hp.2 r)
  | host r next ih =>
    refine .host (hrequest r) ?_
    rintro a _ rfl
    exact ih a (hp a)
  | frame fr body next ihbody ihnext =>
    refine .frame (.refl hspans fr) (ihbody hp.1) fun x y hxy => ?_
    rw [← hxy.eq]
    exact ihnext x (hp.2 x)
  | block body next ihbody ihnext =>
    refine .block (ihbody hp.1) ?_
    rintro _ _ (hxy | _)
    · rw [← hxy.eq]
      exact ihnext _ (hp.2 _)
    · exact ihnext none (hp.2 none)

/-! ## Programs that are stuck -/

/-- Whether a program could not go on by itself: it waits for an answer, or forever. -/
def isStuck : {α : Type} → Prog H α → Bool
  | _, never => true
  | _, host _ _ => true
  | _, frame _ body _ => body.isStuck
  | _, _ => false

theorem isStuck_of_drive
    {h : Handler H σ} {p rest : Prog H α} {w v : World σ}
    (hp : p.drive h true w = (.pending rest, v)) :
    rest.isStuck = true := by
  induction p generalizing w v with
  | done x => cases hp
  | suspend p ih => exact ih hp
  | never =>
    cases hp
    rfl
  | op o next ih => exact ih _ hp
  | host r next ih =>
    simp only [drive] at hp
    rcases hr : h _ r w with ⟨_ | a | e, u⟩
    · rw [hr] at hp
      cases hp
      rfl
    · rw [hr] at hp
      exact ih a hp
    · rw [hr] at hp
      cases hp
  | frame fr body next ihbody ihnext =>
    simp only [drive] at hp
    rcases hb : body.drive h true (fr.enter w) with ⟨x | inner, u⟩
    · rw [hb] at hp
      exact ihnext x hp
    · rw [hb] at hp
      cases hp
      exact ihbody hb
  | block body next ihbody ihnext =>
    simp only [drive] at hp
    rcases hb : body.drive h true w with ⟨x | inner, u⟩
    · rw [hb] at hp
      exact ihnext _ hp
    · rw [hb] at hp
      exact ihnext none hp

theorem stuck_bind
    {p : Prog H γ} (hp : p.isStuck = true) (f : γ → Prog H α) :
    (p.bind f).isStuck = true ∧
      (∀ w : World σ, (p.bind f).drop w = p.drop w) ∧
      ∀ (d : Nat) (w : World σ), (p.bind f).dropTrace d w = p.dropTrace d w := by
  cases p with
  | never => exact ⟨rfl, fun _ => rfl, fun _ _ => rfl⟩
  | host r next => exact ⟨rfl, fun _ => rfl, fun _ _ => rfl⟩
  | frame fr body next => exact ⟨hp, fun _ => rfl, fun _ _ => rfl⟩
  | done x => cases hp
  | suspend rest => cases hp
  | op o next => cases hp
  | block body next => cases hp

theorem Parallel.isStuck
    {p : Prog H α} {q : Prog H β} (hpq : Parallel E A p q) (hq : q.isStuck = true) :
    p.isStuck = true := by
  induction hpq with
  | never => rfl
  | host _ _ _ => rfl
  | frame _ _ _ ih _ => exact ih hq
  | under _ _ _ ih _ => exact (stuck_bind (ih hq) _ (σ := σ)).1
  | done _ => cases hq
  | suspend _ _ => cases hq
  | op _ _ _ => cases hq
  | spans _ _ => cases hq
  | block _ _ _ _ => cases hq

/-- A frame that only puts a part inside spans puts the spans around it back. -/
theorem drive_inFrame_span
    (h : Handler H σ) (path : List Span) (q : Prog H α) (through : Bool) (w : World σ) :
    (q.inFrame (.span path)).drive h through w =
      match q.drive h through (w.withSpans path) with
      | (.finished x, v) => (.finished x, v.withSpans w.facilities.spans)
      | (.pending rest, v) =>
        (.pending (rest.inFrame (.span path)), v.withSpans w.facilities.spans) := by
  simp only [inFrame, drive, Frame.enter]
  rcases q.drive h through (w.withSpans path) with ⟨x | rest, v⟩ <;> rfl

theorem trace_inFrame_span
    (h : Handler H σ) (path : List Span) (q : Prog H α) (through : Bool) (d : Nat) (w : World σ) :
    (q.inFrame (.span path)).trace h through d w = q.trace h through d (w.withSpans path) := by
  simp only [inFrame, trace, Frame.enter]
  rcases q.drive h through (w.withSpans path) with ⟨x | rest, v⟩ <;> exact List.append_nil _

/-- Parallel programs that are stuck and dropped observe the same and leave corresponding states
behind. -/
theorem Parallel.drop
    {h : Handler H σ} (hE : E.Lawful) (hk : h.KeepsSpans) {p : Prog H α} {q : Prog H β}
    (hpq : Parallel E A p q) (hq : q.isStuck = true) (d : Nat) {w v : World σ}
    (hwv : w.Matches E v) :
    (p.drop w).Matches E (q.drop v) ∧
      Happening.observed (q.dropTrace d v) = Happening.observed (p.dropTrace d w) := by
  induction hpq generalizing d w v with
  | never => exact ⟨hwv, rfl⟩
  | host _ _ _ => exact ⟨hwv, rfl⟩
  | @frame α β γ δ A B fr fr' body body' next next' hfr _ _ ih _ =>
    obtain ⟨hinside, htrace⟩ := ih hq (d + fr.depth) (hfr.enter hE hwv)
    refine ⟨hfr.abandon hwv hinside, ?_⟩
    simp only [dropTrace, Happening.observed_append, hfr.depth, htrace,
      hfr.observed_abandonTrace hinside d]
  | @under α β γ δ A B path body body' next next' hpath hbody _ ih _ =>
    obtain ⟨_, hdrop, hdropTrace⟩ := stuck_bind (hbody.isStuck hq) next (σ := σ)
    obtain ⟨hinside, htrace⟩ := ih hq d (hwv.rightSpans (hpath _ _ hwv.facilities.spans))
    have hkept := hk.across.drop body w
    rw [hdrop, hdropTrace]
    refine ⟨hinside.rightSpans ?_, ?_⟩
    · rw [hkept]
      exact hwv.facilities.spans
    · rw [← htrace]
      exact congrArg Happening.observed (List.append_nil _)
  | done _ => cases hq
  | suspend _ _ => cases hq
  | op _ _ _ => cases hq
  | spans _ _ => cases hq
  | block _ _ _ _ => cases hq

/-! ## Driving parallel programs -/

/-- What comes of parallel programs that are driven in corresponding states: the same is observed,
both end or both are suspended, and the states behind correspond. -/
def Agrees (h : Handler H σ) (E : Correspondence H σ) (A : α → β → Prop) (p : Prog H α)
    (q : Prog H β) : Prop :=
  ∀ (through : Bool) (d : Nat) {w v : World σ}, w.Matches E v →
    Step.Matches (Parallel E A) A (p.drive h through w).1 (q.drive h through v).1 ∧
      (p.drive h through w).2.Matches E (q.drive h through v).2 ∧
      Happening.observed (q.trace h through d v) = Happening.observed (p.trace h through d w)

variable {h : Handler H σ}

theorem Agrees.op
    {o : Op γ} {next : γ → Prog H α} {next' : γ → Prog H β} (ho : o.readsSpans = false)
    (hnext : ∀ r, Agrees h E A (next r) (next' r)) :
    Agrees h E A (.op o next) (.op o next') := by
  intro through d w v hwv
  obtain ⟨hresult, hbehind⟩ := hwv.perform ho
  have hhappening := hwv.happening d ho
  obtain ⟨hstep, hstate, htrace⟩ := hnext (w.perform o).1 through d hbehind
  simp only [drive, trace, hresult]
  refine ⟨hstep, hstate, ?_⟩
  have hw : (w.happening d o).op.readsSpans = false := ho
  have hv : (v.happening d o).op.readsSpans = false := ho
  rw [Happening.observed_cons hw, Happening.observed_cons hv, hhappening, htrace]

theorem Agrees.spans
    {next : List Span → Prog H α} {next' : List Span → Prog H β}
    (hnext : ∀ x y, E.spans x y → Agrees h E A (next x) (next' y)) :
    Agrees h E A (.op .spans next) (.op .spans next') := by
  intro through d w v hwv
  exact hnext _ _ hwv.facilities.spans through d hwv

theorem Agrees.host
    (hh : h.Respects E) {r : H γ} {r' : H δ} {next : γ → Prog H α} {next' : δ → Prog H β}
    (hr : E.request r r' B) (hparallel : ∀ a b, B a b → Parallel E A (next a) (next' b))
    (hnext : ∀ a b, B a b → Agrees h E A (next a) (next' b)) :
    Agrees h E A (.host r next) (.host r' next') := by
  intro through d w v hwv
  obtain ⟨hanswer, hbehind⟩ := hh hr hwv
  simp only [drive, trace]
  rcases hw : h _ r w with ⟨a, w'⟩
  rcases hv : h _ r' v with ⟨b, v'⟩
  rw [hw, hv] at hanswer hbehind
  cases hanswer with
  | none => exact ⟨.pending (.host hr hparallel), hbehind, rfl⟩
  | some hab =>
    cases hab with
    | value hab => exact hnext _ _ hab through d hbehind
    | panic e => exact ⟨.finished (.panic e), hbehind, rfl⟩

theorem Agrees.frame
    (hE : E.Lawful) {fr fr' : Frame} {body : Prog H γ} {body' : Prog H δ}
    {next : Exit γ → Prog H α} {next' : Exit δ → Prog H β} (hfr : fr.Matches E.spans fr')
    (hbody : Agrees h E B body body')
    (hparallel : ∀ x y, x.Matches B y → Parallel E A (next x) (next' y))
    (hnext : ∀ x y, x.Matches B y → Agrees h E A (next x) (next' y)) :
    Agrees h E A (.frame fr body next) (.frame fr' body' next') := by
  intro through d w v hwv
  obtain ⟨hstep, hinside, htrace⟩ := hbody through (d + fr.depth) (hfr.enter hE hwv)
  simp only [drive, trace, Happening.observed_append, hfr.depth, htrace]
  rcases hw : body.drive h through (fr.enter w) with ⟨x, w'⟩
  rcases hv : body'.drive h through (fr'.enter v) with ⟨y, v'⟩
  rw [hw, hv] at hstep hinside
  cases hstep with
  | @finished x y hxy =>
    obtain ⟨hstep, hbehind, hrest⟩ := hnext x y hxy through d (hfr.leave hwv hinside)
    refine ⟨hstep, hbehind, ?_⟩
    simp only [Happening.observed_append, hfr.observed_leaveTrace hinside d, hrest]
  | pending hrest =>
    exact ⟨.pending (.frame (hfr.parked hinside) hrest hparallel), hfr.restore hwv hinside, rfl⟩

theorem Agrees.block
    (hE : E.Lawful) (hk : h.KeepsSpans) {body : Prog H γ} {body' : Prog H δ}
    {next : Option (Exit γ) → Prog H α} {next' : Option (Exit δ) → Prog H β}
    (hbody : Agrees h E B body body')
    (hnext : ∀ x y, Option.Rel (Exit.Matches B) x y → Agrees h E A (next x) (next' y)) :
    Agrees h E A (.block body next) (.block body' next') := by
  intro through d w v hwv
  obtain ⟨hstep, hinside, htrace⟩ := hbody true d hwv
  simp only [drive, trace, Happening.observed_append, htrace]
  rcases hw : body.drive h true w with ⟨x, w'⟩
  rcases hv : body'.drive h true v with ⟨y, v'⟩
  rw [hw, hv] at hstep hinside
  cases hstep with
  | @finished x y hxy =>
    obtain ⟨hstep, hbehind, hrest⟩ := hnext _ _ (.some hxy) through d hinside
    exact ⟨hstep, hbehind, congrArg _ hrest⟩
  | pending hrest =>
    -- what is left of a part that is run on the spot is dropped
    obtain ⟨hdropped, hdropTrace⟩ := hrest.drop hE hk (isStuck_of_drive hv) d hinside
    obtain ⟨hstep, hbehind, hlater⟩ := hnext _ _ .none through d hdropped
    refine ⟨hstep, hbehind, ?_⟩
    simp only [Happening.observed_append, hdropTrace, hlater]

/-- The second program is inside spans, and parallel to the first one there. -/
def ParallelInside (E : Correspondence H σ) (A : α → β → Prop) (path : List Span)
    (p : Prog H α) (q : Prog H β) : Prop :=
  ∃ inner, q = inner.inFrame (.span path) ∧ Parallel E A p inner

/-- The second program may be put inside spans that stand for those in which the first one is
driven. -/
theorem Agrees.inFrame_span
    (hk : h.KeepsSpans) {path : List Span} {p : Prog H α} {q : Prog H β}
    (hpq : Agrees h E A p q) (through : Bool) (d : Nat) {w v : World σ} (hwv : w.Matches E v)
    (hpath : E.spans w.facilities.spans path) :
    Step.Matches (ParallelInside E A path) A (p.drive h through w).1
        ((q.inFrame (.span path)).drive h through v).1 ∧
      (p.drive h through w).2.Matches E ((q.inFrame (.span path)).drive h through v).2 ∧
      Happening.observed ((q.inFrame (.span path)).trace h through d v) =
        Happening.observed (p.trace h through d w) := by
  obtain ⟨hstep, hinside, htrace⟩ := hpq through d (hwv.rightSpans hpath)
  have hkept := hk.across.drive p through w
  rw [drive_inFrame_span, trace_inFrame_span]
  rcases hw : p.drive h through w with ⟨x, w'⟩
  rcases hv : q.drive h through (v.withSpans path) with ⟨y, v'⟩
  rw [hw, hv] at hstep hinside
  rw [hw] at hkept
  have hback : w'.Matches E (v'.withSpans v.facilities.spans) := by
    refine hinside.rightSpans ?_
    rw [hkept]
    exact hwv.facilities.spans
  cases hstep with
  | finished hxy => exact ⟨.finished hxy, hback, htrace⟩
  | pending hrest => exact ⟨.pending ⟨_, rfl, hrest⟩, hback, htrace⟩

theorem Agrees.under
    (hk : h.KeepsSpans) {path : List Span} {body : Prog H γ} {body' : Prog H δ}
    {next : γ → Prog H α} {next' : δ → Prog H β}
    (hpath : E.Covers path) (hbody : Agrees h E B body body')
    (hparallel : ∀ a b, B a b → Parallel E A (next a) (next' b))
    (hnext : ∀ a b, B a b → Agrees h E A (next a) (next' b)) :
    Agrees h E A (body.bind next) ((body'.inFrame (.span path)).bind next') := by
  intro through d w v hwv
  obtain ⟨hstep, hinside, htrace⟩ :=
    hbody.inFrame_span hk through d hwv (hpath _ _ hwv.facilities.spans)
  rw [drive_bind, drive_bind, trace_bind, trace_bind]
  simp only [Happening.observed_append, htrace]
  rcases hw : body.drive h through w with ⟨x, w'⟩
  rcases hv : (body'.inFrame (.span path)).drive h through v with ⟨y, v'⟩
  rw [hw, hv] at hstep hinside
  cases hstep with
  | finished hxy =>
    cases hxy with
    | value hab =>
      obtain ⟨hstep, hbehind, hrest⟩ := hnext _ _ hab through d hinside
      exact ⟨hstep, hbehind, congrArg _ hrest⟩
    | panic e => exact ⟨.finished (.panic e), hinside, rfl⟩
  | pending hrest =>
    obtain ⟨inner, rfl, hrest⟩ := hrest
    exact ⟨.pending (.under hpath hrest hparallel), hinside, rfl⟩

/-- Parallel programs that are driven in corresponding states observe the same, end in the same way,
and leave corresponding states behind. -/
theorem Parallel.agrees
    (hE : E.Lawful) (hh : h.Respects E) (hk : h.KeepsSpans) {p : Prog H α} {q : Prog H β}
    (hpq : Parallel E A p q) :
    Agrees h E A p q := by
  induction hpq with
  | done hxy => exact fun _ _ _ _ hwv => ⟨.finished hxy, hwv, rfl⟩
  | suspend hpq ih =>
    intro through d w v hwv
    cases through with
    | false => exact ⟨.pending hpq, hwv, rfl⟩
    | true => exact ih true d hwv
  | never => exact fun _ _ _ _ hwv => ⟨.pending .never, hwv, rfl⟩
  | op ho _ ih => exact .op ho ih
  | spans _ ih => exact .spans ih
  | host hr hnext ih => exact .host hh hr hnext ih
  | frame hfr _ hnext ihbody ihnext => exact .frame hE hfr ihbody hnext ihnext
  | block _ _ ihbody ihnext => exact .block hE hk ihbody ihnext
  | under hpath _ hnext ihbody ihnext => exact .under hk hpath ihbody hnext ihnext

/-! ## Lives of parallel programs -/

/-- A relation between programs that every poll keeps is kept by their lives. -/
theorem matches_life
    {S : Prog H α → Prog H β → Prop} {W : World σ → World σ → Prop}
    (hS : ∀ {p q}, S p q → ∀ {w v}, W w v →
      Step.Matches S A (p.poll h w).1 (q.poll h v).1 ∧
        (p.poll h w).2.Matches E (q.poll h v).2 ∧
        Happening.observed (q.trace h false 0 v) = Happening.observed (p.trace h false 0 w))
    {p : Prog H α} {q : Prog H β} (hpq : S p q) {ws vs : List (World σ)}
    (hwvs : List.Forall₂ W ws vs) :
    Step.Matches S A (p.life h ws).step (q.life h vs).step ∧
      List.Forall₂ (World.Matches E) (p.life h ws).states (q.life h vs).states ∧
      Happening.observed (q.life h vs).trace = Happening.observed (p.life h ws).trace := by
  induction hwvs generalizing p q with
  | nil => exact ⟨.pending hpq, .nil, rfl⟩
  | @cons w v ws vs hwv _ ih =>
    obtain ⟨hstep, hstate, htrace⟩ := hS hpq hwv
    rcases hw : p.poll h w with ⟨x, w'⟩
    rcases hv : q.poll h v with ⟨y, v'⟩
    rw [hw, hv] at hstep hstate
    cases hstep with
    | finished hxy =>
      rw [life_of_finished ws hw, life_of_finished vs hv]
      exact ⟨.finished hxy, .cons hstate .nil, htrace⟩
    | pending hrest =>
      obtain ⟨hlast, hstates, hlater⟩ := ih hrest
      rw [life_of_pending ws hw, life_of_pending vs hv]
      refine ⟨hlast, .cons hstate hstates, ?_⟩
      simp only [Happening.observed_append, htrace, hlater]

/-- Parallel programs have the same life in corresponding states. -/
theorem Parallel.life
    (hE : E.Lawful) (hh : h.Respects E) (hk : h.KeepsSpans) {p : Prog H α} {q : Prog H β}
    (hpq : Parallel E A p q) {ws vs : List (World σ)}
    (hwvs : List.Forall₂ (World.Matches E) ws vs) :
    Step.Matches (Parallel E A) A (p.life h ws).step (q.life h vs).step ∧
      List.Forall₂ (World.Matches E) (p.life h ws).states (q.life h vs).states ∧
      Happening.observed (q.life h vs).trace = Happening.observed (p.life h ws).trace := by
  refine matches_life (fun hpq w v hwv => ?_) hpq hwvs
  exact hpq.agrees hE hh hk false 0 hwv

/-- The second program may live inside spans that stand for those in which the first one is
polled. -/
theorem Parallel.life_inFrame_span
    (hE : E.Lawful) (hh : h.Respects E) (hk : h.KeepsSpans) {path : List Span} {p : Prog H α}
    {q : Prog H β} (hpq : Parallel E A p q) {ws vs : List (World σ)}
    (hwvs : List.Forall₂ (fun w v => E.spans w.facilities.spans path ∧ w.Matches E v) ws vs) :
    Step.Matches (ParallelInside E A path) A (p.life h ws).step
        ((q.inFrame (.span path)).life h vs).step ∧
      List.Forall₂ (World.Matches E) (p.life h ws).states
        ((q.inFrame (.span path)).life h vs).states ∧
      Happening.observed ((q.inFrame (.span path)).life h vs).trace =
        Happening.observed (p.life h ws).trace := by
  refine matches_life (S := ParallelInside E A path) (fun hpq w v hwv => ?_) ⟨q, rfl, hpq⟩ hwvs
  obtain ⟨inner, rfl, hpq⟩ := hpq
  exact (hpq.agrees hE hh hk).inFrame_span hk false 0 hwv.2 hwv.1

end Prog
end TraceLineage
