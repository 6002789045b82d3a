import TraceLineage.Adapter.JobRun
import TraceLineage.Adapter.Snapshot
import TraceLineage.Proofs.Execution.Resemblance

/-!
# Blank ids and absent ones

A discreet program is made of the operations and adapters of the library and learns no more of the
context in scope than what it shows.  It cannot tell a blank id from an absent one: in scopes whose
contexts resemble each other it returns the same, makes the same ids and writes the same records,
and wherever it operates on a context, the two contexts still resemble each other.
-/

namespace TraceLineage

variable {H : Type → Type} {σ α β : Type} {A : α → β → Prop}

namespace Prog.Similar

theorem pure
    {a : α} {b : β} (hab : A a b) :
    Similar A (Pure.pure a : Prog H α) (Pure.pure b) :=
  .done (.value hab)

theorem inFrame
    {p : Prog H α} {q : Prog H β} {fr fr' : Frame} (hfr : fr.Resembles fr')
    (hpq : Similar A p q) :
    Similar A (p.inFrame fr) (q.inFrame fr') :=
  .frame hfr hpq fun _ _ hxy => .done hxy

theorem underSpans
    {p : Prog H α} {q : Prog H β} (path : List Span) (hpq : Similar A p q) :
    Similar A (Ambient.underSpans path p) (Ambient.underSpans path q) := by
  cases path with
  | nil => exact hpq
  | cons s path => exact .inFrame (.same _) hpq

theorem attempt
    {p : Prog H α} {q : Prog H β} (hpq : Similar A p q) :
    Similar (Exit.Matches A) p.attempt q.attempt :=
  .frame (.same .extent) hpq fun _ _ hxy => pure hxy

theorem read
    {γ : Type} {g : Option Context → γ}
    (hg : ∀ c d, Context.Resembles c d → g (some c) = g (some d)) :
    Similar (· = ·) (do return g (← Ambient.current?) : Prog H γ)
      (do return g (← Ambient.current?)) := by
  refine .op fun a b hab => pure ?_
  cases hab with
  | none => rfl
  | some hcd => exact hg _ _ hcd

end Prog.Similar

open Prog (Similar)

/-! ## Hand-offs and jobs -/

/-- Snapshots of contexts that resemble each other under the same spans. -/
structure Snapshot.Resembles (s t : Snapshot) : Prop where
  context : s.context.Resembles t.context
  spans : s.spans = t.spans

namespace Snapshot

theorem similar_capture :
    Similar Resembles (capture : Prog H Snapshot) capture := by
  refine .op fun a b hab => .op fun x y hxy => .pure ?_
  exact ⟨.getD hab (.refl .empty), hxy⟩

theorem similar_run
    (c : Config) {s t : Snapshot} (hst : s.Resembles t) {work work' : Prog H α}
    (hwork : Similar (· = ·) work work') :
    Similar (· = ·) (s.run c work) (t.run c work') := by
  rw [run, run, ← hst.spans]
  refine .underSpans s.spans (.inFrame (.scope hst.context) (.inFrame (.same _) (.op ?_)))
  rintro r _ rfl
  cases r with
  | error e => exact .pure rfl
  | ok id =>
    refine hwork.bind ?_
    rintro a _ rfl
    exact .pure rfl

end Snapshot

theorem JobRun.similar_run
    (c : Config) (name : String) {body body' : Prog H (Except String α)}
    (hbody : Similar (· = ·) body body') :
    Similar (· = ·) (run c name body) (run c name body') := by
  refine .op fun a b hab => ?_
  refine .inFrame (.scope (.getD hab (.refl .empty))) (.inFrame (.same _) (.op ?_))
  rintro r _ rfl
  cases r with
  | error e =>
    exact .op fun _ _ _ => .pure rfl
  | ok id =>
    have hspan : Similar (· = ·) (Ambient.inSpan (span name id) body)
        (Ambient.inSpan (span name id) body') := by
      refine .op ?_
      rintro path _ rfl
      exact .inFrame (.same _) hbody
    refine hspan.attempt.bind fun x y hxy => ?_
    obtain rfl := hxy.eq
    rcases x with (e | a) | p
    · exact .op fun _ _ _ => .pure rfl
    · exact .pure rfl
    · exact .op fun _ _ _ => .pure rfl

/-! ## Discreet programs -/

/-- Whether an operation copies the context in scope as it is stored. -/
def Op.copiesContext : {γ : Type} → Op γ → Bool
  | _, .snapshot => true
  | _, _ => false

theorem Op.eq_of_alike
    {γ : Type} {o : Op γ} (ho : o.copiesContext = false) {r r' : γ} (hr : o.Alike r r') :
    r = r' := by
  cases o with
  | snapshot => cases ho
  | _ => exact hr

/-- Programs that read the context in scope through what it shows, and hand it on through the
adapters.  Between a capture and the run of what is captured there may be more.  A part may be run
on the spot, as the synchronous variants of the adapters do. -/
inductive Prog.Discreet : {α : Type} → Prog H α → Prop
  | done {α : Type} (x : Exit α) : Discreet (.done x)
  | suspend {α : Type} {p : Prog H α} (hp : Discreet p) : Discreet (.suspend p)
  | never {α : Type} : Discreet (.never : Prog H α)
  | bind {α β : Type} {p : Prog H α} {f : α → Prog H β} (hp : Discreet p)
    (hf : ∀ a, Discreet (f a)) : Discreet (p.bind f)
  | get : Discreet Ambient.traceId?
  | auxiliary : Discreet Ambient.auxiliary
  | isEmpty : Discreet (do return (← Ambient.current?).map Context.isEmpty)
  | isScoped : Discreet Ambient.isScoped
  | perform {γ : Type} {o : Op γ} (ho : o.copiesContext = false) : Discreet (.op o Pure.pure)
  | handOff {α β : Type} (c : Config) {first : Prog H β} {work : β → Prog H α}
    (hfirst : Discreet first) (hwork : ∀ b, Discreet (work b)) :
    Discreet (Snapshot.capture.bind fun s => first.bind fun b => s.run c (work b))
  | job {α : Type} (c : Config) (name : String) {body : Prog H (Except String α)}
    (hbody : Discreet body) : Discreet (JobRun.run c name body)
  | request {γ : Type} (r : H γ) : Discreet (.host r Pure.pure)
  | frame {α β : Type} (fr : Frame) {body : Prog H β} {next : Exit β → Prog H α}
    (hbody : Discreet body) (hnext : ∀ x, Discreet (next x)) : Discreet (.frame fr body next)
  | block {α β : Type} {body : Prog H β} {next : Option (Exit β) → Prog H α}
    (hbody : Discreet body) (hnext : ∀ x, Discreet (next x)) : Discreet (.block body next)

theorem Prog.Discreet.similar
    {p : Prog H α} (hp : p.Discreet) :
    Similar (· = ·) p p := by
  induction hp with
  | done x => exact .done (.refl x)
  | suspend _ ih => exact .suspend ih
  | never => exact .never
  | bind _ _ ihp ihf =>
    refine ihp.bind ?_
    rintro a _ rfl
    exact ihf a
  | get => exact .read fun c d hcd => hcd.get?_eq
  | auxiliary => exact .read fun c d hcd => hcd.auxiliary
  | isEmpty => exact .read fun c d hcd => congrArg some hcd.isEmpty_eq
  | isScoped => exact .read fun c d hcd => rfl
  | perform ho => exact .op fun r r' hr => .pure (Op.eq_of_alike ho hr)
  | handOff c _ _ ihfirst ihwork =>
    refine Snapshot.similar_capture.bind fun s t hst => ihfirst.bind ?_
    rintro b _ rfl
    exact Snapshot.similar_run c hst (ihwork b)
  | job c name _ ih => exact JobRun.similar_run c name ih
  | request r => exact .host fun a => .pure rfl
  | frame fr _ _ ihbody ihnext =>
    refine .frame (.same fr) ihbody fun x y hxy => ?_
    obtain rfl := hxy.eq
    exact ihnext x
  | block _ _ ihbody ihnext =>
    refine .block ihbody ?_
    rintro _ _ (hxy | _)
    · obtain rfl := hxy.eq
      exact ihnext _
    · exact ihnext none

namespace Prog.Discreet

theorem captureAndRun
    (c : Config) {work : Prog H α} (hwork : work.Discreet) :
    Discreet (Snapshot.capture.bind fun s => s.run c work) :=
  .handOff c (.done (.value ())) fun _ => hwork

/-- A discreet program does not tell a blank id from an absent one.  In scopes whose contexts have
the same fields, and the same id or none that counts, it ends with the same result and leaves the
same states behind each of its polls, with the same ids and records in them; and it performs the
same operations with the same results on contexts that resemble each other. -/
theorem ignores_blank_ids
    (k : LocalHost H σ) {p : Prog H α} (hp : p.Discreet) {c d : Context} (hcd : c.Resembles d)
    (ws : List (World σ)) :
    let l := (Ambient.inContext c p).life k.handler ws
    let l' := (Ambient.inContext d p).life k.handler ws
    l.step.exit? = l'.step.exit? ∧ l.states = l'.states ∧
      List.Forall₂ Happening.Resembles l.trace l'.trace := by
  intro l l'
  have hsimilar : Similar (· = ·) (Ambient.inContext c p) (Ambient.inContext d p) :=
    .inFrame (.scope hcd) hp.similar
  obtain ⟨hstep, hstates, htrace⟩ := hsimilar.life k ws
  -- a scope leaves the context around it alone
  have hleft := (Ambient.contained_inContext c p).life k.handler ws
  have hright := (Ambient.contained_inContext d p).life k.handler ws
  exact ⟨hstep.exit?_eq.symm, World.Resembles.eq_of_contained hstates hleft.1 hright.1, htrace⟩

/-- Reads the id, runs a job, hands work off and sets an id. -/
def readRunHandOffSet (c : Config) (id : TraceId) :
    Prog H (Option TraceId × Option TraceId × Option TraceId × Bool) := do
  let shown ← Ambient.traceId?
  let job ← JobRun.run c "nightly" (do return .ok ((← Ambient.traceId?).getD ⟨""⟩))
  let handed ← Snapshot.capture.bind fun s => s.run c Ambient.traceId?
  let stored ← Ambient.set id
  return (shown, job, handed.toOption.join, stored.toBool)

/-- A blank id neither stops a job nor is it a parent, and any id may take its place. -/
theorem ignores_blank_ids_of_ideographic_space :
    let p := readRunHandOffSet (H := fun _ => Empty) .standard ⟨"root"⟩
    let w : World Unit := ⟨none, .fresh ⟨fun _ => 0, 0⟩, ()⟩
    let blank : Context := .withId ⟨"\u3000"⟩
    let l := (Ambient.inContext .empty p).life LocalHost.nobody.handler [w]
    let l' := (Ambient.inContext blank p).life LocalHost.nobody.handler [w]
    Context.empty.Resembles blank ∧ p.Discreet ∧
      l'.step.exit? =
        some (.value (none, some ⟨"AAAAAAAAAAAAAAAAAAAA"⟩, some ⟨"AAAAAA"⟩, true)) ∧
      l.step.exit? = l'.step.exit? ∧ l.states = l'.states ∧
      List.Forall₂ Happening.Resembles l.trace l'.trace := by
  intro p w blank l l'
  have hblank : Context.empty.Resembles blank :=
    Context.resembles_of_blank (by decide +kernel) .empty
  have hp : p.Discreet := by
    refine .bind .get fun shown => .bind (.job _ _ ?_) fun job => ?_
    · exact .bind .get fun id => .done _
    · refine .bind (.captureAndRun _ .get) fun handed => ?_
      exact .bind (.perform rfl) fun stored => .done _
  have hexit : l'.step.exit? =
      some (.value (none, some ⟨"AAAAAAAAAAAAAAAAAAAA"⟩, some ⟨"AAAAAA"⟩, true)) := by
    decide +kernel
  exact ⟨hblank, hp, hexit, hp.ignores_blank_ids LocalHost.nobody hblank [w]⟩

end Prog.Discreet
end TraceLineage
